import ManagedDirectory.Codec.JsonRoundTrip

/-!
# Structs as `serde` reads and writes them

`structFields` is what a derived `Deserialize` sees of a JSON value: one optional value for each
field, from an object (no field twice; unknown fields ignored, or refused under
`deny_unknown_fields`) or from an array in field order. `asString`, `asStrings`, `asU32` and
`asI64` are the field types.

`readStruct` is `serde_json::from_slice` for a struct without optional fields, and
`readStruct_writeStruct` says it inverts `serde_json::to_vec`.
-/

namespace ManagedDirectory.Codec

open List

/-! ## Fields -/

/-- The value of field `name` among the members of an object. -/
def member (name : String) (kvs : List (List Nat × Json)) : Option Json :=
  (kvs.find? fun kv => kv.1 == codePoints name).map Prod.snd

/-- How often the object has field `name`. -/
def occurrences (name : String) (kvs : List (List Nat × Json)) : Nat :=
  (kvs.filter fun kv => kv.1 == codePoints name).length

def jsonStr (s : String) : Json := .str (codePoints s)

def jsonObj (kvs : List (String × Json)) : Json := .obj (kvs.map fun kv => (codePoints kv.1, kv.2))

def structFields (deny : Bool) (names : List String) : Json → Option (List (Option Json))
  | .obj kvs =>
    if names.any (fun name => 2 ≤ occurrences name kvs) then none
    else if deny && kvs.any (fun kv => !(names.map codePoints).contains kv.1) then none
    else some (names.map fun name => member name kvs)
  | .arr xs =>
    if xs.length ≤ names.length then
      some (xs.map some ++ List.replicate (names.length - xs.length) none)
    else none
  | _ => none

def asString : Json → Option String
  | .str s => ofCodePoints s
  | _ => none

def asStrings : Json → Option (List String)
  | .arr xs => xs.mapM asString
  | _ => none

def asU32 : Json → Option UInt32
  | .int false n => if n < 2 ^ 32 then some (UInt32.ofNat n) else none
  | _ => none

/-- `-0` is a float to `serde_json`, so it is no integer. -/
def asI64 : Json → Option Int64
  | .int false n => if n < 2 ^ 63 then some (Int64.ofInt n) else none
  | .int true n => if 0 < n ∧ n ≤ 2 ^ 63 then some (Int64.ofInt (-n)) else none
  | _ => none

/-- A field without `#[serde(default)]`. -/
def required {α : Type} (read : Json → Option α) (field : Option Json) : Option α := field.bind read

/-- A field with `#[serde(default)]`. -/
def orDefault {α : Type} (default : α) (read : Json → Option α) (field : Option Json) : Option α :=
  match field with
  | none => some default
  | some j => read j

def requiredFields (names : List String) (j : Json) : Option (List Json) :=
  (structFields true names j).bind fun fields => fields.mapM id

/-- `serde_json::from_slice` down to the fields, under `deny_unknown_fields`. -/
def readStruct (names : List String) (bytes : Bytes) : Option (List Json) :=
  match utf8Decode false bytes with
  | none => none
  | some cs =>
    match parseJson serdeJson cs with
    | .error _ => none
    | .ok j => requiredFields names j

/-- `serde_json::to_vec`. -/
def writeStruct (kvs : List (String × Printable)) : Bytes := utf8Encode (printStruct kvs)

/-! ## Objects built here -/

variable {kvs : List (String × Printable)} {names : List String}

@[simp] theorem asString_jsonStr (s : String) : asString (jsonStr s) = some s := by
  simp [asString, jsonStr]

theorem codePoints_beq (s t : String) : (codePoints s == codePoints t) = (s == t) := by
  rw [Bool.eq_iff_iff, beq_iff_eq, beq_iff_eq]
  exact ⟨codePoints_inj, fun h => h ▸ rfl⟩

theorem member_jsonObj (name : String) (kvs : List (String × Json)) :
    member name (kvs.map fun kv => (codePoints kv.1, kv.2)) =
      (kvs.find? fun kv => kv.1 == name).map Prod.snd := by
  induction kvs with
  | nil => rfl
  | cons kv kvs ih =>
    simp only [member, map_cons, List.find?_cons, codePoints_beq] at ih ⊢
    cases kv.1 == name
    · exact ih
    · rfl

theorem occurrences_jsonObj (name : String) (kvs : List (String × Json)) :
    occurrences name (kvs.map fun kv => (codePoints kv.1, kv.2)) =
      (kvs.filter fun kv => kv.1 == name).length := by
  simp [occurrences, filter_map, Function.comp_def, codePoints_beq]

theorem length_filter_key_le {α : Type} {kvs : List (String × α)}
    (hnd : (kvs.map Prod.fst).Nodup) (name : String) :
    (kvs.filter fun kv => kv.1 == name).length ≤ 1 := by
  have honce := nodup_iff_count_le_one.mp hnd name
  rwa [count, countP_map, countP_eq_length_filter] at honce

theorem structFields_jsonObj {kvs : List (String × Json)} (hnd : (kvs.map Prod.fst).Nodup) :
    structFields false names (jsonObj kvs) =
      some (names.map fun name => (kvs.find? fun kv => kv.1 == name).map Prod.snd) := by
  simp only [jsonObj, structFields, occurrences_jsonObj, member_jsonObj, Bool.false_and,
    Bool.false_eq_true, if_false]
  rw [if_neg]
  simp only [any_eq_true, decide_eq_true_eq, not_exists, not_and, Nat.not_le]
  intro name _
  have := length_filter_key_le hnd name
  omega

/-! ## Round trip -/

@[simp] theorem asString_str (s : String) : asString (Printable.str s).toJson = some s := by
  simp [Printable.toJson, asString]

@[simp] theorem asStrings_strs (xs : List String) :
    asStrings (Printable.strs xs).toJson = some xs := by
  simp only [Printable.toJson, asStrings, mapM_map]
  induction xs with
  | nil => rfl
  | cons x xs ih => simp [mapM_cons, asString, ih]

@[simp] theorem asU32_int (v : UInt32) : asU32 (Printable.int v.toNat).toJson = some v := by
  have h := v.toNat_lt
  simp [Printable.toJson, asU32, show ¬ ((v.toNat : Int) < 0) by omega, h]

@[simp] theorem asI64_int (z : Int64) : asI64 (Printable.int z.toInt).toJson = some z := by
  have hlo := z.le_toInt
  have hhi := z.toInt_lt
  by_cases h : z.toInt < 0
  · have hneg : -(z.toInt.natAbs : Int) = z.toInt := by omega
    simp only [Printable.toJson, h, decide_true, asI64, hneg, Int64.ofInt_toInt]
    rw [if_pos (by omega)]
  · have hpos : (z.toInt.natAbs : Int) = z.toInt := by omega
    simp only [Printable.toJson, h, decide_false, asI64, hpos, Int64.ofInt_toInt]
    rw [if_pos (by omega)]

theorem isScalar_of_lt {n : Nat} (h : n < 0xD800) : IsScalar n := by
  simp only [IsScalar, IsSurrogate]
  omega

/-- The strings a value is written from. -/
def Printable.texts : Printable → List String
  | .str s => [s]
  | .strs xs => xs
  | _ => []

section Characters

variable {Q : Nat → Prop} (hascii : ∀ n, 0x20 ≤ n → n < 0x80 → Q n)

include hascii

theorem forall_printStr {s : String} (hs : ∀ c ∈ codePoints s, 0x80 ≤ c → Q c) :
    ∀ n ∈ printStr (codePoints s), Q n := by
  simp only [printStr, forall_mem_cons, forall_mem_append]
  refine ⟨hascii _ (by decide) (by decide), fun n hn => ?_, hascii _ (by decide) (by decide),
    by simp⟩
  obtain ⟨c, hc, hn⟩ := mem_flatMap.mp hn
  by_cases hlt : c < 0x80
  · have hall : ∀ c < 0x80, ∀ n ∈ escapeChar c, 0x20 ≤ n ∧ n < 0x80 := by decide
    exact hascii n (hall c hlt n hn).1 (hall c hlt n hn).2
  · have hself : escapeChar c = [c] := by
      simp [escapeChar, show c ≠ 0x22 by omega, show c ≠ 0x5C by omega,
        show c ≠ 0x08 by omega, show c ≠ 0x0C by omega, show c ≠ 0x0A by omega,
        show c ≠ 0x0D by omega, show c ≠ 0x09 by omega, show ¬ c < 0x20 by omega]
    rw [hself, mem_singleton] at hn
    exact hn ▸ hs c hc (by omega)

theorem forall_commaClose {close : Nat} (hclose : Q close) {xs : List (List Nat)}
    (h : ∀ x ∈ xs, ∀ n ∈ x, Q n) : ∀ n ∈ commaClose close xs, Q n := by
  induction xs using commaClose.induct with
  | case1 => simpa [commaClose] using hclose
  | case2 x => exact forall_mem_append.mpr ⟨h x (by simp), by simpa using hclose⟩
  | case3 x y xs ih =>
    obtain ⟨hx, hrest⟩ := forall_mem_cons.mp h
    exact forall_mem_append.mpr ⟨hx, forall_mem_cons.mpr
      ⟨hascii _ (by decide) (by decide), ih hrest⟩⟩

theorem forall_print {p : Printable} (h : ∀ s ∈ p.texts, ∀ c ∈ codePoints s, 0x80 ≤ c → Q c) :
    ∀ n ∈ p.print, Q n := by
  cases p with
  | bool b =>
    have hall : ∀ b, ∀ n ∈ (Printable.bool b).print, 0x20 ≤ n ∧ n < 0x80 := by decide
    exact fun n hn => hascii n (hall b n hn).1 (hall b n hn).2
  | str s => exact forall_printStr hascii (h s mem_cons_self)
  | strs xs =>
    refine forall_mem_cons.mpr ⟨hascii _ (by decide) (by decide),
      forall_commaClose hascii (hascii _ (by decide) (by decide)) fun x hx => ?_⟩
    obtain ⟨s, hs, rfl⟩ := mem_map.mp hx
    exact forall_printStr hascii (h s hs)
  | int z =>
    refine forall_mem_append.mpr ⟨?_, fun n hn => ?_⟩
    · split_ifs
      · exact forall_mem_singleton.mpr (hascii _ (by decide) (by decide))
      · exact forall_mem_nil _
    · have hdigit := isDigit_of_mem_decimal hn
      simp only [isDigit, Bool.and_eq_true, decide_eq_true_eq] at hdigit
      exact hascii n (by omega) (by omega)

/-- A printed struct has printable ASCII and the other characters of its strings. -/
theorem forall_printStruct
    (h : ∀ kv ∈ kvs, ∀ s ∈ kv.1 :: kv.2.texts, ∀ c ∈ codePoints s, 0x80 ≤ c → Q c) :
    ∀ n ∈ printStruct kvs, Q n := by
  refine forall_mem_cons.mpr ⟨hascii _ (by decide) (by decide),
    forall_commaClose hascii (hascii _ (by decide) (by decide)) fun x hx => ?_⟩
  obtain ⟨kv, hkv, rfl⟩ := mem_map.mp hx
  obtain ⟨hkey, hvalue⟩ := forall_mem_cons.mp (h kv hkv)
  exact forall_mem_append.mpr ⟨forall_printStr hascii hkey, forall_mem_cons.mpr
    ⟨hascii _ (by decide) (by decide), forall_print hascii hvalue⟩⟩

end Characters

theorem isScalar_printStruct (kvs : List (String × Printable)) :
    ∀ n ∈ printStruct kvs, IsScalar n :=
  forall_printStruct (fun _ _ hn => isScalar_of_lt (by omega))
    fun _ _ _ _ c hc _ => isScalar_codePoints c hc

theorem member_map (hnd : (kvs.map Prod.fst).Nodup) {kv : String × Printable} (hmem : kv ∈ kvs) :
    member kv.1 (kvs.map fun kv => (codePoints kv.1, kv.2.toJson)) = some kv.2.toJson := by
  induction kvs with
  | nil => exact absurd hmem (by simp)
  | cons x kvs ih =>
    simp only [map_cons, nodup_cons] at hnd
    rcases mem_cons.mp hmem with rfl | hmem
    · simp [member]
    · have hne : (codePoints x.1 == codePoints kv.1) = false := by
        rw [beq_eq_false_iff_ne]
        intro heq
        exact hnd.1 (codePoints_inj heq ▸ mem_map_of_mem hmem)
      have := ih hnd.2 hmem
      simpa [member, hne] using this

theorem occurrences_map_le (hnd : (kvs.map Prod.fst).Nodup) (name : String) :
    occurrences name (kvs.map fun kv => (codePoints kv.1, kv.2.toJson)) ≤ 1 := by
  simpa [occurrences, filter_map, Function.comp_def, codePoints_beq]
    using length_filter_key_le hnd name

theorem requiredFields_structJson (hnames : kvs.map Prod.fst = names) (hnd : names.Nodup) :
    requiredFields names (structJson kvs) = some (kvs.map fun kv => kv.2.toJson) := by
  subst hnames
  simp only [requiredFields, structJson, structFields]
  rw [if_neg, if_neg]
  · have hfields : ((kvs.map Prod.fst).map fun name =>
        member name (kvs.map fun kv => (codePoints kv.1, kv.2.toJson))) =
        kvs.map fun kv => some kv.2.toJson := by
      rw [map_map]
      exact map_congr_left fun kv hkv => member_map hnd hkv
    rw [hfields, Option.bind_some]
    clear hnd hfields
    induction kvs with
    | nil => rfl
    | cons kv kvs ih => simp [mapM_cons, ih]
  · simp only [Bool.true_and, any_map, any_eq_true, Function.comp_apply,
      Bool.not_eq_true', contains_eq_mem, decide_eq_false_iff_not, not_exists, not_and,
      not_not]
    intro kv hkv
    exact mem_map_of_mem (mem_map_of_mem hkv)
  · simp only [any_eq_true, decide_eq_true_eq, not_exists, not_and, Nat.not_le]
    intro name _
    have := occurrences_map_le hnd name
    omega

/-- **Reading the bytes a struct was written to gives its fields back.** -/
theorem readStruct_writeStruct (hnames : kvs.map Prod.fst = names) (hnd : names.Nodup) :
    readStruct names (writeStruct kvs) = some (kvs.map fun kv => kv.2.toJson) := by
  have hdepth : 2 ≤ serdeJson.depth := by decide
  simp only [readStruct, writeStruct, utf8Decode_utf8Encode (isScalar_printStruct kvs),
    parseJson_printStruct serdeJson rfl hdepth kvs, requiredFields_structJson hnames hnd]

/-! ## One text, two structs -/

theorem eq_some_of_mapM_id {fields : List (Option Json)} {fs : List Json}
    (h : fields.mapM id = some fs) : fields = fs.map some := by
  induction fields generalizing fs with
  | nil =>
    obtain rfl : [] = fs := by simpa using h
    rfl
  | cons x fields ih =>
    simp only [mapM_cons, id_eq, Option.bind_eq_bind, Option.bind_eq_some_iff,
      Option.pure_def, Option.some.injEq] at h
    obtain ⟨v, hv, rest, hrest, rfl⟩ := h
    rw [hv, ih hrest, map_cons]

/-- An object with all fields of one struct has no field the other does not know, and an array
has as many elements as the struct has fields. -/
theorem requiredFields_compatible {names' : List String} {j : Json} {fs fs' : List Json}
    (h : requiredFields names j = some fs) (h' : requiredFields names' j = some fs') :
    (∀ name ∈ names, name ∈ names') ∨ names.length = names'.length := by
  simp only [requiredFields, Option.bind_eq_some_iff] at h h'
  obtain ⟨fields, hfields, hall⟩ := h
  obtain ⟨fields', hfields', hall'⟩ := h'
  have hall := eq_some_of_mapM_id hall
  have hall' := eq_some_of_mapM_id hall'
  cases j with
  | obj kvs =>
    left
    intro name hname
    simp only [structFields] at hfields hfields'
    split_ifs at hfields with h1 h2
    split_ifs at hfields' with h3 h4
    obtain ⟨v, hv⟩ : ∃ v, member name kvs = some v := by
      have hmem : member name kvs ∈ fields :=
        Option.some.inj hfields ▸ mem_map_of_mem hname
      rw [hall] at hmem
      obtain ⟨v, -, hv⟩ := mem_map.mp hmem
      exact ⟨v, hv.symm⟩
    obtain ⟨kv, hfind, -⟩ := Option.map_eq_some_iff.mp hv
    have hkey : kv.1 = codePoints name := by
      have := List.find?_some hfind
      exact beq_iff_eq.mp this
    have hkv : kv ∈ kvs := List.mem_of_find?_eq_some hfind
    simp only [Bool.true_and, any_eq_true, Bool.not_eq_true', contains_eq_mem,
      decide_eq_false_iff_not, not_exists, not_and, not_not] at h4
    obtain ⟨name', hname', heq⟩ := mem_map.mp (h4 kv hkv)
    rwa [← codePoints_inj (heq.trans hkey)]
  | arr xs =>
    right
    have hlen : ∀ {names : List String} {fields : List (Option Json)} {fs : List Json},
        structFields true names (.arr xs) = some fields → fields = fs.map some →
        names.length = xs.length := by
      intro names fields fs hf hall
      simp only [structFields] at hf
      split_ifs at hf with hle
      obtain rfl := Option.some.inj hf
      by_contra hne
      have hnone : (none : Option Json) ∈
          xs.map some ++ List.replicate (names.length - xs.length) none := by
        refine mem_append_right _ (mem_replicate.mpr ⟨?_, rfl⟩)
        omega
      rw [hall] at hnone
      obtain ⟨v, -, hv⟩ := mem_map.mp hnone
      cases hv
    exact (hlen hfields hall).trans (hlen hfields' hall').symm
  | null | bool | int | float | special | str => simp [structFields] at hfields

/-! ## Layouts -/

structure Layout (α : Type) where
  names : List String
  nodup : names.Nodup
  values : α → List Printable
  length_values : ∀ a, (values a).length = names.length
  read : List Json → Option α
  read_values : ∀ a, read ((values a).map Printable.toJson) = some a

/-- `serde_json::to_vec` of a struct. -/
def Layout.toVec {α : Type} (L : Layout α) (a : α) : Bytes := writeStruct (L.names.zip (L.values a))

/-- `serde_json::from_slice` of a struct. -/
def Layout.fromSlice {α : Type} (L : Layout α) (bytes : Bytes) : Option α :=
  (readStruct L.names bytes).bind L.read

@[simp] theorem Layout.fromSlice_toVec {α : Type} (L : Layout α) (a : α) :
    L.fromSlice (L.toVec a) = some a := by
  have hlen := L.length_values a
  have hfst : (L.names.zip (L.values a)).map Prod.fst = L.names :=
    map_fst_zip (by omega)
  have hsnd : (L.names.zip (L.values a)).map (fun kv => kv.2.toJson) =
      (L.values a).map Printable.toJson := by
    conv_rhs => rw [← map_snd_zip (show (L.values a).length ≤ L.names.length by omega)]
    rw [map_map]
    rfl
  rw [fromSlice, toVec, readStruct_writeStruct hfst L.nodup, Option.bind_some, hsnd,
    L.read_values]

theorem Layout.compatible {α β : Type} {L : Layout α} {M : Layout β} {bytes : Bytes} {a : α} {b : β}
    (ha : L.fromSlice bytes = some a) (hb : M.fromSlice bytes = some b) :
    (∀ name ∈ L.names, name ∈ M.names) ∨ L.names.length = M.names.length := by
  simp only [fromSlice, readStruct, Option.bind_eq_some_iff] at ha hb
  obtain ⟨fs, hfs, -⟩ := ha
  obtain ⟨fs', hfs', -⟩ := hb
  cases hcs : utf8Decode false bytes with
  | none => simp [hcs] at hfs
  | some cs =>
    simp only [hcs] at hfs hfs'
    cases hj : parseJson serdeJson cs with
    | error e => simp [hj] at hfs
    | ok j =>
      simp only [hj] at hfs hfs'
      exact requiredFields_compatible hfs hfs'

end ManagedDirectory.Codec
