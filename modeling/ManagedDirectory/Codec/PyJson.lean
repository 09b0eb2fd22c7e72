import ManagedDirectory.Codec.Serde

/-!
# JSON as Python reads it

`loads` is `json.loads` on bytes: `detectEncoding` looks at the first four bytes, the text is
decoded with `surrogatepass` and then parsed. Objects become dictionaries, where the last member
of a name counts (`dictGet`). `asInt`, `isOne` and `equalsText` are the tests the callers make.

`loads_of_serde` says that an object or array `serde_json` reads from some bytes is the one Python
reads.
-/

namespace ManagedDirectory.Codec

open List

/-! ## Encodings -/

inductive CodeUnit where
  | one
  | two (little : Bool)
  | four (little : Bool)
  deriving DecidableEq, Repr

/-- `json.detect_encoding`, with the length of the byte order mark to skip. -/
def detectEncoding (bytes : Bytes) : CodeUnit × Nat :=
  if bytes.take 4 = [0, 0, 0xFE, 0xFF] then (.four false, 4)
  else if bytes.take 4 = [0xFF, 0xFE, 0, 0] then (.four true, 4)
  else if bytes.take 2 = [0xFE, 0xFF] then (.two false, 2)
  else if bytes.take 2 = [0xFF, 0xFE] then (.two true, 2)
  else if bytes.take 3 = [0xEF, 0xBB, 0xBF] then (.one, 3)
  else
    match bytes with
    | b0 :: b1 :: b2 :: b3 :: _ =>
      if b0 = 0 then (if b1 ≠ 0 then .two false else .four false, 0)
      else if b1 = 0 then (if b2 ≠ 0 ∨ b3 ≠ 0 then .two true else .four true, 0)
      else (.one, 0)
    | [b0, b1] =>
      if b0 = 0 then (.two false, 0) else if b1 = 0 then (.two true, 0) else (.one, 0)
    | _ => (.one, 0)

def unit16 (little : Bool) (a b : UInt8) : Nat :=
  if little then b.toNat * 256 + a.toNat else a.toNat * 256 + b.toNat

/-- The 16-bit units of the bytes; an odd byte at the end is an error. -/
def units16 (little : Bool) : Bytes → Option (List Nat)
  | [] => some []
  | [_] => none
  | a :: b :: bs => (unit16 little a b :: ·) <$> units16 little bs

def joinPairs : List Nat → List Nat
  | u :: v :: us =>
    if 0xD800 ≤ u ∧ u < 0xDC00 ∧ 0xDC00 ≤ v ∧ v < 0xE000 then
      (0x10000 + (u - 0xD800) * 1024 + (v - 0xDC00)) :: joinPairs us
    else u :: joinPairs (v :: us)
  | us => us

def units32 (little : Bool) : Bytes → Option (List Nat)
  | [] => some []
  | a :: b :: c :: d :: bs =>
    let n := if little then unit16 true c d * 65536 + unit16 true a b
      else unit16 false a b * 65536 + unit16 false c d
    if n < 0x110000 then (n :: ·) <$> units32 little bs else none
  | _ => none

/-- `bytes.decode(detect_encoding(bytes), "surrogatepass")`. -/
def pyDecode (bytes : Bytes) : Option (List Nat) :=
  match detectEncoding bytes with
  | (.one, skip) => utf8Decode true (bytes.drop skip)
  | (.two little, skip) => joinPairs <$> units16 little (bytes.drop skip)
  | (.four little, skip) => units32 little (bytes.drop skip)

/-- `json.loads` of bytes. A text nested too deeply is a `RecursionError`, anything else that is
wrong a `ValueError`. -/
def loadsIn (D : Dialect) (bytes : Bytes) : Except ParseError Json :=
  match pyDecode bytes with
  | none => .error .malformed
  | some cs => parseJson D cs

/-- The same for readers that never meet integers of thousands of digits. -/
def loads (depth : Nat) (bytes : Bytes) : Except ParseError Json := loadsIn (pythonJson depth) bytes

/-! ## Values -/

/-- `body.get(name)`. -/
def dictGet (name : String) (kvs : List (List Nat × Json)) : Option Json :=
  (kvs.reverse.find? fun kv => kv.1 == codePoints name).map Prod.snd

/-- Whether `m * 10 ^ e` rounds to the double `1.0`: it lies between the midpoints to the two
neighbours `1 - 2⁻⁵³` and `1 + 2⁻⁵²`, ties going to the even `1.0`. -/
def roundsToOne (m : Nat) (e : Int) : Bool :=
  if 0 ≤ e then m * 10 ^ e.toNat = 1
  else
    let d := 10 ^ (-e).toNat
    (2 ^ 54 - 1) * d ≤ 2 ^ 54 * m ∧ 2 ^ 53 * m ≤ (2 ^ 53 + 1) * d

/-- `value == 1`. -/
def isOne : Option Json → Bool
  | some (.int neg n) => !neg && n == 1
  | some (.bool b) => b
  | some (.float neg m e) => !neg && roundsToOne m e
  | _ => false

/-- The value of an `int`; `True` and `False` are integers too. -/
def asInt : Option Json → Option Int
  | some (.int neg n) => some (if neg then -n else n)
  | some (.bool b) => some (if b then 1 else 0)
  | _ => none

/-- `value == text`, where the text may be `None`. -/
def equalsText : Option Json → Option String → Bool
  | none, none => true
  | some .null, none => true
  | some (.str s), some text => s == codePoints text
  | _, _ => false

/-- The code points of a `str`. -/
def asStr : Option Json → Option (List Nat)
  | some (.str s) => some s
  | _ => none

variable {bytes : Bytes} {D : Dialect} {j : Json} {cs rest : List Nat} {c depth fuel : Nat}

@[simp] theorem equalsText_some_iff {v : Option Json} {text : String} :
    equalsText v (some text) = true ↔ v = some (jsonStr text) := by
  rcases v with - | j
  · simp [equalsText]
  · cases j <;> simp [equalsText, jsonStr]

/-! ## Objects and arrays both readers take -/

def Json.isContainer : Json → Bool
  | .arr _ => true
  | .obj _ => true
  | _ => false

def Ascii (c : Nat) : Prop := 0 < c ∧ c < 0x80

instance (c : Nat) : Decidable (Ascii c) := inferInstanceAs (Decidable (_ ∧ _))

theorem ascii_of_isWs (h : isWs c = true) : Ascii c := by
  simp only [isWs, Bool.or_eq_true, beq_iff_eq] at h
  unfold Ascii
  omega

theorem ascii_of_isDigit (h : isDigit c = true) : Ascii c := by
  simp only [isDigit, Bool.and_eq_true, decide_eq_true_eq] at h
  unfold Ascii
  omega

theorem cons_of_skipWs {r : List Nat} (h : skipWs cs = c :: r) :
    (cs = c :: r) ∨ ∃ w cs', cs = w :: cs' ∧ isWs w = true ∧ skipWs cs' = c :: r := by
  cases cs with
  | nil => simp [skipWs] at h
  | cons w cs =>
    unfold skipWs at h
    rw [dropWhile_cons] at h
    split at h
    · rename_i hw
      exact .inr ⟨w, cs, rfl, hw, h⟩
    · exact .inl h

theorem number_spec {neg : Bool} (h : number neg (c :: cs) = some (j, rest)) :
    isDigit c = true ∧ j.isContainer = false := by
  have htail : ∀ ip r, (numberTail neg ip r).1.isContainer = false := by
    intro ip r
    unfold numberTail
    split
    simp only
    split_ifs <;> rfl
  simp only [number] at h
  split_ifs at h with hzero hdigit
  · refine ⟨hzero ▸ by decide, ?_⟩
    rw [← show _ = j from congrArg Prod.fst (Option.some.inj h)]
    exact htail _ _
  · refine ⟨hdigit, ?_⟩
    rw [← show _ = j from congrArg Prod.fst (Option.some.inj h)]
    exact htail _ _

theorem dialect_number_spec {neg : Bool} (h : D.number neg (c :: cs) = some (j, rest)) :
    isDigit c = true ∧ j.isContainer = false :=
  number_spec (Option.filter_eq_some_iff.mp h).1

theorem keyword_spec {word : String} {k : Json} (h : keyword word k cs = some (j, rest)) :
    j = k := by
  unfold keyword at h
  split_ifs at h
  exact (congrArg Prod.fst (Option.some.inj h)).symm

theorem scalar_spec (h : scalar D (c :: cs) = some (j, rest)) :
    Ascii c ∧ j.isContainer = false := by
  simp only [scalar] at h
  by_cases ht : c = 't'.toNat
  · rw [if_pos ht] at h
    exact ⟨ht ▸ by decide, keyword_spec h ▸ rfl⟩
  rw [if_neg ht] at h
  by_cases hf : c = 'f'.toNat
  · rw [if_pos hf] at h
    exact ⟨hf ▸ by decide, keyword_spec h ▸ rfl⟩
  rw [if_neg hf] at h
  by_cases hn : c = 'n'.toNat
  · rw [if_pos hn] at h
    exact ⟨hn ▸ by decide, keyword_spec h ▸ rfl⟩
  rw [if_neg hn] at h
  by_cases hminus : c = '-'.toNat
  · rw [if_pos hminus] at h
    refine ⟨hminus ▸ by decide, ?_⟩
    cases cs with
    | nil =>
      simp only [Dialect.number, number, Option.filter_none] at h
      split_ifs at h
      exact keyword_spec h ▸ rfl
    | cons d ds =>
      cases hnum : D.number true (d :: ds) with
      | some p =>
        obtain ⟨j', r⟩ := p
        rw [hnum] at h
        cases h
        exact (dialect_number_spec hnum).2
      | none =>
        rw [hnum] at h
        simp only at h
        split_ifs at h
        exact keyword_spec h ▸ rfl
  rw [if_neg hminus] at h
  split_ifs at h with hN hI
  · exact ⟨hN.1 ▸ by decide, keyword_spec h ▸ rfl⟩
  · exact ⟨hI.1 ▸ by decide, keyword_spec h ▸ rfl⟩
  · exact ⟨ascii_of_isDigit (dialect_number_spec h).1, (dialect_number_spec h).2⟩

theorem value_head {p : Json × List Nat} (h : value D fuel depth cs = .ok p) :
    ∃ c r, skipWs cs = c :: r ∧ Ascii c := by
  cases fuel with
  | zero => simp [value] at h
  | succ fuel =>
    unfold value at h
    split at h
    · cases h
    · rename_i c r hskip
      refine ⟨c, r, hskip, ?_⟩
      by_cases hquote : c = '"'.toNat
      · exact hquote ▸ by decide
      by_cases hbracket : c = '['.toNat
      · exact hbracket ▸ by decide
      by_cases hbrace : c = '{'.toNat
      · exact hbrace ▸ by decide
      rw [if_neg hquote, if_neg hbracket, if_neg hbrace] at h
      cases hs : scalar D (c :: r) with
      | none => simp [hs, orMalformed] at h
      | some q => exact (scalar_spec hs).1

theorem members_head {p : List (List Nat × Json) × List Nat} (h : members D fuel depth cs = .ok p) :
    ∃ c r, skipWs cs = c :: r ∧ Ascii c := by
  cases fuel with
  | zero => simp [members] at h
  | succ fuel =>
    unfold members at h
    split at h
    · cases h
    · rename_i q r hskip
      split_ifs at h with hq
      exact ⟨q, r, hskip, hq ▸ by decide⟩

theorem elems_head {p : List Json × List Nat} (h : elems D fuel depth cs = .ok p) :
    ∃ c r, skipWs cs = c :: r ∧ Ascii c := by
  cases fuel with
  | zero => simp [elems] at h
  | succ fuel =>
    unfold elems at h
    cases hv : value D fuel depth cs with
    | error e => simp [hv] at h
    | ok q => exact value_head hv

theorem value_container (h : value D fuel depth cs = .ok (j, rest)) (hj : j.isContainer = true) :
    ∃ o r c r', skipWs cs = o :: r ∧ skipWs r = c :: r' ∧ Ascii o ∧ Ascii c := by
  cases fuel with
  | zero => simp [value] at h
  | succ fuel =>
    unfold value at h
    split at h
    · cases h
    · rename_i o r hskip
      by_cases hquote : o = '"'.toNat
      · rw [if_pos hquote] at h
        split at h <;> cases h
        cases hj
      rw [if_neg hquote] at h
      by_cases hbracket : o = '['.toNat
      · rw [if_pos hbracket] at h
        have ho : Ascii o := hbracket ▸ by decide
        cases depth with
        | zero => cases h
        | succ depth =>
          simp only at h
          split at h
          · rename_i hclose
            obtain ⟨r', hr'⟩ := List.head?_eq_some_iff.mp hclose
            exact ⟨o, r, _, r', hskip, hr', ho, by decide⟩
          · split at h
            · rename_i helems
              obtain ⟨c, r', hr', hc⟩ := elems_head helems
              exact ⟨o, r, c, r', hskip, hr', ho, hc⟩
            · cases h
      rw [if_neg hbracket] at h
      by_cases hbrace : o = '{'.toNat
      · rw [if_pos hbrace] at h
        have ho : Ascii o := hbrace ▸ by decide
        cases depth with
        | zero => cases h
        | succ depth =>
          simp only at h
          split at h
          · rename_i hclose
            obtain ⟨r', hr'⟩ := List.head?_eq_some_iff.mp hclose
            exact ⟨o, r, _, r', hskip, hr', ho, by decide⟩
          · split at h
            · rename_i hmembers
              obtain ⟨c, r', hr', hc⟩ := members_head hmembers
              exact ⟨o, r, c, r', hskip, hr', ho, hc⟩
            · cases h
      rw [if_neg hbrace] at h
      cases hs : scalar D (o :: r) with
      | none => simp [hs, orMalformed] at h
      | some q =>
        rw [hs] at h
        cases h
        rw [(scalar_spec hs).2] at hj
        cases hj

theorem ascii_of_container (h : value D fuel depth cs = .ok (j, rest)) (hj : j.isContainer = true) :
    ∃ a b cs', cs = a :: b :: cs' ∧ Ascii a ∧ Ascii b := by
  obtain ⟨o, r, c, r', hopen, hnext, ho, hc⟩ := value_container h hj
  rcases cons_of_skipWs hopen with rfl | ⟨w, cs', rfl, hw, hopen'⟩
  · rcases cons_of_skipWs hnext with rfl | ⟨w, r'', rfl, hw, -⟩
    · exact ⟨_, _, _, rfl, ho, hc⟩
    · exact ⟨_, _, _, rfl, ho, ascii_of_isWs hw⟩
  · rcases cons_of_skipWs hopen' with rfl | ⟨w', cs'', rfl, hw', -⟩
    · exact ⟨_, _, _, rfl, ascii_of_isWs hw, ho⟩
    · exact ⟨_, _, _, rfl, ascii_of_isWs hw, ascii_of_isWs hw'⟩

theorem least_le_of_decodeFrom {sur : Bool} {o : Owed} {bs : Bytes}
    (h : decodeFrom sur (some o) bs = some cs) : ∃ c cs', cs = c :: cs' ∧ o.least ≤ c := by
  induction bs generalizing o with
  | nil => simp [decodeFrom] at h
  | cons b bs ih =>
    obtain ⟨more, acc, least⟩ := o
    unfold decodeFrom at h
    simp only at h
    split at h
    · cases more with
      | zero =>
        simp only at h
        split at h
        · rename_i hrange
          obtain ⟨cs', -, rfl⟩ := Option.map_eq_some_iff.mp h
          exact ⟨_, cs', rfl, hrange.1⟩
        · cases h
      | succ more =>
        obtain ⟨c, cs', rfl, hle⟩ := ih h
        exact ⟨c, cs', rfl, hle⟩
    · cases h

theorem byte_of_ascii {sur : Bool} (hc : c < 0x80) (h : utf8Decode sur bytes = some (c :: cs)) :
    ∃ b bs, bytes = b :: bs ∧ b.toNat = c ∧ utf8Decode sur bs = some cs := by
  have hlong : ∀ {o : Owed} {bs : Bytes}, 0x80 ≤ o.least →
      decodeFrom sur (some o) bs ≠ some (c :: cs) := by
    intro o bs ho hdec
    obtain ⟨c', cs', heq, hle⟩ := least_le_of_decodeFrom hdec
    cases heq
    omega
  cases bytes with
  | nil => simp [utf8Decode, decodeFrom] at h
  | cons b bs =>
    unfold utf8Decode decodeFrom at h
    simp only at h
    split_ifs at h
    · obtain ⟨cs', hcs', heq⟩ := Option.map_eq_some_iff.mp h
      cases heq
      exact ⟨b, bs, rfl, rfl, hcs'⟩
    · exact absurd h (hlong (Nat.le_refl _))
    · exact absurd h (hlong (show 0x80 ≤ 0x800 by omega))
    · exact absurd h (hlong (show 0x80 ≤ 0x10000 by omega))

theorem detectEncoding_ascii {a b : UInt8} (ha : Ascii a.toNat)
    (hb : 0 < b.toNat) (bs : Bytes) : detectEncoding (a :: b :: bs) = (.one, 0) := by
  have hne : ∀ c : UInt8, a.toNat ≠ c.toNat → a ≠ c := fun c h heq => h (heq ▸ rfl)
  obtain ⟨ha, ha'⟩ := ha
  have h0 : a ≠ 0 := hne 0 (by simp; omega)
  have hFF : a ≠ 0xFF := hne 0xFF (by simp; omega)
  have hFE : a ≠ 0xFE := hne 0xFE (by simp; omega)
  have hEF : a ≠ 0xEF := hne 0xEF (by simp; omega)
  have hb0 : b ≠ 0 := fun h => by simp [h] at hb
  unfold detectEncoding
  rw [if_neg (by simp [h0]), if_neg (by simp [hFF]), if_neg (by simp [hFE]),
    if_neg (by simp [hFF]), if_neg (by simp [hEF])]
  rcases bs with - | ⟨c, - | ⟨d, bs⟩⟩
  · simp [h0, hb0]
  · rfl
  · simp [h0, hb0]

/-- **An object or array `serde_json` reads is the one Python reads.** -/
theorem loads_of_serde (hdepth : 127 ≤ depth) (hj : j.isContainer = true)
    (hutf8 : utf8Decode false bytes = some cs) (hparse : parseJson serdeJson cs = .ok j) :
    loads depth bytes = .ok j := by
  have hpy := parseJson_mono (serdeJson_le_pythonJson depth) hdepth hparse
  have hvalue : ∃ fuel rest, value serdeJson fuel serdeJson.depth cs = .ok (j, rest) := by
    unfold parseJson at hparse
    split at hparse
    · cases hparse
    · rename_i j' rest hval
      split_ifs at hparse
      cases hparse
      exact ⟨_, rest, hval⟩
  obtain ⟨fuel, rest, hvalue⟩ := hvalue
  obtain ⟨a, b, cs', rfl, ha, hb⟩ := ascii_of_container hvalue hj
  obtain ⟨a', bs, rfl, rfl, hbs⟩ := byte_of_ascii ha.2 hutf8
  obtain ⟨b', bs', rfl, rfl, -⟩ := byte_of_ascii hb.2 hbs
  unfold loads loadsIn pyDecode
  rw [detectEncoding_ascii ha hb.1]
  simp only [drop_zero]
  rw [show utf8Decode true _ = _ from decodeFrom_mono hutf8]
  exact hpy

theorem loads_writeStruct (hdepth : 127 ≤ depth) (kvs : List (String × Printable)) :
    loads depth (writeStruct kvs) = .ok (structJson kvs) :=
  loads_of_serde hdepth rfl (utf8Decode_utf8Encode (isScalar_printStruct kvs))
    (parseJson_printStruct serdeJson rfl (by decide) kvs)

theorem dictGet_eq_member {name : String} {kvs : List (List Nat × Json)}
    (h : occurrences name kvs ≤ 1) : dictGet name kvs = member name kvs := by
  induction kvs with
  | nil => rfl
  | cons kv kvs ih =>
    unfold occurrences at h
    rw [filter_cons] at h
    unfold dictGet member
    rw [reverse_cons, List.find?_append, List.find?_cons]
    split_ifs at h with hkv
    · have hnone : kvs.reverse.find? (fun kv => kv.1 == codePoints name) = none := by
        rw [List.find?_eq_none]
        intro x hx hxn
        have hmem : x ∈ kvs.filter fun kv => kv.1 == codePoints name :=
          mem_filter.mpr ⟨mem_reverse.mp hx, hxn⟩
        have := length_pos_of_mem hmem
        simp only [length_cons] at h
        omega
      rw [hnone, hkv]
      simp [hkv]
    · have hih := ih h
      unfold dictGet member at hih
      rw [Bool.not_eq_true] at hkv
      simp [hkv, hih]

/-! ## Layouts -/

theorem asString_eq_some {s : String} : asString j = some s ↔ j = jsonStr s := by
  constructor
  · intro h
    cases j with
    | str cs => rw [jsonStr, codePoints_of_ofCodePoints h]
    | null | bool | int | float | special | arr | obj => cases h
  · rintro rfl
    exact asString_jsonStr s

theorem Layout.loads_toVec {α : Type} (L : Layout α) (a : α) (hdepth : 127 ≤ depth) :
    ∃ kvs, loads depth (L.toVec a) = .ok (.obj kvs) ∧
      ∀ (i : Nat) (name : String) (v : Printable), L.names[i]? = some name →
        (L.values a)[i]? = some v → dictGet name kvs = some v.toJson := by
  have hnd : ((L.names.zip (L.values a)).map Prod.fst).Nodup := by
    rw [map_fst_zip (Nat.le_of_eq (L.length_values a).symm)]
    exact L.nodup
  refine ⟨_, loads_writeStruct hdepth _, fun i name v hname hv => ?_⟩
  have hmem : (name, v) ∈ L.names.zip (L.values a) :=
    mem_of_getElem? (List.getElem?_zip_eq_some.mpr ⟨hname, hv⟩)
  rw [dictGet_eq_member (occurrences_map_le hnd name), member_map hnd hmem]

/-- **A dictionary Python reads where Rust reads a struct** has the struct's fields. -/
theorem Layout.dict_of_fromSlice {α : Type} {L : Layout α} {a : α} {kvs : List (List Nat × Json)}
    (hdepth : 127 ≤ depth) (h : L.fromSlice bytes = some a)
    (hpy : loads depth bytes = .ok (.obj kvs)) :
    ∃ fs, L.read fs = some a ∧ L.names.map (dictGet · kvs) = fs.map some := by
  obtain ⟨fs, hfs, hread⟩ := Option.bind_eq_some_iff.mp h
  refine ⟨fs, hread, ?_⟩
  unfold readStruct at hfs
  cases hutf8 : utf8Decode false bytes with
  | none => simp [hutf8] at hfs
  | some cs =>
    simp only [hutf8] at hfs
    cases hparse : parseJson serdeJson cs with
    | error e => simp [hparse] at hfs
    | ok j =>
      simp only [hparse] at hfs
      obtain ⟨fields, hfields, hall⟩ := Option.bind_eq_some_iff.mp hfs
      have hj : j.isContainer = true := by
        cases j with
        | arr xs => rfl
        | obj kvs => rfl
        | null | bool | int | float | special | str => simp [structFields] at hfields
      obtain rfl : j = .obj kvs :=
        Except.ok.inj ((loads_of_serde hdepth hj hutf8 hparse).symm.trans hpy)
      simp only [structFields] at hfields
      split_ifs at hfields with honce hknown
      rw [← eq_some_of_mapM_id hall, ← Option.some.inj hfields]
      refine map_congr_left fun name hname => dictGet_eq_member ?_
      simp only [any_eq_true, decide_eq_true_eq, not_exists, not_and, Nat.not_le] at honce
      exact Nat.le_of_lt_succ (honce name hname)

end ManagedDirectory.Codec
