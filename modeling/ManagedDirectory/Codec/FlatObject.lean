import ManagedDirectory.Codec.Value

/-!
# Flat objects

Objects of strings, integers and lists of strings as `serde_json` keeps them: a map sorted by
key. `insertKey` is looked up, removed from and kept sorted here, and `fromStr_flat` says that the
text of a sorted flat object is read back as that object.
-/

namespace ManagedDirectory.Codec

open List

variable {α : Type} {T : FloatText}

/-! ## Sorted maps -/

/-- The keys of a `BTreeMap`: sorted and distinct. -/
def SortedKeys (m : List (String × α)) : Prop :=
  m.Pairwise fun a b => codePoints a.1 < codePoints b.1

theorem find_insertKey (k k' : String) (v : α) (m : List (String × α)) :
    (insertKey k v m).find? (fun kv => kv.1 == k') =
      if k = k' then some (k, v) else m.find? fun kv => kv.1 == k' := by
  induction m with
  | nil => by_cases h : k = k' <;> simp [insertKey, h]
  | cons kv m ih =>
    obtain ⟨k₁, v₁⟩ := kv
    simp only [insertKey]
    split
    · rename_i heq
      subst heq
      by_cases h : k = k' <;> simp [h]
    · rename_i hne
      split
      · by_cases h : k = k' <;> simp [h]
      · rw [List.find?_cons, List.find?_cons, ih]
        by_cases h : k = k'
        · subst h
          simp [beq_false_of_ne (Ne.symm hne)]
        · simp [h]

theorem filter_insertKey (k : String) (v : α) (m : List (String × α)) :
    (insertKey k v m).filter (fun kv => kv.1 != k) = m.filter fun kv => kv.1 != k := by
  induction m with
  | nil => simp [insertKey]
  | cons kv m ih =>
    obtain ⟨k₁, v₁⟩ := kv
    simp only [insertKey]
    split
    · rename_i heq
      subst heq
      simp
    · split
      · simp
      · rw [filter_cons, filter_cons, ih]

theorem mem_of_mem_insertKey {k : String} {v : α} {m : List (String × α)} {kv : String × α}
    (h : kv ∈ insertKey k v m) : kv = (k, v) ∨ kv ∈ m := by
  induction m with
  | nil => exact .inl (by simpa [insertKey] using h)
  | cons kv' m ih =>
    obtain ⟨k₁, v₁⟩ := kv'
    simp only [insertKey] at h
    split at h
    · rcases mem_cons.mp h with h | h
      · exact .inl h
      · exact .inr (mem_cons_of_mem _ h)
    · split at h
      · exact mem_cons.mp h
      · rcases mem_cons.mp h with rfl | h
        · exact .inr mem_cons_self
        · exact (ih h).imp_right (mem_cons_of_mem _)

theorem sortedKeys_insertKey {m : List (String × α)} (hm : SortedKeys m) (k : String) (v : α) :
    SortedKeys (insertKey k v m) := by
  induction m with
  | nil => exact pairwise_singleton _ _
  | cons kv m ih =>
    obtain ⟨k₁, v₁⟩ := kv
    obtain ⟨hhead, htail⟩ := pairwise_cons.mp hm
    simp only [insertKey]
    split
    · rename_i heq
      subst heq
      exact pairwise_cons.mpr ⟨hhead, htail⟩
    · rename_i hne
      split
      · rename_i hlt
        refine pairwise_cons.mpr ⟨?_, hm⟩
        intro kv hkv
        rcases mem_cons.mp hkv with rfl | hkv
        · exact hlt
        · exact lt_trans hlt (hhead kv hkv)
      · rename_i hge
        refine pairwise_cons.mpr ⟨?_, ih htail⟩
        intro kv hkv
        rcases mem_of_mem_insertKey hkv with rfl | hkv
        · exact lt_of_le_of_ne (not_lt.mp hge) fun h => hne (codePoints_inj h).symm
        · exact hhead kv hkv

theorem insertKey_last {k : String} {m : List (String × α)}
    (h : ∀ kv ∈ m, codePoints kv.1 < codePoints k) (v : α) : insertKey k v m = m ++ [(k, v)] := by
  induction m with
  | nil => rfl
  | cons kv m ih =>
    obtain ⟨k₁, v₁⟩ := kv
    have hlt := h (k₁, v₁) mem_cons_self
    simp only [insertKey]
    rw [if_neg, if_neg (lt_asymm hlt), ih fun kv hkv => h kv (mem_cons_of_mem _ hkv)]
    · rfl
    · rintro rfl
      exact lt_irrefl _ hlt

/-! ## Flat objects -/

/-- The value `json!` makes of a field. -/
def Printable.toValue {F : Type} : Printable → Value F
  | .bool b => .bool b
  | .int z => .num (if z < 0 then .neg z.natAbs else .pos z.natAbs)
  | .str s => .str s
  | .strs xs => .arr (xs.map .str)

/-- The integers of `i64` and `u64`. -/
def Printable.Fits : Printable → Prop
  | .int z => -2 ^ 63 ≤ z ∧ z < 2 ^ 64
  | _ => True

def flatObject {F : Type} (kvs : List (String × Printable)) : Value F :=
  .obj (kvs.map fun kv => (kv.1, kv.2.toValue))

theorem ofElems_strs (xs : List String) :
    Value.ofElems T (xs.map fun s => .str (codePoints s)) = some (xs.map .str) := by
  induction xs with
  | nil => simp [Value.ofElems]
  | cons x xs ih => simp [Value.ofElems, Value.ofJson, ih]

theorem ofJson_toJson {p : Printable} (h : p.Fits) :
    Value.ofJson T p.toJson = some p.toValue := by
  cases p with
  | bool b => simp [Printable.toJson, Value.ofJson, Printable.toValue]
  | str s => simp [Printable.toJson, Value.ofJson, Printable.toValue]
  | strs xs =>
    simp only [Printable.toJson, Value.ofJson, Printable.toValue, ofElems_strs, Option.map_some]
  | int z =>
    obtain ⟨hlo, hhi⟩ := h
    simp only [Printable.toJson, Value.ofJson, Printable.toValue, Number.ofInt]
    by_cases hz : z < 0
    · simp only [hz, decide_true, if_true]
      rw [if_pos (show 0 < z.natAbs ∧ z.natAbs ≤ 2 ^ 63 by omega)]
      rfl
    · simp only [hz, decide_false, Bool.false_eq_true, if_false]
      rw [if_pos (show z.natAbs < 2 ^ 64 by omega)]
      rfl

theorem ofMembers_sorted {kvs : List (String × Printable)} {acc : List (String × Value T.F)}
    (hsorted : SortedKeys kvs) (hfits : ∀ kv ∈ kvs, kv.2.Fits)
    (hacc : ∀ a ∈ acc, ∀ kv ∈ kvs, codePoints a.1 < codePoints kv.1) :
    Value.ofMembers T acc (kvs.map fun kv => (codePoints kv.1, kv.2.toJson)) =
      some (acc ++ kvs.map fun kv => (kv.1, kv.2.toValue)) := by
  induction kvs generalizing acc with
  | nil => simp [Value.ofMembers]
  | cons kv kvs ih =>
    obtain ⟨hhead, htail⟩ := pairwise_cons.mp hsorted
    have hlast := insertKey_last (fun a ha => hacc a ha kv mem_cons_self)
      (kv.2.toValue : Value T.F)
    simp only [map_cons, Value.ofMembers, ofCodePoints_codePoints,
      ofJson_toJson (hfits kv mem_cons_self), hlast]
    rw [ih htail fun x hx => hfits x (mem_cons_of_mem _ hx)]
    · simp
    · intro a ha x hx
      rcases mem_append.mp ha with ha | ha
      · exact hacc a ha x (mem_cons_of_mem _ hx)
      · obtain rfl := mem_singleton.mp ha
        exact hhead x hx

/-- **The text of a sorted flat object is read back as that object.** -/
theorem fromStr_flat {kvs : List (String × Printable)} (hsorted : SortedKeys kvs)
    (hfits : ∀ kv ∈ kvs, kv.2.Fits) :
    Value.fromStr T (printStruct kvs) = some (flatObject kvs) := by
  have hmembers := @ofMembers_sorted T kvs [] hsorted hfits (by simp)
  simp only [Value.fromStr, parseJson_printStruct serdeJson rfl (by decide), structJson,
    Value.ofJson, hmembers, nil_append, Option.map_some, flatObject]

theorem printElems_strs (x : String) (xs : List String) :
    printStr (codePoints x) ++ Value.printElems T (xs.map .str) =
      commaClose ']'.toNat ((x :: xs).map fun s => printStr (codePoints s)) := by
  induction xs generalizing x with
  | nil => simp [Value.printElems, commaClose]
  | cons y ys ih =>
    simp only [map_cons, Value.printElems, Value.print, commaClose]
    rw [ih y]
    rfl

theorem print_toValue (p : Printable) : (p.toValue : Value T.F).print T = p.print := by
  cases p with
  | bool b => cases b <;> simp [Printable.toValue, Value.print, Printable.print]
  | str s => simp [Printable.toValue, Value.print, Printable.print]
  | strs xs =>
    cases xs with
    | nil => simp [Printable.toValue, Value.print, Printable.print, commaClose]
    | cons x xs =>
      simp only [Printable.toValue, map_cons, Value.print, Printable.print]
      rw [printElems_strs]
      rfl
  | int z =>
    by_cases hz : z < 0 <;>
      simp [Printable.toValue, Value.print, Printable.print, Number.print, hz]

theorem printMembers_flat (kv : String × Printable) (kvs : List (String × Printable)) :
    printMember kv ++ Value.printMembers T (kvs.map fun kv => (kv.1, kv.2.toValue)) =
      commaClose '}'.toNat ((kv :: kvs).map printMember) := by
  induction kvs generalizing kv with
  | nil => simp [Value.printMembers, commaClose]
  | cons kv' kvs ih =>
    simp only [map_cons, Value.printMembers, print_toValue, commaClose]
    rw [← map_cons, ← ih kv']
    simp [printMember]

theorem print_flatObject (kvs : List (String × Printable)) :
    (flatObject kvs : Value T.F).print T = printStruct kvs := by
  cases kvs with
  | nil => simp [flatObject, Value.print, printStruct, commaClose]
  | cons kv kvs =>
    simp only [flatObject, map_cons, Value.print, print_toValue, printStruct]
    rw [← map_cons, ← printMembers_flat (T := T)]
    simp [printMember]

end ManagedDirectory.Codec
