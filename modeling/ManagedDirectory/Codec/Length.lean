import ManagedDirectory.Codec.Serde
import ManagedDirectory.Codec.Text

/-!
# How long encoded texts are

A `Plain` string is printed as it is. `length_writeStruct_le` bounds the bytes of a struct of plain
strings and machine integers by a sum over its fields that can be evaluated without printing
anything.
-/

namespace ManagedDirectory.Codec

open List

/-! ## Bytes of a string -/

theorem byteLen_append (a b : String) : byteLen (a ++ b) = byteLen a + byteLen b := by
  simp [byteLen, utf8, utf8Encode, codePoints]

theorem length_utf8Encode_of_ascii {cs : List Nat} (h : ∀ n ∈ cs, n < 0x80) :
    (utf8Encode cs).length = cs.length := by
  induction cs with
  | nil => rfl
  | cons c cs ih =>
    have hc : encodePoint c = [UInt8.ofNat c] := by
      rw [encodePoint, if_pos (h c (by simp))]
    have ih := ih fun n hn => h n (by simp [hn])
    simp only [utf8Encode, flatMap_cons, hc, length_append, length_cons,
      length_nil] at ih ⊢
    omega

theorem byteLen_b64 (bs : Bytes) : byteLen (b64 bs) = (4 * bs.length + 2) / 3 := by
  rw [byteLen, utf8, length_utf8Encode_of_ascii]
  · rw [codePoints, b64, String.toList_ofList, length_map, length_b64Chars]
  · intro n hn
    simp only [codePoints, b64, String.toList_ofList] at hn
    obtain ⟨c, hc, rfl⟩ := mem_map.mp hn
    exact b64Chars_ascii c hc

/-! ## Plain strings -/

def PlainChar (c : Char) : Prop :=
  0x20 ≤ c.toNat ∧ c.toNat < 0x80 ∧ c.toNat ≠ 0x22 ∧ c.toNat ≠ 0x5C

instance (c : Char) : Decidable (PlainChar c) := inferInstanceAs (Decidable (_ ∧ _))

def Plain (s : String) : Prop := ∀ c ∈ s.toList, PlainChar c

instance (s : String) : Decidable (Plain s) := decidableBAll PlainChar s.toList

theorem byteLen_plain {s : String} (h : Plain s) : byteLen s = s.length := by
  rw [byteLen, utf8, length_utf8Encode_of_ascii]
  · rw [codePoints, length_map, String.length_toList]
  · intro n hn
    obtain ⟨c, hc, rfl⟩ := mem_map.mp hn
    exact (h c hc).2.1

theorem plainChar_digitChar : ∀ v < 64, PlainChar (digitChar v) := by decide

theorem plain_b64 (bs : Bytes) : Plain (b64 bs) := by
  intro c hc
  simp only [b64, String.toList_ofList, b64Chars] at hc
  obtain ⟨v, hv, rfl⟩ := mem_map.mp hc
  exact plainChar_digitChar v (sextets_lt bs v hv)

theorem plainChar_hexChar : ∀ n < 16, PlainChar (hexChar n) := by decide

theorem plain_hex (bs : Bytes) : Plain (hex bs) := by
  intro c hc
  simp only [hex, String.toList_ofList, mem_flatMap, mem_cons, not_mem_nil,
    or_false] at hc
  obtain ⟨b, -, rfl | rfl⟩ := hc
  · exact plainChar_hexChar _ (by have := b.toNat_lt; omega)
  · exact plainChar_hexChar _ (by omega)

theorem length_hex (bs : Bytes) : (hex bs).length = 2 * bs.length := by
  rw [hex, String.length_ofList]
  induction bs with
  | nil => rfl
  | cons b bs ih =>
    simp only [flatMap_cons, length_append, ih, length_cons, length_nil]
    omega

theorem length_b64 (bs : Bytes) : (b64 bs).length = (4 * bs.length + 2) / 3 := by
  rw [b64, String.length_ofList, length_b64Chars]

theorem escapeChar_plain {c : Char} (h : PlainChar c) : escapeChar c.toNat = [c.toNat] := by
  obtain ⟨h1, h2, h3, h4⟩ := h
  simp [escapeChar, h3, h4, show c.toNat ≠ 0x08 by omega, show c.toNat ≠ 0x0C by omega,
    show c.toNat ≠ 0x0A by omega, show c.toNat ≠ 0x0D by omega, show c.toNat ≠ 0x09 by omega,
    show ¬ c.toNat < 0x20 by omega]

theorem printStr_plain {s : String} (h : Plain s) :
    printStr (codePoints s) = '"'.toNat :: (codePoints s ++ ['"'.toNat]) := by
  have hflat : (codePoints s).flatMap escapeChar = codePoints s := by
    unfold codePoints Plain at *
    generalize s.toList = cs at h
    induction cs with
    | nil => rfl
    | cons c cs ih =>
      rw [map_cons, flatMap_cons, escapeChar_plain (h c (by simp)),
        ih fun d hd => h d (by simp [hd]), singleton_append]
  rw [printStr, hflat]

theorem length_printStr {s : String} (h : Plain s) :
    (printStr (codePoints s)).length = s.length + 2 := by
  rw [printStr_plain h]
  simp [codePoints, String.length]

/-! ## Structs of plain fields -/

def Printable.Plain : Printable → Prop
  | .bool _ => True
  | .int z => z.natAbs < 2 ^ 64
  | .str s => Codec.Plain s
  | .strs xs => ∀ s ∈ xs, Codec.Plain s

def Printable.width : Printable → Nat
  | .bool _ => 5
  | .int _ => 21
  | .str s => s.length + 2
  | .strs xs => 2 + (xs.map fun s => s.length + 3).sum

theorem length_commaClose_le (close : Nat) (xs : List (List Nat)) :
    (commaClose close xs).length ≤ 1 + (xs.map fun x => x.length + 1).sum := by
  induction xs using commaClose.induct with
  | case1 => simp [commaClose]
  | case2 x => simp [commaClose]
  | case3 x y xs ih =>
    simp only [commaClose, length_append, length_cons, map_cons, sum_cons]
      at ih ⊢
    omega

theorem length_decimal_le {n : Nat} (h : n < 2 ^ 64) : (decimal n).length ≤ 20 := by
  unfold decimal
  split_ifs with h0
  · simp
  · rw [length_map, length_reverse]
    exact (Nat.digits_length_le_iff (by omega) n).mpr (by omega)

theorem length_print_le {p : Printable} (h : p.Plain) : p.print.length ≤ p.width := by
  cases p with
  | bool b => cases b <;> decide
  | int z =>
    have := length_decimal_le (n := z.natAbs) h
    simp only [Printable.print, Printable.width, length_append]
    split_ifs <;> simp <;> omega
  | str s => exact (length_printStr h).le
  | strs xs =>
    have hlen := length_commaClose_le ']'.toNat (xs.map fun s => printStr (codePoints s))
    have hsum : ((xs.map fun s => printStr (codePoints s)).map fun x => x.length + 1) =
        xs.map fun s => s.length + 3 := by
      rw [map_map]
      exact map_congr_left fun s hs => by simp [length_printStr (h s hs)]
    rw [hsum] at hlen
    simp only [Printable.print, Printable.width, length_cons]
    omega

theorem Printable.Plain.texts {p : Printable} (h : p.Plain) : ∀ s ∈ p.texts, Codec.Plain s := by
  cases p with
  | str s => exact forall_mem_singleton.mpr h
  | strs xs => exact h
  | _ => exact forall_mem_nil _

/-- **A bound on the bytes of a struct of plain fields.** -/
theorem length_writeStruct_le {kvs : List (String × Printable)}
    (h : ∀ kv ∈ kvs, Plain kv.1 ∧ kv.2.Plain) :
    (writeStruct kvs).length ≤ 2 + (kvs.map fun kv => kv.1.length + 4 + kv.2.width).sum := by
  have hmember : ∀ kv ∈ kvs, (printMember kv).length + 1 ≤ kv.1.length + 4 + kv.2.width := by
    intro kv hkv
    have h1 := length_printStr (h kv hkv).1
    have h2 := length_print_le (h kv hkv).2
    simp only [printMember, length_append, length_cons, h1]
    omega
  have hsum : ((kvs.map printMember).map fun x => x.length + 1).sum ≤
      (kvs.map fun kv => kv.1.length + 4 + kv.2.width).sum := by
    rw [map_map]
    exact sum_le_sum hmember
  have hlen := length_commaClose_le '}'.toNat (kvs.map printMember)
  rw [writeStruct, length_utf8Encode_of_ascii]
  · rw [printStruct, length_cons]
    omega
  · refine forall_printStruct (fun _ _ hn => hn) fun kv hkv s hs n hn hge => ?_
    obtain ⟨c, hc, rfl⟩ := mem_map.mp hn
    have hplain := forall_mem_cons.mpr ⟨(h kv hkv).1, (h kv hkv).2.texts⟩ s hs c hc
    exact absurd hplain.2.1 (Nat.not_lt.mpr hge)

theorem sum_zip_le (names : List String) (values : List Printable) :
    ((names.zip values).map fun kv => kv.1.length + 4 + kv.2.width).sum ≤
      (names.map fun name => name.length + 4).sum + (values.map Printable.width).sum := by
  induction names generalizing values with
  | nil => simp
  | cons name names ih =>
    cases values with
    | nil => simp
    | cons value values =>
      have := ih values
      simp only [zip_cons_cons, map_cons, sum_cons]
      omega

theorem Layout.length_toVec_le {α : Type} {L : Layout α} {a : α}
    (hnames : ∀ name ∈ L.names, Codec.Plain name) (hvalues : ∀ p ∈ L.values a, p.Plain) :
    (L.toVec a).length ≤
      2 + ((L.names.map fun name => name.length + 4).sum +
        ((L.values a).map Printable.width).sum) := by
  refine (length_writeStruct_le fun kv hkv => ?_).trans
    (Nat.add_le_add_left (sum_zip_le L.names (L.values a)) 2)
  exact ⟨hnames _ (of_mem_zip hkv).1, hvalues _ (of_mem_zip hkv).2⟩

end ManagedDirectory.Codec
