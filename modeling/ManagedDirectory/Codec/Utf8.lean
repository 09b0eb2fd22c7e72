import Mathlib

/-!
# Code points and UTF-8

A text is a list of code points. `utf8Encode` is the UTF-8 encoding of RFC 3629 extended to
surrogates (the `surrogatepass` handler of Python); `utf8Decode sur` is its inverse, which
takes encoded surrogates only when `sur` is set. Both are machines over single bytes, so the
round trip is a four-case unrolling.
-/

namespace ManagedDirectory.Codec

open List

abbrev Bytes := List UInt8

def codePoints (s : String) : List Nat := s.toList.map Char.toNat

theorem codePoints_inj {s t : String} (h : codePoints s = codePoints t) : s = t := by
  have hinj : Function.Injective Char.toNat := fun a b hab => Char.ext (UInt32.toNat_inj.mp hab)
  exact String.toList_inj.mp (map_injective_iff.mpr hinj h)

def IsSurrogate (n : Nat) : Prop := 0xD800 ≤ n ∧ n < 0xE000

instance (n : Nat) : Decidable (IsSurrogate n) := inferInstanceAs (Decidable (_ ∧ _))

/-- A Unicode scalar value: what a `Char` holds. -/
def IsScalar (n : Nat) : Prop := n < 0x110000 ∧ ¬ IsSurrogate n

instance (n : Nat) : Decidable (IsScalar n) := inferInstanceAs (Decidable (_ ∧ _))

theorem isScalar_toNat (c : Char) : IsScalar c.toNat := by
  have h := c.valid
  simp only [UInt32.isValidChar, Nat.isValidChar] at h
  simp only [IsScalar, IsSurrogate, Char.toNat]
  omega

theorem isScalar_codePoints {s : String} : ∀ n ∈ codePoints s, IsScalar n := by
  intro n hn
  obtain ⟨c, -, rfl⟩ := mem_map.mp hn
  exact isScalar_toNat c

/-- The string with the given code points, if they are all scalar values. -/
def ofCodePoints (cs : List Nat) : Option String :=
  if ∀ n ∈ cs, IsScalar n then some (String.ofList (cs.map Char.ofNat)) else none

theorem toNat_ofNat_of_isScalar {n : Nat} (h : IsScalar n) : (Char.ofNat n).toNat = n := by
  have hv : n.isValidChar := by
    simp only [IsScalar, IsSurrogate] at h
    simp only [Nat.isValidChar]
    omega
  rw [Char.ofNat, dif_pos hv]
  rfl

@[simp] theorem ofCodePoints_codePoints (s : String) : ofCodePoints (codePoints s) = some s := by
  rw [ofCodePoints, if_pos isScalar_codePoints]
  simp [codePoints, Function.comp_def]

theorem codePoints_of_ofCodePoints {cs : List Nat} {s : String} (h : ofCodePoints cs = some s) :
    codePoints s = cs := by
  unfold ofCodePoints at h
  split at h
  · rename_i hs
    cases h
    simp only [codePoints, String.toList_ofList, map_map]
    conv => rhs; rw [← map_id cs]
    exact map_congr_left fun n hn => toNat_ofNat_of_isScalar (hs n hn)
  · cases h

/-! ## Encoding -/

/-- The bytes of one code point below `0x110000`. -/
def encodePoint (n : Nat) : Bytes :=
  if n < 0x80 then [UInt8.ofNat n]
  else if n < 0x800 then [UInt8.ofNat (0xC0 + n / 64), UInt8.ofNat (0x80 + n % 64)]
  else if n < 0x10000 then
    [UInt8.ofNat (0xE0 + n / 4096), UInt8.ofNat (0x80 + n / 64 % 64), UInt8.ofNat (0x80 + n % 64)]
  else
    [UInt8.ofNat (0xF0 + n / 262144), UInt8.ofNat (0x80 + n / 4096 % 64),
      UInt8.ofNat (0x80 + n / 64 % 64), UInt8.ofNat (0x80 + n % 64)]

def utf8Encode (cs : List Nat) : Bytes := cs.flatMap encodePoint

def utf8 (s : String) : Bytes := utf8Encode (codePoints s)

/-! ## Decoding -/

/-- What is owed inside a multi-byte character: `more` continuation bytes after the next one,
the bits so far, and the least value the character's length may encode. -/
structure Owed where
  more : Nat
  acc : Nat
  least : Nat

/-- The decoder between two bytes; `none` is between two characters. -/
def decodeFrom (sur : Bool) : Option Owed → Bytes → Option (List Nat)
  | none, [] => some []
  | some _, [] => none
  | none, b :: bs =>
    let n := b.toNat
    if n < 0x80 then (n :: ·) <$> decodeFrom sur none bs
    else if 0xC2 ≤ n ∧ n < 0xE0 then decodeFrom sur (some ⟨0, n - 0xC0, 0x80⟩) bs
    else if 0xE0 ≤ n ∧ n < 0xF0 then decodeFrom sur (some ⟨1, n - 0xE0, 0x800⟩) bs
    else if 0xF0 ≤ n ∧ n < 0xF5 then decodeFrom sur (some ⟨2, n - 0xF0, 0x10000⟩) bs
    else none
  | some ⟨more, acc, least⟩, b :: bs =>
    let n := b.toNat
    if 0x80 ≤ n ∧ n < 0xC0 then
      let acc' := acc * 64 + (n - 0x80)
      match more with
      | 0 =>
        if least ≤ acc' ∧ acc' < 0x110000 ∧ (sur = true ∨ ¬ IsSurrogate acc') then
          (acc' :: ·) <$> decodeFrom sur none bs
        else none
      | more + 1 => decodeFrom sur (some ⟨more, acc', least⟩) bs
    else none

def utf8Decode (sur : Bool) (bs : Bytes) : Option (List Nat) := decodeFrom sur none bs

theorem toNat_ofNat_lt {n : Nat} (h : n < 256) : (UInt8.ofNat n).toNat = n := by
  rw [UInt8.toNat_ofNat']; omega

theorem decodeFrom_encodePoint {sur : Bool} {n : Nat} (hn : n < 0x110000)
    (hs : sur = true ∨ ¬ IsSurrogate n) (bs : Bytes) :
    decodeFrom sur none (encodePoint n ++ bs) = (n :: ·) <$> decodeFrom sur none bs := by
  unfold encodePoint
  split
  · rename_i h1
    simp [decodeFrom, toNat_ofNat_lt (show n < 256 by omega), h1]
  · split
    · rename_i h1 h2
      have e1 := toNat_ofNat_lt (show 0xC0 + n / 64 < 256 by omega)
      have e2 := toNat_ofNat_lt (show 0x80 + n % 64 < 256 by omega)
      have hv : (0xC0 + n / 64 - 0xC0) * 64 + (0x80 + n % 64 - 0x80) = n := by omega
      simp only [cons_append, nil_append, decodeFrom, e1, e2, hv]
      rw [if_neg (by omega), if_pos (by omega), if_pos (by omega),
        if_pos ⟨by omega, hn, hs⟩]
    · split
      · rename_i h1 h2 h3
        have e1 := toNat_ofNat_lt (show 0xE0 + n / 4096 < 256 by omega)
        have e2 := toNat_ofNat_lt (show 0x80 + n / 64 % 64 < 256 by omega)
        have e3 := toNat_ofNat_lt (show 0x80 + n % 64 < 256 by omega)
        have hv : ((0xE0 + n / 4096 - 0xE0) * 64 + (0x80 + n / 64 % 64 - 0x80)) * 64 +
            (0x80 + n % 64 - 0x80) = n := by omega
        simp only [cons_append, nil_append, decodeFrom, e1, e2, e3, hv]
        rw [if_neg (by omega), if_neg (by omega), if_pos (by omega), if_pos (by omega),
          if_pos (by omega), if_pos ⟨by omega, hn, hs⟩]
      · rename_i h1 h2 h3
        have e1 := toNat_ofNat_lt (show 0xF0 + n / 262144 < 256 by omega)
        have e2 := toNat_ofNat_lt (show 0x80 + n / 4096 % 64 < 256 by omega)
        have e3 := toNat_ofNat_lt (show 0x80 + n / 64 % 64 < 256 by omega)
        have e4 := toNat_ofNat_lt (show 0x80 + n % 64 < 256 by omega)
        have hv : (((0xF0 + n / 262144 - 0xF0) * 64 + (0x80 + n / 4096 % 64 - 0x80)) * 64 +
            (0x80 + n / 64 % 64 - 0x80)) * 64 + (0x80 + n % 64 - 0x80) = n := by omega
        simp only [cons_append, nil_append, decodeFrom, e1, e2, e3, e4, hv]
        rw [if_neg (by omega), if_neg (by omega), if_neg (by omega), if_pos (by omega),
          if_pos (by omega), if_pos (by omega), if_pos (by omega), if_pos ⟨by omega, hn, hs⟩]

theorem utf8Decode_utf8Encode {sur : Bool} {cs : List Nat} (h : ∀ n ∈ cs, IsScalar n) :
    utf8Decode sur (utf8Encode cs) = some cs := by
  induction cs with
  | nil => rfl
  | cons n cs ih =>
    have hn := h n (mem_cons_self ..)
    have ih' := ih fun m hm => h m (mem_cons_of_mem _ hm)
    simp only [utf8Decode, utf8Encode, flatMap_cons] at ih' ⊢
    rw [decodeFrom_encodePoint hn.1 (Or.inr hn.2), ih']
    rfl

/-- **Round trip.** Decoding a string's bytes gives its code points back. -/
@[simp] theorem utf8Decode_utf8 (sur : Bool) (s : String) :
    utf8Decode sur (utf8 s) = some (codePoints s) :=
  utf8Decode_utf8Encode isScalar_codePoints

theorem decodeFrom_mono {st : Option Owed} {bs : Bytes} {cs : List Nat}
    (h : decodeFrom false st bs = some cs) : decodeFrom true st bs = some cs := by
  induction bs generalizing st cs with
  | nil =>
    cases st with
    | none => simpa [decodeFrom] using h
    | some o => simp [decodeFrom] at h
  | cons b bs ih =>
    cases st with
    | none =>
      simp only [decodeFrom] at h ⊢
      split at h
      · rename_i h1
        obtain ⟨ds, hd, rfl⟩ := Option.map_eq_some_iff.mp h
        rw [if_pos h1, ih hd]; rfl
      · rename_i h1
        rw [if_neg h1]
        split at h
        · rename_i h2; rw [if_pos h2]; exact ih h
        · rename_i h2
          rw [if_neg h2]
          split at h
          · rename_i h3; rw [if_pos h3]; exact ih h
          · rename_i h3
            rw [if_neg h3]
            split at h
            · rename_i h4; rw [if_pos h4]; exact ih h
            · cases h
    | some o =>
      obtain ⟨more, acc, least⟩ := o
      simp only [decodeFrom] at h ⊢
      split at h
      · rename_i h1
        rw [if_pos h1]
        cases more with
        | zero =>
          simp only at h ⊢
          split at h
          · rename_i h2
            obtain ⟨ds, hd, rfl⟩ := Option.map_eq_some_iff.mp h
            rw [if_pos ⟨h2.1, h2.2.1, by simp⟩, ih hd]; rfl
          · cases h
        | succ more => exact ih h
      · cases h

end ManagedDirectory.Codec
