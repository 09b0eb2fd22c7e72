import Mathlib

/-!
# Wrapping 64-bit arithmetic

`Int64` operations as operations on `Int`: exact when the result fits, and one-sided bounds that
hold as long as the result does not wrap past one end. `Overflow` is what a build profile does
with a result that does not fit.
-/

namespace ManagedDirectory.Lib

variable {a b : Int64}

theorem toInt_add_of_fits (hlo : -2 ^ 63 ≤ a.toInt + b.toInt) (hhi : a.toInt + b.toInt < 2 ^ 63) :
    (a + b).toInt = a.toInt + b.toInt := by
  rw [Int64.toInt_add, Int.bmod_eq_of_le_mul_two (by omega) (by omega)]

theorem toInt_sub_of_fits (hlo : -2 ^ 63 ≤ a.toInt - b.toInt) (hhi : a.toInt - b.toInt < 2 ^ 63) :
    (a - b).toInt = a.toInt - b.toInt := by
  rw [Int64.toInt_sub, Int.bmod_eq_of_le_mul_two (by omega) (by omega)]

theorem toInt_mul_of_fits (hlo : -2 ^ 63 ≤ a.toInt * b.toInt) (hhi : a.toInt * b.toInt < 2 ^ 63) :
    (a * b).toInt = a.toInt * b.toInt := by
  rw [Int64.toInt_mul, Int.bmod_eq_of_le_mul_two (by omega) (by omega)]

theorem toInt_add_le (h : -2 ^ 63 ≤ a.toInt + b.toInt) :
    (a + b).toInt ≤ a.toInt + b.toInt := by
  have := a.toInt_lt
  have := b.toInt_lt
  rw [Int64.toInt_add]
  by_cases hlt : a.toInt + b.toInt < 2 ^ 63
  · exact Int.le_of_eq (Int.bmod_eq_of_le_mul_two (by omega) (by omega))
  · have := Int.bmod_lt (x := a.toInt + b.toInt) (m := 2 ^ 64) (by omega)
    omega

theorem le_toInt_sub (h : a.toInt - b.toInt < 2 ^ 63) :
    a.toInt - b.toInt ≤ (a - b).toInt := by
  have := a.le_toInt
  have := b.le_toInt
  rw [Int64.toInt_sub]
  by_cases hle : -2 ^ 63 ≤ a.toInt - b.toInt
  · exact Int.le_of_eq (Int.bmod_eq_of_le_mul_two (by omega) (by omega)).symm
  · have := Int.le_bmod (x := a.toInt - b.toInt) (m := 2 ^ 64) (by omega)
    omega

theorem toInt_max_zero (g : Int64) : (max g 0).toInt = max g.toInt 0 := by
  have hdef : max g 0 = if g ≤ 0 then 0 else g := rfl
  have hzero : (0 : Int64).toInt = 0 := rfl
  rw [hdef]
  split_ifs with h
  · have := Int64.le_iff_toInt_le.mp h
    omega
  · have := mt Int64.le_iff_toInt_le.mpr h
    omega

theorem toInt_of_abs_le {d : Int64} {n : Nat} (h : d.abs.toInt ≤ n) :
    (-(n : Int) ≤ d.toInt ∧ d.toInt ≤ n) ∨ d.toInt = -2 ^ 63 := by
  have habs : d.abs.toInt = d.toBitVec.abs.toInt := rfl
  have hd : d.toInt = d.toBitVec.toInt := rfl
  rw [habs, BitVec.toInt_abs_eq_natAbs] at h
  split_ifs at h with hmin
  · right
    rw [hd, hmin]
    rfl
  · left
    omega

theorem exists_toInt_sub (a b : Int64) :
    ∃ k : Int, a.toInt - b.toInt = (a - b).toInt + 2 ^ 64 * k := by
  rw [Int64.toInt_sub]
  have hmod : (a.toInt - b.toInt - (a.toInt - b.toInt).bmod (2 ^ 64)) % 2 ^ 64 = 0 := by
    have := Int.bmod_emod (x := a.toInt - b.toInt) (m := 2 ^ 64)
    omega
  exact ⟨(a.toInt - b.toInt - (a.toInt - b.toInt).bmod (2 ^ 64)) / 2 ^ 64, by omega⟩

/-- Two clock readings that are both within `n` of one timestamp, as wrapping arithmetic sees it,
are within `2 * n` of each other. -/
theorem close_of_abs_sub_le {f g ts : Int64} {n : Nat} (hn : n < 2 ^ 61)
    (hf : 0 ≤ f.toInt ∧ f.toInt < 2 ^ 62) (hg : 0 ≤ g.toInt ∧ g.toInt < 2 ^ 62)
    (h : (f - ts).abs.toInt ≤ n) (h' : (g - ts).abs.toInt ≤ n) :
    g.toInt - f.toInt ≤ 2 * n := by
  have hts := ts.le_toInt
  have hts' := ts.toInt_lt
  obtain ⟨k, hk⟩ : ∃ k : Int, f.toInt - ts.toInt = (f - ts).toInt + 2 ^ 64 * k :=
    exists_toInt_sub f ts
  obtain ⟨l, hl⟩ : ∃ k : Int, g.toInt - ts.toInt = (g - ts).toInt + 2 ^ 64 * k :=
    exists_toInt_sub g ts
  have := toInt_of_abs_le h
  have := toInt_of_abs_le h'
  omega

/-! ## Build profiles -/

inductive Overflow where
  | wraps
  | panics
  deriving DecidableEq

namespace Overflow

/-- `a - b`; `none` is a panic. -/
def sub : Overflow → Int64 → Int64 → Option Int64
  | wraps, a, b => some (a - b)
  | panics, a, b =>
    if -2 ^ 63 ≤ a.toInt - b.toInt ∧ a.toInt - b.toInt < 2 ^ 63 then some (a - b) else none

/-- `a.abs()`, which does not fit for the least number only. -/
def abs : Overflow → Int64 → Option Int64
  | wraps, a => some a.abs
  | panics, a => if a.toInt = -2 ^ 63 then none else some a.abs

/-- `(a - b).abs()`. -/
def distance (o : Overflow) (a b : Int64) : Option Int64 := do
  o.abs (← o.sub a b)

end Overflow

theorem toInt_abs_of_ne {d : Int64} (h : d.toInt ≠ -2 ^ 63) : d.abs.toInt = |d.toInt| := by
  have habs : d.abs.toInt = d.toBitVec.abs.toInt := rfl
  have hd : d.toInt = d.toBitVec.toInt := rfl
  rw [habs, BitVec.toInt_abs_eq_natAbs, if_neg, hd, Int.natCast_natAbs]
  rintro hmin
  refine h ?_
  rw [hd, hmin]
  rfl

/-- From a non-negative number the distance to any number less than `2 ^ 63` below it is exact in
both profiles. -/
theorem Overflow.distance_eq {o : Overflow} (ha : 0 ≤ a.toInt) (h : a.toInt - b.toInt < 2 ^ 63) :
    ∃ d, o.distance a b = some d ∧ d.toInt = |a.toInt - b.toInt| := by
  have hb := b.toInt_lt
  have hsub : (a - b).toInt = a.toInt - b.toInt := toInt_sub_of_fits (by omega) h
  have hne : (a - b).toInt ≠ -2 ^ 63 := by omega
  refine ⟨(a - b).abs, ?_, by rw [toInt_abs_of_ne hne, hsub]⟩
  cases o with
  | wraps => rfl
  | panics =>
    have hfits : -2 ^ 63 ≤ a.toInt - b.toInt ∧ a.toInt - b.toInt < 2 ^ 63 := by omega
    simp only [distance, sub, abs, if_pos hfits, Option.bind_eq_bind, Option.bind_some, if_neg hne]

theorem Overflow.distance_panics (h : 2 ^ 63 ≤ a.toInt - b.toInt) :
    Overflow.panics.distance a b = none := by
  have hfits : ¬ (-2 ^ 63 ≤ a.toInt - b.toInt ∧ a.toInt - b.toInt < 2 ^ 63) := by omega
  simp only [distance, sub, if_neg hfits, Option.bind_eq_bind, Option.bind_none]

end ManagedDirectory.Lib
