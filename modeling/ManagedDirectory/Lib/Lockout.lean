import Mathlib

/-!
# A failure counter that locks

Every failure counts, and from the `limit`-th on each one locks the counter for `period` from its
own time. The end of a lock does not reset the counter. Failures come in any order of their times:
one may be looked at after another that started later.

`admits_bound`: of the failures that are let through one after another, at most `limit + T / period`
have their times in a window of length `T`.
-/

namespace ManagedDirectory.Lib.Lockout

structure Policy where
  limit : Nat
  period : Int
  limit_pos : 0 < limit
  period_pos : 0 < period

structure Counter where
  failures : Nat
  lockedUntil : Option Int

/-- An attempt of time `x` is let through. -/
def Counter.Admits (c : Counter) (x : Int) : Prop := ∀ u ∈ c.lockedUntil, u ≤ x

namespace Policy

variable (P : Policy)

def fail (x : Int) (c : Counter) : Counter where
  failures := c.failures + 1
  lockedUntil := if P.limit ≤ c.failures + 1 then some (x + P.period) else none

/-- Failures of the times `xs` are let through one after another. -/
def Admits : Counter → List Int → Prop
  | _, [] => True
  | c, x :: xs => c.Admits x ∧ Admits (P.fail x c) xs

variable {P} {c : Counter} {x u lo hi T : Int} {xs : List Int}

theorem fail_locks (h : P.limit ≤ c.failures + 1) :
    (P.fail x c).lockedUntil = some (x + P.period) := if_pos h

def within (lo hi : Int) (xs : List Int) : Nat := xs.countP fun x => lo ≤ x ∧ x ≤ hi

theorem within_cons :
    within lo hi (x :: xs) = within lo hi xs + if lo ≤ x ∧ x ≤ hi then 1 else 0 := by
  simp [within, List.countP_cons]

/-- Once the counter locks at every failure, the failures are a period apart, and the first one is
not before the end of the lock. -/
theorem locked_spread (hlimit : P.limit ≤ c.failures) (hlocked : c.lockedUntil = some u)
    (h : P.Admits c xs) (hpos : 0 < within lo hi xs) :
    max lo u + (within lo hi xs - 1) * P.period ≤ hi := by
  induction xs generalizing c u with
  | nil => simp [within] at hpos
  | cons x xs ih =>
    obtain ⟨hx, hxs⟩ := h
    have hux : u ≤ x := hx u hlocked
    have hnext := ih (c := P.fail x c) (Nat.le_succ_of_le hlimit)
      (fail_locks (Nat.le_succ_of_le hlimit)) hxs
    have hperiod := P.period_pos
    rw [within_cons] at hpos ⊢
    generalize within lo hi xs = n at hpos hnext ⊢
    split_ifs at hpos ⊢ with hin
    · rcases Nat.eq_zero_or_pos n with rfl | hn
      · simpa using ⟨hin.1.trans hin.2, hux.trans hin.2⟩
      · have hmax : max lo u ≤ x := max_le hin.1 hux
        have := le_max_right lo (x + P.period)
        push_cast
        nlinarith [hnext hn]
    · have hmax : max lo u ≤ max lo (x + P.period) := max_le_max_left _ (by omega)
      have := hnext (by simpa using hpos)
      simp only [Nat.add_zero]
      omega

theorem spread (hlimit : P.limit ≤ c.failures + 1) (h : P.Admits c xs)
    (hpos : 0 < within lo hi xs) : lo + (within lo hi xs - 1) * P.period ≤ hi := by
  cases xs with
  | nil => simp [within] at hpos
  | cons x xs =>
    have hnext : 0 < within lo hi xs → _ := locked_spread hlimit (fail_locks hlimit) h.2
    have hperiod := P.period_pos
    rw [within_cons] at hpos ⊢
    generalize within lo hi xs = n at hpos hnext ⊢
    split_ifs at hpos ⊢ with hin
    · rcases Nat.eq_zero_or_pos n with rfl | hn
      · simpa using hin.1.trans hin.2
      · have := le_max_right lo (x + P.period)
        push_cast
        nlinarith [hnext hn]
    · have := le_max_left lo (x + P.period)
      have := hnext (by simpa using hpos)
      simp only [Nat.add_zero]
      omega

theorem spread_bound (hT : 0 ≤ T) (hlimit : P.limit ≤ c.failures + 1) (h : P.Admits c xs) :
    (within lo (lo + T) xs : Int) ≤ T / P.period + 1 := by
  rcases Nat.eq_zero_or_pos (within lo (lo + T) xs) with hzero | hpos
  · have := Int.ediv_nonneg hT P.period_pos.le
    omega
  · have hspread := spread hlimit h hpos
    have := (Int.le_ediv_iff_mul_le (a := (within lo (lo + T) xs : Int) - 1) P.period_pos).mpr
      (by linarith : _ ≤ T)
    omega

/-- **The bound.** -/
theorem admits_bound (hT : 0 ≤ T) (h : P.Admits c xs) :
    (within lo (lo + T) xs : Int) ≤ P.limit + T / P.period := by
  suffices hbound : (within lo (lo + T) xs : Int) ≤
      ((P.limit - 1 - c.failures : Nat) : Int) + (T / P.period + 1) by
    have := P.limit_pos
    omega
  induction xs generalizing c with
  | nil =>
    have := Int.ediv_nonneg hT P.period_pos.le
    simp only [within, List.countP_nil]
    omega
  | cons x xs ih =>
    by_cases hlimit : P.limit ≤ c.failures + 1
    · have : (within lo (lo + T) (x :: xs) : Int) ≤ _ := spread_bound hT hlimit h
      omega
    · -- this failure is one of those below the limit
      have hnext := ih h.2
      have hfailures : (P.fail x c).failures = c.failures + 1 := rfl
      rw [hfailures] at hnext
      rw [within_cons]
      split_ifs <;> omega

end Policy

end ManagedDirectory.Lib.Lockout
