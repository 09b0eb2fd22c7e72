import Mathlib

/-!
# Sequences of operations that may stop anywhere

`Throughout apply P s ops`: `P` holds at every moment while `ops` are applied to `s` one after the
other, so it holds wherever the sequence is cut (`Throughout.take`). A long sequence is taken apart
at its joints (`throughout_append`), a stretch in which every operation keeps `P` at once
(`throughout_of_step`).
-/

namespace ManagedDirectory.Lib

variable {σ α : Type} {apply : σ → α → σ} {P : σ → Prop} {s : σ} {xs ys : List α}

/-- `P` at the start and after each of the operations. -/
def Throughout (apply : σ → α → σ) (P : σ → Prop) : σ → List α → Prop
  | s, [] => P s
  | s, x :: xs => P s ∧ Throughout apply P (apply s x) xs

theorem Throughout.take (h : Throughout apply P s xs) (k : Nat) :
    P ((xs.take k).foldl apply s) := by
  induction xs generalizing s k with
  | nil => rwa [List.take_nil]
  | cons x xs ih =>
    cases k with
    | zero => exact h.1
    | succ k => exact ih h.2 k

theorem Throughout.finish (h : Throughout apply P s xs) : P (xs.foldl apply s) := by
  simpa using h.take xs.length

theorem throughout_append (hxs : Throughout apply P s xs)
    (hys : Throughout apply P (xs.foldl apply s) ys) : Throughout apply P s (xs ++ ys) := by
  induction xs generalizing s with
  | nil => exact hys
  | cons x xs ih => exact ⟨hxs.1, ih hxs.2 hys⟩

theorem throughout_of_step (hs : P s) (hstep : ∀ x ∈ xs, ∀ s, P s → P (apply s x)) :
    Throughout apply P s xs := by
  induction xs generalizing s with
  | nil => exact hs
  | cons x xs ih =>
    refine ⟨hs, ih (hstep x (by simp) s hs) ?_⟩
    exact fun y hy => hstep y (List.mem_cons_of_mem _ hy)

end ManagedDirectory.Lib
