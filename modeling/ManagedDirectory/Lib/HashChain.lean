import Mathlib

/-!
# Hash chains

A log whose head is folded over its entries: `head link g xs` starts from `g` and links one entry
after another. `steps` are the pairs that were linked.

`head_inj`: where linking is injective on the steps of two logs and never gives `g` back, equal
heads come from equal logs. Injectivity is asked for the steps that occur only, so that a hash
with collisions elsewhere can be used.
-/

namespace ManagedDirectory.Lib.HashChain

variable {η ε : Type} (link : η → ε → η) (g : η)

def head (xs : List ε) : η := xs.foldl link g

def steps : η → List ε → List (η × ε)
  | _, [] => []
  | h, x :: xs => (h, x) :: steps (link h x) xs

theorem head_concat (xs : List ε) (x : ε) : head link g (xs ++ [x]) = link (head link g xs) x := by
  simp [head]

theorem steps_concat (xs : List ε) (x : ε) :
    steps link g (xs ++ [x]) = steps link g xs ++ [(head link g xs, x)] := by
  induction xs generalizing g with
  | nil => rfl
  | cons y ys ih => simp [steps, head, ih]

variable {link g}

theorem head_of_mem_steps {P : η → Prop} (hg : P g) (hlink : ∀ h x, P (link h x)) {xs : List ε}
    {s : η × ε} (hs : s ∈ steps link g xs) : P s.1 := by
  induction xs generalizing g with
  | nil => simp [steps] at hs
  | cons x xs ih =>
    rcases List.mem_cons.mp hs with rfl | hs
    · exact hg
    · exact ih (hlink g x) hs

/-- **The head commits to the log.** -/
theorem head_inj {xs ys : List ε} (hfresh : ∀ h x, link h x ≠ g)
    (hinj : ∀ s ∈ steps link g xs, ∀ t ∈ steps link g ys,
      link s.1 s.2 = link t.1 t.2 → s.1 = t.1 ∧ s.2 = t.2)
    (h : head link g xs = head link g ys) : xs = ys := by
  -- from the ends towards the front: equal heads were linked from equal heads and entries
  induction xs using List.reverseRecOn generalizing ys with
  | nil =>
    rcases List.eq_nil_or_concat ys with rfl | ⟨ys, y, rfl⟩
    · rfl
    · rw [List.concat_eq_append, head_concat] at h
      exact absurd h.symm (hfresh _ _)
  | append_singleton xs x ih =>
    rcases List.eq_nil_or_concat ys with rfl | ⟨ys, y, rfl⟩
    · rw [head_concat] at h
      exact absurd h (hfresh _ _)
    · rw [List.concat_eq_append] at h hinj ⊢
      rw [head_concat, head_concat] at h
      rw [steps_concat, steps_concat] at hinj
      obtain ⟨hhead, hentry⟩ := hinj (head link g xs, x) (by simp) (head link g ys, y) (by simp) h
      have hxs : xs = ys := by
        refine ih ?_ hhead
        intro s hs t ht
        exact hinj s (List.mem_append_left _ hs) t (List.mem_append_left _ ht)
      rw [hxs, show x = y from hentry]

end ManagedDirectory.Lib.HashChain
