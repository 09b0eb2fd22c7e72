import Mathlib

/-!
# Runs of a transition system

`Run Step s₀ es s`: from `s₀` the transitions `es` lead to `s`, each recorded with the state
before it, its label and the state after it. An invariant is shown for one step and holds after
every run (`Run.invariant`); `Run.history` lets it speak about the events so far.
-/

namespace ManagedDirectory.Lib

open List

variable {σ ℓ : Type}

structure Event (σ ℓ : Type) where
  before : σ
  label : ℓ
  after : σ

inductive Run (Step : σ → ℓ → σ → Prop) (s₀ : σ) : List (Event σ ℓ) → σ → Prop where
  | nil : Run Step s₀ [] s₀
  | snoc {es : List (Event σ ℓ)} {s s' : σ} {l : ℓ} (h : Run Step s₀ es s) (hstep : Step s l s') :
    Run Step s₀ (es ++ [⟨s, l, s'⟩]) s'

namespace Run

variable {Step : σ → ℓ → σ → Prop} {s₀ s : σ} {es : List (Event σ ℓ)}

theorem invariant (h : Run Step s₀ es s) (Inv : σ → Prop) (h0 : Inv s₀)
    (hstep : ∀ {s l s'}, Inv s → Step s l s' → Inv s') : Inv s := by
  induction h with
  | nil => exact h0
  | snoc _ hs ih => exact hstep ih hs

theorem history (h : Run Step s₀ es s) (Inv : List (Event σ ℓ) → σ → Prop) (h0 : Inv [] s₀)
    (hstep : ∀ {es s l s'}, Inv es s → Step s l s' → Inv (es ++ [⟨s, l, s'⟩]) s') :
    Inv es s := by
  induction h with
  | nil => exact h0
  | snoc _ hs ih => exact hstep ih hs

theorem trans {s' : σ} {es' : List (Event σ ℓ)} (h : Run Step s₀ es s) (h' : Run Step s es' s') :
    Run Step s₀ (es ++ es') s' := by
  induction h' with
  | nil => simpa using h
  | snoc _ hs ih =>
    rw [← append_assoc]
    exact .snoc ih hs

theorem turn (h : Run Step s₀ es s) {p : σ → Prop} (h0 : ¬ p s₀) (hs : p s) :
    ∃ e ∈ es, ¬ p e.before ∧ p e.after := by
  induction h with
  | nil => exact absurd hs h0
  | @snoc es m s' l _ hstep ih =>
    by_cases hm : p m
    · obtain ⟨e, he, hturn⟩ := ih hm
      exact ⟨e, mem_append_left _ he, hturn⟩
    · exact ⟨⟨m, l, s'⟩, by simp, hm, hs⟩

theorem split {pre post : List (Event σ ℓ)} {e : Event σ ℓ}
    (h : Run Step s₀ (pre ++ e :: post) s) :
    Run Step s₀ pre e.before ∧ Step e.before e.label e.after ∧ Run Step e.after post s := by
  induction post using List.reverseRecOn generalizing s with
  | nil =>
    generalize hes : pre ++ [e] = es at h
    cases h with
    | nil => simp at hes
    | snoc h hstep =>
      obtain ⟨rfl, heq⟩ := append_inj' hes rfl
      obtain rfl := singleton_inj.mp heq
      exact ⟨h, hstep, .nil⟩
  | append_singleton post x ih =>
    generalize hes : pre ++ e :: (post ++ [x]) = es at h
    cases h with
    | nil => simp at hes
    | snoc h hstep =>
      rw [← cons_append, ← append_assoc] at hes
      obtain ⟨rfl, heq⟩ := append_inj' hes rfl
      obtain rfl := singleton_inj.mp heq
      obtain ⟨h1, h2, h3⟩ := ih h
      exact ⟨h1, h2, .snoc h3 hstep⟩

theorem middle {pre post : List (Event σ ℓ)} (h : Run Step s₀ (pre ++ post) s) :
    ∃ m, Run Step s₀ pre m ∧ Run Step m post s := by
  cases post with
  | nil => exact ⟨s, by simpa using h, .nil⟩
  | cons e post =>
    obtain ⟨hpre, hstep, hpost⟩ := h.split
    exact ⟨e.before, hpre, by simpa using (Run.nil.snoc hstep).trans hpost⟩

theorem eq_of_nil (h : Run Step s₀ [] s) : s = s₀ := by
  generalize hnil : ([] : List (Event σ ℓ)) = es at h
  cases h with
  | nil => rfl
  | snoc => simp at hnil

theorem first {e : Event σ ℓ} (h : Run Step s₀ (e :: es) s) :
    e.before = s₀ ∧ Step e.before e.label e.after ∧ Run Step e.after es s := by
  obtain ⟨hnil, hstep, hrest⟩ := (show Run Step s₀ ([] ++ e :: es) s from h).split
  exact ⟨hnil.eq_of_nil, hstep, hrest⟩

theorem after_last {e : Event σ ℓ} (h : Run Step s₀ (es ++ [e]) s) : e.after = s :=
  h.split.2.2.eq_of_nil.symm

theorem restrict {C : Event σ ℓ → Prop} (h : Run Step s₀ es s) (hC : ∀ e ∈ es, C e) :
    Run (fun s l s' => Step s l s' ∧ C ⟨s, l, s'⟩) s₀ es s := by
  induction h with
  | nil => exact .nil
  | @snoc es m s' l _ hstep ih =>
    exact .snoc (ih fun e he => hC e (mem_append_left _ he)) ⟨hstep, hC _ (by simp)⟩

theorem step_of_mem (h : Run Step s₀ es s) {e : Event σ ℓ} (he : e ∈ es) :
    Step e.before e.label e.after := by
  obtain ⟨pre, post, rfl⟩ := append_of_mem he
  exact h.split.2.1

end Run

end ManagedDirectory.Lib
