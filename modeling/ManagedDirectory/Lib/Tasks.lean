import ManagedDirectory.Lib.Run

/-!
# Requests in flight

A shared state and the requests that work on it at the same time. A request goes through stages, its
tasks; one stage is atomic, and between two stages of a request anything else may happen.

`invariant` is the rule for such a system: a property of the shared state and a property of every
task in flight, where a stage may rely on both and must leave the properties of the tasks beside it
intact. The runs may be restricted by a condition on their events; `Undisturbed` is one, that says
which tasks may be beside a stage when it runs. Where stages take locks and keep them
(`Locking`), no two tasks hold the same one.
-/

namespace ManagedDirectory.Lib.Tasks

open List

variable {σ τ : Type}

structure Sys (σ τ : Type) where
  shared : σ
  tasks : List τ

structure Rules (σ τ : Type) where
  starts : σ → τ → Prop
  /-- What a stage does to the shared state, and what is left of its request. -/
  advances : σ → τ → σ → Option τ → Prop
  moves : σ → σ → Prop

inductive Label (τ : Type) where
  | start (t : τ)
  | advance (t : τ) (rest : Option τ)
  | move

inductive Step (R : Rules σ τ) (s : Sys σ τ) : Label τ → Sys σ τ → Prop where
  | start {t : τ} (h : R.starts s.shared t) : Step R s (.start t) { s with tasks := t :: s.tasks }
  | advance {l₁ l₂ : List τ} {t : τ} {shared : σ} {rest : Option τ}
      (htasks : s.tasks = l₁ ++ t :: l₂) (h : R.advances s.shared t shared rest) :
    Step R s (.advance t rest) ⟨shared, l₁ ++ rest.toList ++ l₂⟩
  | move {shared : σ} (h : R.moves s.shared shared) : Step R s .move { s with shared := shared }

abbrev Ev (σ τ : Type) := Event (Sys σ τ) (Label τ)

/-- The task `u` is in flight beside `t`. -/
def Beside (s : Sys σ τ) (t u : τ) : Prop :=
  ∃ l₁ l₂, s.tasks = l₁ ++ t :: l₂ ∧ u ∈ l₁ ++ l₂

/-- If a task runs in `e`, then only beside such as it gets along with. -/
def Undisturbed (ok : τ → τ → Prop) (e : Ev σ τ) : Prop :=
  ∀ t rest, e.label = .advance t rest → ∀ u, Beside e.before t u → ok t u

variable {R : Rules σ τ} {s₀ s : Sys σ τ} {es : List (Ev σ τ)}

theorem mem_advance {l₁ l₂ : List τ} {t u : τ} {rest : Option τ}
    (htasks : s.tasks = l₁ ++ t :: l₂) (hu : u ∈ l₁ ++ rest.toList ++ l₂) :
    rest = some u ∨ Beside s t u := by
  simp only [mem_append, Option.mem_toList, or_assoc] at hu
  rcases hu with hu | hu | hu
  · exact .inr ⟨l₁, l₂, htasks, mem_append_left _ hu⟩
  · exact .inl hu
  · exact .inr ⟨l₁, l₂, htasks, mem_append_right _ hu⟩

theorem mem_of_beside {t u : τ} (h : Beside s t u) : u ∈ s.tasks := by
  obtain ⟨l₁, l₂, htasks, hu⟩ := h
  rw [htasks]
  simp only [mem_append, mem_cons] at hu ⊢
  tauto

/-- **The invariant rule.** -/
theorem invariant {C : Ev σ τ → Prop} {I : σ → Prop} {J : σ → τ → Prop}
    (h : Run (Step R) s₀ es s) (hC : ∀ e ∈ es, C e)
    (h0 : I s₀.shared) (h0' : ∀ t ∈ s₀.tasks, J s₀.shared t)
    (hstart : ∀ {s s' t}, C ⟨s, .start t, s'⟩ → I s.shared → R.starts s.shared t → J s.shared t)
    (hadvance : ∀ {s s' t rest}, C ⟨s, .advance t rest, s'⟩ → I s.shared → J s.shared t →
      R.advances s.shared t s'.shared rest →
      I s'.shared ∧ (∀ r, rest = some r → J s'.shared r) ∧
        ∀ u, Beside s t u → J s.shared u → J s'.shared u)
    (hmove : ∀ {s s'}, C ⟨s, .move, s'⟩ → I s.shared → R.moves s.shared s'.shared →
      I s'.shared ∧ ∀ u ∈ s.tasks, J s.shared u → J s'.shared u) :
    I s.shared ∧ ∀ t ∈ s.tasks, J s.shared t := by
  refine (h.restrict hC).invariant (fun s => I s.shared ∧ ∀ t ∈ s.tasks, J s.shared t) ⟨h0, h0'⟩ ?_
  rintro s l s' ⟨hI, hJ⟩ ⟨hstep, hc⟩
  cases hstep with
  | start hok =>
    have hnew := hstart hc hI hok
    exact ⟨hI, forall_mem_cons.mpr ⟨hnew, hJ⟩⟩
  | @advance l₁ l₂ t shared rest htasks hrun =>
    obtain ⟨hI', hrest, hothers⟩ := hadvance hc hI (hJ t (by simp [htasks])) hrun
    refine ⟨hI', fun u hu => ?_⟩
    rcases mem_advance htasks hu with hu | hu
    · exact hrest u hu
    · exact hothers u hu (hJ u (mem_of_beside hu))
  | move hmoves =>
    obtain ⟨hI', hothers⟩ := hmove hc hI hmoves
    exact ⟨hI', fun u hu => hothers u hu (hJ u hu)⟩

/-! ## Locks -/

section Locks

variable {κ : Type}

structure Exclusive (held : τ → List κ) (locks : σ → List κ) (s : Sys σ τ) : Prop where
  locked : ∀ t ∈ s.tasks, ∀ k ∈ held t, k ∈ locks s.shared
  apart : s.tasks.Pairwise fun t u => (held t).Disjoint (held u)

/-- A request comes in with nothing; a stage takes only what is not locked, and gives back only what
it holds. -/
structure Locking (R : Rules σ τ) (held : τ → List κ) (locks : σ → List κ) : Prop where
  start : ∀ {a t}, R.starts a t → held t = []
  takes : ∀ {a t b r}, R.advances a t b (some r) → (∀ k ∈ held t, k ∈ locks a) → ∀ k ∈ held r,
    k ∈ locks b ∧ (k ∈ held t ∨ k ∉ locks a)
  keeps : ∀ {a t b rest}, R.advances a t b rest → ∀ k ∈ locks a, k ∉ held t → k ∈ locks b
  move : ∀ {a b}, R.moves a b → ∀ k ∈ locks a, k ∈ locks b

variable {held : τ → List κ} {locks : σ → List κ}

theorem Exclusive.beside (h : Exclusive held locks s) {t u : τ} (hu : Beside s t u) {k : κ}
    (hk : k ∈ held t) : k ∉ held u := by
  obtain ⟨l₁, l₂, htasks, hu⟩ := hu
  have hapart := h.apart
  rw [htasks, pairwise_append, pairwise_cons] at hapart
  obtain ⟨-, ⟨hright, -⟩, hleft⟩ := hapart
  rcases mem_append.mp hu with hu | hu
  · exact fun hk' => hleft u hu t mem_cons_self hk' hk
  · exact fun hk' => hright u hu hk hk'

theorem Exclusive.advance (h : Exclusive held locks s) (hR : Locking R held locks)
    {l₁ l₂ : List τ} {t : τ} {b : σ} {rest : Option τ} (htasks : s.tasks = l₁ ++ t :: l₂)
    (hadv : R.advances s.shared t b rest) :
    Exclusive held locks ⟨b, l₁ ++ rest.toList ++ l₂⟩ := by
  have hown : ∀ k ∈ held t, k ∈ locks s.shared := h.locked t (by simp [htasks])
  have hothers : ∀ u, Beside s t u → ∀ k ∈ held u, k ∈ locks b := fun u hu k hk =>
    hR.keeps hadv k (h.locked u (mem_of_beside hu) k hk) fun hk' => h.beside hu hk' hk
  -- what is left of the request holds what its stage held, or what nobody did
  have hrest : ∀ r, rest = some r → ∀ u, Beside s t u → (held r).Disjoint (held u) := by
    rintro r rfl u hu k hk hku
    rcases (hR.takes hadv hown k hk).2 with hk' | hfree
    · exact h.beside hu hk' hku
    · exact hfree (h.locked u (mem_of_beside hu) k hku)
  refine ⟨fun u hu k hk => ?_, ?_⟩
  · rcases mem_advance htasks hu with rfl | hu
    · exact (hR.takes hadv hown k hk).1
    · exact hothers u hu k hk
  · have hapart := h.apart
    rw [htasks, pairwise_append, pairwise_cons] at hapart
    obtain ⟨hl₁, ⟨-, hl₂⟩, hacross⟩ := hapart
    cases rest with
    | none =>
      simp only [Option.toList_none, append_nil]
      exact pairwise_append.mpr ⟨hl₁, hl₂, fun u hu w hw => hacross u hu w (by simp [hw])⟩
    | some r =>
      simp only [Option.toList_some, append_assoc, singleton_append]
      refine pairwise_append.mpr ⟨hl₁, pairwise_cons.mpr ⟨fun u hu => ?_, hl₂⟩, ?_⟩
      · exact hrest r rfl u ⟨l₁, l₂, htasks, mem_append_right _ hu⟩
      · intro u hu w hw
        rcases mem_cons.mp hw with rfl | hw
        · exact (hrest _ rfl u ⟨l₁, l₂, htasks, mem_append_left _ hu⟩).symm
        · exact hacross u hu w (by simp [hw])

/-- **No two tasks hold the same lock**, in any run. -/
theorem Locking.exclusive (hR : Locking R held locks) (h : Run (Step R) s₀ es s)
    (h0 : s₀.tasks = []) : Exclusive held locks s := by
  refine h.invariant (Exclusive held locks) ⟨by simp [h0], by simp [h0]⟩ ?_
  intro s l s' hs hstep
  cases hstep with
  | start hok =>
    have hnone := hR.start hok
    exact ⟨forall_mem_cons.mpr ⟨by simp [hnone], hs.locked⟩,
      pairwise_cons.mpr ⟨by simp [hnone], hs.apart⟩⟩
  | advance htasks hadv => exact hs.advance hR htasks hadv
  | move hmove => exact ⟨fun t ht k hk => hR.move hmove k (hs.locked t ht k hk), hs.apart⟩

end Locks

/-! ## Runs to a state -/

theorem step_first {a b : σ} {t : τ} {ts : List τ} {rest : Option τ} (h : R.advances a t b rest) :
    Step R ⟨a, t :: ts⟩ (.advance t rest) ⟨b, rest.toList ++ ts⟩ :=
  @Step.advance _ _ R ⟨a, t :: ts⟩ [] ts t b rest rfl h

/-- A run leads from `s₀` to `s` by events that meet the condition. -/
def Reaches (R : Rules σ τ) (C : Ev σ τ → Prop) (s₀ s : Sys σ τ) : Prop :=
  ∃ es, Run (Step R) s₀ es s ∧ ∀ e ∈ es, C e

namespace Reaches

variable {C : Ev σ τ → Prop} {a b : σ} {ts : List τ} {t : τ}

theorem refl (s : Sys σ τ) : Reaches R C s s := ⟨[], .nil, by simp⟩

theorem step {s' : Sys σ τ} {l : Label τ} (h : Reaches R C s₀ s) (hstep : Step R s l s')
    (hC : C ⟨s, l, s'⟩) : Reaches R C s₀ s' := by
  obtain ⟨es, hrun, hes⟩ := h
  refine ⟨_, .snoc hrun hstep, fun e he => ?_⟩
  rcases mem_append.mp he with he | he
  · exact hes e he
  · exact mem_singleton.mp he ▸ hC

theorem start (h : Reaches R C s₀ ⟨a, ts⟩) (ht : R.starts a t)
    (hC : C ⟨⟨a, ts⟩, .start t, ⟨a, t :: ts⟩⟩) : Reaches R C s₀ ⟨a, t :: ts⟩ :=
  h.step (.start ht) hC

theorem first {rest : Option τ} (h : Reaches R C s₀ ⟨a, t :: ts⟩) (ht : R.advances a t b rest)
    (hC : C ⟨⟨a, t :: ts⟩, .advance t rest, ⟨b, rest.toList ++ ts⟩⟩) :
    Reaches R C s₀ ⟨b, rest.toList ++ ts⟩ :=
  h.step (step_first ht) hC

theorem move (h : Reaches R C s₀ ⟨a, ts⟩) (hm : R.moves a b) (hC : C ⟨⟨a, ts⟩, .move, ⟨b, ts⟩⟩) :
    Reaches R C s₀ ⟨b, ts⟩ :=
  h.step (.move hm) hC

end Reaches

theorem undisturbed_of_alone {ok : τ → τ → Prop} {s s' : Sys σ τ} {l : Label τ}
    (h : s.tasks.length ≤ 1) : Undisturbed ok ⟨s, l, s'⟩ := by
  rintro t rest - u ⟨l₁, l₂, htasks, hu⟩
  rw [show s.tasks = _ from htasks, length_append, length_cons] at h
  have hnil : (l₁ ++ l₂).length = 0 := by
    rw [length_append]
    omega
  rw [length_eq_zero_iff.mp hnil] at hu
  cases hu

end ManagedDirectory.Lib.Tasks
