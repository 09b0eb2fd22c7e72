import ManagedDirectory.Lib.Run

/-!
# Transactions with row locks

A store of rows and the transactions that run on it at the same time. A transaction starts, waits
for the lock of one row, reads the row and whatever else it needs (`outside`), and commits what it
planned; between the lock and the commit any other transaction may take its own steps.

`change_of_run`: however the transactions interleave, a row changes only by a commit, and by what
that transaction plans from the row as it is right before the commit. `cell_invariant` is the
invariant rule that follows: it asks about one transaction on one row.
-/

namespace ManagedDirectory.Lib.Locks

open List

/-- A transaction that holds the lock of row `key`: it read `old` there and will write `new`. -/
structure Held (κ σ ω : Type) where
  key : κ
  op : ω
  old : σ
  new : σ

structure Sys (κ σ ω γ : Type) where
  cells : κ → σ
  outside : γ
  waiting : List ω
  held : List (Held κ σ ω)

inductive Label (κ ω : Type) where
  | start (op : ω)
  | lock (key : κ) (op : ω)
  | commit (key : κ) (op : ω)
  | stop (op : ω)
  | outside

structure Rules (κ σ ω γ : Type) where
  /-- What a transaction writes to its row, from what it reads under the lock. -/
  plan : γ → ω → κ → σ → Option σ
  starts : Sys κ σ ω γ → ω → Prop
  moves : γ → γ → Prop

variable {κ σ ω γ : Type}

inductive Step [DecidableEq κ] (R : Rules κ σ ω γ) (s : Sys κ σ ω γ) : Label κ ω → Sys κ σ ω γ → Prop where
  | start {op : ω} (h : R.starts s op) : Step R s (.start op) { s with waiting := op :: s.waiting }
  | lock {l₁ l₂ : List ω} {op : ω} {key : κ} {new : σ} (hwaiting : s.waiting = l₁ ++ op :: l₂)
      (hfree : ∀ h ∈ s.held, h.key ≠ key) (hplan : R.plan s.outside op key (s.cells key) = some new) :
    Step R s (.lock key op)
      { s with waiting := l₁ ++ l₂, held := ⟨key, op, s.cells key, new⟩ :: s.held }
  | commit {l₁ l₂ : List (Held κ σ ω)} {h : Held κ σ ω} (hheld : s.held = l₁ ++ h :: l₂) :
    Step R s (.commit h.key h.op)
      { s with cells := Function.update s.cells h.key h.new, held := l₁ ++ l₂ }
  | refuse {l₁ l₂ : List ω} {op : ω} (hwaiting : s.waiting = l₁ ++ op :: l₂) :
    Step R s (.stop op) { s with waiting := l₁ ++ l₂ }
  | abort {l₁ l₂ : List (Held κ σ ω)} {h : Held κ σ ω} (hheld : s.held = l₁ ++ h :: l₂) :
    Step R s (.stop h.op) { s with held := l₁ ++ l₂ }
  | outside {g : γ} (h : R.moves s.outside g) : Step R s .outside { s with outside := g }

variable {R : Rules κ σ ω γ} {s s' s₀ : Sys κ σ ω γ} {l : Label κ ω}

/-- A lock belongs to one transaction, and its row is as that transaction read it. -/
structure Valid (R : Rules κ σ ω γ) (s : Sys κ σ ω γ) : Prop where
  one : s.held.Pairwise fun a b => a.key ≠ b.key
  fresh : ∀ h ∈ s.held, s.cells h.key = h.old ∧ ∃ g, R.plan g h.op h.key h.old = some h.new

variable {es : List (Event (Sys κ σ ω γ) (Label κ ω))} {k : κ} {op : ω}

theorem Valid.release (hs : Valid R s) {l₁ l₂ : List (Held κ σ ω)} {h : Held κ σ ω}
    (hheld : s.held = l₁ ++ h :: l₂) :
    (l₁ ++ l₂).Pairwise (fun a b => a.key ≠ b.key) ∧ ∀ x ∈ l₁ ++ l₂, x ∈ s.held ∧ x.key ≠ h.key := by
  have hone := hs.one
  rw [hheld, pairwise_append] at hone
  obtain ⟨hone₁, htail, hcross⟩ := hone
  obtain ⟨hone₂, htail⟩ := pairwise_cons.mp htail
  refine ⟨pairwise_append.mpr ⟨hone₁, htail, ?_⟩, ?_⟩
  · intro a ha b hb
    exact hcross a ha b (mem_cons_of_mem _ hb)
  · intro x hx
    rw [hheld]
    rcases mem_append.mp hx with hx | hx
    · exact ⟨mem_append_left _ hx, hcross x hx h mem_cons_self⟩
    · exact ⟨mem_append_right _ (mem_cons_of_mem _ hx), (hone₂ x hx).symm⟩

variable [DecidableEq κ]

theorem step_valid (hs : Valid R s) (hstep : Step R s l s') : Valid R s' := by
  cases hstep with
  | start h => exact ⟨hs.one, hs.fresh⟩
  | lock hwaiting hfree hplan =>
    refine ⟨pairwise_cons.mpr ⟨fun h hh => (hfree h hh).symm, hs.one⟩, ?_⟩
    intro h hh
    rcases mem_cons.mp hh with rfl | hh
    · exact ⟨rfl, _, hplan⟩
    · exact hs.fresh h hh
  | commit hheld =>
    obtain ⟨hone, hother⟩ := hs.release hheld
    refine ⟨hone, fun x hx => ?_⟩
    obtain ⟨hx, hne⟩ := hother x hx
    simpa [Function.update_of_ne hne] using hs.fresh x hx
  | refuse hwaiting => exact ⟨hs.one, hs.fresh⟩
  | abort hheld =>
    obtain ⟨hone, hother⟩ := hs.release hheld
    exact ⟨hone, fun x hx => hs.fresh x (hother x hx).1⟩
  | outside h => exact ⟨hs.one, hs.fresh⟩

/-- What a step does to row `k`: nothing, or it commits what a transaction plans from it. -/
inductive Change (R : Rules κ σ ω γ) (k : κ) (c : σ) : Label κ ω → σ → Prop where
  | same {l : Label κ ω} : Change R k c l c
  | commit {g : γ} {op : ω} {c' : σ} (hplan : R.plan g op k c = some c') :
    Change R k c (.commit k op) c'

theorem step_change (hs : Valid R s) (hstep : Step R s l s') (k : κ) :
    Change R k (s.cells k) l (s'.cells k) := by
  cases hstep with
  | start h => exact .same
  | lock hwaiting hfree hplan => exact .same
  | @commit l₁ l₂ h hheld =>
    obtain ⟨hold, g, hplan⟩ := hs.fresh h (by simp [hheld])
    by_cases hk : k = h.key
    · subst hk
      rw [← hold] at hplan
      simpa using Change.commit hplan
    · simpa [Function.update_of_ne hk] using Change.same
  | refuse hwaiting => exact .same
  | abort hheld => exact .same
  | outside h => exact .same

/-- Where a transaction that holds a lock took it: what it read besides its row, and that the row
is the same since. -/
def LockedBy (R : Rules κ σ ω γ) (es : List (Event (Sys κ σ ω γ) (Label κ ω))) (h : Held κ σ ω) :
    Prop :=
  ∃ pre e post, es = pre ++ e :: post ∧ e.label = .lock h.key h.op ∧
    R.plan e.before.outside h.op h.key h.old = some h.new ∧
    ∀ x ∈ e :: post, x.after.cells h.key = h.old

omit [DecidableEq κ] in
theorem LockedBy.snoc {h : Held κ σ ω} (hlocked : LockedBy R es h) (hs : s'.cells h.key = h.old) :
    LockedBy R (es ++ [⟨s, l, s'⟩]) h := by
  obtain ⟨pre, e, post, rfl, hlabel, hplan, hsince⟩ := hlocked
  refine ⟨pre, e, post ++ [⟨s, l, s'⟩], by simp, hlabel, hplan, ?_⟩
  intro x hx
  rw [← cons_append] at hx
  rcases mem_append.mp hx with hx | hx
  · exact hsince x hx
  · obtain rfl := mem_singleton.mp hx
    exact hs

theorem step_lockedBy (hs : Valid R s) (hall : ∀ h ∈ s.held, LockedBy R es h)
    (hstep : Step R s l s') :
    ∀ h ∈ s'.held, LockedBy R (es ++ [⟨s, l, s'⟩]) h := by
  have hkeep : ∀ h ∈ s.held, s'.cells h.key = s.cells h.key →
      LockedBy R (es ++ [⟨s, l, s'⟩]) h :=
    fun h hh hsame => (hall h hh).snoc (hsame.trans (hs.fresh h hh).1)
  cases hstep with
  | start h => exact fun h hh => hkeep h hh rfl
  | lock hwaiting hfree hplan =>
    intro h hh
    rcases mem_cons.mp hh with rfl | hh
    · exact ⟨es, _, [], rfl, rfl, hplan, by simp⟩
    · exact hkeep h hh rfl
  | commit hheld =>
    intro h hh
    obtain ⟨hh, hne⟩ := (hs.release hheld).2 h hh
    exact hkeep h hh (Function.update_of_ne hne _ _)
  | refuse hwaiting => exact fun h hh => hkeep h hh rfl
  | abort hheld => exact fun h hh => hkeep h ((hs.release hheld).2 h hh).1 rfl
  | outside h => exact fun h hh => hkeep h hh rfl

theorem cells_eq_of_step (hstep : Step R s l s') (hl : ∀ k op, l ≠ .commit k op) :
    s'.cells = s.cells := by
  cases hstep with
  | commit hheld => exact absurd rfl (hl _ _)
  | _ => rfl

theorem held_of_commit (hstep : Step R s (.commit k op) s') :
    ∃ h ∈ s.held, h.key = k ∧ h.op = op := by
  generalize hl : Label.commit k op = l at hstep
  cases hstep with
  | commit hheld =>
    cases hl
    exact ⟨_, by simp [hheld], rfl, rfl⟩
  | _ => cases hl

theorem valid_of_run (h0 : s₀.held = []) (h : Run (Step R) s₀ es s) : Valid R s :=
  h.invariant (Valid R) ⟨by simp [h0], by simp [h0]⟩ fun hs hstep => step_valid hs hstep

/-- **A transaction commits what it planned when it took its lock**, on a row that is the same
since. -/
theorem locked_of_run {pre post : List (Event (Sys κ σ ω γ) (Label κ ω))} (h0 : s₀.held = [])
    {e : Event (Sys κ σ ω γ) (Label κ ω)} (h : Run (Step R) s₀ (pre ++ e :: post) s)
    (hlabel : e.label = .commit k op) :
    LockedBy R pre ⟨k, op, e.before.cells k, e.after.cells k⟩ := by
  obtain ⟨hpre, hstep, -⟩ := h.split
  have hall : Valid R e.before ∧ ∀ h ∈ e.before.held, LockedBy R pre h := by
    refine hpre.history (fun es s => Valid R s ∧ ∀ h ∈ s.held, LockedBy R es h)
      ⟨⟨by simp [h0], by simp [h0]⟩, by simp [h0]⟩ ?_
    rintro es s l s' ⟨hs, hall⟩ hstep
    exact ⟨step_valid hs hstep, step_lockedBy hs hall hstep⟩
  obtain ⟨hs, hall⟩ := hall
  generalize e.after = s' at hstep ⊢
  generalize e.label = l at hstep hlabel
  cases hstep with
  | @commit l₁ l₂ x hheld =>
    cases hlabel
    have hx : x ∈ e.before.held := by simp [hheld]
    simp only [(hs.fresh x hx).1, Function.update_self]
    exact hall x hx
  | _ => cases hlabel

/-- **However transactions interleave, a row changes only by what one of them plans from it.** -/
theorem change_of_run (h0 : s₀.held = []) (h : Run (Step R) s₀ es s)
    {e : Event (Sys κ σ ω γ) (Label κ ω)} (he : e ∈ es) (k : κ) :
    Change R k (e.before.cells k) e.label (e.after.cells k) := by
  obtain ⟨pre, post, rfl⟩ := append_of_mem he
  obtain ⟨hpre, hstep, -⟩ := h.split
  exact step_change (valid_of_run h0 hpre) hstep k

/-- **The invariant rule**: what every transaction keeps on its row holds of every row of every
state reached. -/
theorem cell_invariant (h0 : s₀.held = []) (h : Run (Step R) s₀ es s) (Inv : κ → σ → Prop)
    (hinit : ∀ k, Inv k (s₀.cells k))
    (hplan : ∀ {g op k c c'}, Inv k c → R.plan g op k c = some c' → Inv k c') (k : κ) :
    Inv k (s.cells k) := by
  suffices hs : Valid R s ∧ ∀ k, Inv k (s.cells k) from hs.2 k
  refine h.invariant (fun s => Valid R s ∧ ∀ k, Inv k (s.cells k))
    ⟨⟨by simp [h0], by simp [h0]⟩, hinit⟩ ?_
  rintro s l s' ⟨hs, hinv⟩ hstep
  refine ⟨step_valid hs hstep, fun k => ?_⟩
  have hk := hinv k
  have hchange := step_change hs hstep k
  generalize s'.cells k = c' at hchange ⊢
  cases hchange with
  | same => exact hk
  | commit hplan' => exact hplan hk hplan'

theorem started_of_run (hw : s₀.waiting = []) (h0 : s₀.held = []) (h : Run (Step R) s₀ es s) :
    ∀ op, (op ∈ s.waiting ∨ ∃ x ∈ s.held, x.op = op) →
      ∃ e ∈ es, e.label = .start op ∧ R.starts e.before op := by
  refine h.history (fun es s => ∀ op, (op ∈ s.waiting ∨ ∃ x ∈ s.held, x.op = op) →
    ∃ e ∈ es, e.label = .start op ∧ R.starts e.before op) (by simp [hw, h0]) ?_
  intro es s l s' ih hstep op hop
  -- apart from a start, a step only moves and drops transactions
  by_cases hold : op ∈ s.waiting ∨ ∃ x ∈ s.held, x.op = op
  · obtain ⟨e, he, hstart⟩ := ih op hold
    exact ⟨e, mem_append_left _ he, hstart⟩
  · refine ⟨⟨s, l, s'⟩, by simp, ?_⟩
    cases hstep with
    | @start op' hstarts =>
      have hnew : op = op' := by
        rcases hop with hop | hop
        · exact (mem_cons.mp hop).resolve_right fun hop => hold (.inl hop)
        · exact absurd (.inr hop) hold
      exact ⟨by rw [hnew], hnew ▸ hstarts⟩
    | lock hwaiting hfree hplan =>
      refine absurd ?_ hold
      simp only [hwaiting, mem_append, mem_cons, exists_eq_or_imp] at hop ⊢
      rcases hop with (hop | hop) | hop | hop
      · exact .inl (.inl hop)
      · exact .inl (.inr (.inr hop))
      · exact .inl (.inr (.inl hop.symm))
      · exact .inr hop
    | commit hheld =>
      refine absurd (hop.imp_right ?_) hold
      rintro ⟨x, hx, rfl⟩
      refine ⟨x, ?_, rfl⟩
      rw [hheld]
      simp only [mem_append, mem_cons] at hx ⊢
      tauto
    | refuse hwaiting =>
      refine absurd (hop.imp_left fun hop => ?_) hold
      rw [hwaiting]
      simp only [mem_append, mem_cons] at hop ⊢
      tauto
    | abort hheld =>
      refine absurd (hop.imp_right ?_) hold
      rintro ⟨x, hx, rfl⟩
      refine ⟨x, ?_, rfl⟩
      rw [hheld]
      simp only [mem_append, mem_cons] at hx ⊢
      tauto
    | outside h => exact absurd hop hold

theorem run_alone {new : σ} (hfree : ∀ h ∈ s.held, h.key ≠ k)
    (hplan : R.plan s.outside op k (s.cells k) = some new) :
    Run (Step R) { s with waiting := op :: s.waiting }
      [⟨{ s with waiting := op :: s.waiting }, .lock k op,
          { s with held := ⟨k, op, s.cells k, new⟩ :: s.held }⟩,
        ⟨{ s with held := ⟨k, op, s.cells k, new⟩ :: s.held }, .commit k op,
          { s with cells := Function.update s.cells k new }⟩]
      { s with cells := Function.update s.cells k new } := by
  have hlock : Step R { s with waiting := op :: s.waiting } (.lock k op)
      { s with held := ⟨k, op, s.cells k, new⟩ :: s.held } :=
    .lock (show _ = [] ++ op :: s.waiting from rfl) hfree hplan
  have hcommit : Step R { s with held := ⟨k, op, s.cells k, new⟩ :: s.held } (.commit k op)
      { s with cells := Function.update s.cells k new } :=
    .commit (show _ = [] ++ (⟨k, op, s.cells k, new⟩ : Held κ σ ω) :: s.held from rfl)
  exact .snoc (.snoc .nil hlock) hcommit

end ManagedDirectory.Lib.Locks
