import ManagedDirectory.Lib.Run

/-!
# Transactions over several rows

A transaction is a program (`Prog`): it takes snapshots of the committed rows (`read`), locks rows
one after another (`lock`), takes the share lock of a foreign key (`share`), writes rows it has
locked (`put`), inserts new ones (`insert`), and commits with a result or is rolled back. Many
transactions run at the same time; each keeps its locks until it ends, sees what it has written
itself over what others have committed, and may be stopped at any moment (a deadlock, a crash).

`Exec` runs a program alone against answers that could come from anywhere. `commits_of_step`: however
the transactions interleave, a commit is such an execution, the rows it locked are still as it found
them, and after each of its snapshots only transactions have committed that stayed off its rows.
-/

namespace ManagedDirectory.Lib.Txn

open List

/-! ## Programs -/

inductive Prog (K : Type) (V : K → Type) (γ ε α : Type) : Type where
  | done (a : α)
  | fail (e : ε)
  /-- Take a snapshot of the rows, with its own writes, and of what else there is. -/
  | read (next : AList V → γ → Prog K V γ ε α)
  /-- Wait for the lock of a row and go on with the row, if there is one. -/
  | lock (k : K) (next : Option (V k) → Prog K V γ ε α)
  | share (k : K) (next : Prog K V γ ε α)
  | put (k : K) (v : V k) (next : Prog K V γ ε α)
  | insert (k : K) (v : V k) (next : Prog K V γ ε α)

variable {K : Type} {V : K → Type} {γ ε α β ω ι : Type}

namespace Prog

def bind (p : Prog K V γ ε α) (f : α → Prog K V γ ε β) : Prog K V γ ε β :=
  match p with
  | done a => f a
  | fail e => fail e
  | read next => read fun st g => (next st g).bind f
  | lock k next => lock k fun v => (next v).bind f
  | share k next => share k (next.bind f)
  | put k v next => put k v (next.bind f)
  | insert k v next => insert k v (next.bind f)

instance : Monad (Prog K V γ ε) where
  pure := done
  bind := bind

end Prog

/-- A snapshot, and the rows its transaction held when it took it. -/
structure Snapshot (K : Type) (V : K → Type) where
  keys : List K
  store : AList V

/-- What a transaction holds: its locked rows as it will write them and as it found them, its share
locks, and the snapshots it took. -/
structure Held (K : Type) (V : K → Type) where
  own : AList V
  base : AList V
  shared : List K
  snapshots : List (Snapshot K V)

namespace Held

def empty : Held K V := ⟨∅, ∅, [], []⟩

def keys (h : Held K V) : List K := h.own.keys ++ h.shared

def saw (h : Held K V) (st : AList V) : Held K V :=
  { h with snapshots := ⟨h.keys, st⟩ :: h.snapshots }

def share (h : Held K V) (k : K) : Held K V := { h with shared := k :: h.shared }

@[simp] theorem own_empty : (empty : Held K V).own = ∅ := rfl
@[simp] theorem base_empty : (empty : Held K V).base = ∅ := rfl
@[simp] theorem shared_empty : (empty : Held K V).shared = [] := rfl
@[simp] theorem snapshots_empty : (empty : Held K V).snapshots = [] := rfl
@[simp] theorem own_saw (h : Held K V) (st : AList V) : (h.saw st).own = h.own := rfl
@[simp] theorem base_saw (h : Held K V) (st : AList V) : (h.saw st).base = h.base := rfl
@[simp] theorem shared_saw (h : Held K V) (st : AList V) : (h.saw st).shared = h.shared := rfl
@[simp] theorem own_share (h : Held K V) (k : K) : (h.share k).own = h.own := rfl
@[simp] theorem base_share (h : Held K V) (k : K) : (h.share k).base = h.base := rfl
@[simp] theorem shared_share (h : Held K V) (k : K) : (h.share k).shared = k :: h.shared := rfl
@[simp] theorem snapshots_share (h : Held K V) (k : K) :
    (h.share k).snapshots = h.snapshots := rfl

@[simp] theorem mem_snapshots_saw {h : Held K V} {st : AList V} {sn : Snapshot K V} :
    sn ∈ (h.saw st).snapshots ↔ sn = ⟨h.keys, st⟩ ∨ sn ∈ h.snapshots := mem_cons

theorem mem_keys {h : Held K V} {k : K} : k ∈ h.keys ↔ k ∈ h.own ∨ k ∈ h.shared := by
  rw [keys, mem_append, ← AList.mem_keys]

variable [DecidableEq K]

def lock (h : Held K V) (k : K) (v : V k) : Held K V :=
  { h with own := h.own.insert k v, base := h.base.insert k v }

def put (h : Held K V) (k : K) (v : V k) : Held K V := { h with own := h.own.insert k v }

/-- Take the lock of row `k`: the answer, and what is held then. -/
def take (h : Held K V) (k : K) (st : AList V) : Option (V k) × Held K V :=
  match h.own.lookup k, st.lookup k with
  | some v, _ => (some v, h)
  | none, some v => (some v, h.lock k v)
  | none, none => (none, h)

@[simp] theorem snapshots_take (h : Held K V) (k : K) (st : AList V) :
    (h.take k st).2.snapshots = h.snapshots := by
  unfold take
  split <;> rfl

@[simp] theorem own_lock (h : Held K V) (k : K) (v : V k) :
    (h.lock k v).own = h.own.insert k v := rfl
@[simp] theorem base_lock (h : Held K V) (k : K) (v : V k) :
    (h.lock k v).base = h.base.insert k v := rfl
@[simp] theorem shared_lock (h : Held K V) (k : K) (v : V k) :
    (h.lock k v).shared = h.shared := rfl
@[simp] theorem snapshots_lock (h : Held K V) (k : K) (v : V k) :
    (h.lock k v).snapshots = h.snapshots := rfl
@[simp] theorem own_put (h : Held K V) (k : K) (v : V k) :
    (h.put k v).own = h.own.insert k v := rfl
@[simp] theorem base_put (h : Held K V) (k : K) (v : V k) : (h.put k v).base = h.base := rfl
@[simp] theorem shared_put (h : Held K V) (k : K) (v : V k) : (h.put k v).shared = h.shared := rfl
@[simp] theorem snapshots_put (h : Held K V) (k : K) (v : V k) :
    (h.put k v).snapshots = h.snapshots := rfl

end Held

variable [DecidableEq K]

@[simp] theorem mem_singleton {k k' : K} {v : V k'} : k ∈ AList.singleton k' v ↔ k = k' := by
  rw [← AList.insert_empty, AList.mem_insert]
  exact or_iff_left (AList.notMem_empty k)

@[simp] theorem lookup_singleton {k : K} {v : V k} : (AList.singleton k v).lookup k = some v := by
  rw [← AList.insert_empty, AList.lookup_insert]

/-! ## Executions -/

/-- From `h` the program can commit with result `a`, holding `h'`: snapshots and rows it did not have
yet are arbitrary, but for a row it has seen it finds one. -/
def Exec (p : Prog K V γ ε α) (h : Held K V) (a : α) (h' : Held K V) : Prop :=
  match p with
  | .done b => a = b ∧ h' = h
  | .fail _ => False
  | .read next => ∃ st g, Exec (next (h.own ∪ st) g) (h.saw st) a h'
  | .lock k next => ∃ st, (∀ sn ∈ h.snapshots, k ∈ sn.store → k ∈ st) ∧
      Exec (next (h.take k st).1) (h.take k st).2 a h'
  | .share k next => Exec next (h.share k) a h'
  | .put k v next => Exec next (h.put k v) a h'
  | .insert k v next => k ∉ h.own ∧ Exec next (h.put k v) a h'

section Exec

variable {h h' : Held K V} {a b : α}

@[simp] theorem exec_pure : Exec (pure b : Prog K V γ ε α) h a h' ↔ a = b ∧ h' = h := Iff.rfl

@[simp] theorem exec_fail {e : ε} : Exec (.fail e : Prog K V γ ε α) h a h' ↔ False := Iff.rfl

@[simp] theorem exec_bind {p : Prog K V γ ε β} {f : β → Prog K V γ ε α} :
    Exec (p >>= f) h a h' ↔ ∃ b h₁, Exec p h b h₁ ∧ Exec (f b) h₁ a h' := by
  change Exec (p.bind f) h a h' ↔ _
  induction p generalizing h with
  | done b => simp [Prog.bind, Exec]
  | fail e => simp [Prog.bind, Exec]
  | read next ih =>
    simp only [Prog.bind, Exec, ih]
    exact ⟨fun ⟨st, g, b, h₁, h₂, h₃⟩ => ⟨b, h₁, ⟨st, g, h₂⟩, h₃⟩,
      fun ⟨b, h₁, ⟨st, g, h₂⟩, h₃⟩ => ⟨st, g, b, h₁, h₂, h₃⟩⟩
  | lock k next ih =>
    simp only [Prog.bind, Exec, ih]
    exact ⟨fun ⟨st, hseen, b, h₁, h₂, h₃⟩ => ⟨b, h₁, ⟨st, hseen, h₂⟩, h₃⟩,
      fun ⟨b, h₁, ⟨st, hseen, h₂⟩, h₃⟩ => ⟨st, hseen, b, h₁, h₂, h₃⟩⟩
  | share k next ih => exact ih
  | put k v next ih => exact ih
  | insert k v next ih =>
    simp only [Prog.bind, Exec, ih]
    exact ⟨fun ⟨hnew, b, h₁, h₂, h₃⟩ => ⟨b, h₁, ⟨hnew, h₂⟩, h₃⟩,
      fun ⟨b, h₁, ⟨hnew, h₂⟩, h₃⟩ => ⟨hnew, b, h₁, h₂, h₃⟩⟩

@[simp] theorem exec_map {p : Prog K V γ ε β} {f : β → α} :
    Exec (f <$> p) h a h' ↔ ∃ b, Exec p h b h' ∧ a = f b := by
  change Exec (p >>= fun b => pure (f b)) h a h' ↔ _
  rw [exec_bind]
  constructor
  · rintro ⟨b, _, hp, rfl, rfl⟩
    exact ⟨b, hp, rfl⟩
  · rintro ⟨b, hp, rfl⟩
    exact ⟨b, h', hp, rfl, rfl⟩

end Exec

/-! ## Many transactions -/

structure Tx (K : Type) (V : K → Type) (γ ε α ω : Type) where
  op : ω
  held : Held K V
  rest : Prog K V γ ε α

structure Sys (K : Type) (V : K → Type) (γ ε α ω : Type) where
  store : AList V
  outside : γ
  active : List (Tx K V γ ε α ω)

structure Rules (K : Type) (V : K → Type) (γ ε α ω : Type) where
  prog : ω → Prog K V γ ε α
  /-- When a transaction may start, and what else its start changes. -/
  starts : γ → ω → γ → Prop
  moves : γ → γ → Prop

inductive Label (α ω : Type) where
  | start (op : ω)
  | read (op : ω)
  | step (op : ω)
  | commit (op : ω) (a : α)
  | stop (op : ω)
  | outside

/-- No other transaction has row `k`. -/
def Free (k : K) (others : List (Tx K V γ ε α ω)) : Prop :=
  ∀ x ∈ others, k ∉ x.held.own ∧ k ∉ x.held.shared

inductive Step (R : Rules K V γ ε α ω) (s : Sys K V γ ε α ω) :
    Label α ω → Sys K V γ ε α ω → Prop where
  | start {op : ω} {g : γ} (h : R.starts s.outside op g) :
    Step R s (.start op) ⟨s.store, g, ⟨op, .empty, R.prog op⟩ :: s.active⟩
  | read {l₁ l₂ : List (Tx K V γ ε α ω)} {op : ω} {h : Held K V}
      {next : AList V → γ → Prog K V γ ε α} (hactive : s.active = l₁ ++ ⟨op, h, .read next⟩ :: l₂) :
    Step R s (.read op) { s with
      active := l₁ ++ ⟨op, h.saw s.store, next (h.own ∪ s.store) s.outside⟩ :: l₂ }
  | lock {l₁ l₂ : List (Tx K V γ ε α ω)} {op : ω} {h : Held K V} {k : K}
      {next : Option (V k) → Prog K V γ ε α} (hactive : s.active = l₁ ++ ⟨op, h, .lock k next⟩ :: l₂)
      (hfree : Free k (l₁ ++ l₂)) :
    Step R s (.step op) { s with
      active := l₁ ++ ⟨op, (h.take k s.store).2, next (h.take k s.store).1⟩ :: l₂ }
  | share {l₁ l₂ : List (Tx K V γ ε α ω)} {op : ω} {h : Held K V} {k : K} {next : Prog K V γ ε α}
      (hactive : s.active = l₁ ++ ⟨op, h, .share k next⟩ :: l₂)
      (hfree : ∀ x ∈ l₁ ++ l₂, k ∉ x.held.own) (hrow : k ∈ h.own ∪ s.store) :
    Step R s (.step op) { s with active := l₁ ++ ⟨op, h.share k, next⟩ :: l₂ }
  | put {l₁ l₂ : List (Tx K V γ ε α ω)} {op : ω} {h : Held K V} {k : K} {v : V k}
      {next : Prog K V γ ε α} (hactive : s.active = l₁ ++ ⟨op, h, .put k v next⟩ :: l₂)
      (hrow : k ∈ h.own) :
    Step R s (.step op) { s with active := l₁ ++ ⟨op, h.put k v, next⟩ :: l₂ }
  | insert {l₁ l₂ : List (Tx K V γ ε α ω)} {op : ω} {h : Held K V} {k : K} {v : V k}
      {next : Prog K V γ ε α} (hactive : s.active = l₁ ++ ⟨op, h, .insert k v next⟩ :: l₂)
      (hnew : k ∉ h.own ∪ s.store) (hfree : Free k (l₁ ++ l₂)) :
    Step R s (.step op) { s with active := l₁ ++ ⟨op, h.put k v, next⟩ :: l₂ }
  | commit {l₁ l₂ : List (Tx K V γ ε α ω)} {op : ω} {h : Held K V} {a : α}
      (hactive : s.active = l₁ ++ ⟨op, h, .done a⟩ :: l₂) :
    Step R s (.commit op a) { s with store := h.own ∪ s.store, active := l₁ ++ l₂ }
  | stop {l₁ l₂ : List (Tx K V γ ε α ω)} {t : Tx K V γ ε α ω}
      (hactive : s.active = l₁ ++ t :: l₂) :
    Step R s (.stop t.op) { s with active := l₁ ++ l₂ }
  | outside {g : γ} (h : R.moves s.outside g) : Step R s .outside { s with outside := g }

abbrev Ev (K : Type) (V : K → Type) (γ ε α ω : Type) := Event (Sys K V γ ε α ω) (Label α ω)

/-! ## What a commit is -/

/-- The locked rows are as the transaction found them; those it inserts do not exist. -/
def Based (h : Held K V) (st : AList V) : Prop :=
  ∀ k ∈ h.own, st.lookup k = h.base.lookup k

/-- One transaction commits and none of the rows `ks` is its own. -/
def CommitsOff (R : Rules K V γ ε α ω) (ks : List K) (st st' : AList V) : Prop :=
  ∃ op a h, Exec (R.prog op) .empty a h ∧ Based h st ∧ (∀ k ∈ ks, k ∉ h.own) ∧ st' = h.own ∪ st

/-- How the committed rows change while a transaction holds the rows `ks`. -/
def Since (R : Rules K V γ ε α ω) (ks : List K) : AList V → AList V → Prop :=
  Relation.ReflTransGen (CommitsOff R ks)

variable {R : Rules K V γ ε α ω} {s s' s₀ : Sys K V γ ε α ω} {l : Label α ω} {op : ω} {a : α}

theorem Since.lookup_eq {ks : List K} {st st' : AList V} (h : Since R ks st st') {k : K}
    (hk : k ∈ ks) : st'.lookup k = st.lookup k := by
  induction h with
  | refl => rfl
  | tail _ hstep ih =>
    obtain ⟨op, a, h, -, -, hoff, rfl⟩ := hstep
    rw [AList.lookup_union_right (hoff k hk), ih]

theorem Since.mem {ks : List K} {st st' : AList V} (h : Since R ks st st') {k : K} (hk : k ∈ st) :
    k ∈ st' := by
  induction h with
  | refl => exact hk
  | tail _ hstep ih =>
    obtain ⟨op, a, h, -, -, -, rfl⟩ := hstep
    exact AList.mem_union.mpr (.inr ih)

theorem Since.induct {ks : List K} {st st' : AList V} (h : Since R ks st st')
    (P : AList V → Prop) (h0 : P st)
    (hstep : ∀ {m op a h}, P m → Exec (R.prog op) .empty a h → Based h m → (∀ k ∈ ks, k ∉ h.own) →
      P (h.own ∪ m)) : P st' := by
  induction h with
  | refl => exact h0
  | tail _ hcommit ih =>
    obtain ⟨op, a, h, hexec, hbased, hoff, rfl⟩ := hcommit
    exact hstep ih hexec hbased hoff

def Apart (x y : Tx K V γ ε α ω) : Prop :=
  (∀ k ∈ x.held.own, k ∉ y.held.own ∧ k ∉ y.held.shared) ∧
    ∀ k ∈ y.held.own, k ∉ x.held.own ∧ k ∉ x.held.shared

omit [DecidableEq K] in
theorem Apart.symm {x y : Tx K V γ ε α ω} (h : Apart x y) : Apart y x := ⟨h.2, h.1⟩

/-- What a snapshot still tells: when it was taken, and what happened since. -/
structure Recent (R : Rules K V γ ε α ω) (es : List (Ev K V γ ε α ω)) (op : ω) (st : AList V)
    (sn : Snapshot K V) : Prop where
  since : Since R sn.keys sn.store st
  taken : ∃ e ∈ es, e.label = .read op ∧ e.before.store = sn.store

structure Good (R : Rules K V γ ε α ω) (es : List (Ev K V γ ε α ω)) (st : AList V)
    (t : Tx K V γ ε α ω) : Prop where
  based : Based t.held st
  found : ∀ k ∈ t.held.base, k ∈ t.held.own
  recent : ∀ sn ∈ t.held.snapshots, (∀ k ∈ sn.keys, k ∈ t.held.keys) ∧ Recent R es t.op st sn
  rest : ∀ a h, Exec t.rest t.held a h → Exec (R.prog t.op) .empty a h

structure Valid (R : Rules K V γ ε α ω) (es : List (Ev K V γ ε α ω)) (s : Sys K V γ ε α ω) :
    Prop where
  apart : s.active.Pairwise Apart
  good : ∀ t ∈ s.active, Good R es s.store t

theorem Recent.mono {es es' : List (Ev K V γ ε α ω)} {st : AList V} {sn : Snapshot K V}
    (h : Recent R es op st sn) (hsub : es ⊆ es') : Recent R es' op st sn := by
  obtain ⟨e, he, htaken⟩ := h.taken
  exact ⟨h.since, e, hsub he, htaken⟩

theorem Good.mono {es es' : List (Ev K V γ ε α ω)} {st : AList V} {t : Tx K V γ ε α ω}
    (h : Good R es st t) (hsub : es ⊆ es') : Good R es' st t :=
  ⟨h.based, h.found, fun sn hsn => ⟨(h.recent sn hsn).1, (h.recent sn hsn).2.mono hsub⟩, h.rest⟩

section Turn

variable {es es' : List (Ev K V γ ε α ω)} {l₁ l₂ : List (Tx K V γ ε α ω)} {t t' : Tx K V γ ε α ω}

theorem Valid.split (hs : Valid R es s) (hactive : s.active = l₁ ++ t :: l₂) :
    (∀ x ∈ l₁ ++ l₂, Apart t x) ∧ (l₁ ++ l₂).Pairwise Apart ∧ Good R es s.store t ∧
      ∀ x ∈ l₁ ++ l₂, Good R es s.store x := by
  have hapart := hs.apart
  rw [hactive, pairwise_middle Apart.symm] at hapart
  obtain ⟨hapart, hrest⟩ := pairwise_cons.mp hapart
  refine ⟨hapart, hrest, hs.good t (by simp [hactive]), fun x hx => hs.good x ?_⟩
  rw [hactive]
  simp only [mem_append, mem_cons] at hx ⊢
  tauto

theorem Valid.turn (hs : Valid R es s) (hactive : s.active = l₁ ++ t :: l₂) (hsub : es ⊆ es')
    (hapart : ∀ x ∈ l₁ ++ l₂, Apart t x → Apart t' x)
    (hgood : Good R es' s.store t → Good R es' s.store t') :
    Valid R es' { s with active := l₁ ++ t' :: l₂ } := by
  obtain ⟨ht, hrest, htgood, hothers⟩ := hs.split hactive
  refine ⟨?_, fun x hx => ?_⟩
  · rw [pairwise_middle Apart.symm]
    exact pairwise_cons.mpr ⟨fun x hx => hapart x hx (ht x hx), hrest⟩
  · have hx : x = t' ∨ x ∈ l₁ ++ l₂ := by
      simp only [mem_append, mem_cons] at hx ⊢
      tauto
    rcases hx with rfl | hx
    · exact hgood (htgood.mono hsub)
    · exact (hothers x hx).mono hsub

theorem apart_put {h : Held K V} {k : K} {v : V k} {x : Tx K V γ ε α ω} {p p' : Prog K V γ ε α}
    (hapart : Apart ⟨op, h, p⟩ x) (hfree : k ∉ x.held.own ∧ k ∉ x.held.shared) :
    Apart ⟨op, h.put k v, p'⟩ x := by
  refine ⟨fun j hj => ?_, fun j hj => ⟨fun hj' => ?_, (hapart.2 j hj).2⟩⟩
  · rcases (AList.mem_insert _).mp hj with rfl | hj
    · exact hfree
    · exact hapart.1 j hj
  · rcases (AList.mem_insert _).mp hj' with rfl | hj'
    · exact hfree.1 hj
    · exact (hapart.2 j hj).1 hj'

theorem apart_take {h : Held K V} {k : K} {st : AList V} {x : Tx K V γ ε α ω}
    {p p' : Prog K V γ ε α} (hapart : Apart ⟨op, h, p⟩ x)
    (hfree : k ∉ x.held.own ∧ k ∉ x.held.shared) : Apart ⟨op, (h.take k st).2, p'⟩ x := by
  unfold Held.take
  split
  · exact hapart
  · rename_i v _ _
    have hput : Apart ⟨op, h.put k v, p'⟩ x := apart_put hapart hfree
    exact hput
  · exact hapart

theorem keys_subset_take (h : Held K V) (k : K) (st : AList V) :
    ∀ j ∈ h.keys, j ∈ (h.take k st).2.keys := by
  intro j hj
  unfold Held.take
  split
  · exact hj
  · rw [Held.mem_keys] at hj ⊢
    exact hj.imp_left fun hj => (AList.mem_insert _).mpr (.inr hj)
  · exact hj

theorem Good.take {h : Held K V} {k : K} {next : Option (V k) → Prog K V γ ε α} {st : AList V}
    (hgood : Good R es st ⟨op, h, .lock k next⟩) :
    Good R es st ⟨op, (h.take k st).2, next (h.take k st).1⟩ := by
  have hrest : ∀ a h', Exec (next (h.take k st).1) (h.take k st).2 a h' →
      Exec (R.prog op) .empty a h' := fun a h' hexec =>
    hgood.rest a h' ⟨st, fun sn hsn hk => (hgood.recent sn hsn).2.since.mem hk, hexec⟩
  refine ⟨?_, ?_, fun sn hsn => ?_, hrest⟩
  · unfold Held.take
    split
    · exact hgood.based
    · rename_i v hown hst
      intro j hj
      by_cases hjk : j = k
      · subst hjk
        simpa using hst
      · have hj : j ∈ h.own := ((AList.mem_insert _).mp hj).resolve_left hjk
        simpa [AList.lookup_insert_ne hjk] using hgood.based j hj
    · exact hgood.based
  · unfold Held.take
    split
    · exact hgood.found
    · intro j hj
      rcases (AList.mem_insert _).mp hj with rfl | hj
      · exact (AList.mem_insert _).mpr (.inl rfl)
      · exact (AList.mem_insert _).mpr (.inr (hgood.found j hj))
    · exact hgood.found
  · obtain ⟨hkeys, hrecent⟩ := hgood.recent sn (Held.snapshots_take h k st ▸ hsn)
    exact ⟨fun j hj => keys_subset_take h k st j (hkeys j hj), hrecent⟩

theorem Good.put {h : Held K V} {k : K} {v : V k} {p next : Prog K V γ ε α} {st : AList V}
    (hgood : Good R es st ⟨op, h, p⟩) (hrow : k ∈ h.own ∨ k ∉ h.own ∧ k ∉ st)
    (hrest : ∀ a h', Exec next (h.put k v) a h' → Exec (R.prog op) .empty a h') :
    Good R es st ⟨op, h.put k v, next⟩ := by
  refine ⟨fun j hj => ?_, fun j hj => (AList.mem_insert _).mpr (.inr (hgood.found j hj)),
    fun sn hsn => ?_, hrest⟩
  · by_cases hown : j ∈ h.own
    · exact hgood.based j hown
    · obtain rfl := ((AList.mem_insert _).mp hj).resolve_right hown
      have hnew := (hrow.resolve_left hown).2
      have hbase : j ∉ h.base := fun hbase => hown (hgood.found j hbase)
      rw [AList.lookup_eq_none.mpr hnew]
      exact (AList.lookup_eq_none.mpr hbase).symm
  · obtain ⟨hkeys, hrecent⟩ := hgood.recent sn hsn
    refine ⟨fun j hj => ?_, hrecent⟩
    have hj := Held.mem_keys.mp (hkeys j hj)
    exact Held.mem_keys.mpr (hj.imp_left fun hj => (AList.mem_insert _).mpr (.inr hj))

end Turn

theorem step_valid {es : List (Ev K V γ ε α ω)} (hs : Valid R es s) (hstep : Step R s l s') :
    Valid R (es ++ [⟨s, l, s'⟩]) s' := by
  have hsub : es ⊆ es ++ [⟨s, l, s'⟩] := subset_append_left _ _
  cases hstep with
  | @start op g h =>
    refine ⟨pairwise_cons.mpr ⟨fun x hx => ?_, hs.apart⟩, fun t ht => ?_⟩
    · exact ⟨fun k hk => absurd hk (AList.notMem_empty k),
        fun k hk => ⟨AList.notMem_empty k, not_mem_nil⟩⟩
    · rcases mem_cons.mp ht with rfl | ht
      · exact ⟨fun k hk => absurd hk (AList.notMem_empty k),
          fun k hk => absurd hk (AList.notMem_empty k), fun sn hsn => absurd hsn not_mem_nil,
          fun a h hexec => hexec⟩
      · exact (hs.good t ht).mono hsub
  | @read l₁ l₂ op h next hactive =>
    refine hs.turn hactive hsub (fun x hx hapart => hapart) fun hgood => ?_
    refine ⟨hgood.based, hgood.found, fun sn hsn => ?_, fun a h' hexec => ?_⟩
    · rcases Held.mem_snapshots_saw.mp hsn with rfl | hsn
      · exact ⟨fun k hk => hk, .refl, _, mem_append_right _ (List.mem_singleton.mpr rfl), rfl,
          rfl⟩
      · exact hgood.recent sn hsn
    · exact hgood.rest a h' ⟨s.store, s.outside, hexec⟩
  | lock hactive hfree =>
    exact hs.turn hactive hsub (fun x hx hapart => apart_take hapart (hfree x hx)) Good.take
  | @share l₁ l₂ op h k next hactive hfree hrow =>
    refine hs.turn hactive hsub (fun x hx hapart => ⟨hapart.1, fun j hj => ?_⟩) fun hgood => ?_
    · refine ⟨(hapart.2 j hj).1, fun hj' => ?_⟩
      rcases mem_cons.mp hj' with rfl | hj'
      · exact hfree x hx hj
      · exact (hapart.2 j hj).2 hj'
    · refine ⟨hgood.based, hgood.found, fun sn hsn => ?_, fun a h' hexec => hgood.rest a h' hexec⟩
      obtain ⟨hkeys, hrecent⟩ := hgood.recent sn hsn
      refine ⟨fun j hj => ?_, hrecent⟩
      have hj := Held.mem_keys.mp (hkeys j hj)
      exact Held.mem_keys.mpr (hj.imp_right (mem_cons_of_mem _))
  | put hactive hrow =>
    exact hs.turn hactive hsub (fun x hx hapart => apart_put hapart (hapart.1 _ hrow))
      fun hgood => hgood.put (.inl hrow) hgood.rest
  | insert hactive hnew hfree =>
    obtain ⟨hown, hst⟩ := not_or.mp (AList.mem_union.not.mp hnew)
    exact hs.turn hactive hsub (fun x hx hapart => apart_put hapart (hfree x hx))
      fun hgood => hgood.put (.inr ⟨hown, hst⟩) fun a h' hexec => hgood.rest a h' ⟨hown, hexec⟩
  | @commit l₁ l₂ op h a hactive =>
    obtain ⟨hapart, hrest, hgood, hothers⟩ := hs.split hactive
    refine ⟨hrest, fun x hx => ?_⟩
    have hx' := (hothers x hx).mono hsub
    have hoff : ∀ k ∈ x.held.keys, k ∉ h.own := fun k hk hown =>
      (Held.mem_keys.mp hk).elim ((hapart x hx).1 k hown).1 ((hapart x hx).1 k hown).2
    refine ⟨fun k hk => ?_, hx'.found, fun sn hsn => ?_, hx'.rest⟩
    · rw [AList.lookup_union_right (hoff k (Held.mem_keys.mpr (.inl hk)))]
      exact hx'.based k hk
    · obtain ⟨hkeys, hrecent⟩ := hx'.recent sn hsn
      refine ⟨hkeys, hrecent.since.tail ?_, hrecent.taken⟩
      exact ⟨op, a, h, hgood.rest a h ⟨rfl, rfl⟩, hgood.based, fun k hk => hoff k (hkeys k hk), rfl⟩
  | stop hactive =>
    obtain ⟨-, hrest, -, hothers⟩ := hs.split hactive
    exact ⟨hrest, fun x hx => (hothers x hx).mono hsub⟩
  | outside h => exact ⟨hs.apart, fun t ht => (hs.good t ht).mono hsub⟩

theorem valid_of_run {es : List (Ev K V γ ε α ω)} (h0 : s₀.active = [])
    (h : Run (Step R) s₀ es s) : Valid R es s :=
  h.history (Valid R) ⟨by simp [h0], by simp [h0]⟩ step_valid

structure Commits (R : Rules K V γ ε α ω) (pre : List (Ev K V γ ε α ω)) (op : ω) (a : α)
    (h : Held K V) (st : AList V) : Prop where
  exec : Exec (R.prog op) .empty a h
  based : Based h st
  recent : ∀ sn ∈ h.snapshots, Recent R pre op st sn

/-- **A commit in any interleaving is an execution of its program** on rows that are as they were when
it locked them. -/
theorem commits_of_step {es : List (Ev K V γ ε α ω)} (hs : Valid R es s)
    (hstep : Step R s (.commit op a) s') :
    ∃ h, Commits R es op a h s.store ∧ s'.store = h.own ∪ s.store := by
  generalize hl : Label.commit op a = l at hstep
  cases hstep with
  | @commit l₁ l₂ op' h a' hactive =>
    cases hl
    obtain ⟨-, -, hgood, -⟩ := hs.split hactive
    exact ⟨h, ⟨hgood.rest _ h ⟨rfl, rfl⟩, hgood.based, fun sn hsn => (hgood.recent sn hsn).2⟩, rfl⟩
  | _ => cases hl

theorem store_eq_of_step (hstep : Step R s l s') (hl : ∀ op a, l ≠ .commit op a) :
    s'.store = s.store := by
  cases hstep with
  | commit hactive => exact absurd rfl (hl _ _)
  | _ => rfl

theorem mem_of_step {es : List (Ev K V γ ε α ω)} (hs : Valid R es s) (hstep : Step R s l s') {k : K}
    (hk : k ∈ s.store) : k ∈ s'.store := by
  by_cases hl : ∃ op a, l = .commit op a
  · obtain ⟨op, a, rfl⟩ := hl
    obtain ⟨h, -, hstore⟩ := commits_of_step hs hstep
    rw [hstore]
    exact AList.mem_union.mpr (.inr hk)
  · rwa [store_eq_of_step hstep fun op a heq => hl ⟨op, a, heq⟩]

/-- **The rule for properties of a history**: they may use what `Valid` knows of the transactions on
their way. -/
theorem history_of_run {es : List (Ev K V γ ε α ω)} (h0 : s₀.active = [])
    (h : Run (Step R) s₀ es s) (Inv : List (Ev K V γ ε α ω) → Sys K V γ ε α ω → Prop)
    (hinit : Inv [] s₀)
    (hstep : ∀ {es s l s'}, Valid R es s → Inv es s → Step R s l s' → Inv (es ++ [⟨s, l, s'⟩]) s') :
    Inv es s := by
  suffices hs : Valid R es s ∧ Inv es s from hs.2
  refine h.history (fun es s => Valid R es s ∧ Inv es s)
    ⟨⟨by simp [h0], by simp [h0]⟩, hinit⟩ ?_
  rintro es s l s' ⟨hvalid, hinv⟩ hs
  exact ⟨step_valid hvalid hs, hstep hvalid hinv hs⟩

end ManagedDirectory.Lib.Txn
