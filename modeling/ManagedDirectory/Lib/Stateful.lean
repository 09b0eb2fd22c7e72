import ManagedDirectory.Lib.Checked

/-!
# Procedures that change a state and may fail

`Proc σ ε α` is a method of a mutable object that returns a `Result`: what it changed before it
failed stays changed. `Proc.spec` describes both endings at once: `Q` of the state after a
success, `E` of the state after a failure. The rules take a procedure apart at its binds.
-/

namespace ManagedDirectory.Lib

variable {σ ε α β : Type}

def Proc (σ ε α : Type) : Type := σ → Except ε α × σ

namespace Proc

def bind (x : Proc σ ε α) (f : α → Proc σ ε β) : Proc σ ε β := fun s =>
  match x s with
  | (.ok a, s') => f a s'
  | (.error e, s') => (.error e, s')

instance : Monad (Proc σ ε) where
  pure a := fun s => (.ok a, s)
  bind := bind

def fail (e : ε) : Proc σ ε α := fun s => (.error e, s)

def lift (x : Except ε α) : Proc σ ε α := fun s => (x, s)

def read (f : σ → α) : Proc σ ε α := fun s => (.ok (f s), s)

def update (f : σ → σ) : Proc σ ε Unit := fun s => (.ok (), f s)

def call (f : σ → α × σ) : Proc σ ε α := fun s => (.ok (f s).1, (f s).2)

/-- Either ending of `m` from `s`. -/
def spec (m : Proc σ ε α) (s : σ) (Q : α → σ → Prop) (E : ε → σ → Prop) : Prop :=
  match m s with
  | (.ok a, s') => Q a s'
  | (.error e, s') => E e s'

variable {s : σ} {Q : α → σ → Prop} {E : ε → σ → Prop}

@[simp] theorem spec_pure {a : α} : spec (pure a : Proc σ ε α) s Q E ↔ Q a s := Iff.rfl

@[simp] theorem spec_read {f : σ → α} : spec (read f : Proc σ ε α) s Q E ↔ Q (f s) s := Iff.rfl

@[simp] theorem spec_update {f : σ → σ} {Q : Unit → σ → Prop} :
    spec (update f : Proc σ ε Unit) s Q E ↔ Q () (f s) := Iff.rfl

@[simp] theorem spec_call {f : σ → α × σ} :
    spec (call f : Proc σ ε α) s Q E ↔ Q (f s).1 (f s).2 := Iff.rfl

@[simp] theorem spec_bind {x : Proc σ ε β} {f : β → Proc σ ε α} :
    spec (x >>= f) s Q E ↔ spec x s (fun b s' => spec (f b) s' Q E) E := by
  change spec (bind x f) s Q E ↔ _
  unfold spec bind
  cases x s with
  | mk r s' => cases r <;> rfl

theorem spec_lift {x : Except ε α} :
    spec (lift x : Proc σ ε α) s Q E ↔ (∀ a, x = .ok a → Q a s) ∧ ∀ e, x = .error e → E e s := by
  cases x <;> simp [spec, lift]

theorem spec_ite {c : Prop} [Decidable c] {x y : Proc σ ε α} :
    spec (if c then x else y) s Q E ↔ (c → spec x s Q E) ∧ (¬ c → spec y s Q E) := by
  split_ifs with h <;> simp [h]

theorem spec_mono {m : Proc σ ε α} {Q' : α → σ → Prop} {E' : ε → σ → Prop}
    (h : spec m s Q E) (hQ : ∀ a s', Q a s' → Q' a s') (hE : ∀ e s', E e s' → E' e s') :
    spec m s Q' E' := by
  unfold spec at h ⊢
  split at h
  · exact hQ _ _ h
  · exact hE _ _ h

theorem spec_ok {m : Proc σ ε α} {a : α} {s' : σ} (h : spec m s Q E) (hm : m s = (.ok a, s')) :
    Q a s' := by
  unfold spec at h
  rwa [hm] at h

theorem spec_error {m : Proc σ ε α} {e : ε} {s' : σ} (h : spec m s Q E)
    (hm : m s = (.error e, s')) : E e s' := by
  unfold spec at h
  rwa [hm] at h

theorem exists_ok {m : Proc σ ε α} (h : spec m s Q fun _ _ => False) :
    ∃ a s', m s = (.ok a, s') ∧ Q a s' := by
  unfold spec at h
  split at h
  · exact ⟨_, _, by assumption, h⟩
  · exact h.elim

end Proc

end ManagedDirectory.Lib
