import Mathlib

/-!
# Checks in sequence

Early returns as `Except` computations: `refuseIf` is one `if … return Err(…)`, `orRefuse` one
`ok_or(…)?`. The simp lemmas turn "the whole sequence succeeded" into the conjunction of
what each step checked, so that callers never unfold a sequence by hand; the lemmas for `.error` say
which step refused.
-/

namespace ManagedDirectory.Lib

variable {ε α β : Type}

/-- `if c { return Err(e) }`. -/
def refuseIf (c : Prop) [Decidable c] (e : ε) : Except ε Unit := if c then .error e else .ok ()

/-- `o.ok_or(e)?`. -/
def orRefuse (o : Option α) (e : ε) : Except ε α :=
  match o with
  | some a => .ok a
  | none => .error e

variable {x : Except ε α} {a : α} {f : α → Except ε β} {e : ε}

@[simp] theorem bind_ok_iff {b : β} :
    x >>= f = .ok b ↔ ∃ a, x = .ok a ∧ f a = .ok b := by
  refine ⟨fun h => ?_, fun ⟨a, hx, hf⟩ => hx ▸ hf⟩
  cases x with
  | error e => cases h
  | ok a => exact ⟨a, rfl, h⟩

theorem bind_error_iff :
    x >>= f = .error e ↔ x = .error e ∨ ∃ a, x = .ok a ∧ f a = .error e := by
  cases x with
  | error e' => simp [bind, Except.bind]
  | ok a => simp [bind, Except.bind]

theorem map_bind {γ : Type} {g : β → γ} :
    (x >>= f).map g = x >>= fun a => (f a).map g := by
  cases x <;> rfl

@[simp] theorem pure_ok_iff {b : α} : (pure a : Except ε α) = .ok b ↔ a = b :=
  ⟨fun h => Except.ok.inj h, fun h => h ▸ rfl⟩

@[simp] theorem refuseIf_eq_ok {c : Prop} [Decidable c] {u : Unit} :
    refuseIf c e = .ok u ↔ ¬ c := by
  unfold refuseIf
  split_ifs with h <;> simp [h]

theorem refuseIf_eq_error {c : Prop} [Decidable c] {e' : ε} :
    refuseIf c e = .error e' ↔ c ∧ e = e' := by
  unfold refuseIf
  split_ifs with h <;> simp [h]

theorem pure_ne_error : (pure a : Except ε α) ≠ .error e := fun h => by cases h

theorem orRefuse_eq_error {o : Option α} {e' : ε} :
    orRefuse o e = .error e' ↔ o = none ∧ e = e' := by
  cases o <;> simp [orRefuse]

@[simp] theorem orRefuse_eq_ok {o : Option α} :
    orRefuse o e = .ok a ↔ o = some a := by
  cases o <;> simp [orRefuse]

@[simp] theorem exists_unit {p : Unit → Prop} : (∃ u, p u) ↔ p () :=
  ⟨fun ⟨(), h⟩ => h, fun h => ⟨(), h⟩⟩

end ManagedDirectory.Lib
