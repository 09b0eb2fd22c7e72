import Mathlib

/-!
# Texts joined with separators

`joined sep words` are the words with `sep` between them. The words can be told apart again if no
word goes on with a separator where another one ends (`joined_injective`); words without the
separator are such (`joined_injective_of_notMem`).
-/

namespace ManagedDirectory.Lib

open List

variable {α : Type} {sep : α} {ws vs : List (List α)}

def joined (sep : α) : List (List α) → List α
  | [] => []
  | [w] => w
  | w :: v :: ws => w ++ sep :: joined sep (v :: ws)

def Separable (sep : α) (ws vs : List (List α)) : Prop :=
  ∀ w ∈ ws, ∀ v ∈ vs, ∀ rest, w ≠ v ++ sep :: rest ∧ v ≠ w ++ sep :: rest

theorem eq_nil_of_joined (hws : ∀ w ∈ ws, w ≠ []) (h : joined sep ws = []) : ws = [] := by
  cases ws with
  | nil => rfl
  | cons w ws =>
    cases ws with
    | nil => exact absurd h (hws w (by simp))
    | cons v ws => simp [joined] at h

theorem append_sep_inj {w v x y : List α}
    (hsep : ∀ rest, w ≠ v ++ sep :: rest ∧ v ≠ w ++ sep :: rest)
    (h : w ++ sep :: x = v ++ sep :: y) : w = v ∧ x = y := by
  rcases append_eq_append_iff.mp h with ⟨t, hv, hx⟩ | ⟨t, hw, hy⟩
  · cases t with
    | nil => exact ⟨by simpa using hv.symm, by simpa using hx⟩
    | cons c t =>
      obtain ⟨rfl, -⟩ := cons_eq_cons.mp hx
      exact absurd hv (hsep t).2
  · cases t with
    | nil => exact ⟨by simpa using hw, by simpa using hy.symm⟩
    | cons c t =>
      obtain ⟨rfl, -⟩ := cons_eq_cons.mp hy
      exact absurd hw (hsep t).1

theorem append_sep_inj_of_notMem {w v x y : List α} (hw : sep ∉ w) (hv : sep ∉ v)
    (h : w ++ sep :: x = v ++ sep :: y) : w = v ∧ x = y := by
  refine append_sep_inj (fun rest => ⟨fun hcut => hw ?_, fun hcut => hv ?_⟩) h
  · simp [hcut]
  · simp [hcut]

theorem joined_injective (hws : ∀ w ∈ ws, w ≠ []) (hvs : ∀ v ∈ vs, v ≠ [])
    (hsep : Separable sep ws vs) (h : joined sep ws = joined sep vs) : ws = vs := by
  induction ws generalizing vs with
  | nil => exact (eq_nil_of_joined hvs h.symm).symm
  | cons w ws ih =>
    cases vs with
    | nil => exact eq_nil_of_joined hws h
    | cons v vs =>
      have hwv := hsep w (by simp) v (by simp)
      cases ws with
      | nil =>
        cases vs with
        | nil => exact congrArg (fun x => [x]) h
        | cons v' vs => exact absurd h (hwv _).1
      | cons w' ws =>
        cases vs with
        | nil => exact absurd h.symm (hwv _).2
        | cons v' vs =>
          obtain ⟨rfl, hrest⟩ := append_sep_inj hwv h
          have htail : w' :: ws = v' :: vs :=
            ih (fun x hx => hws x (mem_cons_of_mem _ hx))
              (fun x hx => hvs x (mem_cons_of_mem _ hx))
              (fun x hx y hy => hsep x (mem_cons_of_mem _ hx) y (mem_cons_of_mem _ hy))
              hrest
          rw [htail]

theorem separable_of_notMem (hws : ∀ w ∈ ws, sep ∉ w) (hvs : ∀ v ∈ vs, sep ∉ v) :
    Separable sep ws vs := by
  intro w hw v hv rest
  refine ⟨fun h => hws w hw ?_, fun h => hvs v hv ?_⟩
  · simp [h]
  · simp [h]

theorem joined_injective_of_notMem (hws : ∀ w ∈ ws, w ≠ [] ∧ sep ∉ w)
    (hvs : ∀ v ∈ vs, v ≠ [] ∧ sep ∉ v) (h : joined sep ws = joined sep vs) : ws = vs :=
  joined_injective (fun w hw => (hws w hw).1) (fun v hv => (hvs v hv).1)
    (separable_of_notMem (fun w hw => (hws w hw).2) fun v hv => (hvs v hv).2) h

theorem eq_of_map_eq {β γ : Type} {f : β → γ} {xs ys : List β}
    (hf : ∀ x ∈ xs, ∀ y ∈ ys, f x = f y → x = y) (h : xs.map f = ys.map f) : xs = ys := by
  induction xs generalizing ys with
  | nil => exact (map_eq_nil_iff.mp h.symm).symm
  | cons x xs ih =>
    cases ys with
    | nil => cases h
    | cons y ys =>
      obtain ⟨hxy, hrest⟩ := cons_eq_cons.mp h
      rw [hf x (by simp) y (by simp) hxy, ih (fun x hx y hy =>
        hf x (mem_cons_of_mem _ hx) y (mem_cons_of_mem _ hy)) hrest]

theorem eq_of_perm_of_map_eq {β γ : Type} {f : β → γ} {xs ys : List β} (h : xs.Perm ys)
    (hkeys : xs.map f = ys.map f) (hnodup : (xs.map f).Nodup) : xs = ys := by
  refine eq_of_map_eq (fun x hx y hy hxy => ?_) hkeys
  exact inj_on_of_nodup_map (hkeys ▸ hnodup) (h.subset hx) hy hxy

theorem notMem_joined {c : α} (hc : c ≠ sep) (hws : ∀ w ∈ ws, c ∉ w) : c ∉ joined sep ws := by
  induction ws with
  | nil => simp [joined]
  | cons w ws ih =>
    cases ws with
    | nil => exact hws w (by simp)
    | cons v ws =>
      have htail := ih fun x hx => hws x (mem_cons_of_mem _ hx)
      simp [joined, hc, hws w (by simp), htail]

end ManagedDirectory.Lib
