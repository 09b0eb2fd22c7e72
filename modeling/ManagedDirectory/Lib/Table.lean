import Mathlib

/-!
# Tables with a primary key

`Table α key` is a list of rows with distinct keys, in the order they were inserted. `insert` is
`INSERT … ON CONFLICT DO NOTHING`, `update` is `UPDATE … WHERE`, `delete` is `DELETE … WHERE`. What
each does to the row of a key is said by `find_insert`, `find_update` and `find_delete`.
-/

namespace ManagedDirectory.Lib

open List

variable {α κ : Type}

structure Table (α : Type) {κ : Type} (key : α → κ) where
  rows : List α
  nodup : (rows.map key).Nodup

namespace Table

variable {key : α → κ} {t : Table α key} {a b : α} {k : κ}

def empty (key : α → κ) : Table α key := ⟨[], nodup_nil⟩

/-- `UPDATE … SET … WHERE p`, for an assignment that keeps the key. -/
def update (t : Table α key) (p : α → Bool) (f : α → α) (hf : ∀ a, key (f a) = key a) :
    Table α key :=
  ⟨t.rows.map fun a => if p a then f a else a, by
    have hkey : key ∘ (fun a => if p a then f a else a) = key := by
      funext a
      simp only [Function.comp_apply]
      split_ifs
      · exact hf a
      · rfl
    rw [map_map, hkey]
    exact t.nodup⟩

/-- `DELETE … WHERE p`. -/
def delete (t : Table α key) (p : α → Bool) : Table α key :=
  ⟨t.rows.filter fun a => !p a, (filter_sublist.map key).nodup t.nodup⟩

theorem mem_update {p : α → Bool} {f : α → α} {hf : ∀ a, key (f a) = key a} :
    b ∈ (t.update p f hf).rows ↔ ∃ a ∈ t.rows, (if p a then f a else a) = b :=
  mem_map

theorem mem_delete {p : α → Bool} : b ∈ (t.delete p).rows ↔ b ∈ t.rows ∧ p b = false := by
  simp [delete]

variable [DecidableEq κ]

def find (t : Table α key) (k : κ) : Option α := t.rows.find? fun a => decide (key a = k)

/-- `INSERT … ON CONFLICT DO NOTHING`. -/
def insert (t : Table α key) (a : α) : Table α key :=
  if h : key a ∈ t.rows.map key then t
  else ⟨t.rows ++ [a], by
    rw [map_append, map_singleton, nodup_append]
    refine ⟨t.nodup, nodup_singleton _, ?_⟩
    rintro x hx y hy rfl
    exact h (mem_singleton.mp hy ▸ hx)⟩

@[simp] theorem find_empty (key : α → κ) (k : κ) : (empty key).find k = none := rfl

theorem key_of_find (h : t.find k = some a) : key a = k := by
  have := List.find?_some h
  exact of_decide_eq_true this

theorem mem_of_find (h : t.find k = some a) : a ∈ t.rows := List.mem_of_find?_eq_some h

theorem find_key_iff_mem : t.find (key a) = some a ↔ a ∈ t.rows := by
  refine ⟨mem_of_find, fun h => ?_⟩
  obtain ⟨rows, hnd⟩ := t
  simp only [find] at h ⊢
  induction rows with
  | nil => simp at h
  | cons b rows ih =>
    simp only [map_cons, nodup_cons] at hnd
    rcases mem_cons.mp h with rfl | h
    · simp
    · have hne : key b ≠ key a := fun heq => hnd.1 (heq ▸ mem_map_of_mem h)
      simp only [List.find?_cons, hne, decide_false]
      exact ih hnd.2 h

theorem find_eq_some_iff : t.find k = some a ↔ a ∈ t.rows ∧ key a = k := by
  constructor
  · intro h
    exact ⟨mem_of_find h, key_of_find h⟩
  · rintro ⟨h, rfl⟩
    exact find_key_iff_mem.mpr h

theorem find_eq_none_iff : t.find k = none ↔ ∀ a ∈ t.rows, key a ≠ k := by
  simp [find, List.find?_eq_none]

theorem mem_insert : b ∈ (t.insert a).rows ↔ b ∈ t.rows ∨ (b = a ∧ t.find (key a) = none) := by
  unfold insert
  rw [find_eq_none_iff]
  split_ifs with h
  · obtain ⟨c, hc, hkey⟩ := mem_map.mp h
    constructor
    · exact .inl
    · rintro (hb | ⟨-, hnone⟩)
      · exact hb
      · exact absurd hkey (hnone c hc)
  · simp only [mem_append, mem_singleton]
    refine or_congr_right ⟨fun hb => ⟨hb, ?_⟩, fun hb => hb.1⟩
    intro c hc heq
    exact h (heq ▸ mem_map_of_mem hc)

theorem rows_insert (h : t.find (key a) = none) : (t.insert a).rows = t.rows ++ [a] := by
  unfold insert
  rw [dif_neg]
  intro hmem
  obtain ⟨b, hb, hkey⟩ := mem_map.mp hmem
  exact find_eq_none_iff.mp h b hb hkey

theorem find_insert : (t.insert a).find k =
    if key a = k ∧ t.find k = none then some a else t.find k := by
  split_ifs with h
  · obtain ⟨rfl, hnone⟩ := h
    rw [find_key_iff_mem, mem_insert]
    exact .inr ⟨rfl, hnone⟩
  · cases hfind : t.find k with
    | some b =>
      rw [find_eq_some_iff] at hfind ⊢
      exact ⟨mem_insert.mpr (.inl hfind.1), hfind.2⟩
    | none =>
      rw [find_eq_none_iff] at hfind ⊢
      intro b hb hbk
      rcases mem_insert.mp hb with hb | ⟨rfl, -⟩
      · exact hfind b hb hbk
      · exact h ⟨hbk, find_eq_none_iff.mpr hfind⟩

theorem find_update {p : α → Bool} {f : α → α} {hf : ∀ a, key (f a) = key a} :
    (t.update p f hf).find k = (t.find k).map fun a => if p a then f a else a := by
  have hkey : ∀ a, key (if p a then f a else a) = key a := by
    intro a
    split_ifs
    · exact hf a
    · rfl
  simp only [find, update, List.find?_map, Function.comp_def, hkey]

theorem find_delete {p : α → Bool} :
    (t.delete p).find k = (t.find k).filter fun a => !p a := by
  cases hfind : t.find k with
  | none =>
    rw [Option.filter_none, find_eq_none_iff]
    rw [find_eq_none_iff] at hfind
    exact fun a ha => hfind a (mem_delete.mp ha).1
  | some a =>
    obtain ⟨ha, rfl⟩ := find_eq_some_iff.mp hfind
    rw [Option.filter_some]
    cases hp : p a with
    | false => exact find_key_iff_mem.mpr (mem_delete.mpr ⟨ha, hp⟩)
    | true =>
      simp only [Bool.not_true, Bool.false_eq_true, if_false]
      rw [find_eq_none_iff]
      intro b hb hkey
      obtain ⟨hb, hpb⟩ := mem_delete.mp hb
      have : b = a := Option.some.inj ((find_eq_some_iff.mpr ⟨hb, hkey⟩).symm.trans hfind)
      rw [this, hp] at hpb
      cases hpb

end Table

end ManagedDirectory.Lib
