import Mathlib

/-!
# Replay caches

A cache remembers a key from the moment something with that key is taken, and forgets it after
`retention`. `Once` is what keeps an item from being taken twice: as long as its key is forgotten,
the item is too old to be taken. The rules say that taking an item whose key is not remembered,
purging and the passing of time keep it, provided each item is taken within a window of length
`retention`.
-/

namespace ManagedDirectory.Lib.ReplayCache

variable {ι κ T : Type} [AddCommGroup T] [LinearOrder T]

/-- The keys that are remembered, each with the time it was stored. -/
abbrev Slots (κ T : Type) := List (κ × T)

def purge (retention now : T) (slots : Slots κ T) : Slots κ T :=
  slots.filter fun s => now - retention ≤ s.2

/-- The items `taken` are all different, and each is remembered or past its window, which is the
time from `opens i` to `opens i + retention`. -/
structure Once (key : ι → κ) (opens : ι → T) (retention now : T) (slots : Slots κ T)
    (taken : List ι) : Prop where
  nodup : taken.Nodup
  kept : ∀ i ∈ taken, (∃ t, opens i ≤ t ∧ (key i, t) ∈ slots) ∨ opens i + retention < now

variable {key : ι → κ} {opens : ι → T} {retention now now' : T} {slots : Slots κ T} {taken : List ι}
  {i : ι}

theorem once_nil : Once key opens retention now slots [] := ⟨.nil, by simp⟩

theorem Once.wait (h : Once key opens retention now slots taken) (hle : now ≤ now') :
    Once key opens retention now' slots taken :=
  ⟨h.nodup, fun i hi => (h.kept i hi).imp_right fun hlate => hlate.trans_le hle⟩

theorem Once.purge [IsOrderedAddMonoid T] (h : Once key opens retention now slots taken) :
    Once key opens retention now (purge retention now slots) taken := by
  refine ⟨h.nodup, fun i hi => ?_⟩
  rcases h.kept i hi with ⟨t, hopens, hslot⟩ | hlate
  · by_cases hkeep : now - retention ≤ t
    · exact .inl ⟨t, hopens, List.mem_filter.mpr ⟨hslot, by simpa using hkeep⟩⟩
    · right
      rw [not_le, lt_sub_iff_add_lt] at hkeep
      exact (add_le_add_left hopens retention).trans_lt hkeep
  · exact .inr hlate

theorem Once.take (h : Once key opens retention now slots taken)
    (hfresh : ∀ s ∈ slots, s.1 ≠ key i) (hopens : opens i ≤ now)
    (hcloses : now ≤ opens i + retention) :
    Once key opens retention now (slots ++ [(key i, now)]) (i :: taken) := by
  have hnew : i ∉ taken := by
    intro hi
    rcases h.kept i hi with ⟨t, -, hslot⟩ | hlate
    · exact hfresh _ hslot rfl
    · exact absurd hcloses (not_le.mpr hlate)
  refine ⟨List.nodup_cons.mpr ⟨hnew, h.nodup⟩, fun j hj => ?_⟩
  rcases List.mem_cons.mp hj with rfl | hj
  · exact .inl ⟨now, hopens, by simp⟩
  · refine (h.kept j hj).imp_left ?_
    rintro ⟨t, ht, hslot⟩
    exact ⟨t, ht, List.mem_append_left _ hslot⟩

theorem Once.subperm {taken' : List ι} (h : Once key opens retention now slots taken)
    (hsub : taken'.Subperm taken) : Once key opens retention now slots taken' := by
  refine ⟨?_, fun i hi => h.kept i (hsub.subset hi)⟩
  obtain ⟨l, hperm, hl⟩ := hsub
  exact hperm.nodup_iff.mp (hl.nodup h.nodup)

end ManagedDirectory.Lib.ReplayCache
