import ManagedDirectory.Lib.Transactions

/-!
# Statements of transactions

The statements a transaction is made of, with what an execution of each leaves behind: a row taken
`FOR UPDATE` (`forUpdate`), an `UPDATE … WHERE` over the rows of one table (`updateWhere`), and the
refusals that roll back. `updateWhere` takes its candidates from a snapshot, then locks them one
after another and looks at each again.

`Prog.alone` runs a program that has the rows to itself; `run_alone` makes it a run of the system.
-/

namespace ManagedDirectory.Lib.Txn

open List

variable {K : Type} {V : K → Type} {γ ε α β ω ι : Type}

namespace Prog

def failIf (c : Prop) [Decidable c] (e : ε) : Prog K V γ ε Unit := if c then .fail e else pure ()

def orFail (o : Option β) (e : ε) : Prog K V γ ε β :=
  match o with
  | some b => pure b
  | none => .fail e

def snapshot : Prog K V γ ε (AList V) := .read fun st _ => pure st

def outside : Prog K V γ ε γ := .read fun _ g => pure g

/-- `SELECT … WHERE … FOR UPDATE` of one row: the condition is judged on the locked row. -/
def forUpdate (k : K) (p : V k → Bool) : Prog K V γ ε (Option (V k)) :=
  .lock k fun row => pure (row.filter p)

/-- `UPDATE` of a row that is locked. -/
def write (k : K) (v : V k) : Prog K V γ ε Unit := .put k v (pure ())

/-- `INSERT`. -/
def create (k : K) (v : V k) : Prog K V γ ε Unit := .insert k v (pure ())

/-- A foreign key that names row `k`. -/
def references (k : K) : Prog K V γ ε Unit := .share k (pure ())

def updateEach (key : ι → K) (p : (i : ι) → V (key i) → Bool)
    (set : (i : ι) → V (key i) → V (key i)) : List ι → Prog K V γ ε Unit
  | [] => pure ()
  | i :: is => .lock (key i) fun row =>
    match row with
    | some v => if p i v then .put (key i) (set i v) (updateEach key p set is)
      else updateEach key p set is
    | none => updateEach key p set is

variable [DecidableEq K]

/-- `UPDATE table SET … WHERE …`, where `index` tells the rows of the table. -/
def updateWhere (index : K → Option ι) (key : ι → K) (p : (i : ι) → V (key i) → Bool)
    (set : (i : ι) → V (key i) → V (key i)) : Prog K V γ ε Unit :=
  .read fun st _ => updateEach key p set
    ((st.keys.filterMap index).filter fun i => (st.lookup (key i)).any (p i))

end Prog

open Prog

variable [DecidableEq K]

section Exec

variable {h h' : Held K V}

@[simp] theorem exec_failIf {c : Prop} [Decidable c] {e : ε} {u : Unit} :
    Exec (failIf c e : Prog K V γ ε Unit) h u h' ↔ ¬ c ∧ h' = h := by
  unfold failIf
  split_ifs with hc <;> simp [hc]

@[simp] theorem exec_orFail {o : Option β} {e : ε} {b : β} :
    Exec (orFail o e : Prog K V γ ε β) h b h' ↔ o = some b ∧ h' = h := by
  unfold orFail
  split
  · rw [exec_pure, Option.some_inj, eq_comm (a := b)]
  · simp

@[simp] theorem exec_snapshot {st : AList V} :
    Exec (snapshot : Prog K V γ ε (AList V)) h st h' ↔
      ∃ m, ∃ _ : γ, st = h.own ∪ m ∧ h' = h.saw m := Iff.rfl

@[simp] theorem exec_outside {g : γ} :
    Exec (outside : Prog K V γ ε γ) h g h' ↔ ∃ m, h' = h.saw m := by
  constructor
  · rintro ⟨m, g', -, hh⟩
    exact ⟨m, hh⟩
  · rintro ⟨m, hh⟩
    exact ⟨m, g, rfl, hh⟩

@[simp] theorem exec_write {k : K} {v : V k} {u : Unit} :
    Exec (write k v : Prog K V γ ε Unit) h u h' ↔ h' = h.put k v :=
  ⟨fun hexec => hexec.2, fun hh => ⟨rfl, hh⟩⟩

@[simp] theorem exec_create {k : K} {v : V k} {u : Unit} :
    Exec (create k v : Prog K V γ ε Unit) h u h' ↔ k ∉ h.own ∧ h' = h.put k v :=
  ⟨fun hexec => ⟨hexec.1, hexec.2.2⟩, fun hh => ⟨hh.1, rfl, hh.2⟩⟩

@[simp] theorem exec_references {k : K} {u : Unit} :
    Exec (references k : Prog K V γ ε Unit) h u h' ↔ h' = h.share k :=
  ⟨fun hexec => hexec.2, fun hh => ⟨rfl, hh⟩⟩

theorem exec_forUpdate {k : K} {p : V k → Bool} {v : V k}
    (hexec : Exec (forUpdate k p : Prog K V γ ε (Option (V k))) h (some v) h') :
    p v = true ∧ (h.own.lookup k = some v ∧ h' = h ∨ k ∉ h.own ∧ h' = h.lock k v) := by
  obtain ⟨st, -, hrow, rfl⟩ := hexec
  obtain ⟨hv, hp⟩ := Option.filter_eq_some_iff.mp hrow.symm
  refine ⟨hp, ?_⟩
  unfold Held.take at hv ⊢
  split at hv
  · rename_i w hown
    obtain rfl := Option.some.inj hv
    exact .inl ⟨hown, rfl⟩
  · rename_i w hown hst
    obtain rfl := Option.some.inj hv
    exact .inr ⟨AList.lookup_eq_none.mp hown, rfl⟩
  · cases hv

theorem exec_forUpdate_new {k : K} {p : V k → Bool} {v : V k} (hk : k ∉ h.own)
    (hexec : Exec (forUpdate k p : Prog K V γ ε (Option (V k))) h (some v) h') :
    p v = true ∧ h' = h.lock k v := by
  obtain ⟨hp, ⟨hown, -⟩ | ⟨-, hh⟩⟩ := exec_forUpdate hexec
  · exact absurd (AList.lookup_isSome.mp (by simp [hown])) hk
  · exact ⟨hp, hh⟩

end Exec

/-! ## Updates of a table -/

section Update

variable {key : ι → K} {p : (i : ι) → V (key i) → Bool} {set : (i : ι) → V (key i) → V (key i)}
  {h h' : Held K V}

/-- Row `i` is locked and written if it satisfies the condition. -/
def RowUpdated (key : ι → K) (p : (i : ι) → V (key i) → Bool)
    (set : (i : ι) → V (key i) → V (key i)) (h : Held K V) (i : ι) : Prop :=
  ∃ v, h.base.lookup (key i) = some v ∧
    h.own.lookup (key i) = some (if p i v then set i v else v)

/-- Row `k` is held as before. -/
def Same (h h' : Held K V) (k : K) : Prop :=
  h'.own.lookup k = h.own.lookup k ∧ h'.base.lookup k = h.base.lookup k

theorem Same.trans {h₁ h₂ h₃ : Held K V} {k : K} (h : Same h₁ h₂ k) (h' : Same h₂ h₃ k) :
    Same h₁ h₃ k := ⟨h'.1.trans h.1, h'.2.trans h.2⟩

theorem Same.rowUpdated {i : ι} (hsame : Same h h' (key i)) (hrow : RowUpdated key p set h i) :
    RowUpdated key p set h' i := by
  obtain ⟨v, hbase, hown⟩ := hrow
  exact ⟨v, hsame.2.trans hbase, hsame.1.trans hown⟩

/-- What a loop over `is` leaves: only its rows are touched, each of them is updated. -/
structure UpdatedEach (key : ι → K) (p : (i : ι) → V (key i) → Bool)
    (set : (i : ι) → V (key i) → V (key i)) (is : List ι) (h h' : Held K V) : Prop where
  shared : h'.shared = h.shared
  snapshots : h'.snapshots = h.snapshots
  other : ∀ k, (∀ i ∈ is, k ≠ key i) → Same h h' k
  rows : ∀ i ∈ is, RowUpdated key p set h' i

theorem UpdatedEach.cons {i : ι} {is : List ι} {h₁ : Held K V} {v : V (key i)}
    (hkey : Function.Injective key) (hi : i ∉ is)
    (h₁eq : h₁ = if p i v then (h.lock (key i) v).put (key i) (set i v) else h.lock (key i) v)
    (hrest : UpdatedEach key p set is h₁ h') : UpdatedEach key p set (i :: is) h h' := by
  have hother : ∀ k, k ≠ key i → Same h h₁ k := by
    intro k hk
    subst h₁eq
    split <;> simp [Same, AList.lookup_insert_ne hk]
  have hrow : RowUpdated key p set h₁ i := by
    refine ⟨v, ?_, ?_⟩ <;> subst h₁eq <;> split <;> simp_all
  refine ⟨hrest.shared.trans ?_, hrest.snapshots.trans ?_, fun k hk => ?_, fun j hj => ?_⟩
  · subst h₁eq
    split <;> rfl
  · subst h₁eq
    split <;> rfl
  · obtain ⟨hki, hk⟩ := forall_mem_cons.mp hk
    exact (hother k hki).trans (hrest.other k hk)
  · rcases mem_cons.mp hj with rfl | hj
    · have hsame : Same h₁ h' (key j) := hrest.other (key j) fun l hl heq => hi (hkey heq ▸ hl)
      exact hsame.rowUpdated hrow
    · exact hrest.rows j hj

theorem exec_updateEach {is : List ι} {u : Unit} (hkey : Function.Injective key) (hnodup : is.Nodup)
    (hown : ∀ i ∈ is, key i ∉ h.own) (hseen : ∃ sn ∈ h.snapshots, ∀ i ∈ is, key i ∈ sn.store)
    (hexec : Exec (updateEach key p set is : Prog K V γ ε Unit) h u h') :
    UpdatedEach key p set is h h' := by
  induction is generalizing h with
  | nil =>
    obtain ⟨-, rfl⟩ := hexec
    exact ⟨rfl, rfl, fun k _ => ⟨rfl, rfl⟩, fun i hi => absurd hi not_mem_nil⟩
  | cons i is ih =>
    obtain ⟨hi, hnodup⟩ := nodup_cons.mp hnodup
    obtain ⟨hiown, hown⟩ := forall_mem_cons.mp hown
    obtain ⟨sn, hsn, hstored⟩ := hseen
    obtain ⟨histored, hstored⟩ := forall_mem_cons.mp hstored
    obtain ⟨st, hst, hexec⟩ := hexec
    -- the row is there: the snapshot has it
    obtain ⟨v, hv⟩ := Option.isSome_iff_exists.mp (AList.lookup_isSome.mpr (hst sn hsn histored))
    have htake : h.take (key i) st = (some v, h.lock (key i) v) := by
      unfold Held.take
      rw [AList.lookup_eq_none.mpr hiown, hv]
    rw [htake] at hexec
    have hfree : ∀ w : V (key i), ∀ j ∈ is, key j ∉ (h.own.insert (key i) w) := by
      intro w j hj hmem
      rcases (AList.mem_insert _).mp hmem with heq | hmem
      · exact hi (hkey heq ▸ hj)
      · exact hown j hj hmem
    refine .cons hkey hi rfl (v := v) ?_
    by_cases hp : p i v = true
    · simp only [hp, if_true] at hexec ⊢
      refine ih hnodup (fun j hj => ?_) ⟨sn, hsn, hstored⟩ hexec
      rw [Held.own_put, Held.own_lock, AList.insert_insert]
      exact hfree _ j hj
    · simp only [hp, if_false, Bool.false_eq_true] at hexec ⊢
      exact ih hnodup (hfree v) ⟨sn, hsn, hstored⟩ hexec

/-- What `UPDATE … WHERE` leaves behind. `covered`: the rows that satisfied the condition in its
snapshot are updated; the others of the table are, or are held as before. -/
structure Updated (key : ι → K) (p : (i : ι) → V (key i) → Bool)
    (set : (i : ι) → V (key i) → V (key i)) (h h' : Held K V) : Prop where
  shared : h'.shared = h.shared
  other : ∀ k, (∀ i, k ≠ key i) → Same h h' k
  rows : ∀ i, Same h h' (key i) ∨ RowUpdated key p set h' i
  snapshots : ∀ sn ∈ h.snapshots, sn ∈ h'.snapshots
  covered : ∃ sn ∈ h'.snapshots, sn.keys = h.keys ∧
    ∀ i v, sn.store.lookup (key i) = some v → p i v = true → RowUpdated key p set h' i

theorem Updated.mem_own (hupdated : Updated key p set h h') {k : K} (hk : ∀ i, k ≠ key i) :
    k ∈ h'.own ↔ k ∈ h.own := by
  rw [← AList.lookup_isSome, ← AList.lookup_isSome, (hupdated.other k hk).1]

theorem exec_updateWhere {index : K → Option ι} {u : Unit}
    (hindex : ∀ k i, index k = some i ↔ k = key i) (hown : ∀ i, key i ∉ h.own)
    (hexec : Exec (updateWhere index key p set : Prog K V γ ε Unit) h u h') :
    Updated key p set h h' := by
  have hkey : Function.Injective key := fun i j heq =>
    Option.some.inj (((hindex _ i).mpr rfl).symm.trans ((hindex _ j).mpr heq))
  obtain ⟨st, g, hexec⟩ := hexec
  set is := ((h.own ∪ st).keys.filterMap index).filter
    fun i => ((h.own ∪ st).lookup (key i)).any (p i) with his
  have hmem : ∀ i, i ∈ is ↔ ∃ v, st.lookup (key i) = some v ∧ p i v = true := by
    intro i
    rw [his, mem_filter, AList.lookup_union_right (hown i), mem_filterMap]
    constructor
    · rintro ⟨-, hany⟩
      cases hv : st.lookup (key i) with
      | none => simp [hv] at hany
      | some v => exact ⟨v, rfl, by simpa [hv] using hany⟩
    · rintro ⟨v, hv, hp⟩
      refine ⟨⟨key i, ?_, (hindex _ i).mpr rfl⟩, by simp [hv, hp]⟩
      rw [← AList.mem_keys, AList.mem_union]
      exact .inr (AList.lookup_isSome.mp (by simp [hv]))
  have heach := exec_updateEach hkey (h := h.saw st) ?_ (fun i _ => hown i)
    ⟨_, Held.mem_snapshots_saw.mpr (.inl rfl), fun i hi => ?_⟩ hexec
  · refine ⟨heach.shared, fun k hk => heach.other k fun i _ => hk i, fun i => ?_,
      fun sn hsn => ?_, ⟨h.keys, st⟩, ?_, rfl, fun i v hv hp => heach.rows i ((hmem i).mpr ⟨v, hv, hp⟩)⟩
    · by_cases hi : i ∈ is
      · exact .inr (heach.rows i hi)
      · exact .inl (heach.other (key i) fun j hj heq => hi (hkey heq ▸ hj))
    · rw [heach.snapshots]
      exact Held.mem_snapshots_saw.mpr (.inr hsn)
    · rw [heach.snapshots]
      exact Held.mem_snapshots_saw.mpr (.inl rfl)
  · refine (List.Nodup.filterMap ?_ (AList.keys_nodup _)).filter _
    intro k k' i hk hk'
    rw [(hindex k i).mp hk, (hindex k' i).mp hk']
  · obtain ⟨v, hv, -⟩ := (hmem i).mp hi
    exact AList.lookup_isSome.mp (by simp [hv])

end Update

/-! ## The rows a transaction holds

`Rows P h`: `P` holds of every row held, as it was found and as it will be written. An execution is
followed statement by statement. -/

section Rows

variable {P : (k : K) → Option (V k) → V k → Prop} {h h' : Held K V} {k : K}

structure Rows (P : (k : K) → Option (V k) → V k → Prop) (h : Held K V) : Prop where
  found : ∀ k ∈ h.base, k ∈ h.own
  rows : ∀ k v, h.own.lookup k = some v → P k (h.base.lookup k) v

theorem rows_empty : Rows P (.empty : Held K V) := ⟨fun k hk => hk, fun k v hv => by simp at hv⟩

theorem Rows.saw (hs : Rows P h) {st : AList V} : Rows P (h.saw st) := ⟨hs.found, hs.rows⟩

theorem Rows.share (hs : Rows P h) : Rows P (h.share k) := ⟨hs.found, hs.rows⟩

theorem Rows.lock {v : V k} (hs : Rows P h) (hk : P k (some v) v) : Rows P (h.lock k v) := by
  refine ⟨fun j hj => ?_, fun j w hw => ?_⟩
  · rw [Held.own_lock, AList.mem_insert]
    rw [Held.base_lock, AList.mem_insert] at hj
    exact hj.imp_right (hs.found j)
  by_cases hjk : j = k
  · subst hjk
    rw [Held.own_lock, AList.lookup_insert] at hw
    rw [Held.base_lock, AList.lookup_insert]
    exact Option.some.inj hw ▸ hk
  · rw [Held.own_lock, AList.lookup_insert_ne hjk] at hw
    rw [Held.base_lock, AList.lookup_insert_ne hjk]
    exact hs.rows j w hw

theorem Rows.put {v : V k} (hs : Rows P h) (hk : P k (h.base.lookup k) v) : Rows P (h.put k v) := by
  refine ⟨fun j hj => (AList.mem_insert _).mpr (.inr (hs.found j hj)), fun j w hw => ?_⟩
  by_cases hjk : j = k
  · subst hjk
    rw [Held.own_put, AList.lookup_insert] at hw
    exact Option.some.inj hw ▸ hk
  · rw [Held.own_put, AList.lookup_insert_ne hjk] at hw
    exact hs.rows j w hw

theorem Rows.insert {v : V k} (hs : Rows P h) (hnew : k ∉ h.own) (hk : P k none v) :
    Rows P (h.put k v) := by
  refine hs.put ?_
  rw [AList.lookup_eq_none.mpr fun hbase => hnew (hs.found k hbase)]
  exact hk

theorem Rows.lock_put {v w : V k} (hs : Rows P h) (hsame : P k (some v) v) (hk : P k (some v) w) :
    Rows P ((h.lock k v).put k w) := by
  refine (hs.lock hsame).put ?_
  rw [Held.base_lock, AList.lookup_insert]
  exact hk

theorem Rows.forUpdate {p : V k → Bool} {row : Option (V k)} (hs : Rows P h)
    (hk : ∀ v, P k (some v) v)
    (hexec : Exec (Prog.forUpdate k p : Prog K V γ ε (Option (V k))) h row h') : Rows P h' := by
  obtain ⟨st, -, -, rfl⟩ := hexec
  unfold Held.take
  split
  · exact hs
  · exact hs.lock (hk _)
  · exact hs

theorem Rows.updated {key : ι → K} {p : (i : ι) → V (key i) → Bool}
    {set : (i : ι) → V (key i) → V (key i)} (hs : Rows P h) (hupdated : Updated key p set h h')
    (hsame : ∀ i v, P (key i) (some v) v) (hset : ∀ i v, p i v = true → P (key i) (some v) (set i v)) :
    Rows P h' := by
  have hcases : ∀ k, Same h h' k ∨ ∃ i, k = key i ∧ RowUpdated key p set h' i := by
    intro k
    by_cases hk : ∃ i, k = key i
    · obtain ⟨i, rfl⟩ := hk
      exact (hupdated.rows i).imp_right fun hrow => ⟨i, rfl, hrow⟩
    · exact .inl (hupdated.other k fun i hi => hk ⟨i, hi⟩)
  refine ⟨fun k hk => ?_, fun k v hv => ?_⟩
  · rcases hcases k with ⟨hown, hbase⟩ | ⟨i, rfl, v, -, hown⟩
    · rw [← AList.lookup_isSome, hbase, AList.lookup_isSome] at hk
      rw [← AList.lookup_isSome, hown, AList.lookup_isSome]
      exact hs.found k hk
    · exact AList.lookup_isSome.mp (by simp [hown])
  · rcases hcases k with ⟨hown, hbase⟩ | ⟨i, rfl, w, hbase, hown⟩
    · rw [hbase]
      exact hs.rows k v (hown ▸ hv)
    · obtain rfl := Option.some.inj (hown.symm.trans hv)
      rw [hbase]
      split_ifs with hp
      · exact hset i w hp
      · exact hsame i w

end Rows

/-! ## A transaction alone -/

section Alone

/-- The program with the rows to itself: how it ends and what it holds then; `none` where a constraint
stops it. -/
def Prog.alone (p : Prog K V γ ε α) (h : Held K V) (st : AList V) (g : γ) :
    Option (Except ε α × Held K V) :=
  match p with
  | .done a => some (.ok a, h)
  | .fail e => some (.error e, h)
  | .read next => (next (h.own ∪ st) g).alone (h.saw st) st g
  | .lock k next => (next (h.take k st).1).alone (h.take k st).2 st g
  | .share k next => if k ∈ h.own ∪ st then next.alone (h.share k) st g else none
  | .put k v next => if k ∈ h.own then next.alone (h.put k v) st g else none
  | .insert k v next => if k ∈ h.own ∪ st then none else next.alone (h.put k v) st g

section Evaluation

variable {st : AList V} {g : γ} {h h₁ : Held K V}

variable {k : K} {p : Prog K V γ ε α} {f : α → Prog K V γ ε β} {e : ε}

theorem alone_bind :
    (p >>= f).alone h st g = (p.alone h st g).bind fun m =>
      match m.1 with
      | .ok a => (f a).alone m.2 st g
      | .error e => some (.error e, m.2) := by
  change (p.bind f).alone h st g = _
  induction p generalizing h with
  | done b => rfl
  | fail e => rfl
  | read next ih => exact ih _ _
  | lock k next ih => exact ih _
  | share k next ih | put k v next ih =>
    rw [Prog.bind, Prog.alone, Prog.alone]
    split_ifs
    · exact ih
    · rfl
  | insert k v next ih =>
    rw [Prog.bind, Prog.alone, Prog.alone]
    split_ifs
    · rfl
    · exact ih

theorem alone_bind_ok {a : α} (hp : p.alone h st g = some (.ok a, h₁)) :
    (p >>= f).alone h st g = (f a).alone h₁ st g := by
  rw [alone_bind, hp]
  rfl

theorem alone_bind_error (hp : p.alone h st g = some (.error e, h₁)) :
    (p >>= f).alone h st g = some (.error e, h₁) := by
  rw [alone_bind, hp]
  rfl

theorem alone_failIf {c : Prop} [Decidable c] (hc : ¬ c) :
    (failIf c e : Prog K V γ ε Unit).alone h st g = some (.ok (), h) := by
  rw [failIf, if_neg hc]
  rfl

theorem alone_failIf_pos {c : Prop} [Decidable c] (hc : c) :
    (failIf c e : Prog K V γ ε Unit).alone h st g = some (.error e, h) := by
  rw [failIf, if_pos hc]
  rfl

theorem alone_orFail {o : Option β} {b : β} (ho : o = some b) :
    (orFail o e : Prog K V γ ε β).alone h st g = some (.ok b, h) := by
  rw [ho]
  rfl

theorem alone_snapshot : (snapshot : Prog K V γ ε (AList V)).alone h st g =
    some (.ok (h.own ∪ st), h.saw st) := rfl

theorem alone_outside : (outside : Prog K V γ ε γ).alone h st g = some (.ok g, h.saw st) := rfl

theorem alone_write {v : V k} (hk : k ∈ h.own) :
    (write k v : Prog K V γ ε Unit).alone h st g = some (.ok (), h.put k v) := if_pos hk

theorem alone_forUpdate {p : V k → Bool} {v : V k} (hk : k ∉ h.own) (hv : st.lookup k = some v)
    (hp : p v = true) :
    (forUpdate k p : Prog K V γ ε (Option (V k))).alone h st g =
      some (.ok (some v), h.lock k v) := by
  have htake : h.take k st = (some v, h.lock k v) := by
    simp only [Held.take, AList.lookup_eq_none.mpr hk, hv]
  change some _ = _
  rw [htake, Option.filter_some_pos hp]

theorem mem_own_of_take {v : V k} (hrow : (h.take k st).1 = some v) :
    k ∈ (h.take k st).2.own := by
  unfold Held.take at hrow ⊢
  split at hrow
  · exact AList.lookup_isSome.mp (Option.isSome_of_eq_some ‹_›)
  · simp
  · cases hrow

theorem alone_updateEach {key : ι → K} {p : (i : ι) → V (key i) → Bool}
    {set : (i : ι) → V (key i) → V (key i)} (is : List ι) : ∃ h',
    (updateEach key p set is : Prog K V γ ε Unit).alone h st g = some (.ok (), h') := by
  induction is generalizing h with
  | nil => exact ⟨h, rfl⟩
  | cons i is ih =>
    rw [updateEach, Prog.alone]
    split
    · rename_i v hrow
      split_ifs with hp
      · rw [Prog.alone, if_pos (mem_own_of_take hrow)]
        exact ih
      · exact ih
    · exact ih

theorem alone_updateWhere {index : K → Option ι} {key : ι → K} {p : (i : ι) → V (key i) → Bool}
    {set : (i : ι) → V (key i) → V (key i)} : ∃ h',
    (updateWhere index key p set : Prog K V γ ε Unit).alone h st g = some (.ok (), h') :=
  alone_updateEach _

theorem exec_of_alone {a : α} (hsn : ∀ sn ∈ h.snapshots, sn.store = st)
    (hp : p.alone h st g = some (.ok a, h₁)) : Exec p h a h₁ := by
  induction p generalizing h with
  | done b =>
    cases hp
    exact ⟨rfl, rfl⟩
  | fail e => cases hp
  | read next ih => exact ⟨st, g, ih _ _ (forall_mem_cons.mpr ⟨rfl, hsn⟩) hp⟩
  | lock k next ih =>
    refine ⟨st, fun sn hmem hk => hsn sn hmem ▸ hk, ih _ ?_ hp⟩
    rw [Held.snapshots_take]
    exact hsn
  | share k next ih =>
    unfold Prog.alone at hp
    split_ifs at hp
    exact ih hsn hp
  | put k v next ih =>
    unfold Prog.alone at hp
    split_ifs at hp
    exact ih hsn hp
  | insert k v next ih =>
    unfold Prog.alone at hp
    split_ifs at hp with hrow
    exact ⟨fun hk => hrow (AList.mem_union.mpr (.inl hk)), ih hsn hp⟩

end Evaluation

variable {R : Rules K V γ ε α ω} {op : ω} {a : α} {st : AList V} {g g' : γ} {h h' : Held K V}

def EndsWith (R : Rules K V γ ε α ω) (op : ω) (a : α) (s s' : Sys K V γ ε α ω) : Prop :=
  ∃ es e, Run (Step R) s (es ++ [e]) s' ∧ e.label = .commit op a ∧ e.before.store = s.store ∧
    ∀ x ∈ es, ∀ op' a', x.label ≠ .commit op' a'

theorem EndsWith.after_step {s m s' : Sys K V γ ε α ω} {l : Label α ω} (hstep : Step R s l m)
    (hl : ∀ op' a', l ≠ .commit op' a') (hstore : m.store = s.store) (h : EndsWith R op a m s') :
    EndsWith R op a s s' := by
  obtain ⟨es, e, hrun, hlabel, hbefore, hquiet⟩ := h
  refine ⟨⟨s, l, m⟩ :: es, e, ?_, hlabel, hbefore.trans hstore, ?_⟩
  · exact (Run.nil.snoc hstep).trans hrun
  · exact forall_mem_cons.mpr ⟨hl, hquiet⟩

/-- **What a program does alone, it does in a run of the system.** -/
theorem run_alone {p : Prog K V γ ε α} (hp : p.alone h st g = some (.ok a, h')) :
    EndsWith R op a ⟨st, g, [⟨op, h, p⟩]⟩ ⟨h'.own ∪ st, g, []⟩ := by
  induction p generalizing h with
  | done b =>
    cases hp
    have hstep : Step R ⟨st, g, [⟨op, h', .done a⟩]⟩ (.commit op a) ⟨h'.own ∪ st, g, []⟩ :=
      .commit (show _ = [] ++ (⟨op, h', .done a⟩ : Tx K V γ ε α ω) :: [] from rfl)
    exact ⟨[], ⟨_, _, _⟩, Run.nil.snoc hstep, rfl, rfl, by simp⟩
  | fail e => cases hp
  | read next ih =>
    have hstep : Step R ⟨st, g, [⟨op, h, .read next⟩]⟩ (.read op)
        ⟨st, g, [⟨op, h.saw st, next (h.own ∪ st) g⟩]⟩ :=
      .read (show _ = [] ++ (⟨op, h, .read next⟩ : Tx K V γ ε α ω) :: [] from rfl)
    exact .after_step hstep (by simp) rfl (ih _ _ hp)
  | lock k next ih =>
    have hstep : Step R ⟨st, g, [⟨op, h, .lock k next⟩]⟩ (.step op)
        ⟨st, g, [⟨op, (h.take k st).2, next (h.take k st).1⟩]⟩ :=
      .lock (show _ = [] ++ (⟨op, h, .lock k next⟩ : Tx K V γ ε α ω) :: [] from rfl)
        fun x hx => absurd hx not_mem_nil
    exact .after_step hstep (by simp) rfl (ih _ hp)
  | share k next ih =>
    unfold Prog.alone at hp
    split_ifs at hp with hrow
    have hstep : Step R ⟨st, g, [⟨op, h, .share k next⟩]⟩ (.step op)
        ⟨st, g, [⟨op, h.share k, next⟩]⟩ :=
      .share (show _ = [] ++ (⟨op, h, .share k next⟩ : Tx K V γ ε α ω) :: [] from rfl)
        (fun x hx => absurd hx not_mem_nil) hrow
    exact .after_step hstep (by simp) rfl (ih hp)
  | put k v next ih =>
    unfold Prog.alone at hp
    split_ifs at hp with hrow
    have hstep : Step R ⟨st, g, [⟨op, h, .put k v next⟩]⟩ (.step op)
        ⟨st, g, [⟨op, h.put k v, next⟩]⟩ :=
      .put (show _ = [] ++ (⟨op, h, .put k v next⟩ : Tx K V γ ε α ω) :: [] from rfl)
        hrow
    exact .after_step hstep (by simp) rfl (ih hp)
  | insert k v next ih =>
    unfold Prog.alone at hp
    split_ifs at hp with hnew
    have hstep : Step R ⟨st, g, [⟨op, h, .insert k v next⟩]⟩ (.step op)
        ⟨st, g, [⟨op, h.put k v, next⟩]⟩ :=
      .insert (show _ = [] ++ (⟨op, h, .insert k v next⟩ : Tx K V γ ε α ω) :: [] from rfl) hnew
        fun x hx => absurd hx not_mem_nil
    exact .after_step hstep (by simp) rfl (ih hp)

theorem run_request (hstarts : R.starts g op g')
    (hp : (R.prog op).alone .empty st g' = some (.ok a, h')) :
    EndsWith R op a ⟨st, g, []⟩ ⟨h'.own ∪ st, g', []⟩ := by
  have hstep : Step R ⟨st, g, []⟩ (.start op) ⟨st, g', [⟨op, .empty, R.prog op⟩]⟩ := .start hstarts
  exact .after_step hstep (by simp) rfl (run_alone hp)

/-- How a program that has the rows to itself ends, if it commits. -/
def Prog.result (p : Prog K V γ ε α) (st : AList V) (g : γ) : Option α :=
  match p.alone .empty st g with
  | some (.ok a, _) => some a
  | _ => none

def Prog.storeAfter (p : Prog K V γ ε α) (st : AList V) (g : γ) : AList V :=
  match p.alone .empty st g with
  | some (.ok _, h) => h.own ∪ st
  | _ => st

theorem run_of_result (hstarts : R.starts g op g') (hp : (R.prog op).result st g' = some a) :
    EndsWith R op a ⟨st, g, []⟩ ⟨(R.prog op).storeAfter st g', g', []⟩ := by
  unfold Prog.result at hp
  unfold Prog.storeAfter
  split at hp
  · rename_i b h heq
    obtain rfl := Option.some.inj hp
    exact run_request hstarts heq
  · cases hp

end Alone

end ManagedDirectory.Lib.Txn
