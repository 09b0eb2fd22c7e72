import Mathlib

/-!
# Foreign keys

Rows that refer to rows of other tables, under foreign keys that say what a deletion does to the
rows that refer to what is deleted (`OnDelete`). `delete` is SQL's `DELETE` of one row: `cascade`
removes what refers to a removed row by a cascading key, round by round; then it is an error if a
row that is left refers to a removed one by a key without an action, and the keys that become null
are cleared.

`not_refers_of_delete` says that nothing refers to the row afterwards. `delete_eq_none_iff` says
when the deletion is refused, for keys of a common shape (`Guards`).
-/

namespace ManagedDirectory.Lib.ForeignKeys

open List

/-- `ON DELETE`. -/
inductive OnDelete where
  | noAction
  | cascade
  | setNull
  deriving DecidableEq

structure ForeignKey (T : Type) where
  table : T
  column : String
  parent : T
  onDelete : OnDelete
  deriving DecidableEq

structure Row (T K V : Type) where
  table : T
  key : K
  refs : List (String × K)
  value : V
  deriving DecidableEq

variable {T K V : Type} {keys : List (ForeignKey T)} {action : OnDelete} {r : Row T K V}
  {rows kept : List (Row T K V)} {gone : List (T × K)} {x : T × K}

def Row.id (r : Row T K V) : T × K := (r.table, r.key)

/-- The row refers to row `x` by a key with the given action. -/
def Refers (keys : List (ForeignKey T)) (action : OnDelete) (r : Row T K V) (x : T × K) : Prop :=
  ∃ k ∈ keys, k.table = r.table ∧ k.onDelete = action ∧ k.parent = x.1 ∧ (k.column, x.2) ∈ r.refs

section Delete

variable [DecidableEq T] [DecidableEq K]

/-- The row refers to one of the rows `gone` by a key with the given action. -/
def Row.refersTo (keys : List (ForeignKey T)) (action : OnDelete) (gone : List (T × K))
    (r : Row T K V) : Bool :=
  keys.any fun k => k.table == r.table && k.onDelete == action &&
    gone.any fun x => k.parent == x.1 && r.refs.contains (k.column, x.2)

/-- The columns that refer to a removed row become null where their key says so. -/
def Row.clear (keys : List (ForeignKey T)) (gone : List (T × K)) (r : Row T K V) : Row T K V :=
  { r with
    refs := r.refs.filter fun ref => !keys.any fun k =>
      k.table == r.table && k.onDelete == .setNull && k.column == ref.1 &&
        gone.contains (k.parent, ref.2) }

def hit (keys : List (ForeignKey T)) (gone : List (T × K)) (rows : List (Row T K V)) :
    List (T × K) :=
  (rows.filter (Row.refersTo keys .cascade gone)).map Row.id

def spared (keys : List (ForeignKey T)) (gone : List (T × K)) (rows : List (Row T K V)) :
    List (Row T K V) :=
  rows.filter fun r => !r.refersTo keys .cascade gone

/-- The rows that go with the rows `gone`, and the rows that are left. -/
def cascade (keys : List (ForeignKey T)) (gone : List (T × K)) (rows : List (Row T K V)) :
    List (T × K) × List (Row T K V) :=
  if rows.any (Row.refersTo keys .cascade gone) then
    cascade keys (gone ++ hit keys gone rows) (spared keys gone rows)
  else (gone, rows)
termination_by rows.length
decreasing_by
  rename_i hany
  obtain ⟨r, hr, hrefers⟩ := any_eq_true.mp hany
  refine length_filter_lt_length_iff_exists.mpr ⟨r, hr, ?_⟩
  simp [hrefers]

/-- `DELETE` of the row `x`: what is left, or `none` for a foreign key violation. -/
def delete (keys : List (ForeignKey T)) (x : T × K) (rows : List (Row T K V)) :
    Option (List (Row T K V)) :=
  let result := cascade keys [x] (rows.filter fun r => r.id != x)
  if result.2.any (Row.refersTo keys .noAction result.1) then none
  else some (result.2.map (Row.clear keys result.1))

/-! ## What goes and what stays -/

theorem refersTo_iff : r.refersTo keys action gone = true ↔ ∃ x ∈ gone, Refers keys action r x := by
  simp only [Row.refersTo, any_eq_true, Bool.and_eq_true, beq_iff_eq, contains_iff_mem]
  constructor
  · rintro ⟨k, hk, ⟨htable, haction⟩, x, hx, hparent, href⟩
    exact ⟨x, hx, k, hk, htable, haction, hparent, href⟩
  · rintro ⟨x, hx, k, hk, htable, haction, hparent, href⟩
    exact ⟨k, hk, ⟨htable, haction⟩, x, hx, hparent, href⟩

theorem cascade_induction {P : T × K → Prop} (hstart : ∀ x ∈ gone, P x)
    (hstep : ∀ r ∈ rows, ∀ x, Refers keys .cascade r x → P x → P r.id) :
    ∀ x ∈ (cascade keys gone rows).1, P x := by
  fun_induction cascade keys gone rows with
  | case1 gone rows _ ih =>
    refine ih ?_ fun r hr => hstep r (mem_of_mem_filter hr)
    intro x hx
    rcases mem_append.mp hx with hx | hx
    · exact hstart x hx
    · obtain ⟨r, hr, rfl⟩ := mem_map.mp hx
      obtain ⟨y, hy, hrefers⟩ := refersTo_iff.mp (mem_filter.mp hr).2
      exact hstep r (mem_filter.mp hr).1 y hrefers (hstart y hy)
  | case2 gone rows _ => exact hstart

theorem subset_cascade : ∀ x ∈ gone, x ∈ (cascade keys gone rows).1 := by
  fun_induction cascade keys gone rows with
  | case1 gone rows _ ih => exact fun x hx => ih x (mem_append_left _ hx)
  | case2 gone rows _ => exact fun x hx => hx

theorem cascade_left (hr : r ∈ (cascade keys gone rows).2) :
    r ∈ rows ∧ ∀ x ∈ (cascade keys gone rows).1, ¬ Refers keys .cascade r x := by
  revert hr
  fun_induction cascade keys gone rows with
  | case1 gone rows _ ih =>
    intro hr
    exact ⟨mem_of_mem_filter (ih hr).1, (ih hr).2⟩
  | case2 gone rows hany =>
    intro hr
    refine ⟨hr, fun x hx hrefers => hany ?_⟩
    exact any_eq_true.mpr ⟨r, hr, refersTo_iff.mpr ⟨x, hx, hrefers⟩⟩

theorem cascade_gone_or_left (hr : r ∈ rows) :
    r.id ∈ (cascade keys gone rows).1 ∨ r ∈ (cascade keys gone rows).2 := by
  revert hr
  fun_induction cascade keys gone rows with
  | case1 gone rows _ ih =>
    intro hr
    by_cases hrefers : r.refersTo keys .cascade gone = true
    · refine .inl (subset_cascade _ (mem_append_right _ (mem_map_of_mem ?_)))
      exact mem_filter.mpr ⟨hr, hrefers⟩
    · exact ih (mem_filter.mpr ⟨hr, by simpa using hrefers⟩)
  | case2 gone rows _ => exact fun hr => .inr hr

theorem refers_of_clear {y : T × K} (h : Refers keys action (r.clear keys gone) y) :
    Refers keys action r y ∧ (action = .setNull → y ∉ gone) := by
  obtain ⟨k, hk, htable, haction, hparent, href⟩ := h
  obtain ⟨href, hkeep⟩ := mem_filter.mp href
  refine ⟨⟨k, hk, htable, haction, hparent, href⟩, fun hnull hy => ?_⟩
  simp only [Bool.not_eq_true', any_eq_false, Bool.and_eq_true, beq_iff_eq,
    contains_iff_mem, not_and] at hkeep
  exact hkeep k hk ⟨⟨htable, haction.trans hnull⟩, rfl⟩ (by rwa [hparent])

/-- **Nothing that is left refers to the deleted row.** -/
theorem not_refers_of_delete (hdelete : delete keys x rows = some kept) {r' : Row T K V}
    (hr' : r' ∈ kept) : ¬ Refers keys action r' x := by
  unfold delete at hdelete
  simp only at hdelete
  split at hdelete
  · cases hdelete
  · rename_i hnone
    cases hdelete
    obtain ⟨r, hr, rfl⟩ := mem_map.mp hr'
    intro hrefers
    obtain ⟨hrefers, hnull⟩ := refers_of_clear hrefers
    have hgone : x ∈ (cascade keys [x] (rows.filter fun r => r.id != x)).1 :=
      subset_cascade x (by simp)
    cases action with
    | noAction => exact hnone (any_eq_true.mpr ⟨r, hr, refersTo_iff.mpr ⟨x, hgone, hrefers⟩⟩)
    | cascade => exact (cascade_left hr).2 x hgone hrefers
    | setNull => exact hnull rfl hgone

/-! ## When a deletion is refused -/

/-- Around the table `root`: cascading keys lead from it and the tables `below` into `below` only,
and a key without an action that refers to one of these refers to `root`, from another table. -/
structure Guards (keys : List (ForeignKey T)) (root : T) (below : List T) : Prop where
  outside : root ∉ below
  cascade : ∀ k ∈ keys, k.onDelete = .cascade → k.parent = root ∨ k.parent ∈ below →
    k.table ∈ below
  noAction : ∀ k ∈ keys, k.onDelete = .noAction → k.parent = root ∨ k.parent ∈ below →
    k.parent = root ∧ k.table ≠ root ∧ k.table ∉ below

variable {root : T} {below : List T} {k : K}

theorem gone_below (h : Guards keys root below) :
    ∀ y ∈ (cascade keys [(root, k)] rows).1, y = (root, k) ∨ y.1 ∈ below := by
  refine cascade_induction (by simp) ?_
  rintro r - y ⟨fk, hfk, htable, haction, hparent, -⟩ hy
  have hbelow : fk.table ∈ below := h.cascade fk hfk haction ?_
  · exact .inr (show r.table ∈ below from htable ▸ hbelow)
  rw [hparent]
  exact hy.imp (fun hy => by rw [hy]) id

/-- **A row of `root` cannot be deleted exactly while a row refers to it by a key without an
action.** -/
theorem delete_eq_none_iff (h : Guards keys root below) :
    delete keys (root, k) rows = none ↔ ∃ r ∈ rows, Refers keys .noAction r (root, k) := by
  unfold delete
  simp only [ite_eq_left_iff, reduceCtorEq, imp_false, not_not, any_eq_true, refersTo_iff]
  constructor
  · rintro ⟨r, hr, y, hy, hrefers⟩
    have hrow := (mem_filter.mp (cascade_left hr).1).1
    obtain ⟨fk, hfk, htable, haction, hparent, href⟩ := id hrefers
    have hbelow := gone_below h y hy
    obtain ⟨hroot, -, -⟩ := h.noAction fk hfk haction (by
      rw [hparent]
      exact hbelow.imp (fun hy => by rw [hy]) id)
    rcases hbelow with rfl | hbelow
    · exact ⟨r, hrow, hrefers⟩
    · rw [← hparent, hroot] at hbelow
      exact absurd hbelow h.outside
  · rintro ⟨r, hr, hrefers⟩
    obtain ⟨fk, hfk, htable, haction, hparent, -⟩ := id hrefers
    obtain ⟨-, hnotRoot, hnotBelow⟩ := h.noAction fk hfk haction (.inl hparent)
    have hother : r.id ≠ (root, k) := fun hid => hnotRoot (htable.trans (congrArg Prod.fst hid))
    refine ⟨r, ?_, (root, k), subset_cascade _ (by simp), hrefers⟩
    refine (cascade_gone_or_left (mem_filter.mpr ⟨hr, by simpa using hother⟩)).resolve_left ?_
    intro hgone
    rcases gone_below h _ hgone with hid | hbelow
    · exact hother hid
    · exact hnotBelow (htable ▸ hbelow)

end Delete

end ManagedDirectory.Lib.ForeignKeys
