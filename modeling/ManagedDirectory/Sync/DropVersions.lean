import ManagedDirectory.RustDrop.Drops

/-!
# RustDrop and the sync versions

A client fetches `GET /v1/filedrop/drops` (`listDrops`) when the `drops` value of `versions_for`
(`dropsVersion`) has changed: the millisecond of the latest change to a row of the device.
`drops_noticed_iff` says for each operation when a client that is shown something else also sees
another version. A row that goes away is only noticed if it was the latest, and another name of a
peer never (`decline_unnoticed`).
-/

namespace ManagedDirectory.Sync

open Lib List
open RustDrop (Drop Store Task)

/-! ## What is read -/

structure DropDetails where
  filename : String
  senderPublicKey : Option String
  createdAt : Int
  deriving DecidableEq

structure DeviceName where
  friendlyName : Option String
  hostname : String
  deriving DecidableEq

structure DropState where
  store : Store
  details : Nat → DropDetails
  names : String → DeviceName
  fresh : ∀ d ∈ store.drops.rows, d.id < store.next

/-- `_serialize_drop`. -/
structure ShownDrop where
  id : Nat
  sender : String
  recipient : String
  filename : String
  declaredSize : Nat
  status : Rds.DropStatus
  contentSha256 : Option String
  senderPublicKey : Option String
  peer : DeviceName
  createdAt : Int
  expiresAt : Option Int
  deriving DecidableEq

def serializeDrop (s : DropState) (peer : String) (d : Drop) : ShownDrop where
  id := d.id
  sender := d.sender
  recipient := d.recipient
  filename := (s.details d.id).filename
  declaredSize := d.declaredSize
  status := d.status
  contentSha256 := d.contentSha256
  senderPublicKey := (s.details d.id).senderPublicKey
  peer := s.names peer
  createdAt := (s.details d.id).createdAt
  expiresAt := d.expiresAt

def incomingEntry (s : DropState) (dev : String) (d : Drop) : Option ShownDrop :=
  if d.recipient = dev ∧ d.status ≠ .delivered then some (serializeDrop s d.sender d) else none

def outgoingEntry (s : DropState) (dev : String) (d : Drop) : Option ShownDrop :=
  if d.sender = dev ∧ d.status ≠ .delivered then some (serializeDrop s d.recipient d) else none

/-- `ORDER BY f.created_at DESC`. -/
def newestFirst (drops : List ShownDrop) : List ShownDrop :=
  drops.insertionSort fun a b => b.createdAt ≤ a.createdAt

structure DropList where
  incoming : List ShownDrop
  outgoing : List ShownDrop
  deriving DecidableEq

/-- `list_drops`. -/
def listDrops (s : DropState) (dev : String) : DropList where
  incoming := newestFirst (s.store.drops.rows.filterMap (incomingEntry s dev))
  outgoing := newestFirst (s.store.drops.rows.filterMap (outgoingEntry s dev))

/-- The rows `versions_for` looks at. -/
def DropState.rowsOf (s : DropState) (dev : String) : List Drop :=
  s.store.drops.rows.filter fun d => d.sender == dev || d.recipient == dev

/-- `greatest(f.created_at, f.updated_at)`. -/
def DropState.activity (s : DropState) (d : Drop) : Int := max (s.details d.id).createdAt d.updatedAt

def ms (t : Int) : Int := t / 1000

/-- `coalesce(floor(extract(epoch FROM max(…)) * 1000)::bigint, 0)`. -/
def latest (times : List Int) : Int := (times.max?.map ms).getD 0

/-- The `drops` value of `versions_for`. -/
def dropsVersion (s : DropState) (dev : String) : Int := latest ((s.rowsOf dev).map s.activity)

/-! ## Operations -/

/-- The transactions that change what is read. `update` is any of the updates of a row: progress and
end of an upload, start of a download, delivery. -/
inductive DropOp where
  | create (self recipient filename : String) (declaredSize : Nat) (senderPublicKey : String)
  | update (task : Task)
  | decline (dropId : Nat)
  | sweep (found : List Nat)
  | rename (device : String) (name : DeviceName)

def DropState.create (s : DropState) (self recipient : String) (declaredSize : Nat) (now : Int)
    (details : DropDetails) : DropState where
  store := s.store.create self recipient declaredSize now
  details := Function.update s.details s.store.next details
  names := s.names
  fresh := by
    intro d hd
    show d.id < s.store.next + 2
    rcases Table.mem_insert.mp hd with hd | ⟨rfl, -⟩
    · have := s.fresh d hd
      omega
    · show s.store.next < s.store.next + 2
      omega

def DropState.update (s : DropState) (dropId : Nat) (now : Int) (t : Task) : DropState where
  store := s.store.update dropId now t
  details := s.details
  names := s.names
  fresh := by
    intro d' hd'
    have hmem : ∃ d ∈ s.store.drops.rows,
        (if d.id == dropId then t.assign now s.store.settings.ttl d else d) = d' :=
      mem_map.mp hd'
    obtain ⟨d, hd, rfl⟩ := hmem
    show _ < s.store.next
    split_ifs
    · rw [RustDrop.assign_id]
      exact s.fresh d hd
    · exact s.fresh d hd

def DropState.delete (s : DropState) (ids : List Nat) : DropState where
  store := s.store.delete ids
  details := s.details
  names := s.names
  fresh d hd := s.fresh d (Table.mem_delete.mp hd).1

def DropOp.apply (now : Int) (s : DropState) : DropOp → DropState
  | .create self recipient filename declaredSize senderPublicKey =>
    s.create self recipient declaredSize now ⟨filename, some senderPublicKey, now⟩
  | .update task =>
    match task.target with
    | some dropId => s.update dropId now task
    | none => s
  | .decline dropId => s.delete [dropId]
  | .sweep found => s.delete found
  | .rename device name => { s with names := Function.update s.names device name }

/-! ## The latest time -/

section Latest

variable {ts ts' : List Int} {v o n : Int}

/-- `v` is the millisecond of the latest time, or nothing happened and it is 0. -/
def IsLatest (ts : List Int) (v : Int) : Prop :=
  (ts = [] ∧ v = 0) ∨ ∃ t ∈ ts, ms t = v ∧ ∀ u ∈ ts, ms u ≤ v

theorem ms_mono {t u : Int} (h : t ≤ u) : ms t ≤ ms u := Int.ediv_le_ediv (by decide) h

theorem isLatest_latest (ts : List Int) : IsLatest ts (latest ts) := by
  unfold latest
  cases h : ts.max? with
  | none => exact .inl ⟨List.max?_eq_none_iff.mp h, rfl⟩
  | some m =>
    obtain ⟨hmem, hle⟩ := List.max?_eq_some_iff.mp h
    exact .inr ⟨m, hmem, rfl, fun u hu => ms_mono (hle u hu)⟩

theorem IsLatest.unique (h : IsLatest ts v) (h' : IsLatest ts n) : v = n := by
  rcases h with ⟨rfl, rfl⟩ | ⟨t, ht, rfl, hle⟩
  · rcases h' with ⟨-, rfl⟩ | ⟨t, ht, -⟩
    · rfl
    · cases ht
  · rcases h' with ⟨rfl, -⟩ | ⟨t', ht', rfl, hle'⟩
    · cases ht
    · exact Int.le_antisymm (hle' t ht) (hle t' ht')

theorem latest_eq_iff : latest ts = v ↔ IsLatest ts v := by
  constructor
  · rintro rfl
    exact isLatest_latest ts
  · exact (isLatest_latest ts).unique

theorem latest_congr (h : ∀ t, t ∈ ts ↔ t ∈ ts') : latest ts = latest ts' := by
  rw [latest_eq_iff]
  rcases isLatest_latest ts' with ⟨hnil, hv⟩ | ⟨t, ht, hv, hle⟩
  · refine .inl ⟨?_, hv⟩
    rw [eq_nil_iff_forall_not_mem]
    intro t ht
    rw [h, hnil] at ht
    cases ht
  · exact .inr ⟨t, (h t).mpr ht, hv, fun u hu => hle u ((h u).mp hu)⟩

theorem latest_nil : latest [] = 0 := rfl

theorem latest_cons_nil : latest [n] = ms n := rfl

theorem latest_cons (h : ts ≠ []) : latest (n :: ts) = max (ms n) (latest ts) := by
  rw [latest_eq_iff]
  rcases isLatest_latest ts with ⟨hnil, -⟩ | ⟨t, ht, hv, hle⟩
  · exact absurd hnil h
  · rcases Int.le_total (latest ts) (ms n) with hmax | hmax
    · rw [Int.max_eq_left hmax]
      refine .inr ⟨n, mem_cons_self, rfl, ?_⟩
      rintro u (_ | ⟨_, hu⟩)
      · exact Int.le_refl _
      · exact Int.le_trans (hle u hu) hmax
    · rw [Int.max_eq_right hmax]
      refine .inr ⟨t, mem_cons_of_mem _ ht, hv, ?_⟩
      rintro u (_ | ⟨_, hu⟩)
      · exact hmax
      · exact hle u hu

theorem forall_ms_lt_iff (h : ts ≠ []) : (∀ t ∈ ts, ms t < v) ↔ latest ts < v := by
  rcases isLatest_latest ts with ⟨hnil, -⟩ | ⟨t, ht, hv, hle⟩
  · exact absurd hnil h
  · constructor
    · intro hlt
      exact hv ▸ hlt t ht
    · intro hlt u hu
      exact Int.lt_of_le_of_lt (hle u hu) hlt

theorem latest_cons_ne_iff : latest (n :: ts) ≠ latest ts ↔
    (∀ t ∈ ts, ms t < ms n) ∧ (ts = [] → ms n ≠ 0) := by
  by_cases h : ts = []
  · subst h
    simp [latest_cons_nil, latest_nil]
  · rw [latest_cons h, forall_ms_lt_iff h]
    simp only [h, false_implies, and_true]
    omega

/-- Another time in place of `o` is noticed if it is in another millisecond, and one of the two is
later than all others. -/
theorem latest_replace_ne_iff : latest (n :: ts) ≠ latest (o :: ts) ↔
    ms o ≠ ms n ∧ ∀ t ∈ ts, ms t < max (ms o) (ms n) := by
  by_cases h : ts = []
  · subst h
    simp [latest_cons_nil, eq_comm]
  · rw [latest_cons h, latest_cons h, forall_ms_lt_iff h]
    omega

theorem latest_filter_ne_iff {α : Type} (xs : List α) (time : α → Int) (keep : α → Bool) :
    latest ((xs.filter keep).map time) ≠ latest (xs.map time) ↔
      ∃ x ∈ xs, keep x = false ∧ (∀ y ∈ xs, ms (time y) ≤ ms (time x)) ∧
        (∀ y ∈ xs, keep y = true → ms (time y) ≠ ms (time x)) ∧
        ((∀ y ∈ xs, keep y = false) → ms (time x) ≠ 0) := by
  constructor
  · intro hne
    rcases isLatest_latest (xs.map time) with ⟨hnil, -⟩ | ⟨t, ht, hv, hle⟩
    · rw [map_eq_nil_iff] at hnil
      subst hnil
      exact absurd rfl hne
    · obtain ⟨x, hx, rfl⟩ := mem_map.mp ht
      have hall : ∀ y ∈ xs, ms (time y) ≤ ms (time x) := by
        intro y hy
        rw [hv]
        exact hle _ (mem_map_of_mem hy)
      have hkept : ∀ y ∈ xs, keep y = true → ms (time y) ≠ ms (time x) := by
        intro y hy hkeep heq
        refine hne (latest_eq_iff.mpr (.inr ⟨time y, ?_, heq.trans hv, ?_⟩))
        · exact mem_map_of_mem (mem_filter.mpr ⟨hy, hkeep⟩)
        · intro u hu
          obtain ⟨z, hz, rfl⟩ := mem_map.mp hu
          exact hle _ (mem_map_of_mem (mem_filter.mp hz).1)
      refine ⟨x, hx, ?_, hall, hkept, fun hgone hzero => ?_⟩
      · rw [← Bool.not_eq_true]
        exact fun hkeep => hkept x hx hkeep rfl
      · have hnone : xs.filter keep = [] := by
          rw [filter_eq_nil_iff]
          intro y hy
          simp [hgone y hy]
        rw [hnone, ← hv, hzero] at hne
        exact hne rfl
  · rintro ⟨x, hx, hgone, hall, hkept, hzero⟩ heq
    have hv : latest (xs.map time) = ms (time x) := by
      refine latest_eq_iff.mpr (.inr ⟨time x, mem_map_of_mem hx, rfl, fun u hu => ?_⟩)
      obtain ⟨y, hy, rfl⟩ := mem_map.mp hu
      exact hall y hy
    rw [hv, latest_eq_iff] at heq
    rcases heq with ⟨hnil, hzero'⟩ | ⟨t, ht, hms, -⟩
    · rw [map_eq_nil_iff, filter_eq_nil_iff] at hnil
      refine hzero (fun y hy => ?_) hzero'
      simpa using hnil y hy
    · obtain ⟨y, hy, rfl⟩ := mem_map.mp ht
      obtain ⟨hy, hkeep⟩ := mem_filter.mp hy
      exact hkept y hy hkeep hms

end Latest

/-! ## What a device is shown -/

section Shown

variable {s : DropState} {dev : String} {d : Drop} {e : ShownDrop}

theorem id_of_incomingEntry (h : incomingEntry s dev d = some e) : e.id = d.id := by
  unfold incomingEntry at h
  split_ifs at h
  cases h
  rfl

theorem id_of_outgoingEntry (h : outgoingEntry s dev d = some e) : e.id = d.id := by
  unfold outgoingEntry at h
  split_ifs at h
  cases h
  rfl

theorem mem_iff_of_newestFirst {l l' : List ShownDrop} (h : newestFirst l = newestFirst l')
    (e : ShownDrop) : e ∈ l ↔ e ∈ l' := by
  have hl : e ∈ newestFirst l ↔ e ∈ l := mem_insertionSort _
  have hl' : e ∈ newestFirst l' ↔ e ∈ l' := mem_insertionSort _
  rw [← hl, ← hl', h]

theorem newestFirst_eq_iff {rows : List Drop} {f f' : Drop → Option ShownDrop}
    (hrows : (rows.map Drop.id).Nodup) (hf : ∀ d e, f d = some e → e.id = d.id)
    (hf' : ∀ d e, f' d = some e → e.id = d.id) :
    newestFirst (rows.filterMap f') = newestFirst (rows.filterMap f) ↔ ∀ d ∈ rows, f' d = f d := by
  constructor
  · intro heq d hd
    have hmem : ∀ e, (∃ x ∈ rows, f' x = some e) ↔ ∃ x ∈ rows, f x = some e := by
      intro e
      rw [← mem_filterMap, ← mem_filterMap]
      exact mem_iff_of_newestFirst heq e
    have hinj : ∀ x ∈ rows, x.id = d.id → x = d :=
      fun x hx hid => inj_on_of_nodup_map hrows hx hd hid
    cases hfd : f d with
    | some e =>
      obtain ⟨x, hx, hfx⟩ := (hmem e).mpr ⟨d, hd, hfd⟩
      rw [← hinj x hx ((hf' x e hfx).symm.trans (hf d e hfd)), hfx]
    | none =>
      cases hfd' : f' d with
      | none => rfl
      | some e =>
        obtain ⟨x, hx, hfx⟩ := (hmem e).mp ⟨d, hd, hfd'⟩
        rw [hinj x hx ((hf x e hfx).symm.trans (hf' d e hfd')), hfd] at hfx
        cases hfx
  · intro hall
    rw [filterMap_congr hall]

end Shown

/-! ## When a change is noticed -/

/-- The client is told to fetch the drops when it is shown something else. -/
def Detects (s s' : DropState) (dev : String) : Prop :=
  listDrops s' dev ≠ listDrops s dev → dropsVersion s' dev ≠ dropsVersion s dev

/-- What a client is shown of a row, beyond what is written once. -/
def shows (d : Drop) : Option (Rds.DropStatus × Option String × Option Int) :=
  if d.status = .delivered then none else some (d.status, d.contentSha256, d.expiresAt)

/-- A row of the device that is not delivered is deleted, and so is a latest one, with none of its
millisecond left. -/
def DropState.NoticesDeletion (s : DropState) (dev : String) (ids : List Nat) : Prop :=
  (∃ d ∈ s.rowsOf dev, d.id ∈ ids ∧ d.status ≠ .delivered) →
    ∃ x ∈ s.rowsOf dev, x.id ∈ ids ∧
      (∀ y ∈ s.rowsOf dev, ms (s.activity y) ≤ ms (s.activity x)) ∧
      (∀ y ∈ s.rowsOf dev, y.id ∉ ids → ms (s.activity y) ≠ ms (s.activity x)) ∧
      ((∀ y ∈ s.rowsOf dev, y.id ∈ ids) → ms (s.activity x) ≠ 0)

/-- The operation changes nothing the device is shown, or moves the latest activity of its rows to
another millisecond. -/
def Noticed (s : DropState) (now : Int) (dev : String) : DropOp → Prop
  | .create self recipient _ _ _ => self = dev ∨ recipient = dev →
    (∀ d ∈ s.rowsOf dev, ms (s.activity d) < ms now) ∧ (s.rowsOf dev = [] → ms now ≠ 0)
  | .update task => ∀ d ∈ s.rowsOf dev, task.target = some d.id →
    shows (task.assign now s.store.settings.ttl d) ≠ shows d →
      ms (s.activity d) ≠ ms (s.activity (task.assign now s.store.settings.ttl d)) ∧
      ∀ x ∈ s.rowsOf dev, x.id ≠ d.id → ms (s.activity x) <
        max (ms (s.activity d)) (ms (s.activity (task.assign now s.store.settings.ttl d)))
  | .decline dropId => s.NoticesDeletion dev [dropId]
  | .sweep found => s.NoticesDeletion dev found
  | .rename device name => name ≠ s.names device → ∀ d ∈ s.rowsOf dev, d.status ≠ .delivered →
    ¬ (d.sender = device ∧ d.recipient = dev ∨ d.sender = dev ∧ d.recipient = device)

section Ops

variable {s : DropState} {dev : String} {now : Int}

variable {name : DeviceName} {d : Drop} {details : DropDetails} {declaredSize : Nat}
  {device recipient self : String}

theorem mem_rowsOf : d ∈ s.rowsOf dev ↔
    d ∈ s.store.drops.rows ∧ (d.sender = dev ∨ d.recipient = dev) := by
  simp [DropState.rowsOf]

theorem listDrops_eq_iff {rows : List Drop} {s s' : DropState} {g g' : Drop → Option ShownDrop}
    (hrows : s.store.drops.rows = rows)
    (hin : s'.store.drops.rows.filterMap (incomingEntry s' dev) = rows.filterMap g)
    (hout : s'.store.drops.rows.filterMap (outgoingEntry s' dev) = rows.filterMap g')
    (hg : ∀ d e, g d = some e → e.id = d.id) (hg' : ∀ d e, g' d = some e → e.id = d.id) :
    listDrops s' dev = listDrops s dev ↔
      ∀ d ∈ rows, g d = incomingEntry s dev d ∧ g' d = outgoingEntry s dev d := by
  have hnd : (rows.map Drop.id).Nodup := hrows ▸ s.store.drops.nodup
  have hiff : listDrops s' dev = listDrops s dev ↔
      newestFirst (rows.filterMap g) = newestFirst (rows.filterMap (incomingEntry s dev)) ∧
        newestFirst (rows.filterMap g') = newestFirst (rows.filterMap (outgoingEntry s dev)) := by
    simp only [listDrops, DropList.mk.injEq, hin, hout, hrows]
  rw [hiff, newestFirst_eq_iff hnd (fun _ _ h => id_of_incomingEntry h) hg,
    newestFirst_eq_iff hnd (fun _ _ h => id_of_outgoingEntry h) hg']
  exact ⟨fun h d hd => ⟨h.1 d hd, h.2 d hd⟩, fun h => ⟨fun d hd => (h d hd).1,
    fun d hd => (h d hd).2⟩⟩

/-! ### Deletions -/

theorem incomingEntry_eq_none :
    incomingEntry s dev d = none ↔ (d.recipient = dev → d.status = .delivered) := by
  simp [incomingEntry]

theorem outgoingEntry_eq_none :
    outgoingEntry s dev d = none ↔ (d.sender = dev → d.status = .delivered) := by
  simp [outgoingEntry]

def unlessGone (ids : List Nat) (entry : Drop → Option ShownDrop) (d : Drop) : Option ShownDrop :=
  if !ids.contains d.id then entry d else none

theorem id_of_unlessGone {ids : List Nat} {entry : Drop → Option ShownDrop}
    (hentry : ∀ d e, entry d = some e → e.id = d.id) (d : Drop) (e : ShownDrop)
    (h : unlessGone ids entry d = some e) : e.id = d.id := by
  unfold unlessGone at h
  split_ifs at h
  exact hentry d e h

theorem unlessGone_eq_iff {ids : List Nat} {entry : Drop → Option ShownDrop} :
    unlessGone ids entry d = entry d ↔ (d.id ∈ ids → entry d = none) := by
  by_cases hgone : d.id ∈ ids
  · simp [unlessGone, hgone, eq_comm]
  · simp [unlessGone, hgone]

theorem listDrops_delete (ids : List Nat) : listDrops (s.delete ids) dev = listDrops s dev ↔
    ¬ ∃ d ∈ s.rowsOf dev, d.id ∈ ids ∧ d.status ≠ .delivered := by
  have hin : (s.delete ids).store.drops.rows.filterMap (incomingEntry (s.delete ids) dev) =
      s.store.drops.rows.filterMap (unlessGone ids (incomingEntry s dev)) := filterMap_filter ..
  have hout : (s.delete ids).store.drops.rows.filterMap (outgoingEntry (s.delete ids) dev) =
      s.store.drops.rows.filterMap (unlessGone ids (outgoingEntry s dev)) := filterMap_filter ..
  rw [listDrops_eq_iff rfl hin hout (id_of_unlessGone fun _ _ h => id_of_incomingEntry h)
    (id_of_unlessGone fun _ _ h => id_of_outgoingEntry h)]
  simp only [unlessGone_eq_iff, incomingEntry_eq_none, outgoingEntry_eq_none, not_exists, not_and,
    not_not, ne_eq, mem_rowsOf, and_imp]
  refine forall_congr' fun d => forall_congr' fun _ => ?_
  tauto

theorem dropsVersion_delete (ids : List Nat) : dropsVersion (s.delete ids) dev =
    latest (((s.rowsOf dev).filter fun d => !ids.contains d.id).map s.activity) := by
  have hrows : (s.delete ids).rowsOf dev = (s.rowsOf dev).filter fun d => !ids.contains d.id :=
    filter_comm _ _ _
  rw [dropsVersion, hrows]
  rfl

theorem detects_delete_iff (ids : List Nat) :
    Detects s (s.delete ids) dev ↔ s.NoticesDeletion dev ids := by
  unfold Detects DropState.NoticesDeletion
  rw [ne_eq, listDrops_delete, not_not, dropsVersion_delete, dropsVersion, latest_filter_ne_iff]
  simp only [contains_eq_mem, Bool.not_eq_eq_eq_not, Bool.not_true, Bool.not_false,
    decide_eq_true_eq, decide_eq_false_iff_not]

/-! ### Names -/

theorem serializeDrop_rename {peer : String} :
    serializeDrop { s with names := Function.update s.names device name } peer d =
      serializeDrop s peer d ↔ (peer = device → name = s.names device) := by
  by_cases hpeer : peer = device
  · subst hpeer
    simp [serializeDrop]
  · simp [serializeDrop, hpeer]

theorem incomingEntry_rename :
    incomingEntry { s with names := Function.update s.names device name } dev d =
      incomingEntry s dev d ↔
        (d.recipient = dev ∧ d.status ≠ .delivered → d.sender = device → name = s.names device) := by
  unfold incomingEntry
  split_ifs with h
  · simp only [Option.some_inj, serializeDrop_rename, h, ne_eq, not_false_eq_true, and_self,
      true_implies]
  · simp only [h, false_implies]

theorem outgoingEntry_rename :
    outgoingEntry { s with names := Function.update s.names device name } dev d =
      outgoingEntry s dev d ↔
        (d.sender = dev ∧ d.status ≠ .delivered → d.recipient = device → name = s.names device) := by
  unfold outgoingEntry
  split_ifs with h
  · simp only [Option.some_inj, serializeDrop_rename, h, ne_eq, not_false_eq_true, and_self,
      true_implies]
  · simp only [h, false_implies]

theorem detects_rename_iff (device : String) (name : DeviceName) :
    Detects s { s with names := Function.update s.names device name } dev ↔
      Noticed s now dev (.rename device name) := by
  have hsame : dropsVersion { s with names := Function.update s.names device name } dev =
      dropsVersion s dev := rfl
  have hlist : listDrops { s with names := Function.update s.names device name } dev =
      listDrops s dev ↔ _ :=
    listDrops_eq_iff rfl rfl rfl (fun _ _ h => id_of_incomingEntry h)
      (fun _ _ h => id_of_outgoingEntry h)
  unfold Detects Noticed
  rw [hsame]
  simp only [ne_eq, not_true_eq_false, imp_false, not_not]
  rw [hlist]
  simp only [incomingEntry_rename, outgoingEntry_rename, mem_rowsOf]
  constructor
  · rintro h hname d ⟨hd, -⟩ hstatus (⟨hs, hr⟩ | ⟨hs, hr⟩)
    · exact hname ((h d hd).1 ⟨hr, hstatus⟩ hs)
    · exact hname ((h d hd).2 ⟨hs, hstatus⟩ hr)
  · intro h d hd
    refine ⟨fun hin hs => ?_, fun hout hr => ?_⟩
    · by_contra hname
      exact h hname d ⟨hd, .inr hin.1⟩ hin.2 (.inl ⟨hs, hin.1⟩)
    · by_contra hname
      exact h hname d ⟨hd, .inl hout.1⟩ hout.2 (.inr ⟨hout.1, hr⟩)

/-! ### Updates -/

structure SameDrop (d d' : Drop) : Prop where
  id : d'.id = d.id
  sender : d'.sender = d.sender
  recipient : d'.recipient = d.recipient
  declaredSize : d'.declaredSize = d.declaredSize

theorem sameDrop_assign (t : Task) (ttl : Nat) (d : Drop) : SameDrop d (t.assign now ttl d) := by
  cases t with
  | renewTtl k =>
    have hfields : (Task.renewTtl k).assign now ttl d = _ := RustDrop.renewTtl_fields now ttl d
    rw [hfields]
    exact ⟨rfl, rfl, rfl, rfl⟩
  | _ => exact ⟨rfl, rfl, rfl, rfl⟩

section Entries

variable {d d' : Drop}

theorem serializeDrop_eq_iff (h : SameDrop d d') {peer peer' : String} (hpeer : peer' = peer) :
    serializeDrop s peer' d' = serializeDrop s peer d ↔
      d'.status = d.status ∧ d'.contentSha256 = d.contentSha256 ∧ d'.expiresAt = d.expiresAt := by
  simp [serializeDrop, h.id, h.sender, h.recipient, h.declaredSize, hpeer]

theorem incomingEntry_eq_iff (h : SameDrop d d') : incomingEntry s dev d' = incomingEntry s dev d ↔
    (d.recipient = dev → shows d' = shows d) := by
  unfold incomingEntry shows
  by_cases hdev : d.recipient = dev
  · by_cases hd : d.status = .delivered <;> by_cases hd' : d'.status = .delivered <;>
      simp [hdev, h.recipient, hd, hd', serializeDrop_eq_iff h h.sender]
  · simp [hdev, h.recipient]

theorem outgoingEntry_eq_iff (h : SameDrop d d') : outgoingEntry s dev d' = outgoingEntry s dev d ↔
    (d.sender = dev → shows d' = shows d) := by
  unfold outgoingEntry shows
  by_cases hdev : d.sender = dev
  · by_cases hd : d.status = .delivered <;> by_cases hd' : d'.status = .delivered <;>
      simp [hdev, h.sender, hd, hd', serializeDrop_eq_iff h h.recipient]
  · simp [hdev, h.sender]

end Entries

/-- A row after an update of drop `dropId`. -/
def DropState.written (s : DropState) (dropId : Nat) (now : Int) (t : Task) (d : Drop) : Drop :=
  if d.id == dropId then t.assign now s.store.settings.ttl d else d

theorem sameDrop_written (dropId : Nat) (t : Task) (d : Drop) :
    SameDrop d (s.written dropId now t d) := by
  unfold DropState.written
  split_ifs
  · exact sameDrop_assign _ _ _
  · exact ⟨rfl, rfl, rfl, rfl⟩

theorem rows_update (dropId : Nat) (t : Task) : (s.update dropId now t).store.drops.rows =
    s.store.drops.rows.map (s.written dropId now t) := rfl

theorem listDrops_update (dropId : Nat) (t : Task) :
    listDrops (s.update dropId now t) dev = listDrops s dev ↔ ∀ d ∈ s.rowsOf dev, d.id = dropId →
      shows (t.assign now s.store.settings.ttl d) = shows d := by
  have hin : (s.update dropId now t).store.drops.rows.filterMap
      (incomingEntry (s.update dropId now t) dev) =
      s.store.drops.rows.filterMap fun d => incomingEntry s dev (s.written dropId now t d) := by
    rw [rows_update, filterMap_map]
    rfl
  have hout : (s.update dropId now t).store.drops.rows.filterMap
      (outgoingEntry (s.update dropId now t) dev) =
      s.store.drops.rows.filterMap fun d => outgoingEntry s dev (s.written dropId now t d) := by
    rw [rows_update, filterMap_map]
    rfl
  rw [listDrops_eq_iff rfl hin hout
    (fun d _ h => (id_of_incomingEntry h).trans (sameDrop_written dropId t d).id)
    (fun d _ h => (id_of_outgoingEntry h).trans (sameDrop_written dropId t d).id)]
  have hshows : ∀ d, shows (s.written dropId now t d) = shows d ↔
      (d.id = dropId → shows (t.assign now s.store.settings.ttl d) = shows d) := by
    intro d
    by_cases hid : d.id = dropId <;> simp [DropState.written, hid]
  simp only [incomingEntry_eq_iff (sameDrop_written dropId t _),
    outgoingEntry_eq_iff (sameDrop_written dropId t _), hshows, mem_rowsOf, and_imp]
  refine forall_congr' fun d => forall_congr' fun _ => ?_
  tauto

theorem rowsOf_update (dropId : Nat) (t : Task) : (s.update dropId now t).rowsOf dev =
    (s.rowsOf dev).map (s.written dropId now t) := by
  rw [DropState.rowsOf, rows_update, filter_map]
  congr 1
  refine filter_congr fun d _ => ?_
  have hsame : SameDrop d (s.written dropId now t d) := sameDrop_written dropId t d
  simp only [Function.comp_apply, hsame.sender, hsame.recipient]

def DropState.otherTimes (s : DropState) (dev : String) (dropId : Nat) : List Int :=
  ((s.rowsOf dev).filter fun x => x.id ≠ dropId).map s.activity

theorem eq_of_id {x : Drop} (hd : d ∈ s.rowsOf dev) (hx : x ∈ s.rowsOf dev) (hid : x.id = d.id) :
    x = d :=
  inj_on_of_nodup_map s.store.drops.nodup (mem_rowsOf.mp hx).1 (mem_rowsOf.mp hd).1 hid

theorem dropsVersion_eq (hd : d ∈ s.rowsOf dev) :
    dropsVersion s dev = latest (s.activity d :: s.otherTimes dev d.id) := by
  refine latest_congr fun t => ?_
  simp only [DropState.otherTimes, mem_cons, mem_map, mem_filter, decide_eq_true_eq]
  constructor
  · rintro ⟨x, hx, rfl⟩
    by_cases hid : x.id = d.id
    · exact .inl (by rw [eq_of_id hd hx hid])
    · exact .inr ⟨x, ⟨hx, hid⟩, rfl⟩
  · rintro (rfl | ⟨x, ⟨hx, -⟩, rfl⟩)
    · exact ⟨d, hd, rfl⟩
    · exact ⟨x, hx, rfl⟩

theorem dropsVersion_update (hd : d ∈ s.rowsOf dev) (t : Task) :
    dropsVersion (s.update d.id now t) dev =
      latest (s.activity (t.assign now s.store.settings.ttl d) :: s.otherTimes dev d.id) := by
  refine latest_congr fun time => ?_
  rw [rowsOf_update, map_map]
  simp only [DropState.otherTimes, mem_cons, mem_map, mem_filter, decide_eq_true_eq,
    Function.comp_apply]
  constructor
  · rintro ⟨x, hx, rfl⟩
    by_cases hid : x.id = d.id
    · left
      rw [eq_of_id hd hx hid]
      simp [DropState.written, DropState.activity, DropState.update]
    · right
      refine ⟨x, ⟨hx, hid⟩, ?_⟩
      simp [DropState.written, DropState.activity, DropState.update, hid]
  · rintro (rfl | ⟨x, ⟨hx, hid⟩, rfl⟩)
    · refine ⟨d, hd, ?_⟩
      simp [DropState.written, DropState.activity, DropState.update]
    · refine ⟨x, hx, ?_⟩
      simp [DropState.written, DropState.activity, DropState.update, hid]

theorem detects_update_iff {dropId : Nat} {t : Task} (htarget : t.target = some dropId) :
    Detects s (s.update dropId now t) dev ↔ Noticed s now dev (.update t) := by
  simp only [Detects, Noticed, ne_eq, listDrops_update, htarget, Option.some_inj]
  by_cases hrow : ∃ d ∈ s.rowsOf dev, d.id = dropId
  · obtain ⟨d, hd, rfl⟩ := hrow
    have hmoves : ¬ dropsVersion (s.update d.id now t) dev = dropsVersion s dev ↔
        ¬ ms (s.activity d) = ms (s.activity (t.assign now s.store.settings.ttl d)) ∧
        ∀ x ∈ s.rowsOf dev, ¬ x.id = d.id → ms (s.activity x) <
          max (ms (s.activity d)) (ms (s.activity (t.assign now s.store.settings.ttl d))) := by
      rw [dropsVersion_update hd, dropsVersion_eq hd, ← ne_eq, latest_replace_ne_iff]
      simp only [DropState.otherTimes, forall_mem_map, mem_filter, decide_eq_true_eq,
        and_imp, ne_eq]
    rw [hmoves]
    constructor
    · intro h x hx hid hshows
      obtain rfl := eq_of_id hd hx hid.symm
      exact h fun hall => hshows (hall x hd rfl)
    · intro h hchanged
      refine h d hd rfl fun hsame => hchanged fun x hx hid => ?_
      rw [eq_of_id hd hx hid]
      exact hsame
  · refine iff_of_true (fun hchanged => absurd (fun d hd hid => ?_) hchanged) fun d hd hid => ?_
    · exact absurd ⟨d, hd, hid⟩ hrow
    · exact absurd ⟨d, hd, hid.symm⟩ hrow

/-! ### New drops -/

theorem rows_create :
    (s.create self recipient declaredSize now details).store.drops.rows = s.store.drops.rows ++
      [RustDrop.newDrop s.store.next (s.store.next + 1) self recipient declaredSize now] := by
  refine Table.rows_insert (Table.find_eq_none_iff.mpr fun d hd hid => ?_)
  have hlt := s.fresh d hd
  rw [hid] at hlt
  exact absurd hlt (Nat.lt_irrefl _)

theorem activity_create (hd : d ∈ s.store.drops.rows) :
    (s.create self recipient declaredSize now details).activity d = s.activity d := by
  have hne : d.id ≠ s.store.next := Nat.ne_of_lt (s.fresh d hd)
  simp [DropState.activity, DropState.create, hne]

theorem listDrops_create (hparty : self = dev ∨ recipient = dev) :
    listDrops (s.create self recipient declaredSize now details) dev ≠ listDrops s dev := by
  intro heq
  have hnew : ∀ {l : List ShownDrop} {f : Drop → Option ShownDrop} {e : ShownDrop},
      newestFirst l = newestFirst (s.store.drops.rows.filterMap f) →
      (∀ d e, f d = some e → e.id = d.id) → e ∈ l → e.id ≠ s.store.next := by
    intro l f e hl hf he hid
    obtain ⟨d, hd, hfd⟩ := mem_filterMap.mp ((mem_iff_of_newestFirst hl e).mp he)
    have hlt := s.fresh d hd
    rw [← hf d e hfd, hid] at hlt
    exact absurd hlt (Nat.lt_irrefl _)
  have hrow : RustDrop.newDrop s.store.next (s.store.next + 1) self recipient declaredSize now ∈
      (s.create self recipient declaredSize now details).store.drops.rows := by
    rw [rows_create]
    exact mem_append_right _ mem_cons_self
  obtain ⟨hin, hout⟩ := DropList.mk.inj heq
  rcases hparty with hself | hrecipient
  · exact hnew hout (fun _ _ h => id_of_outgoingEntry h)
      (mem_filterMap.mpr ⟨_, hrow, if_pos ⟨hself, by simp [RustDrop.newDrop]⟩⟩) rfl
  · exact hnew hin (fun _ _ h => id_of_incomingEntry h)
      (mem_filterMap.mpr ⟨_, hrow, if_pos ⟨hrecipient, by simp [RustDrop.newDrop]⟩⟩) rfl

theorem listDrops_create_other (hself : self ≠ dev) (hrecipient : recipient ≠ dev) :
    listDrops (s.create self recipient declaredSize now details) dev = listDrops s dev := by
  have hshown : ∀ d ∈ s.store.drops.rows, ∀ peer,
      serializeDrop (s.create self recipient declaredSize now details) peer d =
        serializeDrop s peer d := by
    intro d hd peer
    have hne : d.id ≠ s.store.next := Nat.ne_of_lt (s.fresh d hd)
    simp [serializeDrop, DropState.create, hne]
  have hin : s.store.drops.rows.filterMap
      (incomingEntry (s.create self recipient declaredSize now details) dev) =
      s.store.drops.rows.filterMap (incomingEntry s dev) := by
    refine filterMap_congr fun d hd => ?_
    simp only [incomingEntry, hshown d hd]
  have hout : s.store.drops.rows.filterMap
      (outgoingEntry (s.create self recipient declaredSize now details) dev) =
      s.store.drops.rows.filterMap (outgoingEntry s dev) := by
    refine filterMap_congr fun d hd => ?_
    simp only [outgoingEntry, hshown d hd]
  simp only [listDrops, rows_create, filterMap_append, hin, hout]
  simp [incomingEntry, outgoingEntry, RustDrop.newDrop, hself, hrecipient]

theorem dropsVersion_create {filename key : String} (hparty : self = dev ∨ recipient = dev) :
    dropsVersion (s.create self recipient declaredSize now ⟨filename, some key, now⟩) dev =
      latest (now :: (s.rowsOf dev).map s.activity) := by
  refine latest_congr fun t => ?_
  have hnew : (s.create self recipient declaredSize now ⟨filename, some key, now⟩).activity
      (RustDrop.newDrop s.store.next (s.store.next + 1) self recipient declaredSize now) = now := by
    simp [DropState.activity, DropState.create, RustDrop.newDrop]
  simp only [mem_map, mem_cons, mem_rowsOf, rows_create, mem_append,
    not_mem_nil, or_false]
  constructor
  · rintro ⟨d, ⟨hd | rfl, hdev⟩, rfl⟩
    · exact .inr ⟨d, ⟨hd, hdev⟩, (activity_create hd).symm⟩
    · exact .inl hnew
  · rintro (rfl | ⟨d, ⟨hd, hdev⟩, rfl⟩)
    · exact ⟨_, ⟨.inr rfl, hparty⟩, hnew⟩
    · exact ⟨d, ⟨.inl hd, hdev⟩, activity_create hd⟩

theorem detects_create_iff (self recipient filename key : String) (declaredSize : Nat) :
    Detects s (s.create self recipient declaredSize now ⟨filename, some key, now⟩) dev ↔
      Noticed s now dev (.create self recipient filename declaredSize key) := by
  simp only [Detects, Noticed]
  by_cases hparty : self = dev ∨ recipient = dev
  · rw [dropsVersion_create hparty, dropsVersion, latest_cons_ne_iff]
    simp only [listDrops_create hparty, hparty, true_implies, ne_eq, not_false_eq_true,
      forall_mem_map, map_eq_nil_iff]
  · obtain ⟨hself, hrecipient⟩ := not_or.mp hparty
    simp [listDrops_create_other hself hrecipient, hparty]

end Ops

/-- **A change of the drops is noticed** by a device that is shown it exactly if it moves the latest
activity of the device's rows. -/
theorem drops_noticed_iff (s : DropState) (op : DropOp) (now : Int) (dev : String) :
    Detects s (op.apply now s) dev ↔ Noticed s now dev op := by
  cases op with
  | create self recipient filename declaredSize key =>
    exact detects_create_iff self recipient filename key declaredSize
  | update task =>
    cases htarget : task.target with
    | some dropId =>
      simp only [DropOp.apply, htarget]
      exact detects_update_iff htarget
    | none => simp [DropOp.apply, htarget, Detects, Noticed]
  | decline dropId => exact detects_delete_iff [dropId]
  | sweep found => exact detects_delete_iff found
  | rename device name => exact detects_rename_iff device name

/-! ## An offer that is declined -/

namespace DropSample

def store : Store :=
  { RustDrop.Store.empty 9000 ⟨100, 10, 10⟩ with
    drops := ⟨[⟨0, "a", "b", 5, 5, none, 1, .complete, 1000, some 9000⟩,
      ⟨2, "a", "b", 5, 5, none, 3, .complete, 7000, some 9000⟩], by decide⟩
    next := 4 }

def state : DropState where
  store := store
  details _ := ⟨"file", none, 1000⟩
  names _ := ⟨none, "workshop"⟩
  fresh := by decide

end DropSample

open DropSample in
/-- The device declines the older of two drops: it is gone from the list, and the version stays. -/
theorem decline_unnoticed :
    listDrops ((DropOp.decline 0).apply 8000 state) "b" ≠ listDrops state "b" ∧
      dropsVersion ((DropOp.decline 0).apply 8000 state) "b" =
        dropsVersion state "b" := by
  decide

end ManagedDirectory.Sync
