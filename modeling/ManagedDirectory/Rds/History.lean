import ManagedDirectory.Rds.Authorizations

/-!
# RDS: the status history

A trigger adds a row to `device_status_history` whenever a status changes. In the order in which
they commit, the rows of a device always form a chain (`historyInv_of_run`). A row's `changed_at`
is the start of its transaction, and that orders the rows the same way only where each transaction
that changes a status started after the changes it finds (`history_chain`): an enrollment that
started before a block and gets the lock after it is written before it (`history_out_of_order`).
-/

namespace ManagedDirectory.Rds

open Codec Lib

/-! ## Chains -/

/-- The rows lead from status `x` to status `y`. -/
def Leads (x : Option DeviceStatus) : List HistoryRow → Option DeviceStatus → Prop
  | [], y => y = x
  | row :: rows, y => row.fromStatus = x ∧ Leads (some row.toStatus) rows y

/-- The rows of a device with status `y`: the first makes it pending, each later one starts where
the one before ends, and the last ends in `y`. -/
def IsHistory (rows : List HistoryRow) (y : DeviceStatus) : Prop :=
  ∃ changedAt rest, rows = ⟨none, .pending, changedAt⟩ :: rest ∧ Leads (some .pending) rest (some y)

instance (x : Option DeviceStatus) (rows : List HistoryRow) (y : Option DeviceStatus) :
    Decidable (Leads x rows y) :=
  match rows with
  | [] => inferInstanceAs (Decidable (y = x))
  | row :: rows =>
    have := instDecidableLeads (some row.toStatus) rows y
    inferInstanceAs (Decidable (row.fromStatus = x ∧ Leads (some row.toStatus) rows y))

theorem Leads.snoc {x y : Option DeviceStatus} {rows : List HistoryRow} {z : DeviceStatus}
    {changedAt : Int} (h : Leads x rows y) : Leads x (rows ++ [⟨y, z, changedAt⟩]) (some z) := by
  induction rows generalizing x with
  | nil => exact ⟨h, rfl⟩
  | cons row rows ih => exact ⟨h.1, ih h.2⟩

theorem IsHistory.snoc {rows : List HistoryRow} {y z : DeviceStatus} {changedAt : Int}
    (h : IsHistory rows y) : IsHistory (rows ++ [⟨some y, z, changedAt⟩]) z := by
  obtain ⟨first, rest, rfl, hrest⟩ := h
  exact ⟨first, _, rfl, hrest.snoc⟩

/-! ## What a transaction does to the history -/

/-- What a transaction does to the history and the status of a record. -/
inductive HistoryChange (t : Tx) (r r' : Record) : Prop where
  | kept (hrows : r'.history = r.history) (hstatus : r'.status = r.status)
  | first (hnone : r.status = none)
      (hrows : r'.history = r.history ++ [⟨none, .pending, t.startedAt⟩])
      (hstatus : r'.status = some .pending)
  | next {x y : DeviceStatus} (hx : r.status = some x) (hy : r'.status = some y) (hne : y ≠ x)
      (hrows : r'.history = r.history ++ [⟨some x, y, t.startedAt⟩])
  | dropped (hrows : r'.history = []) (hstatus : r'.status = none)

section Changes

variable {g : Outside} {t : Tx} {did : String} {r r₁ r' : Record}

theorem historyChange_setRow {d d' : ManagedDevice} (hrow : r.row = some d)
    (hrows : r₁.history = r.history) : HistoryChange t r (r₁.setRow t.startedAt d d') := by
  have hstatus : (r₁.setRow t.startedAt d d').status = some d'.status := by
    rw [Record.status, row_setRow, Option.map_some]
  have hbefore : r.status = some d.status := by rw [Record.status, hrow, Option.map_some]
  by_cases hsame : d'.status = d.status
  · refine .kept ?_ (by rw [hstatus, hbefore, hsame])
    rw [Record.setRow, if_pos hsame]
    exact hrows
  · refine .next hbefore hstatus hsame ?_
    rw [Record.setRow, if_neg hsame, ← hrows]

theorem history_credentialed {startedAt : Int} (h : Credentialed startedAt r r') :
    r'.history = r.history ∧ r'.status = r.status := by
  cases h <;> exact ⟨rfl, rfl⟩

theorem HistoryChange.congr (h : HistoryChange t r r₁) (hrows : r'.history = r₁.history)
    (hstatus : r'.status = r₁.status) : HistoryChange t r r' := by
  cases h with
  | kept h1 h2 => exact .kept (hrows.trans h1) (hstatus.trans h2)
  | first h1 h2 h3 => exact .first h1 (hrows.trans h2) (hstatus.trans h3)
  | next h1 h2 h3 h4 => exact .next h1 (hstatus.trans h2) h3 (hrows.trans h4)
  | dropped h1 h2 => exact .dropped (hrows.trans h1) (hstatus.trans h2)

theorem historyChange_of_change (h : RecordChange g t did r r') : HistoryChange t r r' := by
  cases h with
  | enrolled hreq hrow hfresh hid => exact .first (by simp [Record.status, hrow]) rfl rfl
  | readmitted hreq hrow hopen ha => exact historyChange_setRow hrow rfl
  | authorized hreq hrow hopen hfresh hd' =>
    refine .kept rfl ?_
    rcases hd' with rfl | rfl <;> simp [Record.status, hrow, ManagedDevice.extendPoll]
  | approved hreq hrow hopen hcredential =>
    obtain ⟨hrows, hstatus⟩ := history_credentialed hcredential
    exact (historyChange_setRow hrow rfl).congr hrows hstatus
  | renamed hreq hrow happroved hcredential =>
    obtain ⟨hrows, hstatus⟩ := history_credentialed hcredential
    refine .kept hrows (hstatus.trans ?_)
    simp [Record.status, hrow, ManagedDevice.rename]
  | changed hreq hrow hfrom hcheck =>
    apply historyChange_setRow hrow
    split_ifs <;> rfl
  | unchanged hreq hrow hsame => exact .kept rfl rfl
  | deleted hreq hrow hclosed => exact .dropped rfl rfl
  | touched hreq hrow => exact .kept rfl (by simp [Record.status, hrow])
  | worked hreq hrow hdone => cases hdone <;> exact .kept rfl rfl

structure HistoryInv (r : Record) : Prop where
  noRow : r.status = none → r.history = []
  chain : ∀ y, r.status = some y → IsHistory r.history y

theorem historyInv_of_change (hinv : HistoryInv r) (h : HistoryChange t r r') : HistoryInv r' := by
  cases h with
  | kept hrows hstatus => exact ⟨by rw [hrows, hstatus]; exact hinv.noRow,
      by rw [hrows, hstatus]; exact hinv.chain⟩
  | first hnone hrows hstatus =>
    refine ⟨fun h => by simp [hstatus] at h, fun y hy => ?_⟩
    rw [hrows, hinv.noRow hnone]
    exact ⟨_, [], rfl, hy.symm.trans hstatus⟩
  | next hx hy hne hrows =>
    refine ⟨fun h => by simp [hy] at h, fun z hz => ?_⟩
    obtain rfl := Option.some.inj (hy.symm.trans hz)
    rw [hrows]
    exact (hinv.chain _ hx).snoc
  | dropped hrows hstatus => exact ⟨fun _ => hrows, fun y hy => by simp [hstatus] at hy⟩

end Changes

/-! ## Over a run -/

/-- If `e` changes the status of device `did`, then its transaction started after every change
before it. -/
def InOrder (did : String) (e : Ev) : Prop :=
  ∀ t, e.label = .commit did t → StatusChanged did e →
    ∀ row ∈ (e.before.cells did).history, row.changedAt < t.startedAt

section Runs

variable {P : Platform} {I : Issuer} {g : Outside} {s : State} {es : List Ev} {did : String}

/-- **In the order of the commits the history is a chain.** -/
theorem historyInv_of_run (h : Run (TxStep P I) (noDevices g) es s) (did : String) :
    HistoryInv (s.cells did) :=
  record_invariant h (fun _ => HistoryInv) (fun _ => ⟨fun _ => rfl, fun y hy => by cases hy⟩)
    (fun hinv hchange => historyInv_of_change hinv (historyChange_of_change hchange)) did

theorem ordered_of_run (h : Run (TxStep P I) (noDevices g) es s)
    (horder : ∀ x ∈ es, InOrder did x) :
    (s.cells did).history.Pairwise fun a b => a.changedAt < b.changedAt := by
  refine record_history (valid_noDevices .nil) h (fun es r => (∀ x ∈ es, InOrder did x) →
    r.history.Pairwise fun a b => a.changedAt < b.changedAt) (fun _ => .nil) ?_ horder
  intro es e hinv hstep hall
  have hbefore := hinv fun x hx => hall x (List.mem_append_left _ hx)
  have hlast := hall e (by simp)
  rcases hstep.same_or_commit with hsame | ⟨g, t, hlabel, hchange⟩
  · rwa [hsame]
  have hsnoc : ∀ row : HistoryRow, row.changedAt = t.startedAt → StatusChanged did e →
      ((e.before.cells did).history ++ [row]).Pairwise fun a b => a.changedAt < b.changedAt := by
    intro row hrow hchanged
    refine List.pairwise_append.mpr ⟨hbefore, List.pairwise_singleton _ _, ?_⟩
    intro a ha b hb
    obtain rfl := List.mem_singleton.mp hb
    exact hrow ▸ hlast t hlabel hchanged a ha
  cases historyChange_of_change hchange with
  | kept hrows hstatus => rwa [hrows]
  | first hnone hrows hstatus =>
    rw [hrows]
    exact hsnoc _ rfl (by simp [StatusChanged, hnone, hstatus])
  | next hx hy hne hrows =>
    rw [hrows]
    exact hsnoc _ rfl (by simp [StatusChanged, hx, hy, hne])
  | dropped hrows hstatus =>
    rw [hrows]
    exact .nil

/-- **Status history**: where each change started after the changes before it, the rows of a device
ordered by `changed_at` form a chain that ends in its status. -/
theorem history_chain (h : Run (TxStep P I) (noDevices g) es s)
    (horder : ∀ x ∈ es, InOrder did x) {y : DeviceStatus} (hy : (s.cells did).status = some y)
    {rows : List HistoryRow} (hrows : rows.Perm (s.cells did).history)
    (hsorted : rows.Pairwise fun a b => a.changedAt ≤ b.changedAt) : IsHistory rows y := by
  have hstrict := ordered_of_run h horder
  have hdistinct : ((s.cells did).history.map HistoryRow.changedAt).Nodup :=
    List.pairwise_map.mpr (hstrict.imp fun hlt => hlt.ne)
  have heq : rows = (s.cells did).history := by
    refine hrows.eq_of_pairwise ?_ hsorted (hstrict.imp fun hlt => hlt.le)
    intro a b ha hb hle hle'
    exact List.inj_on_of_nodup_map hdistinct (hrows.mem_iff.mp ha) hb (le_antisymm hle hle')
  rw [heq]
  exact (historyInv_of_run h did).chain y hy

theorem inOrder_of_committed (did : String)
    (hall : ∀ c ∈ committed es, ∀ row ∈ c.before.history, row.changedAt < c.tx.startedAt) :
    ∀ x ∈ es, InOrder did x :=
  fun _ hx _ hlabel _ => hall _ (mem_committed hx hlabel)

end Runs

theorem sample_history_chain : ∃ es,
    Run (TxStep plainPlatform plainIssuer) (noDevices sampleOutside) es (sampleAt 5 sampleReturned) ∧
      IsHistory [⟨none, .pending, 1⟩, ⟨some .pending, .approved, 2⟩, ⟨some .approved, .blocked, 3⟩,
        ⟨some .blocked, .pending, 5⟩] .pending := by
  obtain ⟨es, hrun, hcommits⟩ := sample_return (P := plainPlatform) (I := plainIssuer)
  have horder : ∀ x ∈ es, InOrder "d" x := by
    apply inOrder_of_committed
    rw [hcommits]
    decide
  have hcell : (sampleAt 5 sampleReturned).cells "d" = sampleReturned := cells_oneDevice
  refine ⟨es, hrun, history_chain hrun horder (by rw [hcell]; rfl) ?_ (by decide)⟩
  rw [hcell]
  exact .refl _

/-! ## An enrollment that waits -/

def sampleRecovery : Tx :=
  ⟨.enroll ⟨sampleEnrollment 1 "t2" 3, some "t1", "d2"⟩, 3⟩

def sampleBlockedFirst : Record :=
  { sampleApproved with
    row := sampleApproved.row.map (ManagedDevice.setStatus .blocked)
    credentials := [⟨"c1", 2, none, true⟩]
    history := sampleApproved.history ++ [⟨some .approved, .blocked, 4⟩] }

def sampleAuthorizedFirst : Record :=
  { sampleBlockedFirst with
    row := sampleBlockedFirst.row.map (ManagedDevice.extendPoll 5)
    authorizations := [⟨"a1", "d", "owner", 5 + 30 * 60 * 1000000, false, false⟩] }

def sampleRecovered : Record :=
  { sampleAuthorizedFirst with
    row := sampleAuthorizedFirst.row.map (ManagedDevice.reenroll (sampleEnrollment 1 "t2" 3))
    authorizations := [⟨"a1", "d", "owner", 5 + 30 * 60 * 1000000, true, false⟩]
    history := sampleAuthorizedFirst.history ++ [⟨some .blocked, .pending, 3⟩] }

theorem sample_recovered : Serves plainPlatform plainIssuer (noDevices sampleOutside)
    ([sampleCommit sampleEnroll .empty 1 sampleEnrolled] ++
      [sampleCommit (.approve "d" "owner" none "c1") sampleEnrolled 2 sampleApproved] ++ [] ++ [] ++
      [⟨"d", ⟨sampleBlock, 4⟩, sampleApproved, sampleBlockedFirst, [sampleRecovery]⟩] ++
      [⟨"d", ⟨.authorize "d" "owner" "a1" 30 5, 5⟩, sampleBlockedFirst, sampleAuthorizedFirst,
        [sampleRecovery]⟩] ++
      [⟨"d", sampleRecovery, sampleAuthorizedFirst, sampleRecovered, []⟩])
    (sampleAt 5 sampleRecovered) := by
  have hstart := (sample_enrolled (P := plainPlatform) (I := plainIssuer)).trans sample_approved
  have hwait := (hstart.trans (run_tick (show (2 : Int) ≤ 3 by decide))).trans
    (run_start (t := sampleRecovery) (starts_of_not_isWork rfl))
  exact ((hwait.trans (run_request rfl (by decide) rfl)).trans
    (run_request rfl (by decide) rfl)).trans (run_commit rfl)

theorem history_out_of_order : ∃ es s rows,
    Run (TxStep plainPlatform plainIssuer) (noDevices sampleOutside) es s ∧
      (s.cells "d").status = some .pending ∧ rows.Perm (s.cells "d").history ∧
      (rows.Pairwise fun a b => a.changedAt < b.changedAt) ∧ ¬ IsHistory rows .pending := by
  obtain ⟨es, hrun, -⟩ := sample_recovered
  have hcell : (sampleAt 5 sampleRecovered).cells "d" = sampleRecovered := cells_oneDevice
  refine ⟨es, _, [⟨none, .pending, 1⟩, ⟨some .pending, .approved, 2⟩, ⟨some .blocked, .pending, 3⟩,
    ⟨some .approved, .blocked, 4⟩], hrun, by rw [hcell]; rfl, ?_, by decide, ?_⟩
  · rw [hcell]
    exact .cons _ (.cons _ (.swap _ _ _))
  · rintro ⟨first, rest, hrows, hleads⟩
    cases hrows
    revert hleads
    decide

end ManagedDirectory.Rds
