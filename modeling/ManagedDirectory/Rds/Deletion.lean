import ManagedDirectory.Rds.Drops

/-!
# RDS: an Owner deletes a device

`adminDelete` is the `delete` of `admin_device_action`: one transaction that locks the row, writes
the snapshot to the audit log and deletes the row, with what the foreign keys say.

`delete_succeeds_iff`: for a blocked or revoked device it succeeds exactly if no drop and no
transfer names the device and the audit log can hold the reason. Nothing ever removes a transfer,
so a device that once sent or received a file stays (`transfer_blocks_delete`).
-/

namespace ManagedDirectory.Rds

open Codec Lib ForeignKeys

/-! ## The transaction -/

inductive Role where
  | owner
  | manager
  | viewer
  deriving DecidableEq

structure DeleteRequest where
  role : Role
  accountId : String
  /-- The code points of `payload["reason"]`, which may be any text of Python. -/
  reason : List Nat
  sourceIp : String
  now : Int

/-- `str.strip`. -/
def stripPoints (text : List Nat) : List Nat :=
  let space := fun n => pySpace (Char.ofNat n)
  ((text.dropWhile space).reverse.dropWhile space).reverse

/-- Whether `jsonb` takes the text, as `json.dumps` escapes it: it has no NUL and no surrogate
without its other half. -/
def jsonbText : List Nat → Bool
  | [] => true
  | [c] => plain c
  | c :: d :: cs =>
    if 0xD800 ≤ c && c < 0xDC00 then 0xDC00 ≤ d && d < 0xE000 && jsonbText cs
    else plain c && jsonbText (d :: cs)
where
  plain (c : Nat) : Bool := c != 0 && (c < 0xD800 || 0xE000 ≤ c)

def deviceIdRow (table : Table) (did key : String) : DbRow :=
  ⟨table, key, [("device_id", did)], .other⟩

def Record.rows (did : String) (r : Record) : List DbRow :=
  r.row.toList.map (fun _ => ⟨.managedDevices, did, [], .other⟩) ++
    r.credentials.map (fun c => deviceIdRow .deviceCredentials did c.serial) ++
    r.authorizations.map (fun a => deviceIdRow .deviceReenrollmentAuthorizations did a.id) ++
    r.history.mapIdx (fun i _ => deviceIdRow .deviceStatusHistory did (toString i)) ++
    r.leases.map (fun l => deviceIdRow .relayAccessLeases did l.id) ++
    r.edgeCerts.map (fun c => deviceIdRow .edgeClientCerts did c.cfCertId) ++
    r.requests.mapIdx (fun i _ => deviceIdRow .caJobs did (toString i))

/-- `count_specs`. -/
def countSpecs : List (Table × String) :=
  [(.deviceCredentials, "device_id"), (.relayAccessLeases, "device_id"),
    (.deviceReenrollmentRequests, "device_id"), (.deviceReenrollmentAuthorizations, "device_id"),
    (.deviceStatusHistory, "device_id"), (.deviceActivityEvents, "device_id"),
    (.deviceActiveSessions, "reporting_device_id")]

def dependentCounts (did : String) (rows : List DbRow) : List (Table × Nat) :=
  countSpecs.map fun (table, column) =>
    (table, rows.countP fun row => row.table == table && row.refs.contains (column, did))

def Store.rowsWith (did : String) (s : Store) : List DbRow :=
  (s.directory.cells did).rows did ++ s.rows

def deletionAudit (req : DeleteRequest) (did : String) (d : ManagedDevice) (s : Store) :
    DeletionAudit where
  actorAccountId := req.accountId
  eventType := "device.deleted"
  targetType := "managed_device_deleted"
  targetId := did
  sourceIp := req.sourceIp
  reason := stripPoints req.reason
  deletedAt := req.now
  device := d
  statusHistory := (s.directory.cells did).history.mergeSort (·.changedAt ≤ ·.changedAt)
  dependentRowsRemoved := dependentCounts did (s.rowsWith did)

/-- `admin_device_action` with action `delete`. An error rolls everything back. -/
def adminDelete (req : DeleteRequest) (did : String) (s : Store) : Except Failure Store := do
  refuseIf (req.role ≠ .owner) (.http 403 "Owner authorization is required")
  refuseIf (stripPoints req.reason = []) (.http 422 "A reason is required")
  let d ← orRefuse (s.directory.cells did).row (.http 404 "Managed device was not found")
  let deleted ← (s.directory.cells did).delete
  refuseIf (jsonbText (stripPoints req.reason) = false) .exception
  let rows ← orRefuse (delete foreignKeys (.managedDevices, did) (s.rowsWith did)) .exception
  pure { s with
    directory := { s.directory with cells := Function.update s.directory.cells did deleted }
    rows := rows
    audit := s.audit ++ [deletionAudit req did d s] }

/-- The device is gone, nothing refers to it any more, and the audit log has its last state. -/
structure Deleted (req : DeleteRequest) (did : String) (s s' : Store) : Prop where
  row : (s'.directory.cells did).row = none
  rows : ∀ row ∈ s'.rows, ∀ action, ¬ Refers foreignKeys action row (.managedDevices, did)
  audit : ∃ d, (s.directory.cells did).row = some d ∧
    s'.audit = s.audit ++ [deletionAudit req did d s]

section Deletion

variable {req : DeleteRequest} {did : String} {s s' : Store} {row : DbRow}

theorem not_names_record {r : Record} (hrow : row ∈ r.rows did) : ¬ Names did row := by
  rintro ⟨hparties, -⟩
  simp only [Record.rows, List.mem_append, List.mem_map, List.mem_mapIdx] at hrow
  rcases hrow with (((((⟨_, -, rfl⟩ | ⟨_, -, rfl⟩) | ⟨_, -, rfl⟩) | ⟨_, _, rfl⟩) | ⟨_, -, rfl⟩) |
    ⟨_, -, rfl⟩) | ⟨_, _, rfl⟩ <;> cases hparties

theorem delete_eq_none_iff_names :
    delete foreignKeys (.managedDevices, did) (s.rowsWith did) = none ↔
      ∃ row ∈ s.rows, Names did row := by
  rw [delete_eq_none_iff guards]
  simp only [refers_noAction_iff, Store.rowsWith, List.mem_append]
  constructor
  · rintro ⟨row, hrow | hrow, hnames⟩
    · exact absurd hnames (not_names_record hrow)
    · exact ⟨row, hrow, hnames⟩
  · rintro ⟨row, hrow, hnames⟩
    exact ⟨row, .inr hrow, hnames⟩

theorem adminDelete_ok (h : adminDelete req did s = .ok s') :
    Deleted req did s s' ∧ (∀ row ∈ s.rows, ¬ Names did row) ∧
      jsonbText (stripPoints req.reason) = true := by
  simp only [adminDelete, Record.delete, bind_ok_iff, refuseIf_eq_ok, orRefuse_eq_ok, exists_unit,
    pure_ok_iff] at h
  obtain ⟨-, -, d, hd, deleted, ⟨-, -, -, rfl⟩, hjson, rows, hrows, rfl⟩ := h
  refine ⟨⟨?_, ?_, d, hd, rfl⟩, ?_, by simpa using hjson⟩
  · simp [Record.empty]
  · exact fun row hrow action => not_refers_of_delete hrows hrow
  · intro row hrow hnames
    rw [delete_eq_none_iff_names.mpr ⟨row, hrow, hnames⟩] at hrows
    cases hrows

theorem adminDelete_eq_ok {d : ManagedDevice} (howner : req.role = .owner)
    (hreason : stripPoints req.reason ≠ []) (hrow : (s.directory.cells did).row = some d)
    (hclosed : d.status = .blocked ∨ d.status = .revoked)
    (hnames : ∀ row ∈ s.rows, ¬ Names did row)
    (hjson : jsonbText (stripPoints req.reason) = true) : ∃ s', adminDelete req did s = .ok s' := by
  obtain ⟨rows, hrows⟩ := Option.ne_none_iff_exists'.mp (mt delete_eq_none_iff_names.mp
    fun ⟨row, hrow, hn⟩ => hnames row hrow hn)
  simp only [adminDelete, Record.delete, checkDeletable, bind_ok_iff, refuseIf_eq_ok,
    orRefuse_eq_ok, exists_unit, pure_ok_iff]
  refine ⟨_, by simp [howner], hreason, d, hrow, _, ⟨d, hrow, ?_, rfl⟩, by simp [hjson], rows, hrows,
    rfl⟩
  rcases hclosed with hstatus | hstatus <;> simp [hstatus]

/-- **Deleting a device**: an Owner's delete, with a reason, of a blocked or revoked device succeeds
exactly if no drop and no transfer names the device and the audit log can hold the reason. -/
theorem delete_succeeds_iff (howner : req.role = .owner) (hreason : stripPoints req.reason ≠ [])
    (hclosed : (s.directory.cells did).status = some .blocked ∨
      (s.directory.cells did).status = some .revoked) :
    (∃ s', adminDelete req did s = .ok s' ∧ Deleted req did s s') ↔
      (∀ row ∈ s.rows, ¬ Names did row) ∧ jsonbText (stripPoints req.reason) = true := by
  constructor
  · rintro ⟨s', h, -⟩
    exact (adminDelete_ok h).2
  · rintro ⟨hnames, hjson⟩
    obtain ⟨d, hrow, hstatus⟩ : ∃ d, (s.directory.cells did).row = some d ∧
        (d.status = .blocked ∨ d.status = .revoked) := by
      cases hrow : (s.directory.cells did).row with
      | none => simp [Record.status, hrow] at hclosed
      | some d => exact ⟨d, rfl, by simpa [Record.status, hrow] using hclosed⟩
    obtain ⟨s', h⟩ := adminDelete_eq_ok howner hreason hrow hstatus hnames hjson
    exact ⟨s', h, (adminDelete_ok h).1⟩

end Deletion

def sampleSettings : DropSettings := ⟨10 * 1024 ^ 3, 24 * 3600 * 1000000, 7 * 86400 * 1000000⟩

/-- The directory `D`, and no row besides its records. -/
def bareStore (D : State) : Store := ⟨D, [], [], sampleSettings, [], 0⟩

def sampleDelete : DeleteRequest := ⟨.owner, "owner", codePoints "stolen", "192.0.2.1", 10⟩

theorem sample_delete_succeeds : ∃ s',
    adminDelete sampleDelete "d" (bareStore (sampleBoth 9 sampleBlockedLast)) = .ok s' ∧
      Deleted sampleDelete "d" (bareStore (sampleBoth 9 sampleBlockedLast)) s' :=
  (delete_succeeds_iff rfl (by decide) (.inl rfl)).mpr ⟨by simp [bareStore], by decide⟩

/-! ## The system -/

inductive StoreLabel where
  | directory (l : Locks.Label String Tx)
  | delete (did : String)
  | quiet

/-- The transaction that commits is not a deletion; `adminDelete` stands for these. -/
def NoDelete : Locks.Label String Tx → Prop
  | .commit _ t => ∀ did, t.request ≠ .delete did
  | _ => True

inductive StoreStep (P : Platform) (I : Issuer) (s : Store) : StoreLabel → Store → Prop where
  | directory {l : Locks.Label String Tx} {directory : State}
      (hstep : TxStep P I s.directory l directory) (hkeep : NoDelete l) :
    StoreStep P I s (.directory l) { s with directory := directory }
  | delete {req : DeleteRequest} {did : String} {s' : Store}
      (hfree : ∀ h ∈ s.directory.held, h.key ≠ did) (h : adminDelete req did s = .ok s') :
    StoreStep P I s (.delete did) s'
  | request {task : DropTask} {did : String} (howner : task.owner = some did)
      (hauth : Validated I s.directory did) :
    StoreStep P I s .quiet { s with tasks := task :: s.tasks }
  | serve {l₁ l₂ : List DropTask} {task : DropTask} {s' : Store}
      (htasks : s.tasks = l₁ ++ task :: l₂) (hrun : task.run { s with tasks := l₁ ++ l₂ } = .ok s') :
    StoreStep P I s .quiet s'
  | goOn {l₁ l₂ : List DropTask} {task next : DropTask} {s' : Store}
      (htasks : s.tasks = l₁ ++ task :: l₂) (hrun : task.run { s with tasks := l₁ ++ l₂ } = .ok s')
      (hnext : Follows s task next) :
    StoreStep P I s .quiet { s' with tasks := next :: s'.tasks }
  | stop {l₁ l₂ : List DropTask} {task : DropTask} (htasks : s.tasks = l₁ ++ task :: l₂) :
    StoreStep P I s .quiet { s with tasks := l₁ ++ l₂ }
  | sweep : StoreStep P I s .quiet s.sweepExpiredDrops
  | configure {settings : DropSettings} : StoreStep P I s .quiet { s with settings := settings }

abbrev StoreEv := Event Store StoreLabel

section Runs

variable {P : Platform} {I : Issuer} {s s' : Store} {l : StoreLabel} {es : List StoreEv}
  {row : DbRow} {did : String}

/-! ## A file between two devices -/

theorem run_besideRows (s : Store) {m m' : State} {es : List Ev} (h : Run (TxStep P I) m es m')
    (hkeep : ∀ c ∈ committed es, ∀ did, c.tx.request ≠ .delete did) :
    ∃ es', Run (StoreStep P I) { s with directory := m } es' { s with directory := m' } := by
  induction h with
  | nil => exact ⟨[], .nil⟩
  | @snoc es n m' l h hstep ih =>
    obtain ⟨es', hrun⟩ := ih fun c hc => hkeep c (by
      rw [committed, List.filterMap_append]
      exact List.mem_append_left _ hc)
    have hno : NoDelete l := by
      cases l with
      | commit k t => exact hkeep _ (mem_committed (e := ⟨n, .commit k t, m'⟩) (by simp) rfl)
      | _ => trivial
    exact ⟨_, .snoc hrun (.directory hstep hno)⟩

theorem run_served (task : DropTask) (howner : task.owner = some did) (hidle : s.tasks = [])
    (hauth : Validated I s.directory did) (hrun : task.run s = .ok s') :
    ∃ es, Run (StoreStep P I) s es s' := by
  obtain ⟨directory, rows, audit, settings, tasks, nextTransfer⟩ := s
  cases hidle
  exact ⟨_, .snoc (.snoc .nil (.request howner hauth))
    (.serve (show _ = [] ++ task :: [] from rfl) hrun)⟩

theorem run_served_twice (task next : DropTask) {s'' : Store} (howner : task.owner = some did)
    (hidle : s.tasks = []) (hauth : Validated I s.directory did) (hrun : task.run s = .ok s)
    (hnext : Follows { s with tasks := [task] } task next) (hthen : next.run s = .ok s'') :
    ∃ es, Run (StoreStep P I) s es s'' := by
  obtain ⟨directory, rows, audit, settings, tasks, nextTransfer⟩ := s
  cases hidle
  exact ⟨_, .snoc (.snoc (.snoc .nil (.request howner hauth))
    (.goOn (show _ = [] ++ task :: [] from rfl) hrun hnext))
    (.serve (show _ = [] ++ next :: [] from rfl) hthen)⟩

end Runs

def sampleFile : CreateDrop := ⟨"d", "notes.txt", 5, "x"⟩

def sampleRegistered : DbRow := ⟨.rustdropRegistrations, "d", [("device_id", "d")], .registration 8⟩

def sampleDrop (status : DropStatus) (bytes : Nat) (expiresAt : Option Int) : DbRow :=
  dropRow "x" "e" "d" ⟨"notes.txt", 5, bytes, status, 8, expiresAt⟩

def sampleTransfer : DbRow :=
  ⟨.filedropTransferEvents, toString 0, [("sender_device_id", "e"), ("recipient_device_id", "d")],
    .transfer "x" 5⟩

def sampleDelivered (D : State) : Store :=
  { bareStore D with
    rows := [sampleRegistered, sampleDrop .delivered 5 (some (8 + 24 * 3600 * 1000000)),
      sampleTransfer]
    nextTransfer := 1 }

theorem sample_delivery {P : Platform} : ∃ es, Run (StoreStep P plainIssuer)
    (bareStore (sampleBoth 8 sampleApproved)) es (sampleDelivered (sampleBoth 8 sampleApproved)) := by
  let D := sampleBoth 8 sampleApproved
  obtain ⟨hd, he⟩ := cells_sampleBoth (r := sampleApproved) 8
  have hauthD : Validated plainIssuer D "d" :=
    validated_of_row "d" ⟨"c1", 2, none, false⟩ hd rfl rfl rfl rfl
  have hauthE : Validated plainIssuer D "e" := validated_other he
  let s₁ : Store := { bareStore D with rows := [sampleRegistered] }
  let s₂ : Store := { bareStore D with rows := [sampleRegistered, sampleDrop .uploading 0 none] }
  let s₃ : Store := { bareStore D with
    rows := [sampleRegistered, sampleDrop .complete 5 (some (8 + 24 * 3600 * 1000000))] }
  obtain ⟨es₁, hregister⟩ : ∃ es, Run (StoreStep P plainIssuer) (bareStore D) es s₁ :=
    run_served (.register "d") rfl rfl hauthD rfl
  obtain ⟨es₂, hcreate⟩ : ∃ es, Run (StoreStep P plainIssuer) s₁ es s₂ :=
    run_served (.create "e" sampleFile) rfl rfl hauthE rfl
  obtain ⟨es₃, hupload⟩ : ∃ es, Run (StoreStep P plainIssuer) s₂ es s₃ :=
    run_served_twice (.upload "e" "x") (.uploaded "x" 5) rfl rfl hauthE rfl
      .uploaded rfl
  obtain ⟨es₄, hcomplete⟩ : ∃ es, Run (StoreStep P plainIssuer) s₃ es (sampleDelivered D) :=
    run_served (.complete "d" "x") rfl rfl hauthD rfl
  exact ⟨_, ((hregister.trans hcreate).trans hupload).trans hcomplete⟩

/-- The sample device has received a file, is blocked, and cannot be deleted. -/
theorem transfer_blocks_delete : ∃ es s,
    Run (StoreStep plainPlatform plainIssuer) (bareStore (noDevices sampleOutside)) es s ∧
      (s.directory.cells "d").status = some .blocked ∧ sampleDelete.role = .owner ∧
      stripPoints sampleDelete.reason ≠ [] ∧
      ∀ s', adminDelete sampleDelete "d" s ≠ .ok s' := by
  obtain ⟨es₁, hrun₁, hcommits₁⟩ := ((sample_enrolled (P := plainPlatform)
    (I := plainIssuer)).trans sample_approved).trans (sample_other (show (2 : Int) ≤ 7 by decide))
  obtain ⟨es₂, hrun₂, hcommits₂⟩ := sample_blockedLast (P := plainPlatform) (I := plainIssuer)
  obtain ⟨es, hbefore⟩ := run_besideRows (bareStore (noDevices sampleOutside)) hrun₁
    (by rw [hcommits₁]; simp [sampleCommit, sampleEnroll])
  obtain ⟨es', hdelivered⟩ := sample_delivery (P := plainPlatform)
  obtain ⟨es'', hblocked⟩ := run_besideRows (sampleDelivered (sampleBoth 8 sampleApproved)) hrun₂
    (by rw [hcommits₂]; simp [sampleBlock])
  refine ⟨_, _, (hbefore.trans hdelivered).trans hblocked, rfl, rfl, by decide, fun s' hok => ?_⟩
  refine (adminDelete_ok hok).2.1 sampleTransfer ?_ ⟨rfl, .inr ?_⟩
  · simp [sampleDelivered]
  · simp [sampleTransfer]

end ManagedDirectory.Rds
