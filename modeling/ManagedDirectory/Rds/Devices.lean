import ManagedDirectory.Rds.Enrollment

/-!
# RDS: operators and the CA's polls

`approveDevice`, `changeDeviceStatus`, `deleteDevice`, `caIssueAll` and `renameDevice` are what
operators and heartbeats do to a device; the first two queue a job for the CA in a savepoint, where
a failure is printed and forgotten. `getJobs` hands out unanswered jobs.

One lemma for each says which rows change.
-/

namespace ManagedDirectory.Rds

open Codec Lib List

/-- An enqueue in a savepoint: when it fails, for its own reasons or because the database does
(`fails`), the rest of the transaction goes on. -/
def Db.tryEnqueue (db : Db) (fails : Bool) (did : String) (body : JobBody) : Db :=
  if fails then db else (db.enqueue did body).getD db

def ManagedDevice.approve (name : Option String) (d : ManagedDevice) : ManagedDevice :=
  { d with status := .approved, friendlyName := name }

theorem ManagedDevice.id_approve (name : Option String) (d : ManagedDevice) :
    (d.approve name).id = d.id := rfl

def ManagedDevice.rename (name : Option String) (d : ManagedDevice) : ManagedDevice :=
  { d with friendlyName := name }

theorem ManagedDevice.id_rename (name : Option String) (d : ManagedDevice) :
    (d.rename name).id = d.id := rfl

def approvalJob (settings : Settings) (approver : CaSigner.Approver) (d : CaSigner.DeviceIn) :
    CaSigner.IssueJob :=
  ⟨d, approver, settings.lifetimeDays, "approve"⟩

def checkApprovable (status : DeviceStatus) : Except Failure Unit :=
  refuseIf (status = .blocked ∨ status = .revoked)
    (.http 409 "Blocked or revoked devices cannot be approved directly")

def approveDevice (P : Platform) (did : String) (friendlyName : Option String)
    (approver : CaSigner.Approver) (fails : Bool) (db : Db) : Except Failure Db := do
  let d ← orRefuse (db.device did) (.http 404 "Managed device not found")
  checkApprovable d.status
  let name := (nonBlank friendlyName).or d.friendlyName
  ensureFriendlyNameAvailable P db name (some did)
  if d.status = .approved then
    pure (db.updateDevice did (ManagedDevice.rename name) (ManagedDevice.id_rename name))
  else
    let db := db.updateDevice did (ManagedDevice.approve name) (ManagedDevice.id_approve name)
    if db.settings.off then pure db
    else
      match devicePayload (d.approve name) with
      | none => pure db
      | some p => pure (db.tryEnqueue fails did (.issue (approvalJob db.settings approver p)))

/-- The status changes of `change_device_status`. -/
inductive StatusChange where
  | denied
  | blocked
  | revoked
  deriving DecidableEq, Repr

def StatusChange.status : StatusChange → DeviceStatus
  | .denied => .denied
  | .blocked => .blocked
  | .revoked => .revoked

def StatusChange.text : StatusChange → String
  | .denied => "denied"
  | .blocked => "blocked"
  | .revoked => "revoked"

def ManagedDevice.setStatus (status : DeviceStatus) (d : ManagedDevice) : ManagedDevice :=
  { d with status := status }

theorem ManagedDevice.id_setStatus (status : DeviceStatus) (d : ManagedDevice) :
    (d.setStatus status).id = d.id := rfl

def checkStatusChange (previous : DeviceStatus) : StatusChange → Except Failure Unit
  | .denied => refuseIf (previous ≠ .pending) (.http 409 "Only pending devices may be denied")
  | .revoked => refuseIf (previous ≠ .approved) (.http 409 "Only approved devices may be revoked")
  | .blocked => do
    refuseIf (previous = .revoked)
      (.http 409 "Revoked devices are terminal and cannot be blocked")
    refuseIf (previous ≠ .approved ∧ previous ≠ .pending)
      (.http 409 "Only approved or pending devices may be blocked")

def changeDeviceStatus (did : String) (change : StatusChange) (fails : Bool) (db : Db) :
    Except Failure Db := do
  let d ← orRefuse (db.device did) (.http 404 "Managed device not found")
  if d.status = change.status then pure db
  else
    checkStatusChange d.status change
    let changed := db.updateDevice did (ManagedDevice.setStatus change.status)
      (ManagedDevice.id_setStatus change.status)
    if change = .denied then pure changed
    else
      pure ((changed.revokeAuthorizations did).tryEnqueue fails did
        (.revoke ⟨d.rustdeskId, did, change.text⟩))

def checkDeletable (status : DeviceStatus) : Except Failure Unit :=
  refuseIf (status ≠ .blocked ∧ status ≠ .revoked)
    (.http 409 "Only blocked or revoked managed-device records can be deleted")

/-- The Owner's `delete`, with its cascades. -/
def deleteDevice (did : String) (db : Db) : Except Failure Db := do
  let d ← orRefuse (db.device did) (.http 404 "Managed device was not found")
  checkDeletable d.status
  pure { db with
    devices := db.devices.delete fun d => d.id == did
    queue := db.queue.removeDevice did
    passports := db.passports.delete fun p => p.deviceId == did
    authorizations := db.authorizations.delete fun a => a.deviceId == did }

def renameDevice (P : Platform) (did name : String) (db : Db) : Except Failure Db := do
  let d ← requireDevice db did
  match ensureFriendlyNameAvailable P db (some name) (some d.id) with
  | .error _ => pure db
  | .ok () =>
    pure (db.updateDevice did (ManagedDevice.rename (some (strip name)))
      (ManagedDevice.id_rename (some (strip name))))

/-- `d.passport_expires_at IS NULL OR d.passport_expires_at <= now()`, and no issue job waits. -/
def Db.needsPassport (db : Db) (now : Int) (d : ManagedDevice) : Bool :=
  d.status == .approved && d.passportExpiresAt.all (· ≤ now) &&
    !db.queue.jobs.rows.any fun j =>
      j.deviceId == d.id && j.body.kind == "issue" && j.unanswered

/-- One turn of the loop of `ca_issue_all`. -/
def queueBootstrap (approver : CaSigner.Approver) (lifetimeDays : Int64) (db : Db)
    (d : ManagedDevice) : Except Failure Db :=
  match devicePayload d with
  | none => .ok db
  | some p => orRefuse (db.enqueue d.id (.issue ⟨p, approver, lifetimeDays, "bootstrap"⟩)) .exception

/-- `ca_issue_all`. -/
def caIssueAll (approver : CaSigner.Approver) (now : Int) (db : Db) : Except Failure Db := do
  refuseIf db.settings.off (.http 409 "Turn passports on (Log) first")
  (db.devices.rows.filter (db.needsPassport now)).foldlM
    (queueBootstrap approver db.settings.lifetimeDays) db

/-- `REDELIVER_AFTER`. -/
def redeliverAfter : Int := 2 * 60 * 1000000

def CaJob.due (now : Int) (j : CaJob) : Bool :=
  j.unanswered && j.pickedAt.all (· < now - redeliverAfter)

/-- The jobs a poll at `now` hands out. -/
def Db.dueJobs (db : Db) (now : Int) : List CaJob :=
  ((db.queue.jobs.rows.filter (CaJob.due now)).insertionSort fun a b => a.id ≤ b.id).take 50

def CaJob.pick (now : Int) (j : CaJob) : CaJob := { j with pickedAt := some now }

theorem CaJob.id_pick (now : Int) (j : CaJob) : (j.pick now).id = j.id := rfl

/-- `get_jobs`: the jobs, and the database after it. -/
def getJobs (now : Int) (db : Db) : List CaJob × Db :=
  let due := db.dueJobs now
  (due, { db with
    queue := db.queue.update (fun j => due.any fun d => d.id == j.id) (CaJob.pick now)
      (CaJob.id_pick now) })

/-! ## What a poll hands out -/

section Poll

variable {db : Db} {now : Int} {j : CaJob}

theorem mem_dueJobs (h : j ∈ db.dueJobs now) : db.job j.id = some j ∧ j.unanswered = true := by
  have hmem := mem_of_mem_take h
  rw [mem_insertionSort] at hmem
  obtain ⟨hrow, hdue⟩ := mem_filter.mp hmem
  unfold CaJob.due at hdue
  rw [Bool.and_eq_true] at hdue
  exact ⟨Table.find_key_iff_mem.mpr hrow, hdue.1⟩

theorem sorted_dueJobs : (db.dueJobs now).Pairwise fun a b => a.id < b.id := by
  have hsorted : ((db.queue.jobs.rows.filter (CaJob.due now)).insertionSort
      fun a b => a.id ≤ b.id).Pairwise fun a b => a.id ≤ b.id := by
    have htotal : Std.Total fun a b : CaJob => a.id ≤ b.id := ⟨fun a b => Nat.le_total a.id b.id⟩
    have htrans : IsTrans CaJob fun a b => a.id ≤ b.id := ⟨fun _ _ _ => Nat.le_trans⟩
    exact pairwise_insertionSort _ _
  have hnodup : (((db.queue.jobs.rows.filter (CaJob.due now)).insertionSort
      fun a b => a.id ≤ b.id).map CaJob.id).Nodup := by
    rw [((perm_insertionSort _ _).map CaJob.id).nodup_iff]
    exact (filter_sublist.map _).nodup db.queue.jobs.nodup
  unfold Db.dueJobs
  refine List.Pairwise.sublist (take_sublist _ _) ?_
  rw [List.Nodup, pairwise_map] at hnodup
  exact hsorted.imp₂ (fun a b hle hne => Nat.lt_of_le_of_ne hle hne) hnodup

end Poll

end ManagedDirectory.Rds
