import ManagedDirectory.Rds.Schema
import ManagedDirectory.Rds.ChatCutoff

/-!
# RDS: RustDrop

A file goes from one device to another through the endpoints of `rustdrop.py`: `createDrop`,
`uploadDrop`, `completeDrop` and `declineDrop`, with the sweep of expired drops. A drop and the
record of a finished transfer are rows with foreign keys to both devices (`DbRow`).

A request validates the credential of its device first and then goes through one transaction or
two (`DropTask`); in between everything else may run.
-/

namespace ManagedDirectory.Rds

open Codec Lib ForeignKeys

/-! ## Rows -/

inductive DropStatus where
  | uploading
  | complete
  | delivered
  | failed
  deriving DecidableEq

def DropStatus.text : DropStatus → String
  | .uploading => "uploading"
  | .complete => "complete"
  | .delivered => "delivered"
  | .failed => "failed"

/-- The columns of `filedrop_drops` besides its keys. -/
structure Drop where
  filename : String
  declaredSize : Nat
  bytesUploaded : Nat
  status : DropStatus
  updatedAt : Int
  expiresAt : Option Int
  deriving DecidableEq

inductive Content where
  | drop (d : Drop)
  | transfer (dropId : String) (bytes : Nat)
  | registration (lastSeenAt : Int)
  | other
  deriving DecidableEq

abbrev DbRow := Row Table String Content

def dropRow (dropId sender recipient : String) (d : Drop) : DbRow :=
  ⟨.filedropDrops, dropId, [("sender_device_id", sender), ("recipient_device_id", recipient)],
    .drop d⟩

structure Fetched where
  sender : String
  recipient : String
  drop : Drop

def DbRow.drop? (dropId : String) (row : DbRow) : Option Fetched :=
  match row with
  | ⟨.filedropDrops, key, refs, .drop d⟩ =>
    if key = dropId then do
      pure ⟨← refs.lookup "sender_device_id", ← refs.lookup "recipient_device_id", d⟩
    else none
  | _ => none

def dropNotFound : Failure := .http 404 "Drop not found"

/-- `_fetch_drop`. -/
def fetchDrop (dropId : String) (rows : List DbRow) : Except Failure Fetched :=
  orRefuse (rows.findSome? (DbRow.drop? dropId)) dropNotFound

/-- `UPDATE filedrop_drops .. WHERE id = ..`. -/
def updateDrop (dropId : String) (f : Drop → Drop) (rows : List DbRow) : List DbRow :=
  rows.map fun row =>
    match row with
    | ⟨.filedropDrops, key, refs, .drop d⟩ =>
      ⟨.filedropDrops, key, refs, .drop (if key = dropId then f d else d)⟩
    | row => row

def DbRow.isDrop (dropId : String) (row : DbRow) : Bool :=
  row.table == .filedropDrops && row.key == dropId

def DbRow.expired (now stuck : Int) : DbRow → Bool
  | ⟨.filedropDrops, _, _, .drop d⟩ => d.expiresAt.any (· < now) ||
      ((d.status == .uploading || d.status == .failed) && d.updatedAt < now - stuck)
  | _ => false

/-! ## The database -/

/-- What an Owner's deletion of a device leaves in `audit_events`. -/
structure DeletionAudit where
  actorAccountId : String
  eventType : String
  targetType : String
  targetId : String
  sourceIp : String
  reason : List Nat
  deletedAt : Int
  device : ManagedDevice
  statusHistory : List HistoryRow
  dependentRowsRemoved : List (Table × Nat)
  deriving DecidableEq

structure DropSettings where
  maxDropSize : Nat
  ttl : Int
  stuckUploadBackstop : Int

structure CreateDrop where
  recipientDeviceId : String
  filename : String
  declaredSize : Nat
  /-- `gen_random_uuid` gives one that no drop has. -/
  dropId : String

inductive DropTask where
  | register (did : String)
  | create (did : String) (req : CreateDrop)
  | upload (did dropId : String)
  | uploaded (dropId : String) (bytes : Nat)
  | progress (dropId : String)
  | uploadFailed (dropId : String)
  | download (did dropId : String) (fromStart : Bool)
  | renewTtl (dropId : String)
  | complete (did dropId : String)
  | decline (did dropId : String)

def DropTask.owner : DropTask → Option String
  | .register did => some did
  | .create did _ => some did
  | .upload did _ => some did
  | .download did _ _ => some did
  | .complete did _ => some did
  | .decline did _ => some did
  | .uploaded _ _ | .progress _ | .uploadFailed _ | .renewTtl _ => none

/-- The records of the devices, and the rows of the tables that refer to them. -/
structure Store where
  directory : State
  rows : List DbRow
  audit : List DeletionAudit
  settings : DropSettings
  tasks : List DropTask
  /-- The identity column of `filedrop_transfer_events`. -/
  nextTransfer : Nat

/-! ## Endpoints -/

/-- `INSERT`, with the check of the keys to devices. -/
def Store.insert (row : DbRow) (s : Store) : Except Failure Store := do
  refuseIf (row.refs.any fun ref => (s.directory.cells ref.2).row.isNone) .exception
  pure { s with rows := s.rows ++ [row] }

def DbRow.isRegistration (did : String) (row : DbRow) : Bool :=
  row.table == .rustdropRegistrations && row.key == did

def registerDevice (now : Int) (self : String) (s : Store) : Except Failure Store :=
  { s with rows := s.rows.filter fun row => !DbRow.isRegistration self row }.insert
    ⟨.rustdropRegistrations, self, [("device_id", self)], .registration now⟩

def registrationStaleAfter : Int := 30 * 86400 * 1000000

def DbRow.registers (now : Int) (did : String) : DbRow → Bool
  | ⟨.rustdropRegistrations, key, _, .registration lastSeenAt⟩ =>
    key == did && now - registrationStaleAfter < lastSeenAt
  | _ => false

def createDrop (now : Int) (self : String) (req : CreateDrop) (s : Store) :
    Except Failure Store := do
  refuseIf (req.recipientDeviceId = self) (.http 400 "Cannot send a drop to yourself")
  refuseIf (s.settings.maxDropSize < req.declaredSize) (.http 400
    ("declared_size exceeds the current max drop size (" ++ toString s.settings.maxDropSize ++
      " bytes)"))
  refuseIf ((s.directory.cells req.recipientDeviceId).status ≠ some .approved ∨
      s.rows.any (DbRow.registers now req.recipientDeviceId) = false)
    (.http 404 "Recipient is not available for RustDrop")
  refuseIf (s.rows.any (DbRow.isDrop req.dropId)) .exception
  s.insert (dropRow req.dropId self req.recipientDeviceId
    ⟨req.filename, req.declaredSize, 0, .uploading, now, none⟩)

/-- `upload_drop` up to its request to the storage. -/
def uploadDrop (self dropId : String) (s : Store) : Except Failure Store := do
  let x ← fetchDrop dropId s.rows
  refuseIf (x.sender ≠ self) dropNotFound
  refuseIf (x.drop.status ≠ .uploading)
    (.http 409 ("Drop is not accepting an upload (status=" ++ x.drop.status.text ++ ")"))
  pure s

/-- `download_drop` up to its request to the storage. -/
def downloadDrop (self dropId : String) (s : Store) : Except Failure Store := do
  let x ← fetchDrop dropId s.rows
  refuseIf (x.recipient ≠ self) dropNotFound
  refuseIf (x.drop.status ≠ .uploading ∧ x.drop.status ≠ .complete)
    (.http 409 ("Drop is not downloadable (status=" ++ x.drop.status.text ++ ")"))
  pure s

def Store.update (dropId : String) (f : Drop → Drop) (s : Store) : Store :=
  { s with rows := updateDrop dropId f s.rows }

def completeDrop (now : Int) (self dropId : String) (s : Store) : Except Failure Store := do
  let x ← fetchDrop dropId s.rows
  refuseIf (x.recipient ≠ self) dropNotFound
  if x.drop.status = .delivered then pure s
  else
    refuseIf (x.drop.status ≠ .complete)
      (.http 409 ("Drop cannot be marked delivered (status=" ++ x.drop.status.text ++ ")"))
    let s := s.update dropId fun d => { d with status := .delivered, updatedAt := now }
    { s with nextTransfer := s.nextTransfer + 1 }.insert
      ⟨.filedropTransferEvents, toString s.nextTransfer,
        [("sender_device_id", x.sender), ("recipient_device_id", x.recipient)],
        .transfer dropId x.drop.bytesUploaded⟩

def declineDrop (self dropId : String) (s : Store) : Except Failure Store := do
  let x ← fetchDrop dropId s.rows
  refuseIf (x.recipient ≠ self) dropNotFound
  pure { s with rows := s.rows.filter fun row => !DbRow.isDrop dropId row }

def DropTask.run (s : Store) : DropTask → Except Failure Store :=
  let now := s.directory.outside.clock
  let expiresAt := some (now + s.settings.ttl)
  fun
  | .register did => registerDevice now did s
  | .create did req => createDrop now did req s
  | .upload did dropId => uploadDrop did dropId s
  | .uploaded dropId bytes => .ok (s.update dropId fun d =>
      { d with
        status := .complete, bytesUploaded := bytes, expiresAt := expiresAt, updatedAt := now })
  | .progress dropId => .ok (s.update dropId fun d => { d with updatedAt := now })
  | .uploadFailed dropId => .ok (s.update dropId fun d =>
      { d with status := .failed, updatedAt := now })
  | .download did dropId _ => downloadDrop did dropId s
  | .renewTtl dropId => .ok (s.update dropId fun d =>
      if d.status = .complete then { d with expiresAt := expiresAt, updatedAt := now } else d)
  | .complete did dropId => completeDrop now did dropId s
  | .decline did dropId => declineDrop did dropId s

/-- What a request goes on with, after it looked its drop up and heard from the storage. -/
inductive Follows (s : Store) : DropTask → DropTask → Prop where
  | uploaded {did dropId : String} {bytes : Nat} :
    Follows s (.upload did dropId) (.uploaded dropId bytes)
  | progress {did dropId : String} : Follows s (.upload did dropId) (.progress dropId)
  | uploadFailed {did dropId : String} : Follows s (.upload did dropId) (.uploadFailed dropId)
  | renewTtl {did dropId : String} {x : Fetched} (hx : fetchDrop dropId s.rows = .ok x)
      (hcomplete : x.drop.status = .complete) :
    Follows s (.download did dropId true) (.renewTtl dropId)

def Store.sweepExpiredDrops (s : Store) : Store :=
  { s with
    rows := s.rows.filter fun row =>
      !DbRow.expired s.directory.outside.clock s.settings.stuckUploadBackstop row }

end ManagedDirectory.Rds
