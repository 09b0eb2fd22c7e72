import ManagedDirectory.Codec.PyJson
import ManagedDirectory.Lib.Table
import ManagedDirectory.Signer.Payloads

/-!
# RDS: the tables

The columns of `managed_devices`, `ca_jobs`, `device_passports` and
`device_reenrollment_authorizations` that the passport code reads or writes, as one database `Db`.
A row of `ca_jobs` holds the payload it was queued with (`JobBody`), so a row whose kind and payload
do not belong together cannot be built; the queue carries that its ids are below the next one.

`onFileKey` is the identity key RDS has for a device and `devicePayload` what it tells the CA about
one. Times in the database are microseconds.
-/

namespace ManagedDirectory.Rds

open Codec Lib

inductive DeviceStatus where
  | pending
  | approved
  | denied
  | blocked
  | revoked
  deriving DecidableEq, Repr

structure ManagedDevice where
  id : String
  rustdeskId : String
  hostname : String
  friendlyName : Option String
  devicePublicKey : Bytes
  status : DeviceStatus
  pollTokenHash : String
  pollExpiresAt : Int
  identityPublicKey : Option String
  identityKeyAlg : Option String
  keyProtection : Option String
  passportSerial : Option String
  passportExpiresAt : Option Int
  deriving DecidableEq

/-! ## The queue -/

structure Expected where
  idk : String
  prot : String
  deriving DecidableEq

inductive JobBody where
  | issue (job : CaSigner.IssueJob)
  | renew (job : CaSigner.SignedJob) (expected : Expected)
  | keyupdate (job : CaSigner.SignedJob) (expected : Expected)
  | revoke (job : CaSigner.RevokeJob)

def JobBody.kind : JobBody → String
  | .issue _ => "issue"
  | .renew _ _ => "renew"
  | .keyupdate _ _ => "keyupdate"
  | .revoke _ => "revoke"

def JobBody.payload : JobBody → Json
  | .issue job => job.payload
  | .renew job expected => job.payload expected.idk expected.prot
  | .keyupdate job expected => job.payload expected.idk expected.prot
  | .revoke job => job.payload

def JobBody.texts : JobBody → List String
  | .issue job => [job.device.rid, job.device.did, job.device.name, job.device.idk,
      job.device.idkAlg, job.device.rdk, job.device.prot, job.approver.name, job.approver.role,
      job.approver.source, job.reason]
  | .renew job expected => [job.rid, job.did, job.request, expected.idk, expected.prot]
  | .keyupdate job expected => [job.rid, job.did, job.request, expected.idk, expected.prot]
  | .revoke job => [job.rid, job.did, job.reason]

structure CaJob where
  id : Nat
  deviceId : String
  body : JobBody
  pickedAt : Option Int
  doneAt : Option Int
  ok : Option Bool
  error : Option String

def CaJob.unanswered (j : CaJob) : Bool := j.doneAt.isNone

/-- `ca_jobs` with its sequence: ids grow, and stay a `BIGINT`. -/
structure Queue where
  jobs : Table CaJob CaJob.id
  next : Nat
  below : ∀ j ∈ jobs.rows, j.id < next
  next_le : next ≤ 2 ^ 63

def Queue.empty : Queue := ⟨Table.empty _, 1, by simp [Table.empty], by decide⟩

def storable (text : String) : Bool := !text.toList.contains '\x00'

/-- `sec8_enqueue`. A NUL in the payload is no `jsonb`, and the sequence ends. -/
def Queue.enqueue (q : Queue) (deviceId : String) (body : JobBody) : Option Queue :=
  if h : body.texts.all storable ∧ q.next < 2 ^ 63 then
    some
      { jobs := q.jobs.insert ⟨q.next, deviceId, body, none, none, none, none⟩
        next := q.next + 1
        below := by
          intro j hj
          rcases Table.mem_insert.mp hj with hj | ⟨rfl, -⟩
          · exact Nat.lt_succ_of_lt (q.below j hj)
          · exact Nat.lt_succ_self _
        next_le := h.2 }
  else none

/-- `UPDATE ca_jobs`. -/
def Queue.update (q : Queue) (p : CaJob → Bool) (f : CaJob → CaJob) (hf : ∀ j, (f j).id = j.id) :
    Queue where
  jobs := q.jobs.update p f hf
  next := q.next
  below := by
    intro j hj
    obtain ⟨j', hj', rfl⟩ := Table.mem_update.mp hj
    have hlt := q.below j' hj'
    split_ifs
    · rwa [hf]
    · exact hlt
  next_le := q.next_le

def Queue.removeDevice (q : Queue) (did : String) : Queue where
  jobs := q.jobs.delete fun j => j.deviceId == did
  next := q.next
  below j hj := q.below j (Table.mem_delete.mp hj).1
  next_le := q.next_le

/-! ## The database -/

structure DevicePassport where
  serial : String
  deviceId : String
  kind : String
  passport : String
  nbf : Int
  expiresAt : Int
  jobId : Nat
  deriving DecidableEq

structure Authorization where
  id : String
  deviceId : String
  requestedBy : String
  expiresAt : Int
  consumed : Bool
  revoked : Bool
  deriving DecidableEq

structure Settings where
  /-- `sec8.passport_mode`. -/
  passportMode : Option String
  /-- `sec8.passport_lifetime_days`, or its default. -/
  passportLifetimeDays : Int

structure Db where
  devices : Table ManagedDevice ManagedDevice.id
  queue : Queue
  passports : Table DevicePassport DevicePassport.serial
  authorizations : Table Authorization Authorization.id
  /-- The active operator accounts with role `owner`. -/
  owners : List String
  settings : Settings

/-- How a request ends that changes nothing: an HTTP error, or an exception nobody handles. -/
inductive Failure where
  | http (status : Nat) (detail : String)
  | exception
  deriving DecidableEq, Repr

def Db.device (db : Db) (did : String) : Option ManagedDevice := db.devices.find did

def Db.job (db : Db) (id : Nat) : Option CaJob := db.queue.jobs.find id

/-- `UPDATE managed_devices … WHERE id = did`. -/
def Db.updateDevice (db : Db) (did : String) (f : ManagedDevice → ManagedDevice)
    (hf : ∀ d, (f d).id = d.id) : Db :=
  { db with devices := db.devices.update (fun d => d.id == did) f hf }

/-- `sec8_enqueue` on the database. -/
def Db.enqueue (db : Db) (did : String) (body : JobBody) : Option Db :=
  (db.queue.enqueue did body).map fun q => { db with queue := q }

/-- Python's `value or default` for a text that may be `None`. -/
def orText (value : Option String) (default : String) : String :=
  match value with
  | none => default
  | some text => if text = "" then default else text

/-- `_on_file_key`: the identity key RDS lists for the device, its RustDesk key until a key
update. -/
def onFileKey (d : ManagedDevice) : Option String :=
  if d.identityPublicKey.getD "" = "" ∧ d.devicePublicKey ≠ [] then some (b64 d.devicePublicKey)
  else d.identityPublicKey

/-- `_sec8_device_payload`. -/
def devicePayload (d : ManagedDevice) : Option CaSigner.DeviceIn :=
  if d.devicePublicKey = [] then none
  else
    let rdk := b64 d.devicePublicKey
    some
      { rid := d.rustdeskId
        did := d.id
        name := orText d.friendlyName (orText (some d.hostname) "")
        idk := orText d.identityPublicKey rdk
        idkAlg := orText d.identityKeyAlg "ed25519"
        rdk := rdk
        prot := orText d.keyProtection "legacy" }

/-- The line of hbbs's key list for the device: the key whose fingerprint stands in it. -/
def listedKey (d : ManagedDevice) : Option String :=
  if d.status = .approved ∧ d.rustdeskId ≠ "" ∧ d.identityPublicKey.getD "" ≠ "" then
    d.identityPublicKey
  else none

/-- `_sec8_mode(cursor) == "off"`: everything but `log` is off. -/
def Settings.off (s : Settings) : Bool := s.passportMode ≠ some "log"

/-- `_sec8_lifetime_days`. -/
def Settings.lifetimeDays (s : Settings) : Int64 :=
  Int64.ofInt (min (max s.passportLifetimeDays 1) 7)

/-! ## One key everywhere -/

theorem onFileKey_of_devicePayload {d : ManagedDevice} {p : CaSigner.DeviceIn}
    (h : devicePayload d = some p) : onFileKey d = some p.idk := by
  unfold devicePayload at h
  split_ifs at h with hkey
  cases h
  unfold onFileKey orText
  cases d.identityPublicKey with
  | none => simp [hkey]
  | some text =>
    by_cases htext : text = ""
    · simp [htext, hkey]
    · simp [htext]

theorem onFileKey_of_listedKey {d : ManagedDevice} {key : String} (h : listedKey d = some key) :
    onFileKey d = some key := by
  unfold listedKey at h
  split_ifs at h with hlisted
  unfold onFileKey
  rw [if_neg (fun hempty => hlisted.2.2 hempty.1), h]

/-! ## What the operations do to a row -/

section Rows

variable {db : Db} {did did' : String} {id : Nat}

theorem device_updateDevice {f : ManagedDevice → ManagedDevice} {hf : ∀ d, (f d).id = d.id} :
    (db.updateDevice did f hf).device did' =
      if did' = did then (db.device did').map f else db.device did' := by
  unfold Db.device Db.updateDevice
  rw [Table.find_update]
  cases hfind : db.devices.find did' with
  | none => simp
  | some d =>
    have hid := Table.key_of_find hfind
    by_cases hdid : did' = did
    · simp [hdid, show d.id = did from hid.trans hdid]
    · simp [hdid, show d.id ≠ did from fun h => hdid (hid.symm.trans h)]

theorem job_lt_next {j : CaJob} (h : db.job id = some j) : id < db.queue.next := by
  have hid := Table.key_of_find h
  exact hid ▸ db.queue.below j (Table.mem_of_find h)

theorem job_next : db.job db.queue.next = none := by
  cases h : db.job db.queue.next with
  | none => rfl
  | some j => exact absurd (job_lt_next h) (Nat.lt_irrefl _)

theorem enqueue_eq_some {db' : Db} {body : JobBody} (h : db.enqueue did body = some db') :
    (∀ id, db'.job id = if id = db.queue.next then
        some ⟨db.queue.next, did, body, none, none, none, none⟩ else db.job id) ∧
      db'.queue.next = db.queue.next + 1 ∧
      ∃ q, db' = { db with queue := q } := by
  obtain ⟨q, hq, rfl⟩ := Option.map_eq_some_iff.mp h
  unfold Queue.enqueue at hq
  split_ifs at hq with hok
  cases hq
  refine ⟨?_, rfl, _, rfl⟩
  intro id
  have hnext : db.job db.queue.next = none := job_next
  unfold Db.job at hnext ⊢
  simp only [Table.find_insert]
  by_cases hid : id = db.queue.next
  · subst hid
    simp [hnext]
  · simp [hid, Ne.symm hid]

theorem job_update {p : CaJob → Bool} {f : CaJob → CaJob} {hf : ∀ j, (f j).id = j.id} :
    ({ db with queue := db.queue.update p f hf } : Db).job id =
      (db.job id).map fun j => if p j then f j else j := by
  unfold Db.job Queue.update
  rw [Table.find_update]

end Rows

end ManagedDirectory.Rds
