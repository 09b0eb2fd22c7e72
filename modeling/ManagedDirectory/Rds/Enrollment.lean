import ManagedDirectory.Rds.Requests

/-!
# RDS: enrollment and re-enrollment

`enrollDevice` is `POST /v1/enrollment/devices`, `completeDeviceReenrollment` is
`POST /v1/enrollment/reenroll` and `authorizeDeviceReenrollment` what an Owner does before either
may bring a device back. A request comes with its public key decoded and its poll tokens hashed;
the enrollment password, which only refuses, is taken as accepted.

`enrollDevice_ok` and `completeDeviceReenrollment_ok` say what a request changes: a new pending row,
or the row of a device that an Owner let back (`Reenrolls`).
-/

namespace ManagedDirectory.Rds

open Codec Lib

/-! ## Names -/

def trimBoth (p : Char → Bool) (text : String) : String :=
  String.ofList ((text.toList.dropWhile p).reverse.dropWhile p).reverse

/-- What `str.strip` takes for whitespace. -/
def pySpace (c : Char) : Bool :=
  let n := c.toNat
  (9 ≤ n && n ≤ 13) || (28 ≤ n && n ≤ 32) || n == 0x85 || n == 0xA0 || n == 0x1680 ||
    (0x2000 ≤ n && n ≤ 0x200A) || n == 0x2028 || n == 0x2029 || n == 0x202F || n == 0x205F ||
    n == 0x3000

def strip (text : String) : String := trimBoth pySpace text

/-- PostgreSQL's `BTRIM`. -/
def btrim (text : String) : String := trimBoth (· == ' ') text

/-- `text.strip() if text and text.strip() else None`. -/
def nonBlank (text : Option String) : Option String := (text.map strip).filter (· ≠ "")

def DeviceStatus.reservesName : DeviceStatus → Bool
  | .pending | .approved | .blocked => true
  | .denied | .revoked => false

def nameReserved (name : String) : Failure :=
  .http 409 ("Friendly name '" ++ name ++ "' is already reserved by another managed client")

def ensureFriendlyNameAvailable (P : Platform) (db : Db) (name : Option String)
    (excludeDeviceId : Option String) : Except Failure Unit :=
  match nonBlank name with
  | none => .ok ()
  | some name =>
    refuseIf
      (db.devices.rows.any fun d => d.status.reservesName && excludeDeviceId != some d.id &&
        d.friendlyName.any fun n => P.lower (btrim n) == P.lower (btrim name))
      (nameReserved name)

/-! ## Authorizations -/

def Authorization.usable (owners : List String) (did : String) (now : Int) (a : Authorization) :
    Bool :=
  a.deviceId == did && !a.consumed && !a.revoked && now < a.expiresAt &&
    owners.contains a.requestedBy

def Db.usableAuthorization (db : Db) (did : String) (now : Int) : Option Authorization :=
  db.authorizations.rows.reverse.find? (Authorization.usable db.owners did now)

def Authorization.consume (a : Authorization) : Authorization := { a with consumed := true }

def Authorization.revoke (a : Authorization) : Authorization := { a with revoked := true }

def Db.revokeAuthorizations (db : Db) (did : String) : Db :=
  { db with
    authorizations := db.authorizations.update
      (fun a => a.deviceId == did && !a.consumed && !a.revoked) Authorization.revoke
      (fun _ => rfl) }

def enrollmentPollDays : Int := 90 * 86400 * 1000000

def ManagedDevice.extendPoll (now : Int) (d : ManagedDevice) : ManagedDevice :=
  { d with pollExpiresAt := now + enrollmentPollDays }

theorem ManagedDevice.id_extendPoll (now : Int) (d : ManagedDevice) :
    (d.extendPoll now).id = d.id := rfl

def checkAuthorizable (status : DeviceStatus) : Except Failure Unit := do
  refuseIf (status = .revoked)
    (.http 409 "Revoked clients are terminal and cannot be reauthorized or re-enrolled")
  refuseIf (status = .approved)
    (.http 409 ("Enrollment recovery authorization is only available for pending, denied, or " ++
      "blocked devices"))

/-- `authorize_device_reenrollment` by the Owner `account`. -/
def authorizeDeviceReenrollment (did account authorizationId : String) (minutes now : Int)
    (db : Db) : Except Failure Db := do
  refuseIf (minutes < 5 ∨ 120 < minutes) (.http 422 "expires_in_minutes")
  let d ← orRefuse (db.device did) (.http 404 "Managed device not found")
  checkAuthorizable d.status
  let db := if d.status ≠ .pending then
      db.updateDevice did (ManagedDevice.extendPoll now) (ManagedDevice.id_extendPoll now)
    else db
  let db := db.revokeAuthorizations did
  refuseIf (db.authorizations.find authorizationId).isSome .exception
  pure { db with
    authorizations := db.authorizations.insert
      ⟨authorizationId, did, account, now + minutes * 60 * 1000000, false, false⟩ }

/-! ## Enrollment -/

/-- What both enrollment endpoints are sent, and the new poll token they answer with. -/
structure Enrollment where
  rustdeskId : String
  hostname : String
  friendlyName : Option String
  devicePublicKey : Bytes
  newPollTokenHash : String
  now : Int

structure EnrollRequest extends Enrollment where
  reenrollmentPollTokenHash : Option String
  newId : String

structure ReenrollRequest extends Enrollment where
  deviceId : String
  pollTokenHash : String

/-- The length check of `decode_device_public_key`. -/
def checkDevicePublicKey (key : Bytes) : Except Failure Unit :=
  refuseIf (key.length < 32 ∨ 4096 < key.length)
    (.http 422 "Decoded device public key length is invalid")

/-- The `UPDATE` of a re-enrollment: the device key is replaced, the identity key is not touched. -/
def ManagedDevice.reenroll (e : Enrollment) (d : ManagedDevice) : ManagedDevice :=
  { d with
    hostname := strip e.hostname
    friendlyName := (nonBlank e.friendlyName).or d.friendlyName
    devicePublicKey := e.devicePublicKey
    status := .pending
    pollTokenHash := e.newPollTokenHash
    pollExpiresAt := e.now + enrollmentPollDays }

theorem ManagedDevice.id_reenroll (e : Enrollment) (d : ManagedDevice) :
    (d.reenroll e).id = d.id := rfl

def Db.reenroll (db : Db) (did : String) (e : Enrollment) (authorization : Authorization) : Db :=
  { db.updateDevice did (ManagedDevice.reenroll e) (ManagedDevice.id_reenroll e) with
    authorizations := db.authorizations.update (fun a => a.id == authorization.id)
      Authorization.consume (fun _ => rfl) }

def newDevice (req : EnrollRequest) : ManagedDevice where
  id := req.newId
  rustdeskId := strip req.rustdeskId
  hostname := strip req.hostname
  friendlyName := nonBlank req.friendlyName
  devicePublicKey := req.devicePublicKey
  status := .pending
  pollTokenHash := req.newPollTokenHash
  pollExpiresAt := req.now + enrollmentPollDays
  identityPublicKey := none
  identityKeyAlg := none
  keyProtection := none
  passportSerial := none
  passportExpiresAt := none

def insertDevice (P : Platform) (req : EnrollRequest) (db : Db) : Except Failure Db := do
  ensureFriendlyNameAvailable P db (nonBlank req.friendlyName) none
  refuseIf (db.device req.newId).isSome .exception
  pure { db with devices := db.devices.insert (newDevice req) }

/-- The device a request is about: the same id and key, or the same id while it is pending. -/
def exactDevice (duplicates : List ManagedDevice) (rustdeskId : String) (key : Bytes) :
    Option ManagedDevice :=
  (duplicates.find? fun d => d.rustdeskId == rustdeskId && d.devicePublicKey == key).or
    (duplicates.find? fun d => d.rustdeskId == rustdeskId && d.status == .pending)

def identityConflict : Failure :=
  .http 409 "RustDesk ID or device public key already belongs to another device"

/-- The authorization that lets a request bring `device` back: a denied or blocked device also
shows its prior poll token. -/
def recoveryAuthorization (db : Db) (req : EnrollRequest) (device : ManagedDevice) :
    Option Authorization :=
  if device.status = .pending ∨ req.reenrollmentPollTokenHash = some device.pollTokenHash then
    db.usableAuthorization device.id req.now
  else none

def authorizationRequired (status : DeviceStatus) : Failure :=
  .http 409 (if status = .pending then
    "Owner Pending enrollment recovery authorization is required"
  else "Owner re-enrollment authorization and the device's prior poll token are required")

/-- The refusal of an enrollment of a device in the given status, if it is refused. -/
def checkRecoverable : DeviceStatus → Except Failure Unit
  | .pending | .denied | .blocked => .ok ()
  | .revoked => .error (.http 409
      "Revoked clients are terminal and cannot be re-enrolled; a fresh install is required")
  | .approved => .error (.http 409 "This device is already enrolled; use its original poll token")

def recoverDevice (P : Platform) (req : EnrollRequest) (device : ManagedDevice) (db : Db) :
    Except Failure Db := do
  let authorization ← orRefuse (recoveryAuthorization db req device)
    (authorizationRequired device.status)
  ensureFriendlyNameAvailable P db ((nonBlank req.friendlyName).or device.friendlyName)
    (some device.id)
  pure (db.reenroll device.id req.toEnrollment authorization)

def enrollDevice (P : Platform) (req : EnrollRequest) (db : Db) : Except Failure Db := do
  let rustdeskId := strip req.rustdeskId
  refuseIf (rustdeskId = "" ∨ strip req.hostname = "")
    (.http 422 "rustdesk_id and hostname cannot be blank")
  checkDevicePublicKey req.devicePublicKey
  let duplicates := db.devices.rows.filter fun d =>
    d.rustdeskId == rustdeskId || d.devicePublicKey == req.devicePublicKey
  if duplicates.isEmpty then insertDevice P req db
  else
    let device ← orRefuse (exactDevice duplicates rustdeskId req.devicePublicKey) identityConflict
    refuseIf (duplicates.any (·.id ≠ device.id)) identityConflict
    checkRecoverable device.status
    recoverDevice P req device db

def completeDeviceReenrollment (P : Platform) (req : ReenrollRequest) (db : Db) :
    Except Failure Db := do
  checkDevicePublicKey req.devicePublicKey
  let device ← orRefuse ((db.device req.deviceId).filter fun d =>
      d.pollTokenHash == req.pollTokenHash && req.now < d.pollExpiresAt &&
        (d.status == .denied || d.status == .blocked))
    (.http 401 "Invalid or expired authentication")
  refuseIf (device.rustdeskId ≠ strip req.rustdeskId)
    (.http 409 "Re-enrollment RustDesk ID does not match managed device")
  refuseIf (db.devices.rows.any fun d =>
      d.devicePublicKey == req.devicePublicKey && d.id != device.id)
    (.http 409 "Device public key belongs to another managed device")
  let authorization ← orRefuse (db.usableAuthorization device.id req.now)
    (.http 409 "Owner re-enrollment authorization is required")
  ensureFriendlyNameAvailable P db ((nonBlank req.friendlyName).or device.friendlyName)
    (some device.id)
  pure (db.reenroll device.id req.toEnrollment authorization)

/-! ## What enrollment changes -/

section Effect

variable {P : Platform} {db db' : Db}

/-- A device that was not approved comes back with the key of the request, let in by an Owner. -/
structure Reenrolls (db : Db) (did : String) (e : Enrollment) (db' : Db) : Prop where
  row : ∃ d, db.device did = some d ∧ d.status ≠ .approved ∧ d.status ≠ .revoked
  authorized : ∃ a, db.usableAuthorization did e.now = some a ∧ db' = db.reenroll did e a

theorem recoverDevice_ok {req : EnrollRequest} {device : ManagedDevice}
    (h : recoverDevice P req device db = .ok db') :
    ∃ a, db.usableAuthorization device.id req.now = some a ∧
      db' = db.reenroll device.id req.toEnrollment a := by
  simp only [recoverDevice, bind_ok_iff, orRefuse_eq_ok, exists_unit, pure_ok_iff] at h
  obtain ⟨a, ha, -, rfl⟩ := h
  unfold recoveryAuthorization at ha
  split_ifs at ha
  exact ⟨a, ha, rfl⟩

theorem checkRecoverable_eq_ok {status : DeviceStatus} :
    checkRecoverable status = .ok () ↔ status ≠ .approved ∧ status ≠ .revoked := by
  cases status <;> simp [checkRecoverable]

theorem mem_of_exactDevice {duplicates : List ManagedDevice} {rustdeskId : String} {key : Bytes}
    {d : ManagedDevice} (h : exactDevice duplicates rustdeskId key = some d) : d ∈ duplicates := by
  rcases Option.or_eq_some_iff.mp h with h | ⟨-, h⟩
  · exact List.mem_of_find?_eq_some h
  · exact List.mem_of_find?_eq_some h

/-- **An enrollment** adds a pending device, or brings one back. -/
theorem enrollDevice_ok {req : EnrollRequest} (h : enrollDevice P req db = .ok db') :
    (db.device req.newId = none ∧ db' = { db with devices := db.devices.insert (newDevice req) }) ∨
      ∃ did, Reenrolls db did req.toEnrollment db' := by
  simp only [enrollDevice, bind_ok_iff, refuseIf_eq_ok, exists_unit, checkDevicePublicKey] at h
  obtain ⟨-, -, h⟩ := h
  split at h
  · simp only [insertDevice, bind_ok_iff, exists_unit, refuseIf_eq_ok, pure_ok_iff,
      Option.not_isSome_iff_eq_none] at h
    exact .inl ⟨h.2.1, h.2.2.symm⟩
  · simp only [bind_ok_iff, orRefuse_eq_ok, refuseIf_eq_ok, exists_unit] at h
    obtain ⟨device, hexact, -, hopen, h⟩ := h
    have hmem := (List.mem_filter.mp (mem_of_exactDevice hexact)).1
    have hrow : db.device device.id = some device := Table.find_key_iff_mem.mpr hmem
    exact .inr ⟨device.id, ⟨device, hrow, checkRecoverable_eq_ok.mp hopen⟩, recoverDevice_ok h⟩

/-- **A re-enrollment** brings its device back. -/
theorem completeDeviceReenrollment_ok {req : ReenrollRequest}
    (h : completeDeviceReenrollment P req db = .ok db') :
    Reenrolls db req.deviceId req.toEnrollment db' := by
  simp only [completeDeviceReenrollment, bind_ok_iff, refuseIf_eq_ok, exists_unit, orRefuse_eq_ok,
    pure_ok_iff] at h
  obtain ⟨-, device, hfound, -, -, a, ha, -, rfl⟩ := h
  obtain ⟨hrow, hok⟩ := Option.filter_eq_some_iff.mp hfound
  have hid : device.id = req.deviceId := Table.key_of_find hrow
  rw [hid] at ha ⊢
  simp only [Bool.and_eq_true, Bool.or_eq_true, beq_iff_eq] at hok
  refine ⟨⟨device, hrow, ?_, ?_⟩, a, ha, rfl⟩
  · rcases hok.2 with hs | hs <;> simp [hs]
  · rcases hok.2 with hs | hs <;> simp [hs]

end Effect

end ManagedDirectory.Rds
