import ManagedDirectory.Rds.Devices
import ManagedDirectory.Rds.Results

/-!
# RDS: the record of one device

A `Record` is everything the database holds about one device: its row, the authorizations to
re-enroll it, its credentials, its status history, its relay leases, its edge certificates and its
signed requests to the CA. A transaction that changes a device takes the lock of its row first and
then reads and writes these; what it reads elsewhere is an `Outside`. `Tx.run` is such a
transaction, with the triggers of `managed_devices` and `device_credentials`.

`run_ok` says once what a transaction can do to a record (`RecordChange`).
-/

namespace ManagedDirectory.Rds

open Codec Lib

/-! ## Rows -/

/-- A row of `device_credentials`. -/
structure Credential where
  serial : String
  issuedAt : Int
  expiresAt : Option Int
  revoked : Bool
  deriving DecidableEq

/-- A row of `device_status_history`. -/
structure HistoryRow where
  fromStatus : Option DeviceStatus
  toStatus : DeviceStatus
  changedAt : Int
  deriving DecidableEq

/-- A row of `relay_access_leases`. -/
structure Lease where
  id : String
  credentialSerial : String
  expiresAt : Int
  revoked : Bool
  deriving DecidableEq

/-- A row of `edge_client_certs` of kind `device`. -/
structure EdgeCert where
  cfCertId : String
  createdAt : Int
  revoked : Bool
  deriving DecidableEq

/-- A row of `ca_jobs` of kind `renew` or `keyupdate`. -/
structure SignedRequest where
  kind : RequestKind
  expected : Expected
  done : Bool
  deriving DecidableEq

structure Record where
  row : Option ManagedDevice
  /-- The id was used and its row deleted. `gen_random_uuid` does not give it out again. -/
  deleted : Bool
  authorizations : List Authorization
  credentials : List Credential
  history : List HistoryRow
  leases : List Lease
  edgeCerts : List EdgeCert
  requests : List SignedRequest

def Record.empty : Record := ⟨none, false, [], [], [], [], [], []⟩

def Record.status (r : Record) : Option DeviceStatus := r.row.map ManagedDevice.status

structure Outside where
  clock : Int
  /-- The active operator accounts with role `owner`, and with role `manager`. -/
  owners : List String
  managers : List String
  nameTaken : String → Bool
  idTaken : String → Bool
  keyTaken : Bytes → Bool
  settings : Settings

def Credential.revoke (c : Credential) : Credential := { c with revoked := true }

def Lease.revoke (l : Lease) : Lease := { l with revoked := true }

def EdgeCert.revoke (c : EdgeCert) : EdgeCert := { c with revoked := true }

def Authorization.isOpen (a : Authorization) : Bool := !a.consumed && !a.revoked

def revokeOpen (as : List Authorization) : List Authorization :=
  as.map fun a => if a.isOpen then a.revoke else a

/-! ## Triggers -/

/-- `guard_managed_device_status`: who may change a status. -/
def Outside.mayChangeStatus (g : Outside) (account : String) : Bool :=
  g.owners.contains account || g.managers.contains account

/-- An `UPDATE managed_devices` from `d` to `d'` in a transaction that started at `startedAt`, with
what the triggers add when the status changes: credentials do not outlive `approved`, and the
history gets a row with `NOW()`, the start of the transaction. -/
def Record.setRow (startedAt : Int) (d d' : ManagedDevice) (r : Record) : Record :=
  if d'.status = d.status then { r with row := some d' }
  else
    { r with
      row := some d'
      credentials := if d.status = .approved then r.credentials.map Credential.revoke
        else r.credentials
      history := r.history ++ [⟨some d.status, d'.status, startedAt⟩] }

def Record.updateRow (g : Outside) (startedAt : Int) (account : String) (d d' : ManagedDevice)
    (r : Record) : Except Failure Record := do
  refuseIf (d'.status ≠ d.status ∧ g.mayChangeStatus account = false) .exception
  pure (r.setRow startedAt d d')

/-- `active_device_credential`. -/
def Record.activeCredential (r : Record) (now : Int) : Option Credential :=
  r.credentials.reverse.find? fun c => !c.revoked && c.expiresAt.all (now < ·)

/-- `INSERT INTO device_credentials`: serials are unique, only an approved device has an active
credential, and only one. -/
def Record.insertCredential (c : Credential) (r : Record) : Except Failure Record := do
  refuseIf (r.credentials.any (·.serial == c.serial)) .exception
  refuseIf (r.status ≠ some .approved) .exception
  refuseIf (r.credentials.any (!·.revoked)) .exception
  pure { r with credentials := r.credentials ++ [c] }

/-! ## Transactions -/

/-- `ensure_friendly_name_available`. -/
def Outside.checkName (g : Outside) (name : Option String) : Except Failure Unit :=
  match nonBlank name with
  | none => .ok ()
  | some name => refuseIf (g.nameTaken name) (nameReserved name)

/-- The update of an approval; a device that is approved already may get a new name. -/
def Record.admit (g : Outside) (startedAt : Int) (account : String) (name : Option String)
    (d : ManagedDevice) (r : Record) : Except Failure Record :=
  if d.status = .approved then .ok (r.setRow startedAt d (d.rename name))
  else r.updateRow g startedAt account d (d.approve name)

def Record.approve (g : Outside) (startedAt : Int) (account : String)
    (friendlyName : Option String) (serial : String) (r : Record) : Except Failure Record := do
  let d ← orRefuse r.row (.http 404 "Managed device not found")
  checkApprovable d.status
  let name := (nonBlank friendlyName).or d.friendlyName
  g.checkName name
  let r ← r.admit g startedAt account name d
  match r.activeCredential startedAt with
  | some _ => pure r
  | none => r.insertCredential ⟨serial, startedAt, none, false⟩

/-- What `change_device_status` withdraws from a blocked or revoked device. Cloudflare may fail to
revoke an edge certificate; its row then stays. -/
def Record.withdraw (cloudflare : EdgeCert → Bool) (r : Record) : Record :=
  { r with
    credentials := r.credentials.map Credential.revoke
    edgeCerts := r.edgeCerts.map fun c => if cloudflare c then c.revoke else c
    leases := r.leases.map Lease.revoke
    authorizations := revokeOpen r.authorizations }

def Record.changeStatus (g : Outside) (startedAt : Int) (account : String) (change : StatusChange)
    (cloudflare : EdgeCert → Bool) (r : Record) : Except Failure Record := do
  let d ← orRefuse r.row (.http 404 "Managed device not found")
  if d.status = change.status then pure r
  else
    checkStatusChange d.status change
    (if change = .denied then r else r.withdraw cloudflare).updateRow g startedAt account d
      (d.setStatus change.status)

/-- The cascades of a deleted row. Edge certificates lose their device. -/
def Record.delete (r : Record) : Except Failure Record := do
  let d ← orRefuse r.row (.http 404 "Managed device was not found")
  checkDeletable d.status
  pure { Record.empty with deleted := true }

def Record.authorize (did account authorizationId : String) (minutes now : Int) (r : Record) :
    Except Failure Record := do
  refuseIf (minutes < 5 ∨ 120 < minutes) (.http 422 "expires_in_minutes")
  let d ← orRefuse r.row (.http 404 "Managed device not found")
  checkAuthorizable d.status
  refuseIf (r.authorizations.any (·.id == authorizationId)) .exception
  pure { r with
    row := some (if d.status ≠ .pending then d.extendPoll now else d)
    authorizations := revokeOpen r.authorizations ++
      [⟨authorizationId, did, account, now + minutes * 60 * 1000000, false, false⟩] }

def Record.usableAuthorization (g : Outside) (did : String) (now : Int) (r : Record) :
    Option Authorization :=
  r.authorizations.reverse.find? (Authorization.usable g.owners did now)

def consume (id : String) (as : List Authorization) : List Authorization :=
  as.map fun a => if a.id == id then a.consume else a

def Record.readmit (g : Outside) (startedAt : Int) (e : Enrollment) (a : Authorization)
    (d : ManagedDevice) (r : Record) : Except Failure Record := do
  g.checkName ((nonBlank e.friendlyName).or d.friendlyName)
  { r with
    credentials := r.credentials.map Credential.revoke
    leases := r.leases.map Lease.revoke
    authorizations := consume a.id r.authorizations }.updateRow g startedAt a.requestedBy d
      (d.reenroll e)

/-- `enroll_device` for the record `did`: a new row, or the recovery of the one there. -/
def Record.enroll (g : Outside) (startedAt : Int) (did : String) (req : EnrollRequest)
    (r : Record) : Except Failure Record := do
  let rustdeskId := strip req.rustdeskId
  refuseIf (rustdeskId = "" ∨ strip req.hostname = "")
    (.http 422 "rustdesk_id and hostname cannot be blank")
  checkDevicePublicKey req.devicePublicKey
  refuseIf (g.idTaken rustdeskId || g.keyTaken req.devicePublicKey) identityConflict
  match r.row with
  | none =>
    refuseIf (did ≠ req.newId ∨ r.deleted = true) .exception
    g.checkName (nonBlank req.friendlyName)
    pure { r with
      row := some (newDevice req)
      history := r.history ++ [⟨none, .pending, startedAt⟩] }
  | some d =>
    let d ← orRefuse (exactDevice [d] rustdeskId req.devicePublicKey) identityConflict
    checkRecoverable d.status
    let a ← orRefuse
      (if d.status = .pending ∨ req.reenrollmentPollTokenHash = some d.pollTokenHash then
        r.usableAuthorization g did req.now else none)
      (authorizationRequired d.status)
    r.readmit g startedAt req.toEnrollment a d

/-- `complete_device_reenrollment`. -/
def Record.reenroll (g : Outside) (startedAt : Int) (did : String) (req : ReenrollRequest)
    (r : Record) : Except Failure Record := do
  checkDevicePublicKey req.devicePublicKey
  let d ← orRefuse (r.row.filter fun d =>
      d.pollTokenHash == req.pollTokenHash && req.now < d.pollExpiresAt &&
        (d.status == .denied || d.status == .blocked))
    (.http 401 "Invalid or expired authentication")
  refuseIf (d.rustdeskId ≠ strip req.rustdeskId)
    (.http 409 "Re-enrollment RustDesk ID does not match managed device")
  refuseIf (g.keyTaken req.devicePublicKey)
    (.http 409 "Device public key belongs to another managed device")
  let a ← orRefuse (r.usableAuthorization g did req.now)
    (.http 409 "Owner re-enrollment authorization is required")
  r.readmit g startedAt req.toEnrollment a d

/-! ## The work of device requests -/

/-- What a device request does after its credential was validated. -/
inductive Work where
  /-- `device_relay_lease`. -/
  | lease (leaseId credentialSerial : String) (expiresAt : Int)
  /-- `issue_device_edge_cert`: what Cloudflare answered, and which older certificates it revoked. -/
  | edgeCert (cfCertId : String) (now : Int) (cloudflare : EdgeCert → Bool)
  /-- `_sec8_queue_device_request` with the row that `validate_device_credential` returned. -/
  | signed (device : ManagedDevice) (kind : RequestKind) (text : String) (now : Int)

def deviceReissueMinInterval : Int := 3600 * 1000000

def Work.run (P : Platform) (g : Outside) (startedAt : Int) (r : Record) :
    Work → Except Failure Record
  | .lease leaseId credentialSerial expiresAt => do
    refuseIf r.row.isNone .exception
    pure { r with
      leases := r.leases.map Lease.revoke ++ [⟨leaseId, credentialSerial, expiresAt, false⟩] }
  | .edgeCert cfCertId now cloudflare => do
    refuseIf (r.edgeCerts.any fun c => now - c.createdAt < deviceReissueMinInterval)
      (.http 429 "A certificate was issued less than an hour ago")
    refuseIf r.row.isNone .exception
    pure { r with
      edgeCerts := (r.edgeCerts.map fun c => if cloudflare c then c.revoke else c) ++
        [⟨cfCertId, startedAt, false⟩] }
  | .signed device kind text now => do
    refuseIf g.settings.off (.http 503 "Passports are not enabled")
    let onFile ← orRefuse (r.row.bind devicePayload) (.http 409 "No device key on file")
    let (idk, prot) ← expectedKey P device onFile kind text now
    refuseIf (2 ≤ (r.requests.filter fun q => !q.done).length)
      (.http 429 "A request for this device is already waiting")
    let prot ← orRefuse (ofCodePoints prot) .exception
    pure { r with requests := r.requests ++ [⟨kind, ⟨idk, prot⟩, false⟩] }

/-! ## One transaction -/

/-- Updates of a device row that leave its status, its RustDesk key and its poll token alone. -/
inductive Touch where
  | extendPoll (now : Int)
  | rename (name : Option String)
  /-- A posted result of the CA: the passport it stored, and the signed request it answered. -/
  | result (stored : Option (String × Int × Option Expected)) (request : Option Nat)

def Touch.row : Touch → ManagedDevice → ManagedDevice
  | .extendPoll now => ManagedDevice.extendPoll now
  | .rename name => ManagedDevice.rename name
  | .result (some (serial, expiresAt, new)) _ => ManagedDevice.certify serial expiresAt new
  | .result none _ => id

def SignedRequest.finish (q : SignedRequest) : SignedRequest := { q with done := true }

def Touch.requests : Touch → List SignedRequest → List SignedRequest
  | .result _ (some i), qs => qs.modify i SignedRequest.finish
  | _, qs => qs

inductive Request where
  | enroll (req : EnrollRequest)
  | reenroll (req : ReenrollRequest)
  | authorize (did account authorizationId : String) (minutes now : Int)
  | approve (did account : String) (friendlyName : Option String) (serial : String)
  | changeStatus (did account : String) (change : StatusChange) (cloudflare : EdgeCert → Bool)
  | delete (did : String)
  | touch (did : String) (t : Touch)
  | work (did : String) (w : Work)

/-- A transaction and the time it started, PostgreSQL's `NOW()` in it. -/
structure Tx where
  request : Request
  startedAt : Int

def Request.target : Request → Option String
  | .enroll _ => none
  | .reenroll req => some req.deviceId
  | .authorize did _ _ _ _ => some did
  | .approve did _ _ _ => some did
  | .changeStatus did _ _ _ => some did
  | .delete did => some did
  | .touch did _ => some did
  | .work did _ => some did

def Tx.run (P : Platform) (g : Outside) (t : Tx) (did : String) (r : Record) :
    Except Failure Record := do
  refuseIf (t.request.target.any (· ≠ did)) .exception
  match t.request with
  | .enroll req => r.enroll g t.startedAt did req
  | .reenroll req => r.reenroll g t.startedAt did req
  | .authorize _ account authorizationId minutes now =>
    r.authorize did account authorizationId minutes now
  | .approve _ account friendlyName serial => r.approve g t.startedAt account friendlyName serial
  | .changeStatus _ account change cloudflare =>
    r.changeStatus g t.startedAt account change cloudflare
  | .delete _ => r.delete
  | .touch _ u => do
    let d ← orRefuse r.row .exception
    pure { r with row := some (u.row d), requests := u.requests r.requests }
  | .work _ w => w.run P g t.startedAt r

/-! ## What a transaction does -/

def Request.enrollment : Request → Option Enrollment
  | .enroll req => some req.toEnrollment
  | .reenroll req => some req.toEnrollment
  | _ => none

/-- `r'` is `r` with an active credential: the one it has, or a new one when it has none. -/
inductive Credentialed (startedAt : Int) (r : Record) : Record → Prop where
  | has {c : Credential} (h : c ∈ r.credentials) (hactive : c.revoked = false) :
    Credentialed startedAt r r
  | new {serial : String} (hfresh : ∀ c ∈ r.credentials, c.serial ≠ serial)
      (happroved : r.status = some .approved) (hnone : ∀ c ∈ r.credentials, c.revoked = true) :
    Credentialed startedAt r
      { r with credentials := r.credentials ++ [⟨serial, startedAt, none, false⟩] }

inductive WorkDone (r : Record) : Record → Prop where
  | lease {l : Lease} : WorkDone r { r with leases := r.leases.map Lease.revoke ++ [l] }
  | edgeCert {f : EdgeCert → EdgeCert} {c : EdgeCert} :
    WorkDone r { r with edgeCerts := r.edgeCerts.map f ++ [c] }
  | signed {q : SignedRequest} : WorkDone r { r with requests := r.requests ++ [q] }

/-- What a transaction does to record `did`. -/
inductive RecordChange (g : Outside) (t : Tx) (did : String) (r : Record) : Record → Prop where
  | enrolled {req : EnrollRequest} (hreq : t.request = .enroll req) (hrow : r.row = none)
      (hfresh : r.deleted = false) (hid : did = req.newId) :
    RecordChange g t did r
      { r with
        row := some (newDevice req)
        history := r.history ++ [⟨none, .pending, t.startedAt⟩] }
  | readmitted {e : Enrollment} {d : ManagedDevice} {a : Authorization}
      (hreq : t.request.enrollment = some e) (hrow : r.row = some d)
      (hopen : d.status ≠ .approved ∧ d.status ≠ .revoked)
      (ha : r.usableAuthorization g did e.now = some a) :
    RecordChange g t did r
      ({ r with
        credentials := r.credentials.map Credential.revoke
        leases := r.leases.map Lease.revoke
        authorizations := consume a.id r.authorizations }.setRow t.startedAt d (d.reenroll e))
  | authorized {account authorizationId : String} {minutes now : Int} {d d' : ManagedDevice}
      (hreq : t.request = .authorize did account authorizationId minutes now)
      (hrow : r.row = some d) (hopen : d.status ≠ .approved ∧ d.status ≠ .revoked)
      (hfresh : ∀ a ∈ r.authorizations, a.id ≠ authorizationId)
      (hd' : d' = d ∨ d' = d.extendPoll now) :
    RecordChange g t did r
      { r with
        row := some d'
        authorizations := revokeOpen r.authorizations ++
          [⟨authorizationId, did, account, now + minutes * 60 * 1000000, false, false⟩] }
  | approved {account serial : String} {friendlyName name : Option String} {d : ManagedDevice}
      {r' : Record} (hreq : t.request = .approve did account friendlyName serial)
      (hrow : r.row = some d)
      (hopen : d.status = .pending ∨ d.status = .denied)
      (hcredential : Credentialed t.startedAt (r.setRow t.startedAt d (d.approve name)) r') :
    RecordChange g t did r r'
  | renamed {account serial : String} {friendlyName name : Option String} {d : ManagedDevice}
      {r' : Record} (hreq : t.request = .approve did account friendlyName serial)
      (hrow : r.row = some d) (happroved : d.status = .approved)
      (hcredential : Credentialed t.startedAt { r with row := some (d.rename name) } r') :
    RecordChange g t did r r'
  | changed {account : String} {change : StatusChange} {cloudflare : EdgeCert → Bool}
      {d : ManagedDevice} (hreq : t.request = .changeStatus did account change cloudflare)
      (hrow : r.row = some d) (hfrom : d.status ≠ change.status)
      (hcheck : checkStatusChange d.status change = .ok ()) :
    RecordChange g t did r
      ((if change = .denied then r else r.withdraw cloudflare).setRow t.startedAt d
        (d.setStatus change.status))
  | unchanged {account : String} {change : StatusChange} {cloudflare : EdgeCert → Bool}
      {d : ManagedDevice} (hreq : t.request = .changeStatus did account change cloudflare)
      (hrow : r.row = some d) (hsame : d.status = change.status) : RecordChange g t did r r
  | deleted {d : ManagedDevice} (hreq : t.request = .delete did) (hrow : r.row = some d)
      (hclosed : d.status = .blocked ∨ d.status = .revoked) :
    RecordChange g t did r { Record.empty with deleted := true }
  | touched {u : Touch} {d : ManagedDevice} (hreq : t.request = .touch did u)
      (hrow : r.row = some d) :
    RecordChange g t did r { r with row := some (u.row d), requests := u.requests r.requests }
  | worked {w : Work} {d : ManagedDevice} {r' : Record} (hreq : t.request = .work did w)
      (hrow : r.row = some d) (hdone : WorkDone r r') : RecordChange g t did r r'

section Changes

variable {P : Platform} {g : Outside} {t : Tx} {did : String} {r r' : Record}

theorem updateRow_ok {startedAt : Int} {account : String} {d d' : ManagedDevice}
    (h : r.updateRow g startedAt account d d' = .ok r') : r' = r.setRow startedAt d d' := by
  simp only [Record.updateRow, bind_ok_iff, pure_ok_iff, exists_unit] at h
  exact h.2.symm

theorem credentialed_of_ok {startedAt : Int} {serial : String}
    (h : (match r.activeCredential startedAt with
      | some _ => pure r
      | none => r.insertCredential ⟨serial, startedAt, none, false⟩) = .ok r') :
    Credentialed startedAt r r' := by
  split at h
  · rename_i c hc
    obtain rfl := pure_ok_iff.mp h
    have hmem := List.mem_of_find?_eq_some hc
    have hactive := List.find?_some hc
    simp only [Bool.and_eq_true, Bool.not_eq_true'] at hactive
    exact .has (List.mem_reverse.mp hmem) hactive.1
  · simp only [Record.insertCredential, bind_ok_iff, refuseIf_eq_ok, exists_unit, pure_ok_iff,
      not_not, ne_eq, List.any_eq_true, beq_iff_eq, not_exists, not_and, Bool.not_eq_true',
      Bool.not_eq_false] at h
    obtain ⟨hfresh, hstatus, hnone, rfl⟩ := h
    exact .new hfresh hstatus hnone

theorem approve_change {account serial : String} {friendlyName : Option String}
    (hreq : t.request = .approve did account friendlyName serial)
    (h : r.approve g t.startedAt account friendlyName serial = .ok r') :
    RecordChange g t did r r' := by
  simp only [Record.approve, checkApprovable, bind_ok_iff, orRefuse_eq_ok, refuseIf_eq_ok,
    exists_unit, not_or] at h
  obtain ⟨d, hrow, hopen, -, r₁, hr₁, h⟩ := h
  unfold Record.admit at hr₁
  by_cases happroved : d.status = .approved
  · rw [if_pos happroved] at hr₁
    have hr₁' : r₁ = { r with row := some (d.rename ((nonBlank friendlyName).or d.friendlyName)) } :=
      (Except.ok.inj hr₁).symm.trans (if_pos rfl)
    exact .renamed hreq hrow happroved (hr₁' ▸ credentialed_of_ok h)
  · rw [if_neg happroved] at hr₁
    obtain rfl := updateRow_ok hr₁
    refine .approved hreq hrow ?_ (credentialed_of_ok h)
    cases hs : d.status <;> simp_all

theorem changeStatus_change {account : String} {change : StatusChange}
    {cloudflare : EdgeCert → Bool} (hreq : t.request = .changeStatus did account change cloudflare)
    (h : r.changeStatus g t.startedAt account change cloudflare = .ok r') :
    RecordChange g t did r r' := by
  simp only [Record.changeStatus, bind_ok_iff, orRefuse_eq_ok] at h
  obtain ⟨d, hrow, h⟩ := h
  by_cases hsame : d.status = change.status
  · rw [if_pos hsame, pure_ok_iff] at h
    exact h ▸ .unchanged hreq hrow hsame
  · simp only [if_neg hsame, bind_ok_iff, exists_unit] at h
    obtain ⟨hcheck, h⟩ := h
    obtain rfl := updateRow_ok h
    exact .changed hreq hrow hsame hcheck

theorem readmit_change {e : Enrollment} {a : Authorization} {d : ManagedDevice}
    (hreq : t.request.enrollment = some e) (hrow : r.row = some d)
    (hopen : d.status ≠ .approved ∧ d.status ≠ .revoked)
    (ha : r.usableAuthorization g did e.now = some a)
    (h : r.readmit g t.startedAt e a d = .ok r') : RecordChange g t did r r' := by
  simp only [Record.readmit, bind_ok_iff, exists_unit] at h
  obtain rfl := updateRow_ok h.2
  exact .readmitted hreq hrow hopen ha

theorem exactDevice_singleton {d d' : ManagedDevice} {rustdeskId : String} {key : Bytes}
    (h : exactDevice [d] rustdeskId key = some d') : d' = d := by
  simpa using mem_of_exactDevice h

theorem enroll_change {req : EnrollRequest} (hreq : t.request = .enroll req)
    (h : r.enroll g t.startedAt did req = .ok r') : RecordChange g t did r r' := by
  simp only [Record.enroll, checkDevicePublicKey, bind_ok_iff, refuseIf_eq_ok, exists_unit] at h
  obtain ⟨-, -, -, h⟩ := h
  cases hrow : r.row with
  | none =>
    simp only [hrow, bind_ok_iff, refuseIf_eq_ok, exists_unit, pure_ok_iff, not_or, not_not, ne_eq,
      Bool.not_eq_true] at h
    obtain ⟨⟨hid, hfresh⟩, -, rfl⟩ := h
    exact .enrolled hreq hrow hfresh hid
  | some d =>
    simp only [hrow, bind_ok_iff, orRefuse_eq_ok, exists_unit] at h
    obtain ⟨d', hexact, hopen, a, ha, h⟩ := h
    obtain rfl := exactDevice_singleton hexact
    split at ha
    · exact readmit_change (by rw [hreq]; rfl) hrow (checkRecoverable_eq_ok.mp hopen) ha h
    · cases ha

theorem reenroll_change {req : ReenrollRequest} (hreq : t.request = .reenroll req)
    (h : r.reenroll g t.startedAt did req = .ok r') : RecordChange g t did r r' := by
  simp only [Record.reenroll, checkDevicePublicKey, bind_ok_iff, refuseIf_eq_ok, exists_unit,
    orRefuse_eq_ok] at h
  obtain ⟨-, d, hfound, -, -, a, ha, h⟩ := h
  obtain ⟨hrow, hok⟩ := Option.filter_eq_some_iff.mp hfound
  simp only [Bool.and_eq_true, Bool.or_eq_true, beq_iff_eq] at hok
  refine readmit_change (by rw [hreq]; rfl) hrow ?_ ha h
  rcases hok.2 with hs | hs <;> simp [hs]

theorem authorize_change {account authorizationId : String} {minutes now : Int}
    (hreq : t.request = .authorize did account authorizationId minutes now)
    (h : r.authorize did account authorizationId minutes now = .ok r') :
    RecordChange g t did r r' := by
  simp only [Record.authorize, checkAuthorizable, bind_ok_iff, refuseIf_eq_ok, exists_unit,
    orRefuse_eq_ok, pure_ok_iff, List.any_eq_true, beq_iff_eq, not_exists, not_and] at h
  obtain ⟨-, d, hrow, ⟨hrevoked, happroved⟩, hfresh, rfl⟩ := h
  refine .authorized hreq hrow ⟨happroved, hrevoked⟩ hfresh ?_
  split_ifs
  · exact .inr rfl
  · exact .inl rfl

theorem delete_change (hreq : t.request = .delete did) (h : r.delete = .ok r') :
    RecordChange g t did r r' := by
  simp only [Record.delete, checkDeletable, bind_ok_iff, refuseIf_eq_ok, exists_unit,
    orRefuse_eq_ok, pure_ok_iff, not_and_or, not_not, ne_eq] at h
  obtain ⟨d, hrow, hclosed, rfl⟩ := h
  exact .deleted hreq hrow hclosed

theorem work_change {w : Work} (hreq : t.request = .work did w)
    (h : w.run P g t.startedAt r = .ok r') : RecordChange g t did r r' := by
  suffices hdone : (∃ d, r.row = some d) ∧ WorkDone r r' by
    obtain ⟨⟨d, hrow⟩, hdone⟩ := hdone
    exact .worked hreq hrow hdone
  cases w with
  | lease leaseId credentialSerial expiresAt =>
    simp only [Work.run, bind_ok_iff, refuseIf_eq_ok, exists_unit, pure_ok_iff,
      Option.isNone_iff_eq_none] at h
    obtain ⟨hrow, rfl⟩ := h
    exact ⟨Option.ne_none_iff_exists'.mp hrow, .lease⟩
  | edgeCert cfCertId now cloudflare =>
    simp only [Work.run, bind_ok_iff, refuseIf_eq_ok, exists_unit, pure_ok_iff,
      Option.isNone_iff_eq_none] at h
    obtain ⟨-, hrow, rfl⟩ := h
    exact ⟨Option.ne_none_iff_exists'.mp hrow, .edgeCert⟩
  | signed device kind text now =>
    simp only [Work.run, bind_ok_iff, refuseIf_eq_ok, exists_unit, pure_ok_iff, orRefuse_eq_ok,
      Prod.exists] at h
    obtain ⟨-, onFile, hpay, idk, prot, -, -, prot', -, rfl⟩ := h
    obtain ⟨d, hrow, -⟩ := Option.bind_eq_some_iff.mp hpay
    exact ⟨⟨d, hrow⟩, .signed⟩

/-- **What a transaction can do to a record.** -/
theorem run_ok (h : t.run P g did r = .ok r') : RecordChange g t did r r' := by
  simp only [Tx.run, bind_ok_iff, refuseIf_eq_ok, exists_unit] at h
  obtain ⟨htarget, h⟩ := h
  have hdid : ∀ x, t.request.target = some x → x = did := by
    intro x hx
    simpa [hx] using htarget
  cases hreq : t.request with
  | enroll req => exact enroll_change hreq (by simpa only [hreq] using h)
  | reenroll req => exact reenroll_change hreq (by simpa only [hreq] using h)
  | authorize x account authorizationId minutes now =>
    obtain rfl := hdid x (by rw [hreq]; rfl)
    exact authorize_change hreq (by simpa only [hreq] using h)
  | approve x account friendlyName serial =>
    obtain rfl := hdid x (by rw [hreq]; rfl)
    exact approve_change hreq (by simpa only [hreq] using h)
  | changeStatus x account change cloudflare =>
    obtain rfl := hdid x (by rw [hreq]; rfl)
    exact changeStatus_change hreq (by simpa only [hreq] using h)
  | delete x =>
    obtain rfl := hdid x (by rw [hreq]; rfl)
    exact delete_change hreq (by simpa only [hreq] using h)
  | touch x u =>
    obtain rfl := hdid x (by rw [hreq]; rfl)
    simp only [hreq, bind_ok_iff, orRefuse_eq_ok, pure_ok_iff] at h
    obtain ⟨d, hrow, rfl⟩ := h
    exact .touched hreq hrow
  | work x w =>
    obtain rfl := hdid x (by rw [hreq]; rfl)
    exact work_change hreq (by simpa only [hreq] using h)

end Changes

end ManagedDirectory.Rds
