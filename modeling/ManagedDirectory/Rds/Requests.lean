import ManagedDirectory.Rds.Tables

/-!
# RDS: signed requests of devices

`sec8VerifyKeyUpdate` is RDS's own check of a key update, with the source's refusals in the
source's order, and `requestPassport` the two endpoints that queue a signed request for the CA.
`sec8VerifyKeyUpdate_ok_iff` reads the check as a list of facts (`KeyUpdateVerified`), and
`requestPassport_ok` says which row a request adds.
-/

namespace ManagedDirectory.Rds

open Codec Lib Passport

/-- What RDS runs on: the nesting `json.loads` stands, the Ed25519 of `cryptography`, and
PostgreSQL's `LOWER` under the database's collation. -/
structure Platform where
  depth : Nat
  deep : 127 ≤ depth
  /-- `Ed25519PublicKey.from_public_bytes(key).verify(signature, message)` for 32 bytes of key. -/
  verify : (key message signature : Bytes) → Bool
  lower : String → String

def plainPlatform : Platform := ⟨127, le_rfl, prefixCrypto.verify, id⟩

variable (P : Platform)

/-! ## The check of a key update -/

def keyUpdateRefused (reason : String) : Failure := .http 400 ("Key update refused: " ++ reason)

/-- `json.loads` where a `ValueError` is refused with `e`; nobody handles a `RecursionError`. -/
def loadsOr {ε : Type} (bytes : Bytes) (malformed tooDeep : ε) : Except ε Json :=
  match loads P.depth bytes with
  | .ok tree => .ok tree
  | .error .malformed => .error malformed
  | .error .tooDeep => .error tooDeep

/-- The members of a `dict`. -/
def asDict : Json → Option (List (List Nat × Json))
  | .obj kvs => some kvs
  | _ => none

def threeParts (text : String) : Option (String × String × String) :=
  match splitDots text with
  | [p0, p1, p2] => some (p0, p1, p2)
  | _ => none

def sec8RequestMaxAge : Int := 600

def sec8VerifyKeyUpdate (requestText onFileIdk rid did : String) (now : Int) :
    Except Failure (String × List Nat) := do
  let (p0, p1, p2) ← orRefuse (threeParts requestText) (keyUpdateRefused "malformed")
  let bodyBytes ← orRefuse (pyUnb64 p0) (keyUpdateRefused "malformed")
  let oldSig ← orRefuse (pyUnb64 p1) (keyUpdateRefused "malformed")
  let newSig ← orRefuse (pyUnb64 p2) (keyUpdateRefused "malformed")
  let tree ← loadsOr P bodyBytes (keyUpdateRefused "malformed") .exception
  let body ← orRefuse (asDict tree) (keyUpdateRefused "not a key update")
  refuseIf (!equalsText (dictGet "typ" body) (some "rdc-keyupdate") || !isOne (dictGet "v" body))
    (keyUpdateRefused "not a key update")
  refuseIf (!equalsText (dictGet "rid" body) (some rid) || !equalsText (dictGet "did" body) (some did))
    (keyUpdateRefused "not for this device")
  refuseIf (!equalsText (dictGet "old_key" body) (some onFileIdk))
    (keyUpdateRefused "not signed by the key on file")
  refuseIf (!equalsText (dictGet "new_alg" body) (some "ed25519"))
    (keyUpdateRefused "unsupported key")
  let newText ← orRefuse (asStr (dictGet "new_key" body)) (keyUpdateRefused "unsupported key")
  let ts ← orRefuse (asInt (dictGet "ts" body)) (keyUpdateRefused "too old or from the future")
  refuseIf (|now - ts| > sec8RequestMaxAge) (keyUpdateRefused "too old or from the future")
  let message := signed keyupdateDomain bodyBytes
  let oldKey ← orRefuse (pyUnb64 onFileIdk) (keyUpdateRefused "signature does not verify")
  -- text outside ASCII is no base64
  let new ← orRefuse (ofCodePoints newText) (keyUpdateRefused "signature does not verify")
  let newKey ← orRefuse (pyUnb64 new) (keyUpdateRefused "signature does not verify")
  refuseIf (oldKey.length ≠ 32 ∨ newKey.length ≠ 32) (keyUpdateRefused "unsupported key")
  refuseIf (!P.verify oldKey message oldSig) (keyUpdateRefused "signature does not verify")
  refuseIf (!P.verify newKey message newSig) (keyUpdateRefused "signature does not verify")
  let prot := (asStr (dictGet "prot" body)).getD (codePoints "unknown")
  pure (new, prot.take 16)

variable {P}

variable {db : Db} {now : Int} {did text : String}

theorem threeParts_eq_some {p0 p1 p2 : String} :
    threeParts text = some (p0, p1, p2) ↔ splitDots text = [p0, p1, p2] := by
  unfold threeParts
  split
  · rename_i h
    simp [h]
  · rename_i h
    simp only [reduceCtorEq, false_iff]
    exact h p0 p1 p2

theorem loadsOr_eq_ok {ε : Type} {bytes : Bytes} {malformed tooDeep : ε} {tree : Json} :
    loadsOr P bytes malformed tooDeep = .ok tree ↔ loads P.depth bytes = .ok tree := by
  unfold loadsOr
  split <;> simp_all

theorem asDict_eq_some {tree : Json} {kvs : List (List Nat × Json)} :
    asDict tree = some kvs ↔ tree = .obj kvs := by
  cases tree <;> simp [asDict]

/-- Everything RDS checks about a key update before it names the new key. -/
structure KeyUpdateVerified (P : Platform) (requestText onFileIdk rid did : String) (now : Int)
    (new : String) (prot : List Nat) : Prop where
  checked : ∃ (p0 p1 p2 : String) (bodyBytes oldSig newSig oldKey newKey : Bytes)
      (body : List (List Nat × Json)) (ts : Int),
    splitDots requestText = [p0, p1, p2] ∧ pyUnb64 p0 = some bodyBytes ∧
    pyUnb64 p1 = some oldSig ∧ pyUnb64 p2 = some newSig ∧
    loads P.depth bodyBytes = .ok (.obj body) ∧
    -- a key update of this device, from the key on file to the new one
    dictGet "typ" body = some (jsonStr "rdc-keyupdate") ∧ isOne (dictGet "v" body) = true ∧
    dictGet "rid" body = some (jsonStr rid) ∧ dictGet "did" body = some (jsonStr did) ∧
    dictGet "old_key" body = some (jsonStr onFileIdk) ∧
    dictGet "new_alg" body = some (jsonStr "ed25519") ∧
    dictGet "new_key" body = some (jsonStr new) ∧
    -- recent
    asInt (dictGet "ts" body) = some ts ∧ |now - ts| ≤ sec8RequestMaxAge ∧
    -- signed by both keys
    pyUnb64 onFileIdk = some oldKey ∧ oldKey.length = 32 ∧
    pyUnb64 new = some newKey ∧ newKey.length = 32 ∧
    P.verify oldKey (signed keyupdateDomain bodyBytes) oldSig = true ∧
    P.verify newKey (signed keyupdateDomain bodyBytes) newSig = true ∧
    prot = ((asStr (dictGet "prot" body)).getD (codePoints "unknown")).take 16

theorem asStr_eq_some {v : Option Json} {s : List Nat} : asStr v = some s ↔ v = some (.str s) := by
  rcases v with - | j
  · simp [asStr]
  · cases j <;> simp [asStr]

theorem not_or_not_eq_true {a b : Bool} : ¬ (!a || !b) = true ↔ a = true ∧ b = true := by
  cases a <;> cases b <;> simp

/-- **RDS accepts a key update exactly when every check succeeds.** -/
theorem sec8VerifyKeyUpdate_ok_iff {requestText onFileIdk rid : String} {new : String}
    {prot : List Nat} :
    sec8VerifyKeyUpdate P requestText onFileIdk rid did now = .ok (new, prot) ↔
      KeyUpdateVerified P requestText onFileIdk rid did now new prot := by
  simp only [sec8VerifyKeyUpdate, bind_ok_iff, refuseIf_eq_ok, pure_ok_iff, exists_unit,
    orRefuse_eq_ok, threeParts_eq_some, Prod.exists, loadsOr_eq_ok, asDict_eq_some,
    not_or_not_eq_true, not_not_eq_true, equalsText_some_iff, asStr_eq_some, not_or, not_not,
    ne_eq, gt_iff_lt, Int.not_lt, Prod.mk.injEq]
  constructor
  · rintro ⟨p0, p1, p2, hsplit, bodyBytes, h0, oldSig, h1, newSig, h2, _, hloads, body, rfl,
      ⟨htyp, hv⟩, ⟨hrid, hdid⟩, hold, halg, newText, hnew, ts, hts, hfresh, oldKey, holdKey, new',
      hnew', newKey, hnewKey, ⟨hlen, hlen'⟩, hsig, hsig', rfl, rfl⟩
    refine ⟨p0, p1, p2, bodyBytes, oldSig, newSig, oldKey, newKey, body, ts, hsplit, h0, h1, h2,
      hloads, htyp, hv, hrid, hdid, hold, halg, ?_, hts, hfresh, holdKey, hlen, hnewKey, hlen',
      hsig, hsig', rfl⟩
    rw [hnew, jsonStr, codePoints_of_ofCodePoints hnew']
  · rintro ⟨p0, p1, p2, bodyBytes, oldSig, newSig, oldKey, newKey, body, ts, hsplit, h0, h1, h2,
      hloads, htyp, hv, hrid, hdid, hold, halg, hnew, hts, hfresh, holdKey, hlen, hnewKey, hlen',
      hsig, hsig', rfl⟩
    exact ⟨p0, p1, p2, hsplit, bodyBytes, h0, oldSig, h1, newSig, h2, _, hloads, body, rfl,
      ⟨htyp, hv⟩, ⟨hrid, hdid⟩, hold, halg, codePoints new, hnew, ts, hts, hfresh, oldKey, holdKey,
      new, ofCodePoints_codePoints new, newKey, hnewKey, ⟨hlen, hlen'⟩, hsig, hsig', rfl, rfl⟩

/-! ## Queueing -/

inductive RequestKind where
  | renew
  | keyupdate
  deriving DecidableEq, Repr

def RequestKind.body : RequestKind → CaSigner.SignedJob → Expected → JobBody
  | .renew => .renew
  | .keyupdate => .keyupdate

/-- A row `kind IN ('renew', 'keyupdate')`. -/
def JobBody.signed : JobBody → Bool
  | .renew _ _ => true
  | .keyupdate _ _ => true
  | _ => false

def Db.waitingRequests (db : Db) (did : String) : Nat :=
  (db.queue.jobs.rows.filter fun j => j.deviceId == did && j.body.signed && j.unanswered).length

/-- `Sec8SignedRequest`. -/
def signedRequestOk (text : String) : Bool :=
  10 ≤ text.toList.length && text.toList.length ≤ 4096 &&
    text.toList.all fun c => c.isAlphanum || c == '_' || c == '.' || c == '-'

/-- `require_device`: the credential belongs to an approved device. -/
def requireDevice (db : Db) (did : String) : Except Failure ManagedDevice := do
  let d ← orRefuse (db.device did) (.http 401 "Invalid or expired authentication")
  refuseIf (d.status ≠ .approved) (.http 401 "Invalid or expired authentication")
  pure d

variable (P)

/-- The key the CA's result must carry: for a key update the new key, checked here first. -/
def expectedKey (d : ManagedDevice) (onFile : CaSigner.DeviceIn) (kind : RequestKind)
    (text : String) (now : Int) : Except Failure (String × List Nat) :=
  match kind with
  | .keyupdate => sec8VerifyKeyUpdate P text onFile.idk d.rustdeskId d.id now
  | .renew => .ok (onFile.idk, codePoints onFile.prot)

/-- `_sec8_queue_device_request`. -/
def sec8QueueDeviceRequest (d : ManagedDevice) (kind : RequestKind) (text : String) (now : Int)
    (db : Db) : Except Failure Db := do
  refuseIf db.settings.off (.http 503 "Passports are not enabled")
  let onFile ← orRefuse (devicePayload d) (.http 409 "No device key on file")
  let (idk, prot) ← expectedKey P d onFile kind text now
  refuseIf (2 ≤ db.waitingRequests d.id) (.http 429 "A request for this device is already waiting")
  let prot ← orRefuse (ofCodePoints prot) .exception
  let job : CaSigner.SignedJob := ⟨d.rustdeskId, d.id, text, db.settings.lifetimeDays⟩
  orRefuse (db.enqueue d.id (kind.body job ⟨idk, prot⟩)) .exception

/-- `renew_device_passport` and `update_device_identity_key`. -/
def requestPassport (did : String) (kind : RequestKind) (text : String) (now : Int) (db : Db) :
    Except Failure Db := do
  refuseIf (!signedRequestOk text) (.http 422 "request")
  let d ← requireDevice db did
  sec8QueueDeviceRequest P d kind text now db

variable {P}

theorem requireDevice_eq_ok {d : ManagedDevice} :
    requireDevice db did = .ok d ↔ db.device did = some d ∧ d.status = .approved := by
  simp only [requireDevice, bind_ok_iff, orRefuse_eq_ok, refuseIf_eq_ok, exists_unit, pure_ok_iff,
    not_not, ne_eq]
  constructor
  · rintro ⟨d', h, hs, rfl⟩
    exact ⟨h, hs⟩
  · rintro ⟨h, hs⟩
    exact ⟨d, h, hs, rfl⟩

structure Queued (P : Platform) (db : Db) (did : String) (kind : RequestKind) (text : String)
    (now : Int) (d : ManagedDevice) (onFile : CaSigner.DeviceIn) (expected : Expected) :
    Prop where
  row : db.device did = some d
  approved : d.status = .approved
  payload : devicePayload d = some onFile
  key : expectedKey P d onFile kind text now = .ok (expected.idk, codePoints expected.prot)
  waiting : db.waitingRequests did < 2

/-- **A request adds one row**, for its device and with the key RDS expects back. -/
theorem requestPassport_ok {kind : RequestKind} {db' : Db}
    (h : requestPassport P did kind text now db = .ok db') :
    ∃ d onFile expected, Queued P db did kind text now d onFile expected ∧
      db.enqueue did
        (kind.body ⟨d.rustdeskId, did, text, db.settings.lifetimeDays⟩ expected) = some db' := by
  simp only [requestPassport, sec8QueueDeviceRequest, bind_ok_iff, refuseIf_eq_ok, exists_unit,
    requireDevice_eq_ok, orRefuse_eq_ok, Prod.exists, Nat.not_le] at h
  obtain ⟨-, d, ⟨hrow, hstatus⟩, -, onFile, hpay, idk, prot, hkey, hwait, prot', hprot, henq⟩ := h
  obtain rfl : d.id = did := Table.key_of_find hrow
  exact ⟨d, onFile, ⟨idk, prot'⟩,
    ⟨hrow, hstatus, hpay, by rw [hkey, codePoints_of_ofCodePoints hprot], hwait⟩, henq⟩

theorem requestPassport_of_queued {kind : RequestKind} {db' : Db} {d : ManagedDevice}
    {onFile : CaSigner.DeviceIn} {expected : Expected} (htext : signedRequestOk text = true)
    (hon : db.settings.off = false) (h : Queued P db did kind text now d onFile expected)
    (henq : db.enqueue did (kind.body ⟨d.rustdeskId, did, text, db.settings.lifetimeDays⟩ expected)
      = some db') :
    requestPassport P did kind text now db = .ok db' := by
  obtain rfl : d.id = did := Table.key_of_find h.row
  simp only [requestPassport, sec8QueueDeviceRequest, bind_ok_iff, refuseIf_eq_ok, exists_unit,
    requireDevice_eq_ok, orRefuse_eq_ok, Prod.exists, Nat.not_le, htext, hon, Bool.not_true,
    Bool.false_eq_true, not_false_eq_true, true_and]
  exact ⟨d, ⟨h.row, h.approved⟩, onFile, h.payload, _, _, h.key, h.waiting, expected.prot,
    ofCodePoints_codePoints _, henq⟩

end ManagedDirectory.Rds
