import ManagedDirectory.Signer.State

/-!
# The CA signer: job handlers

`handle_issue`, `handle_renew`, `handle_key_update` and `handle_revoke` with the checks in the
source's order and the source's error texts, `process`, which answers one job, and the issuing
key's rotation.
-/

namespace ManagedDirectory.CaSigner

open Codec Lib Passport

/-! ## Policy -/

def asciiAlphanumeric (c : Char) : Bool :=
  ('0' ≤ c && c ≤ '9') || ('A' ≤ c && c ≤ 'Z') || ('a' ≤ c && c ≤ 'z')

def asciiHexdigit (c : Char) : Bool :=
  ('0' ≤ c && c ≤ '9') || ('A' ≤ c && c ≤ 'F') || ('a' ≤ c && c ≤ 'f')

def validRid (rid : String) : Bool :=
  rid ≠ "" && byteLen rid ≤ 32 &&
    rid.toList.all fun c => asciiAlphanumeric c || c == '_' || c == '-'

def validDid (did : String) : Bool :=
  byteLen did == 36 && did.toList.all fun c => asciiHexdigit c || c == '-'

def issueProts : List String := ["legacy", "dpapi", "keystore", "tpm"]

def keyUpdateProts : List String := ["dpapi", "keystore", "tpm"]

def issueReasons : List String := ["approve", "unblock", "bootstrap", "reissue"]

/-- `lifetime_days.clamp(1, max)`, for `1 ≤ max`. -/
def clampDays (days max : Int64) : Int64 := if days < 1 then 1 else if days > max then max else days

/-! ## Effects -/

abbrev Handler (α : Type) := Proc Signer Failure α

def refuse {α : Type} (error : String) : Handler α := Proc.fail (.refused error)

/-- `if c { return Err(error) }`. -/
def check (c : Prop) [Decidable c] (error : String) : Handler Unit :=
  Proc.lift (refuseIf c (.refused error))

/-- A library call whose error is shown after `context`. -/
def checked {α : Type} (x : Except Error α) (context : String) : Handler α :=
  Proc.lift (x.mapError fun e => .refused (context ++ e.display))

def mail (message : String × String) : Handler Unit :=
  Proc.update fun s => { s with mails := s.mails ++ [message] }

/-- `if c { self.mail(…) }`. -/
def mailWhen (c : Bool) (message : String × String) : Handler Unit :=
  if c then mail message else pure ()

def append (env : Env) (entry : LogEntry) : Handler Unit :=
  match env.append with
  | some e => refuse e
  | none => Proc.update fun s => { s with log := s.log ++ [(env.logged, entry)] }

def save (env : Env) : Handler Unit :=
  match env.save with
  | some e => refuse e
  | none => Proc.update fun s => { s with saved := s.state }

def modifyDevice (did : String) (f : Device → Device) : Handler Unit :=
  Proc.update fun s => { s with state := s.state.modify did f }

def nonceSeen (did nonce : String) (t : Int64) : Handler Bool :=
  Proc.call fun s =>
    let (seen, state) := s.state.nonceSeen did nonce t
    (seen, { s with state := state })

def Device.pruneIssues (t : Int64) (d : Device) : Device :=
  { d with recentIssues := d.recentIssues.filter fun at' => t - at' < 3600 }

/-- `rate_ok`: forgets issues older than an hour, then counts. -/
def rateOk (did : String) (t : Int64) : Handler Bool :=
  Proc.call fun s =>
    match s.state.devices did with
    | none => (true, s)
    | some d =>
      ((d.pruneIssues t).recentIssues.length < s.cfg.maxIssuesPerDeviceHour,
        { s with state := s.state.modify did (Device.pruneIssues t) })

/-! ## Handlers -/

variable (C : Crypto)

/-- The passport body `issue_for` signs for a record. -/
def passportFor (keys : Keys) (device : Device) (serial : Bytes) (t days : Int64) :
    PassportBody where
  typ := "rdc-passport"
  v := version
  serial := hex serial
  rid := device.rid
  did := device.did
  idk := device.idk
  idkAlg := device.idkAlg
  rdk := device.rdk
  prot := device.prot
  scopes := scopes
  iat := t
  nbf := t - 300
  exp := t + days * 86400
  ikid := keys.kid

def Device.issuedAt (t : Int64) (d : Device) : Device :=
  { d with lastIssued := t, recentIssues := d.recentIssues ++ [t] }

/-- The result of a job that issued `body` as `token`. -/
def issuedResult (token : String) (body : PassportBody) : JobResult :=
  { JobResult.default with
    ok := true, passport := some token, serial := some body.serial, nbf := some body.nbf,
    exp := some body.exp, idk := some body.idk, prot := some body.prot }

/-- Signs a passport for a device record that has already passed policy. -/
def issueFor (did : String) (lifetimeDays : Int64) (kind approver : String) (env : Env) :
    Handler JobResult := do
  let max ← Proc.read fun s => s.cfg.maxLifetimeDays
  -- `clamp` panics when its bounds are the wrong way round
  Proc.lift (refuseIf (max < 1) .panicked)
  let days := clampDays lifetimeDays max
  let t := env.issue
  let found ← Proc.read fun s => s.state.devices did
  let device ← Proc.lift (orRefuse found (.refused "device vanished"))
  let keys ← Proc.read fun s => s.keys
  let body := passportFor keys device env.serial t days
  let token := signPassport C keys.issuing keys.ikc body
  append env (.issued kind body.rid body.did body.serial body.exp
    (fingerprint C ((unb64 body.idk).getD [])) body.prot body.ikid approver)
  modifyDevice did (Device.issuedAt t)
  save env
  pure (issuedResult token body)

/-- `if name.is_empty() { "unnamed" } else { name }`. -/
def displayName (name : String) : String := if name = "" then "unnamed" else name

def approverText (a : Approver) : String :=
  (if a.name = "" then "unknown" else a.name) ++ " (" ++ a.role ++ ", " ++ a.source ++ ")"

/-- The record `handle_issue` writes. -/
def issueRecord (job : IssueJob) (existing : Option Device) (t : Int64) : Device :=
  let d := job.device
  let keyNew := (existing.map fun e => e.idk != d.idk).getD true
  let wasRevoked := (existing.map fun e => e.status == .revoked).getD false
  { rid := d.rid, did := d.did, name := String.ofList (d.name.toList.take 80), idk := d.idk,
    idkAlg := d.idkAlg, rdk := d.rdk, prot := d.prot, status := .approved,
    approvedBy := if keyNew || wasRevoked then approverText job.approver
      else (existing.map Device.approvedBy).getD "",
    approvedSource := job.approver.source,
    firstSeen := (existing.map Device.firstSeen).getD t,
    lastIssued := (existing.map Device.lastIssued).getD 0,
    recentIssues := (existing.map Device.recentIssues).getD [] }

/-- The checks of `handle_issue` that only look at the job. -/
def issueJobChecks (job : IssueJob) : Handler Unit := do
  let d := job.device
  check (!validRid d.rid || !validDid d.did) "invalid rid/did"
  check (d.idkAlg ≠ "ed25519" ∨ d.prot ∉ issueProts) "unsupported key algorithm or protection"
  let _ ← checked (parsePublicKey C d.idk) "idk: "
  let _ ← checked (parsePublicKey C d.rdk) "rdk: "
  check (job.reason ∉ issueReasons) ("unknown issue reason '" ++ job.reason ++ "'")

/-- Refuses a job that names another RustDesk id for a device on file, and says so by mail. -/
def checkRid (d : DeviceIn) (existing : Option Device) : Handler Unit :=
  match existing with
  | none => pure ()
  | some e =>
    if e.rid ≠ d.rid then do
      mail ("[RDC CA] REFUSED: id mismatch for " ++ d.did,
        "RDS asked for a passport for device " ++ d.did ++ " as RustDesk id " ++ d.rid ++
          ", but the CA has it as " ++ e.rid ++ ".\nNothing was issued.")
      refuse "rid does not match the device on file"
    else pure ()

/-- The mail about a device with a new key or one that was revoked. -/
def approvedMail (job : IssueJob) (existing : Option Device) (wasRevoked : Bool)
    (serial : String) : String × String :=
  let d := job.device
  let name := displayName (String.ofList (d.name.toList.take 80))
  let what := if existing.isNone then "New device approved"
    else if wasRevoked then "Device re-approved" else "Device approved with a NEW key"
  ("[RDC CA] " ++ what ++ ": " ++ name ++ " (" ++ d.rid ++ ")",
    what ++ ".\n\nDevice: " ++ name ++ "\nRustDesk id: " ++ d.rid ++ "\nRDS device id: " ++
      d.did ++ "\nApproved by: " ++ approverText job.approver ++ "\nKey fingerprint: " ++
      fingerprint C ((unb64 d.idk).getD []) ++ "\nKey protection: " ++ d.prot ++
      "\nPassport serial: " ++ serial ++
      "\n\nIf you did not expect this, revoke the device in RDS now.")

def handleIssue (job : IssueJob) (env : Env) : Handler JobResult := do
  let d := job.device
  issueJobChecks C job
  let existing ← Proc.read fun s => s.state.devices d.did
  checkRid d existing
  let keyNew := (existing.map fun e => e.idk != d.idk).getD true
  let wasRevoked := (existing.map fun e => e.status == .revoked).getD false
  check (existing.isSome && keyNew && job.reason ≠ "approve")
    "key differs from the one on file and this is not a new approval"
  check (wasRevoked && job.reason = "reissue") "device is revoked; it needs a new approval"
  let ok ← rateOk d.did env.rate
  check (!ok) "rate limit"
  Proc.update fun s =>
    { s with state := s.state.insert d.did (issueRecord job existing env.record) }
  let result ← issueFor C d.did job.lifetimeDays ("issue:" ++ job.reason)
    (approverText job.approver) env
  mailWhen (keyNew || wasRevoked)
    (approvedMail C job existing wasRevoked (result.serial.getD ""))
  pure result

def knownApproved (rid did : String) : Handler Device := do
  let found ← Proc.read fun s => s.state.devices did
  let d ← Proc.lift (orRefuse found (.refused "device not on file"))
  check (d.rid ≠ rid) "rid does not match the device on file"
  check (d.status ≠ .approved) "device is not approved"
  pure d

def handleRenew (job : SignedJob) (env : Env) : Handler JobResult := do
  let device ← knownApproved job.rid job.did
  let idk ← checked (parsePublicKey C device.idk) ""
  let body ← checked (verifyRenew C job.request idk env.fresh requestMaxAge) "renewal: "
  check (body.rid ≠ job.rid ∨ body.did ≠ job.did) "renewal names a different device"
  let seen ← nonceSeen job.did body.nonce env.nonce
  check seen "renewal replayed"
  let ok ← rateOk job.did env.rate
  check (!ok) "rate limit"
  issueFor C job.did job.lifetimeDays "renew" "device signature" env

def Device.rekey (idk prot : String) (d : Device) : Device := { d with idk := idk, prot := prot }

def keyUpdateMail (device : Device) (body : KeyUpdateBody) (newKey : VerifyingKey C) :
    String × String :=
  ("[RDC CA] Device changed its identity key: " ++ device.name ++ " (" ++ device.rid ++ ")",
    "Device " ++ device.name ++ " (" ++ device.rid ++ ") moved from a " ++ device.prot ++
      " key to a new " ++ body.prot ++ " key, signed by both keys.\nNew key fingerprint: " ++
      fingerprint C newKey.bytes ++
      "\nIf this was not a reinstall or upgrade you expected, revoke it in RDS.")

def handleKeyUpdate (job : SignedJob) (env : Env) : Handler JobResult := do
  let device ← knownApproved job.rid job.did
  let old ← checked (parsePublicKey C device.idk) ""
  let (body, newKey) ←
    checked (verifyKeyUpdate C job.request old env.fresh requestMaxAge) "key update: "
  check (body.rid ≠ job.rid ∨ body.did ≠ job.did) "key update names a different device"
  check (body.prot ∉ keyUpdateProts) "unsupported key protection"
  let seen ← nonceSeen job.did body.nonce env.nonce
  check seen "key update replayed"
  modifyDevice job.did (Device.rekey (b64 newKey.bytes) body.prot)
  let result ← issueFor C job.did job.lifetimeDays "key_update"
    "device signatures (old + new key)" env
  mailWhen (device.prot ≠ "legacy") (keyUpdateMail C device body newKey)
  pure result

def Device.revoke (d : Device) : Device := { d with status := .revoked }

def handleRevoke (job : RevokeJob) (env : Env) : Handler JobResult := do
  let found ← Proc.read fun s => s.state.devices job.did
  check (∃ d ∈ found, d.rid ≠ job.rid) "rid does not match the device on file"
  modifyDevice job.did Device.revoke
  append env (.revoke job.rid job.did job.reason)
  save env
  pure { JobResult.default with ok := true }

/-! ## Jobs -/

def decoded {α : Type} (payload : Option α) (kind : String) (env : Env) : Handler α :=
  Proc.lift (orRefuse payload (.refused (kind ++ " job: " ++ env.jsonError)))

def handle (job : Job) (env : Env) : Handler JobResult :=
  if job.kind = "issue" then do
    handleIssue C (← decoded (decodeIssueJob job.payload) "issue" env) env
  else if job.kind = "renew" then do
    handleRenew C (← decoded (decodeSignedJob job.payload) "renew" env) env
  else if job.kind = "keyupdate" then do
    handleKeyUpdate C (← decoded (decodeSignedJob job.payload) "keyupdate" env) env
  else if job.kind = "revoke" then do
    handleRevoke (← decoded (decodeRevokeJob job.payload) "revoke" env) env
  else refuse ("unknown job kind '" ++ job.kind ++ "'")

/-- Answers one job; `none` when it panicked. -/
def process (job : Job) (env : Env) (s : Signer) : Option JobResult × Signer :=
  match handle C job env s with
  | (.ok result, s) => (some { result with id := job.id }, s)
  | (.error .panicked, s) => (none, s)
  | (.error (.refused error), s) =>
    let s := if env.appendRefused then
      { s with log := s.log ++ [(env.refused, .refused job.id job.kind error)] } else s
    (some { JobResult.default with id := job.id, error := some error }, s)

/-! ## Issuing key -/

/-- What a rotation sees: the clock for the decision and for the new key, the key's seed, and
whether the log could be written. -/
structure RotateEnv where
  now : Int64
  created : Int64
  seed : Bytes
  logged : Int64
  append : Option String

/-- `rotate_if_needed`. The key is replaced before the log entry is written. -/
def rotateIfNeeded (root : Bytes) (env : RotateEnv) (s : Signer) : Signer :=
  if env.now - s.keys.created ≥ s.cfg.issuingKeyDays * 86400 then
    let keys := Keys.new C root env.seed env.created s.cfg.issuingKeyDays
    let s' := { s with keys := keys }
    match env.append with
    | some _ => s'
    | none =>
      { s' with log := s.log ++ [(env.logged, .issuingKey keys.kid s.keys.kid keys.exp)] }
  else s

/-- What a start of the process reads: the state file as it is, a new issuing key. -/
structure StartEnv where
  created : Int64
  seed : Bytes
  logged : Int64

/-- A (re)start: `State::load`, `Keys::new` and the `start` entry. -/
def restart (root : Bytes) (env : StartEnv) (s : Signer) : Signer :=
  let keys := Keys.new C root env.seed env.created s.cfg.issuingKeyDays
  { s with
    state := s.saved
    keys := keys
    log := s.log ++ [(env.logged, .start keys.kid keys.exp)]
    mails := [] }

end ManagedDirectory.CaSigner
