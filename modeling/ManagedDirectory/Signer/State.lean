import ManagedDirectory.Passport.Verify
import ManagedDirectory.Lib.Stateful

/-!
# The CA signer: state

What `ca-signer` keeps: the device table and the nonces in memory (`State`), the state file that
was last saved, the issuance log, the issuing key and the mails not sent yet. `Env` is what one
job sees of the world outside: each reading of the clock at its own place, the random serial, and
whether the log and the state file could be written.

`counters_24h` feeds the heartbeat only and is left out.
-/

namespace ManagedDirectory.CaSigner

open Codec Lib Passport

structure Config where
  maxLifetimeDays : Int64
  issuingKeyDays : Int64
  maxIssuesPerDeviceHour : Nat

/-- A record's status. The signer writes the first two; a state file may hold any text. -/
inductive Status where
  | approved
  | revoked
  | other (text : String)
  deriving DecidableEq, Repr

structure Device where
  rid : String
  did : String
  name : String
  idk : String
  idkAlg : String
  rdk : String
  prot : String
  status : Status
  approvedBy : String
  approvedSource : String
  firstSeen : Int64
  lastIssued : Int64
  recentIssues : List Int64
  deriving DecidableEq

structure State where
  devices : String → Option Device
  nonces : List (String × String × Int64)

def State.empty : State := ⟨fun _ => none, []⟩

def requestMaxAge : Int64 := 600

def nonceKeep : Int64 := 1800

/-- The nonces young enough to keep at time `at`. -/
def State.pruneNonces (s : State) (at' : Int64) : State :=
  { s with nonces := s.nonces.filter fun n => at' - n.2.2 < nonceKeep }

/-- `nonce_seen`: forgets old nonces, then looks for this one and remembers it if it is new. -/
def State.nonceSeen (s : State) (did nonce : String) (at' : Int64) : Bool × State :=
  let s := s.pruneNonces at'
  if s.nonces.any fun n => n.1 == did && n.2.1 == nonce then (true, s)
  else (false, { s with nonces := s.nonces ++ [(did, nonce, at')] })

/-- `devices.insert`. -/
def State.insert (s : State) (did : String) (d : Device) : State :=
  { s with devices := Function.update s.devices did (some d) }

/-- `if let Some(d) = devices.get_mut(did) { … }`. -/
def State.modify (s : State) (did : String) (f : Device → Device) : State :=
  { s with devices := Function.update s.devices did ((s.devices did).map f) }

structure Keys where
  issuing : Bytes
  ikc : String
  kid : String
  created : Int64
  exp : Int64

/-- `Keys::new`: a fresh key from `seed`, certified by the root. -/
def Keys.new (C : Crypto) (root seed : Bytes) (created lifetimeDays : Int64) : Keys where
  issuing := seed
  ikc := signIkc C root (C.verifyingKey seed) (created - 300)
    (created + (lifetimeDays + 5) * 86400)
  kid := kidFor C (C.verifyingKey seed)
  created := created
  exp := created + (lifetimeDays + 5) * 86400

inductive LogEntry where
  | start (issuingKid : String) (issuingExp : Int64)
  | issuingKey (kid replaces : String) (exp : Int64)
  | issued (kind rid did serial : String) (exp : Int64) (idkFp prot ikid approver : String)
  | revoke (rid did reason : String)
  | refused (job : Int64) (jobKind error : String)
  deriving DecidableEq

structure Signer where
  cfg : Config
  state : State
  saved : State
  /-- The entries of the issuance log with their timestamps, oldest first. -/
  log : List (Int64 × LogEntry)
  keys : Keys
  mails : List (String × String)

/-- What one job sees of the clock, the random generator and the disk. -/
structure Env where
  /-- `now()` for the freshness of a signed request. -/
  fresh : Int64
  /-- `now()` for the nonce list. -/
  nonce : Int64
  /-- `now()` in `rate_ok`. -/
  rate : Int64
  /-- `now()` for `first_seen`. -/
  record : Int64
  /-- `now()` in `issue_for`. -/
  issue : Int64
  /-- `now()` in `append`. -/
  logged : Int64
  /-- `now()` in the `append` of a refusal. -/
  refused : Int64
  serial : Bytes
  serial_length : serial.length = 16
  /-- The error of `log.append`, if it fails. -/
  append : Option String
  /-- The error of `state.save`, if it fails. -/
  save : Option String
  appendRefused : Bool
  /-- The text of a `serde_json` error. -/
  jsonError : String

/-- How a handler ends when it does not succeed. A panic ends the process. -/
inductive Failure where
  | refused (error : String)
  | panicked
  deriving DecidableEq, Repr

/-! ## Jobs and results -/

structure Job where
  id : Int64
  kind : String
  payload : Json

structure JobResult where
  id : Int64
  ok : Bool
  error : Option String
  passport : Option String
  serial : Option String
  nbf : Option Int64
  exp : Option Int64
  idk : Option String
  prot : Option String
  deriving DecidableEq

/-- `JobResult::default()`. -/
def JobResult.default : JobResult := ⟨0, false, none, none, none, none, none, none, none⟩

structure DeviceIn where
  rid : String
  did : String
  name : String
  idk : String
  idkAlg : String
  rdk : String
  prot : String

structure Approver where
  name : String
  role : String
  source : String

structure IssueJob where
  device : DeviceIn
  approver : Approver
  lifetimeDays : Int64
  reason : String

structure SignedJob where
  rid : String
  did : String
  request : String
  lifetimeDays : Int64

structure RevokeJob where
  rid : String
  did : String
  reason : String

def decodeDeviceIn (j : Json) : Option DeviceIn :=
  match structFields false ["rid", "did", "name", "idk", "idk_alg", "rdk", "prot"] j with
  | some [rid, did, name, idk, idkAlg, rdk, prot] => do
    pure ⟨← required asString rid, ← required asString did, ← orDefault "" asString name,
      ← required asString idk, ← required asString idkAlg, ← required asString rdk,
      ← required asString prot⟩
  | _ => none

def decodeApprover (j : Json) : Option Approver :=
  match structFields false ["name", "role", "source"] j with
  | some [name, role, source] => do
    pure ⟨← orDefault "" asString name, ← orDefault "" asString role,
      ← orDefault "" asString source⟩
  | _ => none

def decodeIssueJob (j : Json) : Option IssueJob :=
  match structFields false ["device", "approver", "lifetime_days", "reason"] j with
  | some [device, approver, lifetimeDays, reason] => do
    pure ⟨← required decodeDeviceIn device, ← orDefault ⟨"", "", ""⟩ decodeApprover approver,
      ← required asI64 lifetimeDays, ← required asString reason⟩
  | _ => none

def decodeSignedJob (j : Json) : Option SignedJob :=
  match structFields false ["rid", "did", "request", "lifetime_days"] j with
  | some [rid, did, request, lifetimeDays] => do
    pure ⟨← required asString rid, ← required asString did, ← required asString request,
      ← required asI64 lifetimeDays⟩
  | _ => none

def decodeRevokeJob (j : Json) : Option RevokeJob :=
  match structFields false ["rid", "did", "reason"] j with
  | some [rid, did, reason] => do
    pure ⟨← required asString rid, ← required asString did, ← required asString reason⟩
  | _ => none

end ManagedDirectory.CaSigner
