import ManagedDirectory.Lib.Locks
import ManagedDirectory.Rds.Records

/-!
# RDS: concurrent transactions

The records of all devices under transactions that run at the same time (`rules`): an instance of
row locks, with `Tx.run` as what a transaction does under its lock. A device request validates its
credential when it starts and does its work in a later transaction.

Readers take no lock: `validateDeviceCredential` and `enrollmentStatus` read the committed rows at
one moment. `change_of_run` says that in every interleaving a record changes by one `RecordChange`
at a time.
-/

namespace ManagedDirectory.Rds

open Codec Lib List

/-! ## Device credentials -/

structure CredentialClaims where
  sub : String
  serial : String
  rustdeskId : String
  pkh : String
  instanceId : String
  issuedAt : Int
  expiresAt : Option Int
  deriving DecidableEq

/-- What RDS signs and checks credentials with: PyJWT under the device secret, SHA-256, and the
instance id. `decode` may refuse a token for its times; it never alters one. -/
structure Issuer where
  encode : CredentialClaims → String
  decode : (now : Int) → String → Option CredentialClaims
  decode_encode : ∀ {now c c'}, decode now (encode c) = some c' → c' = c
  sha256 : Bytes → Bytes
  instanceId : String

def claimsCode (c : CredentialClaims) :
    List Nat × List Nat × List Nat × List Nat × List Nat × Int × Option Int :=
  (codePoints c.sub, codePoints c.serial, codePoints c.rustdeskId, codePoints c.pkh,
    codePoints c.instanceId, c.issuedAt, c.expiresAt)

def readClaims :
    List Nat × List Nat × List Nat × List Nat × List Nat × Int × Option Int →
      Option CredentialClaims
  | (sub, serial, rustdeskId, pkh, instanceId, issuedAt, expiresAt) => do
    pure ⟨← ofCodePoints sub, ← ofCodePoints serial, ← ofCodePoints rustdeskId,
      ← ofCodePoints pkh, ← ofCodePoints instanceId, issuedAt, expiresAt⟩

theorem readClaims_claimsCode (c : CredentialClaims) : readClaims (claimsCode c) = some c := by
  simp [readClaims, claimsCode]

/-- Tokens that anyone can read and write, to evaluate the model with. -/
def plainIssuer : Issuer where
  encode c := String.ofList (List.replicate (Encodable.encode (claimsCode c)) 'x')
  decode _ text := (Encodable.decode text.length).bind readClaims
  decode_encode h := by
    simp only [String.length_ofList, length_replicate, Encodable.encodek, Option.bind_some,
      readClaims_claimsCode] at h
    exact (Option.some.inj h).symm
  sha256 := firstBytes 32
  instanceId := "rds"

theorem plainIssuer_decode (now : Int) (c : CredentialClaims) :
    plainIssuer.decode now (plainIssuer.encode c) = some c := by
  simp only [plainIssuer, String.length_ofList, length_replicate, Encodable.encodek,
    Option.bind_some, readClaims_claimsCode]

def keyHash (I : Issuer) (key : Bytes) : String := hex (I.sha256 key)

/-- `sign_device_credential`. -/
def signDeviceCredential (I : Issuer) (d : ManagedDevice) (c : Credential) : CredentialClaims :=
  ⟨d.id, c.serial, d.rustdeskId, keyHash I d.devicePublicKey, I.instanceId, c.issuedAt,
    c.expiresAt⟩

def unauthorized : Failure := .http 401 "Invalid or expired authentication"

/-- `validate_device_credential`: one `SELECT` over the device and its credential. -/
def validateDeviceCredential (I : Issuer) (records : String → Record) (now : Int)
    (credential : String) : Except Failure (ManagedDevice × Credential) := do
  let claims ← orRefuse (I.decode now credential) unauthorized
  let r := records claims.sub
  let d ← orRefuse (r.row.filter fun d =>
    d.rustdeskId == claims.rustdeskId && d.status == .approved) unauthorized
  let c ← orRefuse (r.credentials.find? fun c =>
    c.serial == claims.serial && !c.revoked && c.expiresAt.all (now < ·)) unauthorized
  refuseIf (claims.instanceId ≠ I.instanceId) unauthorized
  refuseIf (keyHash I d.devicePublicKey ≠ claims.pkh) unauthorized
  pure (d, c)

/-- What `enrollment_status` answers: the status and, for an approved device, its credential. -/
structure StatusAnswer where
  status : DeviceStatus
  credential : Option CredentialClaims

/-- `enrollment_status`: one `SELECT` by device and poll token. -/
def enrollmentStatus (I : Issuer) (r : Record) (pollTokenHash : String) (now : Int) :
    Except Failure StatusAnswer := do
  let d ← orRefuse (r.row.filter fun d => d.pollTokenHash == pollTokenHash && now < d.pollExpiresAt)
    unauthorized
  pure ⟨d.status, if d.status = .approved then
    (r.activeCredential now).map (signDeviceCredential I d) else none⟩

/-! ## The system -/

abbrev State := Locks.Sys String Record Tx Outside

abbrev Ev := Event State (Locks.Label String Tx)

/-- A request of the device is let in with a credential that is accepted. -/
def Validated (I : Issuer) (s : State) (did : String) : Prop :=
  ∃ now text d c, validateDeviceCredential I s.cells now text = .ok (d, c) ∧ d.id = did

/-- A device request starts its work after its credential was accepted. -/
def Authenticated (I : Issuer) (s : State) (did : String) : Work → Prop
  | .lease _ credentialSerial _ => ∃ now text d c,
      validateDeviceCredential I s.cells now text = .ok (d, c) ∧ d.id = did ∧
        c.serial = credentialSerial
  | .edgeCert _ _ _ => ∃ now text d c,
      validateDeviceCredential I s.cells now text = .ok (d, c) ∧ d.id = did
  | .signed device _ _ _ => ∃ now text c,
      validateDeviceCredential I s.cells now text = .ok (device, c) ∧ device.id = did

/-- A transaction's `NOW()` is the clock at its start. -/
structure Starts (I : Issuer) (s : State) (t : Tx) : Prop where
  clock : t.startedAt = s.outside.clock
  work : ∀ did w, t.request = .work did w → Authenticated I s did w

def rules (P : Platform) (I : Issuer) : Locks.Rules String Record Tx Outside where
  plan g t did r := (t.run P g did r).toOption
  starts := Starts I
  moves g g' := g.clock ≤ g'.clock

abbrev TxStep (P : Platform) (I : Issuer) := Locks.Step (rules P I)

def noDevices (g : Outside) : State := ⟨fun _ => .empty, g, [], []⟩

section Runs

variable {P : Platform} {I : Issuer} {s s₀ : State} {es : List Ev} {e : Ev} {did : String}

/-- What a step does to record `did`. -/
inductive RecordStep (did : String) (r : Record) : Locks.Label String Tx → Record → Prop where
  | same {l : Locks.Label String Tx} : RecordStep did r l r
  | commit {g : Outside} {t : Tx} {r' : Record} (h : RecordChange g t did r r') :
    RecordStep did r (.commit did t) r'

theorem RecordStep.same_or_commit {r r' : Record} {l : Locks.Label String Tx}
    (h : RecordStep did r l r') :
    r' = r ∨ ∃ g t, l = .commit did t ∧ RecordChange g t did r r' := by
  cases h with
  | same => exact .inl rfl
  | commit h => exact .inr ⟨_, _, rfl, h⟩

theorem toOption_eq_some {ε α : Type} {x : Except ε α} {a : α} (h : x.toOption = some a) :
    x = .ok a := by
  cases x with
  | error e => cases h
  | ok b => exact congrArg _ (Option.some.inj h)

theorem recordStep_of_change {r r' : Record} {l : Locks.Label String Tx}
    (h : Locks.Change (rules P I) did r l r') : RecordStep did r l r' := by
  cases h with
  | same => exact .same
  | commit hplan => exact .commit (run_ok (toOption_eq_some hplan))

/-- **In every interleaving a record changes by one transaction at a time.** -/
theorem recordStep_of_run (h0 : s₀.held = []) (h : Run (TxStep P I) s₀ es s) (he : e ∈ es)
    (did : String) : RecordStep did (e.before.cells did) e.label (e.after.cells did) :=
  recordStep_of_change (Locks.change_of_run h0 h he did)

theorem record_invariant {g : Outside} (h : Run (TxStep P I) (noDevices g) es s)
    (Inv : String → Record → Prop) (hempty : ∀ did, Inv did .empty)
    (hchange : ∀ {g t did r r'}, Inv did r → RecordChange g t did r r' → Inv did r')
    (did : String) : Inv did (s.cells did) :=
  Locks.cell_invariant rfl h Inv hempty
    (fun hinv hplan => hchange hinv (run_ok (toOption_eq_some hplan))) did

theorem record_history {m : State} (hm : Locks.Valid (rules P I) m) (h : Run (TxStep P I) m es s)
    (Inv : List Ev → Record → Prop) (h0 : Inv [] (m.cells did))
    (hstep : ∀ {es : List Ev} {e : Ev}, Inv es (e.before.cells did) →
      RecordStep did (e.before.cells did) e.label (e.after.cells did) →
      Inv (es ++ [e]) (e.after.cells did)) : Inv es (s.cells did) := by
  suffices hs : Locks.Valid (rules P I) s ∧ Inv es (s.cells did) from hs.2
  refine h.history (fun es s => Locks.Valid (rules P I) s ∧ Inv es (s.cells did)) ⟨hm, h0⟩ ?_
  rintro es s l s' ⟨hs, hinv⟩ hs'
  refine ⟨Locks.step_valid hs hs', ?_⟩
  exact @hstep es ⟨s, l, s'⟩ hinv (recordStep_of_change (Locks.step_change hs hs' did))

theorem valid_noDevices {g : Outside} (h : Run (TxStep P I) (noDevices g) es s) :
    Locks.Valid (rules P I) s :=
  Locks.valid_of_run rfl h

/-! ## One transaction after another -/

/-- A commit: the record before it and after it, and the transactions that wait meanwhile. -/
structure Commit where
  did : String
  tx : Tx
  before : Record
  after : Record
  waiting : List Tx

def commitOf (e : Ev) : Option Commit :=
  match e.label with
  | .commit did t => some ⟨did, t, e.before.cells did, e.after.cells did, e.before.waiting⟩
  | _ => none

def committed (es : List Ev) : List Commit := es.filterMap commitOf

theorem commitOf_eq_some {c : Commit} (h : commitOf e = some c) :
    e.label = .commit c.did c.tx ∧ e.before.cells c.did = c.before ∧ e.after.cells c.did = c.after := by
  unfold commitOf at h
  split at h
  · cases h
    exact ⟨‹_›, rfl, rfl⟩
  · cases h

theorem mem_committed {t : Tx} (he : e ∈ es) (hlabel : e.label = .commit did t) :
    ⟨did, t, e.before.cells did, e.after.cells did, e.before.waiting⟩ ∈ committed es :=
  mem_filterMap.mpr ⟨e, he, by simp [commitOf, hlabel]⟩

theorem committed_split {l₁ l₂ : List Commit} {c : Commit} (h : committed es = l₁ ++ c :: l₂) :
    ∃ pre e post, es = pre ++ e :: post ∧ committed pre = l₁ ∧ committed post = l₂ ∧
      commitOf e = some c := by
  obtain ⟨es₁, es₂, rfl, h₁, h₂⟩ := filterMap_eq_append_iff.mp h
  obtain ⟨quiet, e, post, rfl, hquiet, he, hpost⟩ := filterMap_eq_cons_iff.mp h₂
  refine ⟨es₁ ++ quiet, e, post, by simp, ?_, hpost, he⟩
  rw [committed, filterMap_append, h₁, filterMap_eq_nil_iff.mpr hquiet, append_nil]

theorem cells_of_no_commit (h : Run (TxStep P I) s₀ es s) (hnone : committed es = []) :
    s.cells = s₀.cells ∧ ∀ e ∈ es, e.after.cells = s₀.cells := by
  induction h with
  | nil => exact ⟨rfl, by simp⟩
  | @snoc es m s' l _ hstep ih =>
    rw [committed, filterMap_append, append_eq_nil_iff] at hnone
    obtain ⟨hm, hall⟩ := ih hnone.1
    have hl : ∀ k t, l ≠ .commit k t := by
      rintro k t rfl
      simp [commitOf] at hnone
    have hs' := (Locks.cells_eq_of_step hstep hl).trans hm
    refine ⟨hs', fun e he => ?_⟩
    rcases mem_append.mp he with he | he
    · exact hall e he
    · rw [mem_singleton.mp he]
      exact hs'

/-- A run from `s` to `s'` with the commits `cs`. -/
def Serves (P : Platform) (I : Issuer) (s : State) (cs : List Commit) (s' : State) : Prop :=
  ∃ es, Run (TxStep P I) s es s' ∧ committed es = cs

theorem Serves.trans {s s' s'' : State} {cs cs' : List Commit} (h : Serves P I s cs s')
    (h' : Serves P I s' cs' s'') : Serves P I s (cs ++ cs') s'' := by
  obtain ⟨es, hrun, rfl⟩ := h
  obtain ⟨es', hrun', rfl⟩ := h'
  exact ⟨es ++ es', hrun.trans hrun', filterMap_append⟩

/-- The directory at time `now`, where no transaction holds a lock. -/
def idle (g : Outside) (now : Int) (cells : String → Record) (waiting : List Tx) : State :=
  ⟨cells, { g with clock := now }, waiting, []⟩

def Request.isWork : Request → Bool
  | .work _ _ => true
  | _ => false

section Idle

variable {g : Outside} {now now' : Int} {cells : String → Record} {r r' : Record} {t : Tx}
  {req : Request} {waiting : List Tx}

theorem run_tick (hle : now ≤ now') :
    Serves P I (idle g now cells waiting) [] (idle g now' cells waiting) :=
  ⟨_, .snoc .nil (.outside hle), rfl⟩

theorem run_start (hstart : Starts I (idle g now cells waiting) t) :
    Serves P I (idle g now cells waiting) [] (idle g now cells (t :: waiting)) :=
  ⟨_, .snoc .nil (.start hstart), rfl⟩

theorem idle_commit (hcell : cells did = r)
    (hrun : t.run P { g with clock := now } did r = .ok r') :
    Serves P I (idle g now cells (t :: waiting)) [⟨did, t, r, r', waiting⟩]
      (idle g now (Function.update cells did r') waiting) := by
  subst hcell
  have hplan : (rules P I).plan { g with clock := now } t did (cells did) = some r' := by
    simp [rules, hrun, Except.toOption]
  refine ⟨_, Locks.run_alone (R := rules P I) (s := idle g now cells waiting)
    (by simp [idle]) hplan, ?_⟩
  have hafter : Function.update cells did r' did = r' := by simp
  have hcommits : (⟨did, t, cells did, r', waiting⟩ : Commit) =
      ⟨did, t, cells did, Function.update cells did r' did, waiting⟩ := by
    rw [hafter]
  rw [hcommits]
  rfl

theorem starts_of_not_isWork (hwork : req.isWork = false) :
    Starts I (idle g now cells waiting) ⟨req, now⟩ := by
  refine ⟨rfl, fun x w hw => ?_⟩
  rw [show req = .work x w from hw] at hwork
  cases hwork

theorem idle_request (hwork : req.isWork = false) (hle : now ≤ now') (hcell : cells did = r)
    (hrun : (Tx.mk req now').run P { g with clock := now' } did r = .ok r') :
    Serves P I (idle g now cells waiting) [⟨did, ⟨req, now'⟩, r, r', waiting⟩]
      (idle g now' (Function.update cells did r') waiting) :=
  ((run_tick hle).trans (run_start (starts_of_not_isWork hwork))).trans (idle_commit hcell hrun)

end Idle

/-- The directory at time `now`, with record `r` for device `did` and no other device. -/
def oneDevice (g : Outside) (did : String) (now : Int) (r : Record) (waiting : List Tx) : State :=
  idle g now (Function.update (fun _ => .empty) did r) waiting

section OneDevice

variable {g : Outside} {now now' : Int} {r r' : Record} {t : Tx} {waiting : List Tx}

theorem noDevices_eq (g : Outside) (did : String) :
    noDevices g = oneDevice g did g.clock .empty [] := by
  simp [noDevices, oneDevice, idle]

@[simp] theorem cells_oneDevice : (oneDevice g did now r waiting).cells did = r := by
  simp [oneDevice, idle]

theorem run_commit (hrun : t.run P { g with clock := now } did r = .ok r') :
    Serves P I (oneDevice g did now r (t :: waiting)) [⟨did, t, r, r', waiting⟩]
      (oneDevice g did now r' waiting) := by
  have hcell : Function.update (fun _ : String => Record.empty) did r did = r :=
    Function.update_self _ _ _
  have hserves : Serves P I (oneDevice g did now r (t :: waiting)) [⟨did, t, r, r', waiting⟩] _ :=
    idle_commit hcell hrun
  rwa [Function.update_idem] at hserves

theorem run_request {req : Request} (hwork : req.isWork = false) (hle : now ≤ now')
    (hrun : (Tx.mk req now').run P { g with clock := now' } did r = .ok r') :
    Serves P I (oneDevice g did now r waiting) [⟨did, ⟨req, now'⟩, r, r', waiting⟩]
      (oneDevice g did now' r' waiting) :=
  ((run_tick hle).trans (run_start (starts_of_not_isWork hwork))).trans (run_commit hrun)

end OneDevice

end Runs

end ManagedDirectory.Rds
