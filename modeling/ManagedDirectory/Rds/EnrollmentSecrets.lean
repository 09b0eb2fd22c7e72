import ManagedDirectory.Lib.Locks
import ManagedDirectory.Rds.Enrollment

/-!
# RDS: enrollment secrets

Enrollments, revocations and new secrets as transactions that run at the same time, each under the
lock of one secret (`secretRules`). A secret is kept together with the enrollment events that name
it: they are written under the same lock. What an enrollment finds in the device tables is read from
`outside`, which may change at any moment; a re-enrollment with a poll token names no secret and is
such a change.

`secret_accounting`: in every interleaving the use count of a secret is the number of enrollments
accepted on it, within its limit, and none is accepted on a secret that may not be used.
-/

namespace ManagedDirectory.Rds

open Codec Lib

/-- `device_enrollment_events.result`. -/
inductive EnrollmentResult where
  | acceptedPending
  | rejectedBadSecret
  | rejectedExpired
  | rejectedRevoked
  | rejectedLimit
  | duplicate
  deriving DecidableEq, Repr

/-- A row of `enrollment_secrets`. -/
structure EnrollmentSecret where
  passwordHash : String
  isActive : Bool
  maxUses : Option Nat
  useCount : Nat
  expiresAt : Option Int
  revokedAt : Option Int
  deriving DecidableEq

/-- A secret, and the results of the enrollment events that name it, oldest first. -/
structure SecretRecord where
  row : Option EnrollmentSecret
  events : List EnrollmentResult
  deriving DecidableEq

def SecretRecord.accepted (c : SecretRecord) : Nat := c.events.count .acceptedPending

inductive SecretRequest where
  /-- `create_enrollment_secret`, with the hash of the password and the id of the new row. -/
  | create (id passwordHash : String) (maxUses : Option Nat) (expiresAt : Option Int)
  | revoke (id : String)
  | enroll (sourceIp password : String) (req : EnrollRequest)

structure SecretTx where
  request : SecretRequest
  now : Int

structure SecretOutside where
  clock : Int
  db : Db
  /-- The failures of an address within `ENROLLMENT_RATE_LIMIT_WINDOW_MINUTES`. -/
  recentFailures : String → Nat

def enrollmentMaxFailuresPerWindow : Nat := 10

def EnrollmentSecret.rejection (now : Int) (s : EnrollmentSecret) :
    Option (EnrollmentResult × String) :=
  if !s.isActive || s.revokedAt.isSome then
    some (.rejectedRevoked, "Enrollment password is revoked")
  else if s.expiresAt.any (· ≤ now) then some (.rejectedExpired, "Enrollment password is expired")
  else if s.maxUses.any (· ≤ s.useCount) then
    some (.rejectedLimit, "Enrollment password usage limit is reached")
  else none

/-- The refusals of `enroll_device` that are put on record before they are sent; after the others the
transaction is rolled back. -/
def recordsDuplicate (f : Failure) : Bool :=
  f == identityConflict || f == authorizationRequired .pending ||
    f == authorizationRequired .denied || checkRecoverable .revoked == .error f ||
    checkRecoverable .approved == .error f

/-- `use_count` is an `INTEGER`. -/
def EnrollmentSecret.use (s : EnrollmentSecret) : Option EnrollmentSecret :=
  if s.useCount + 1 < 2 ^ 31 then some { s with useCount := s.useCount + 1 } else none

def SecretRecord.note (c : SecretRecord) (result : EnrollmentResult) : SecretRecord :=
  { c with events := c.events ++ [result] }

/-- `enroll_device` from the lock of its secret on: what it commits to the secret, and its answer. -/
def enrollOnSecret (P : Platform) (db : Db) (req : EnrollRequest) (s : EnrollmentSecret)
    (c : SecretRecord) : Option SecretRecord × Except Failure Db :=
  match s.rejection req.now with
  | some (result, detail) => (some (c.note result), .error (.http 403 detail))
  | none =>
    match enrollDevice P req db with
    | .error f => (if recordsDuplicate f then some (c.note .duplicate) else none, .error f)
    | .ok db' =>
      match s.use with
      | some s' => (some ({ c with row := some s' }.note .acceptedPending), .ok db')
      | none => (none, .error .exception)

def malformed (req : EnrollRequest) : Bool :=
  strip req.rustdeskId == "" || strip req.hostname == "" || req.devicePublicKey.length < 32 ||
    4096 < req.devicePublicKey.length

/-- What a request commits to secret `k`. The password that `crypt` accepts picks the secret. -/
def SecretTx.plan (P : Platform) (crypt : (password hash : String) → Bool) (g : SecretOutside)
    (t : SecretTx) (k : String) (c : SecretRecord) : Option SecretRecord :=
  match t.request, c.row with
  | .create id passwordHash maxUses expiresAt, none =>
    if k = id ∧ maxUses ≠ some 0 ∧ expiresAt.all (t.now < ·) then
      some { c with row := some ⟨passwordHash, true, maxUses, 0, expiresAt, none⟩ }
    else none
  | .create _ _ _ _, some _ => none
  | .revoke id, some s =>
    if k ≠ id then none
    else if s.revokedAt = none then
      some { c with row := some { s with isActive := false, revokedAt := some t.now } }
    else some c
  | .enroll sourceIp password req, some s =>
    if malformed req ∨ enrollmentMaxFailuresPerWindow ≤ g.recentFailures sourceIp ∨
        crypt password s.passwordHash = false then none
    else (enrollOnSecret P g.db req s c).1
  | _, none => none

structure SecretStarts (s : Locks.Sys String SecretRecord SecretTx SecretOutside) (t : SecretTx) :
    Prop where
  clock : t.now = s.outside.clock
  enroll : ∀ ip password req, t.request = .enroll ip password req → req.now = t.now

def secretRules (P : Platform) (crypt : (password hash : String) → Bool) :
    Locks.Rules String SecretRecord SecretTx SecretOutside where
  plan := SecretTx.plan P crypt
  starts := SecretStarts
  moves g g' := g.clock ≤ g'.clock

def noSecrets (g : SecretOutside) : Locks.Sys String SecretRecord SecretTx SecretOutside :=
  ⟨fun _ => ⟨none, []⟩, g, [], []⟩

abbrev SecretEv := Event (Locks.Sys String SecretRecord SecretTx SecretOutside)
  (Locks.Label String SecretTx)

/-! ## What a transaction does to a secret -/

section Changes

variable {P : Platform} {crypt : (password hash : String) → Bool} {g : SecretOutside} {t : SecretTx}
  {k : String} {c c' : SecretRecord} {s s' : EnrollmentSecret}

structure Usable (now : Int) (s : EnrollmentSecret) : Prop where
  active : s.isActive = true
  unrevoked : s.revokedAt = none
  unexpired : ∀ expires, s.expiresAt = some expires → now < expires
  limit : ∀ m, s.maxUses = some m → s.useCount < m

theorem usable_of_rejection {now : Int} (h : s.rejection now = none) : Usable now s := by
  unfold EnrollmentSecret.rejection at h
  split_ifs at h with hrevoked hexpired hlimit
  simp only [Bool.or_eq_true, Bool.not_eq_true', not_or, Bool.not_eq_false,
    Option.not_isSome_iff_eq_none] at hrevoked
  refine ⟨hrevoked.1, hrevoked.2, fun expires hs => ?_, fun m hs => ?_⟩
  · simpa [hs] using hexpired
  · simpa [hs] using hlimit

inductive SecretChange (t : SecretTx) (c : SecretRecord) : SecretRecord → Prop where
  | created {s : EnrollmentSecret} (hrow : c.row = none) (hcount : s.useCount = 0) :
    SecretChange t c { c with row := some s }
  | noted {result : EnrollmentResult} {s : EnrollmentSecret} (hrow : c.row = some s)
      (hresult : result ≠ .acceptedPending) : SecretChange t c (c.note result)
  | revised {s s' : EnrollmentSecret} (hrow : c.row = some s) (hcount : s'.useCount = s.useCount)
      (hmax : s'.maxUses = s.maxUses) : SecretChange t c { c with row := some s' }
  | accepted {ip password : String} {req : EnrollRequest} {s : EnrollmentSecret}
      (hrequest : t.request = .enroll ip password req) (hrow : c.row = some s)
      (husable : Usable req.now s) :
    SecretChange t c
      ({ c with row := some { s with useCount := s.useCount + 1 } }.note .acceptedPending)

theorem rejection_ne_accepted {now : Int} {result : EnrollmentResult} {detail : String}
    (h : s.rejection now = some (result, detail)) : result ≠ .acceptedPending := by
  unfold EnrollmentSecret.rejection at h
  split_ifs at h <;> cases h <;> decide

theorem change_of_enroll {ip password : String} {req : EnrollRequest} {db : Db}
    (hrequest : t.request = .enroll ip password req) (hrow : c.row = some s)
    (h : (enrollOnSecret P db req s c).1 = some c') : SecretChange t c c' := by
  unfold enrollOnSecret at h
  split at h
  · rename_i hrejected
    cases h
    exact .noted hrow (rejection_ne_accepted hrejected)
  · rename_i hfree
    split at h
    · split_ifs at h
      cases h
      exact .noted hrow (by decide)
    · split at h
      · rename_i s' huse
        cases h
        unfold EnrollmentSecret.use at huse
        split_ifs at huse
        cases huse
        exact .accepted hrequest hrow (usable_of_rejection hfree)
      · cases h

theorem change_of_plan (h : t.plan P crypt g k c = some c') : SecretChange t c c' := by
  unfold SecretTx.plan at h
  split at h
  · rename_i hrequest hrow
    split_ifs at h
    cases h
    exact .created hrow rfl
  · cases h
  · rename_i s hrequest hrow
    split_ifs at h
    · cases h
      exact .revised hrow rfl rfl
    · cases h
      obtain ⟨row, events⟩ := c
      obtain rfl := hrow
      exact .revised rfl rfl rfl
  · rename_i hrequest hrow
    split_ifs at h
    exact change_of_enroll hrequest hrow h
  · cases h

structure Counted (c : SecretRecord) : Prop where
  unused : c.row = none → c.events = []
  exact : ∀ s, c.row = some s → s.useCount = c.accepted
  limit : ∀ s m, c.row = some s → s.maxUses = some m → s.useCount ≤ m

theorem accepted_note (result : EnrollmentResult) :
    (c.note result).accepted = c.accepted + if result = .acceptedPending then 1 else 0 := by
  simp [SecretRecord.accepted, SecretRecord.note, List.count_cons, beq_iff_eq]

theorem counted_of_change (hc : Counted c) (h : SecretChange t c c') : Counted c' := by
  cases h with
  | @created s hrow hcount =>
    have hnone : c.accepted = 0 := by
      rw [SecretRecord.accepted, hc.unused hrow]
      rfl
    refine ⟨fun h => (by cases h), fun s' hs' => ?_, fun s' m hs' _ => ?_⟩
    · obtain rfl := Option.some.inj hs'
      exact hcount.trans hnone.symm
    · obtain rfl := Option.some.inj hs'
      omega
  | @noted result s hrow hresult =>
    refine ⟨fun h => ?_, fun s' hs' => ?_, hc.limit⟩
    · rw [show c.row = none from h] at hrow
      cases hrow
    · rw [accepted_note, if_neg hresult]
      exact hc.exact s' hs'
  | revised hrow hcount hmax =>
    refine ⟨fun h => (by cases h), fun s' hs' => ?_, fun s' m hs' hm => ?_⟩
    · obtain rfl := Option.some.inj hs'
      exact hcount.trans (hc.exact _ hrow)
    · obtain rfl := Option.some.inj hs'
      exact hcount.trans_le (hc.limit _ m hrow (hmax ▸ hm))
  | @accepted ip password req s hrequest hrow husable =>
    refine ⟨fun h => (by cases h), fun s' hs' => ?_, fun s' m hs' hm => ?_⟩
    · obtain rfl := Option.some.inj hs'
      rw [accepted_note, if_pos rfl]
      exact congrArg (· + 1) (hc.exact s hrow)
    · obtain rfl := Option.some.inj hs'
      exact husable.limit m hm

theorem usable_of_change (h : SecretChange t c c') (hnew : c.accepted < c'.accepted) :
    ∃ ip password req s, t.request = .enroll ip password req ∧ c.row = some s ∧
      Usable req.now s := by
  cases h with
  | created => exact absurd hnew (Nat.lt_irrefl _)
  | noted hrow hresult =>
    rw [accepted_note, if_neg hresult] at hnew
    exact absurd hnew (Nat.lt_irrefl _)
  | revised => exact absurd hnew (Nat.lt_irrefl _)
  | accepted hrequest hrow husable => exact ⟨_, _, _, _, hrequest, hrow, husable⟩

end Changes

/-! ## Every interleaving -/

section Runs

variable {P : Platform} {crypt : (password hash : String) → Bool} {g : SecretOutside}
  {s : Locks.Sys String SecretRecord SecretTx SecretOutside} {es pre post : List SecretEv}
  {e : SecretEv} {id : String} {t : SecretTx}

/-- Where an enrollment was accepted: the request started, it took the lock of its secret later, and
the secret was usable then. -/
structure AcceptedOn (pre : List SecretEv) (id : String) (t : SecretTx) : Prop where
  locked : ∃ lock ∈ pre, lock.label = .lock id t ∧ ∃ secret,
    (lock.before.cells id).row = some secret ∧ Usable t.now secret
  started : ∃ start ∈ pre, start.label = .start t ∧ start.before.outside.clock = t.now

theorem acceptedOn_of_commit
    (h : Run (Locks.Step (secretRules P crypt)) (noSecrets g) (pre ++ e :: post) s)
    (hlabel : e.label = .commit id t)
    (hnew : (e.before.cells id).accepted < (e.after.cells id).accepted) : AcceptedOn pre id t := by
  obtain ⟨hpre, hstep, -⟩ := h.split
  obtain ⟨x, hx, hkey, hop⟩ := Locks.held_of_commit (hlabel ▸ hstep)
  obtain ⟨start, hstart, hstartLabel, hstarts⟩ :=
    Locks.started_of_run rfl rfl hpre t (.inr ⟨x, hx, hop⟩)
  obtain ⟨before, lock, rest, rfl, hlock, hplan, hsince⟩ := Locks.locked_of_run rfl h hlabel
  obtain ⟨ip, password, req, secret, hrequest, hrow, husable⟩ :=
    usable_of_change (change_of_plan hplan) hnew
  have hlockStep := (Run.split (hpre : Run _ _ (before ++ lock :: rest) _)).2.1
  have hcells : lock.after.cells = lock.before.cells :=
    Locks.cells_eq_of_step hlockStep (by simp [hlock])
  refine ⟨⟨lock, by simp, hlock, secret, ?_, ?_⟩, start, hstart, hstartLabel, hstarts.clock.symm⟩
  · rw [← hcells, hsince lock (by simp)]
    exact hrow
  · rw [← hstarts.enroll _ _ _ hrequest]
    exact husable

/-- **The accounting of enrollment secrets.** In every interleaving, the use count of a secret is the
number of accepted events that name it and within its limit; and an enrollment is accepted only on a
secret that was active, not revoked and below its limit when it was locked, and had not expired when
the request started. -/
theorem secret_accounting (h : Run (Locks.Step (secretRules P crypt)) (noSecrets g) es s) :
    (∀ id secret, (s.cells id).row = some secret → secret.useCount = (s.cells id).accepted ∧
      ∀ m, secret.maxUses = some m → secret.useCount ≤ m) ∧
    ∀ pre e post, es = pre ++ e :: post → ∀ id t, e.label = .commit id t →
      (e.before.cells id).accepted < (e.after.cells id).accepted → AcceptedOn pre id t := by
  refine ⟨fun id secret hrow => ?_, ?_⟩
  · have hcounted := Locks.cell_invariant rfl h (fun _ c => Counted c)
      (fun _ => ⟨fun _ => rfl, fun _ hs => (by cases hs), fun _ _ hs => (by cases hs)⟩)
      (fun hc hplan => counted_of_change hc (change_of_plan hplan)) id
    exact ⟨hcounted.exact secret hrow, fun m hm => hcounted.limit secret m hrow hm⟩
  · rintro pre e post rfl id t hlabel hnew
    exact acceptedOn_of_commit h hlabel hnew

namespace SecretSample

def outside : SecretOutside :=
  ⟨0, ⟨Table.empty _, Queue.empty, Table.empty _, Table.empty _, [], ⟨none, 7⟩⟩, fun _ => 0⟩

def create : SecretTx := ⟨.create "s" "password" (some 1) none, 0⟩

def enroll : SecretTx :=
  ⟨.enroll "10.0.0.1" "password" ⟨⟨"1", "pc", none, List.replicate 32 1, "t", 0⟩, none, "d"⟩, 0⟩

def used (uses : Nat) : SecretRecord :=
  ⟨some ⟨"password", true, some 1, uses, none, none⟩, List.replicate uses .acceptedPending⟩

theorem run_request {t : SecretTx} (cells : String → SecretRecord) {c : SecretRecord}
    (hstarts : SecretStarts ⟨cells, outside, [], []⟩ t)
    (hplan : t.plan plainPlatform (· == ·) outside "s" (cells "s") = some c) :
    ∃ es, Run (Locks.Step (secretRules plainPlatform (· == ·))) ⟨cells, outside, [], []⟩ es
      ⟨Function.update cells "s" c, outside, [], []⟩ := by
  have hstart : Locks.Step (secretRules plainPlatform (· == ·)) ⟨cells, outside, [], []⟩ (.start t)
      ⟨cells, outside, [t], []⟩ := .start hstarts
  exact ⟨_, (Run.nil.snoc hstart).trans (Locks.run_alone
    (R := secretRules plainPlatform (· == ·)) (s := ⟨cells, outside, [], []⟩) (by simp) hplan)⟩

end SecretSample

open SecretSample in
theorem sample_secret_accounting : ∃ es s,
    Run (Locks.Step (secretRules plainPlatform (· == ·))) (noSecrets outside) es s ∧
    (s.cells "s").accepted = 1 ∧
    ∀ secret, (s.cells "s").row = some secret → secret.useCount = 1 := by
  obtain ⟨es, hcreated⟩ := run_request (t := create) (c := used 0) (fun _ => ⟨none, []⟩)
    ⟨rfl, fun _ _ _ h => (by cases h)⟩ rfl
  obtain ⟨es', henrolled⟩ := run_request (t := enroll) (c := used 1)
    (Function.update (fun _ => ⟨none, []⟩) "s" (used 0))
    ⟨rfl, fun _ _ _ h => (by cases h; rfl)⟩ (by decide +kernel)
  have hrun := hcreated.trans henrolled
  refine ⟨_, _, hrun, rfl, fun secret hrow => ?_⟩
  exact ((secret_accounting hrun).1 "s" secret hrow).1

end Runs

end ManagedDirectory.Rds
