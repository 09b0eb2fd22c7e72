import ManagedDirectory.Signer.Handlers

/-!
# What a job does

One specification for each handler: the state after a success, with every check it passed, and
the states a failure can leave behind. Everything later is derived from these and from
`process_effect`, and no proof unfolds a handler again.
-/

namespace ManagedDirectory.CaSigner

open Codec Lib Passport Proc

variable {C : Crypto} {s : Signer} {env : Env} {E : Failure → Signer → Prop}

/-! ## Tables -/

@[simp] theorem State.modify_devices_same (st : State) (did : String) (f : Device → Device) :
    (st.modify did f).devices did = (st.devices did).map f := by
  simp [State.modify]

@[simp] theorem State.modify_devices_of_ne (st : State) {did k : String} (f : Device → Device)
    (h : k ≠ did) : (st.modify did f).devices k = st.devices k := by
  simp [State.modify, h]

@[simp] theorem State.insert_devices_same (st : State) (did : String) (d : Device) :
    (st.insert did d).devices did = some d := by
  simp [State.insert]

@[simp] theorem State.insert_devices_of_ne (st : State) {did k : String} (d : Device)
    (h : k ≠ did) : (st.insert did d).devices k = st.devices k := by
  simp [State.insert, h]

@[simp] theorem State.modify_nonces (st : State) (did : String) (f : Device → Device) :
    (st.modify did f).nonces = st.nonces := rfl

@[simp] theorem State.insert_nonces (st : State) (did : String) (d : Device) :
    (st.insert did d).nonces = st.nonces := rfl

@[simp] theorem State.insert_modify (st : State) (did : String) (f : Device → Device)
    (d : Device) : (st.modify did f).insert did d = st.insert did d := by
  simp [State.modify, State.insert]

@[simp] theorem State.modify_insert (st : State) (did : String) (f : Device → Device)
    (d : Device) : (st.insert did d).modify did f = st.insert did (f d) := by
  simp [State.modify, State.insert]

@[simp] theorem State.modify_id (st : State) (did : String) : st.modify did id = st := by
  simp [State.modify]

@[simp] theorem State.nonceSeen_devices (st : State) (did nonce : String) (t : Int64) :
    (st.nonceSeen did nonce t).2.devices = st.devices := by
  unfold State.nonceSeen
  simp only
  split_ifs <;> rfl

/-! ## Effects -/

theorem spec_check {c : Prop} [Decidable c] {error : String} {Q : Unit → Signer → Prop} :
    spec (check c error) s Q E ↔ (c → E (.refused error) s) ∧ (¬ c → Q () s) := by
  unfold check
  by_cases h : c
  · simp [spec_lift, refuseIf, h]
  · simp only [refuseIf, h, if_false, not_false_eq_true, false_implies, true_implies, true_and]
    rfl

theorem spec_checked {α : Type} {x : Except Error α} {context : String}
    {Q : α → Signer → Prop} :
    spec (checked x context) s Q E ↔
      (∀ e, x = .error e → E (.refused (context ++ e.display)) s) ∧ ∀ a, x = .ok a → Q a s := by
  unfold checked
  rw [spec_lift]
  cases x <;> simp [Except.mapError]

theorem spec_refuse {α : Type} {error : String} {Q : α → Signer → Prop} :
    spec (refuse error) s Q E ↔ E (.refused error) s := Iff.rfl

theorem spec_mail {message : String × String} {Q : Unit → Signer → Prop} :
    spec (mail message) s Q E ↔ Q () { s with mails := s.mails ++ [message] } := Iff.rfl

theorem spec_append {entry : LogEntry} {Q : Unit → Signer → Prop} :
    spec (append env entry) s Q E ↔
      (∀ e, env.append = some e → E (.refused e) s) ∧
      (env.append = none → Q () { s with log := s.log ++ [(env.logged, entry)] }) := by
  unfold append
  cases env.append <;> simp [spec_refuse]

theorem spec_save {Q : Unit → Signer → Prop} :
    spec (save env) s Q E ↔
      (∀ e, env.save = some e → E (.refused e) s) ∧
      (env.save = none → Q () { s with saved := s.state }) := by
  unfold save
  cases env.save <;> simp [spec_refuse]

theorem spec_modifyDevice {did : String} {f : Device → Device} {Q : Unit → Signer → Prop} :
    spec (modifyDevice did f) s Q E ↔ Q () { s with state := s.state.modify did f } := Iff.rfl

theorem spec_nonceSeen {did nonce : String} {t : Int64} {Q : Bool → Signer → Prop} :
    spec (nonceSeen did nonce t) s Q E ↔
      Q (s.state.nonceSeen did nonce t).1
        { s with state := (s.state.nonceSeen did nonce t).2 } := Iff.rfl

theorem spec_mailWhen {c : Bool} {message : String × String} {Q : Unit → Signer → Prop}
    (h : ∀ mails, Q () { s with mails := mails }) : spec (mailWhen c message) s Q E := by
  unfold mailWhen
  split_ifs
  · exact h _
  · exact h s.mails

def Signer.withState (s : Signer) (st : State) : Signer := { s with state := st }

theorem State.modify_of_none {st : State} {did : String} (h : st.devices did = none)
    (f : Device → Device) : st.modify did f = st := by
  unfold State.modify
  rw [h, Option.map_none, ← h, Function.update_eq_self]

/-- The device may have another passport at `t`. -/
def WithinRate (s : Signer) (did : String) (t : Int64) : Prop :=
  ∀ d ∈ s.state.devices did,
    (d.pruneIssues t).recentIssues.length < s.cfg.maxIssuesPerDeviceHour

theorem spec_rateOk {did : String} {t : Int64} {Q : Bool → Signer → Prop}
    (h : ∀ b, (b = true ↔ WithinRate s did t) →
      Q b (s.withState (s.state.modify did (Device.pruneIssues t)))) :
    spec (rateOk did t) s Q E := by
  unfold rateOk
  rw [spec_call]
  cases hd : s.state.devices did with
  | none =>
    have htrue := h true (by simp [WithinRate, hd])
    rwa [State.modify_of_none hd] at htrue
  | some d => exact h _ (by simp [WithinRate, hd])

/-! ## Issuing -/

/-- The state after a successful `issue_for`. -/
def Signer.issued (s : Signer) (C : Crypto) (did kind approver : String) (device : Device)
    (days : Int64) (env : Env) : Signer :=
  let body := passportFor s.keys device env.serial env.issue days
  let state := s.state.modify did (Device.issuedAt env.issue)
  { s with
    state := state
    saved := state
    log := s.log ++ [(env.logged, .issued kind body.rid body.did body.serial body.exp
      (fingerprint C ((unb64 body.idk).getD [])) body.prot body.ikid approver)] }

/-- The answer to a job that issued a passport for `device`. -/
def issuedFor (C : Crypto) (s : Signer) (env : Env) (device : Device) (lifetimeDays : Int64) :
    JobResult :=
  let body := passportFor s.keys device env.serial env.issue
    (clampDays lifetimeDays s.cfg.maxLifetimeDays)
  issuedResult (signPassport C s.keys.issuing s.keys.ikc body) body

structure Working (s : Signer) (env : Env) : Prop where
  days : ¬ s.cfg.maxLifetimeDays < 1
  append : env.append = none
  save : env.save = none

/-- `issue_for` for a device on file succeeds, or fails: before it changed anything, or after it
noted the issue in memory when the state file could not be written. -/
theorem spec_issueFor {did kind approver : String} {device : Device} {days : Int64}
    {Q : JobResult → Signer → Prop} (hd : s.state.devices did = some device)
    (hok : Working s env → Q (issuedFor C s env device days)
      (s.issued C did kind approver device (clampDays days s.cfg.maxLifetimeDays) env))
    (hpanic : s.cfg.maxLifetimeDays < 1 → E .panicked s)
    (happend : ∀ e, ¬ s.cfg.maxLifetimeDays < 1 → env.append = some e → E (.refused e) s)
    (hsave : ∀ e, ¬ s.cfg.maxLifetimeDays < 1 → env.append = none → env.save = some e →
      E (.refused e) { s.issued C did kind approver device
        (clampDays days s.cfg.maxLifetimeDays) env with saved := s.saved }) :
    spec (issueFor C did days kind approver env) s Q E := by
  simp only [issueFor, spec_bind, spec_read, spec_lift, spec_append, spec_modifyDevice, spec_save,
    spec_pure, refuseIf_eq_ok, refuseIf_eq_error, orRefuse_eq_ok, orRefuse_eq_error, hd,
    Option.some.injEq, forall_eq', reduceCtorEq, false_and, false_implies, implies_true, and_true]
  refine ⟨fun _ hmax => ⟨fun e he => happend e hmax he,
    fun happ => ⟨fun e he => hsave e hmax happ he, fun hsv => hok ⟨hmax, happ, hsv⟩⟩⟩, ?_⟩
  rintro _ ⟨hmax, rfl⟩
  exact hpanic hmax

@[simp] theorem State.modify_modify (st : State) (did : String) (f g : Device → Device) :
    (st.modify did f).modify did g = st.modify did (g ∘ f) := by
  simp [State.modify, Function.comp_def]

structure SameSetup (s s' : Signer) : Prop where
  cfg : s'.cfg = s.cfg
  keys : s'.keys = s.keys

def Device.onFile (d : Device) : Device := { d with lastIssued := 0, recentIssues := [] }

@[simp] theorem Device.onFile_pruneIssues (t : Int64) (d : Device) :
    (d.pruneIssues t).onFile = d.onFile := rfl

@[simp] theorem Device.onFile_issuedAt (t : Int64) (d : Device) :
    (d.issuedAt t).onFile = d.onFile := rfl

theorem Device.onFile_comp {f g : Device → Device} (hf : ∀ d, (f d).onFile = d.onFile)
    (hg : ∀ d, (g d).onFile = d.onFile) (d : Device) : ((g ∘ f) d).onFile = d.onFile :=
  (hg (f d)).trans (hf d)

/-- A job that changed nothing on file: at most issue times and the nonce list moved. -/
structure Quiet (env : Env) (s s' : Signer) : Prop where
  setup : SameSetup s s'
  saved : s'.saved = s.saved
  onFile : ∀ k, (s'.state.devices k).map Device.onFile = (s.state.devices k).map Device.onFile
  nonces : s'.state.nonces = s.state.nonces ∨
    ∃ did nonce, s'.state.nonces = (s.state.nonceSeen did nonce env.nonce).2.nonces

theorem Quiet.refl (env : Env) (s : Signer) : Quiet env s s :=
  ⟨⟨rfl, rfl⟩, rfl, fun _ => rfl, .inl rfl⟩

theorem onFile_modify {f : Device → Device} (hf : ∀ d, (f d).onFile = d.onFile) (st : State)
    (did k : String) :
    ((st.modify did f).devices k).map Device.onFile = (st.devices k).map Device.onFile := by
  by_cases hk : k = did
  · subst hk
    simp [Function.comp_def, hf]
  · rw [State.modify_devices_of_ne _ _ hk]

theorem Quiet.of_modify {env : Env} {s s' : Signer} {did : String} {f : Device → Device}
    (hf : ∀ d, (f d).onFile = d.onFile) (hsetup : SameSetup s s') (hsaved : s'.saved = s.saved)
    (hstate : s'.state = s.state.modify did f) : Quiet env s s' :=
  ⟨hsetup, hsaved, hstate ▸ onFile_modify hf _ _, .inl (by rw [hstate, State.modify_nonces])⟩

/-- The only panic is that of `clamp` with its bounds the wrong way round. -/
def PanicsOnly (s : Signer) (e : Failure) : Prop := e = .panicked → s.cfg.maxLifetimeDays < 1

theorem PanicsOnly.refused {e : String} : PanicsOnly s (.refused e) := by
  intro h
  cases h

/-! ## Issue jobs -/

/-- What `handle_issue` checks about the job alone. -/
structure IssueChecks (C : Crypto) (job : IssueJob) : Prop where
  rid : validRid job.device.rid = true
  did : validDid job.device.did = true
  alg : job.device.idkAlg = "ed25519"
  prot : job.device.prot ∈ issueProts
  idk : ∃ k : VerifyingKey C, job.device.idk = b64 k.bytes
  rdk : ∃ k : VerifyingKey C, job.device.rdk = b64 k.bytes
  reason : job.reason ∈ issueReasons

/-- The policy of `handle_issue` for a device the table already has. -/
structure IssuePolicy (job : IssueJob) (existing : Option Device) : Prop where
  rid : ∀ e ∈ existing, e.rid = job.device.rid
  key : ∀ e ∈ existing, e.idk ≠ job.device.idk → job.reason = "approve"
  revoked : ∀ e ∈ existing, e.status = .revoked → job.reason ≠ "reissue"

theorem issuePolicy_iff {job : IssueJob} {existing : Option Device} : IssuePolicy job existing ↔
    (∀ e ∈ existing, e.rid = job.device.rid) ∧
    ¬ (existing.isSome && (existing.map fun e => e.idk != job.device.idk).getD true &&
      job.reason ≠ "approve") = true ∧
    ¬ ((existing.map fun e => e.status == .revoked).getD false && job.reason = "reissue") = true := by
  have hfields : IssuePolicy job existing ↔ (∀ e ∈ existing, e.rid = job.device.rid) ∧
      (∀ e ∈ existing, e.idk ≠ job.device.idk → job.reason = "approve") ∧
      ∀ e ∈ existing, e.status = .revoked → job.reason ≠ "reissue" :=
    ⟨fun h => ⟨h.rid, h.key, h.revoked⟩, fun h => ⟨h.1, h.2.1, h.2.2⟩⟩
  rw [hfields]
  cases existing <;> simp

theorem spec_issueJobChecks {job : IssueJob} {Q : Unit → Signer → Prop}
    (hok : IssueChecks C job → Q () s) (hfail : ¬ IssueChecks C job → ∀ e, E (.refused e) s) :
    spec (issueJobChecks C job) s Q E := by
  simp only [issueJobChecks, spec_bind, spec_check, spec_checked, Bool.or_eq_true,
    Bool.not_eq_true', not_or, Bool.not_eq_false, not_not, ne_eq]
  refine ⟨fun h => hfail ?_ _, fun h1 => ⟨fun h => hfail ?_ _, fun h2 =>
    ⟨fun _ h => hfail ?_ _, fun idk hidk => ⟨fun _ h => hfail ?_ _, fun rdk hrdk =>
      ⟨fun h => hfail (fun c => h c.reason) _, fun h3 => ?_⟩⟩⟩⟩⟩
  · rintro c
    simp [c.rid, c.did] at h
  · rintro c
    simp [c.alg, c.prot] at h
  · rintro ⟨-, -, -, -, ⟨k, hk⟩, -⟩
    simp [parsePublicKey_eq_ok.mpr hk] at h
  · rintro ⟨-, -, -, -, -, ⟨k, hk⟩, -⟩
    simp [parsePublicKey_eq_ok.mpr hk] at h
  · exact hok ⟨h1.1, h1.2, h2.1, h2.2, ⟨idk, parsePublicKey_eq_ok.mp hidk⟩,
      ⟨rdk, parsePublicKey_eq_ok.mp hrdk⟩, h3⟩

theorem spec_checkRid {d : DeviceIn} {existing : Option Device} {Q : Unit → Signer → Prop}
    (hok : (∀ e ∈ existing, e.rid = d.rid) → Q () s)
    (hfail : ¬ (∀ e ∈ existing, e.rid = d.rid) →
      ∀ e mails, E (.refused e) { s with mails := mails }) :
    spec (checkRid d existing) s Q E := by
  unfold checkRid
  cases existing with
  | none => exact hok (by simp)
  | some e =>
    simp only [ne_eq, spec_ite, spec_bind, spec_mail, spec_refuse, spec_pure, not_not]
    exact ⟨fun h => hfail (by simpa using h) _ _, fun h => hok (by simpa using h)⟩

/-- `handle_issue` refuses, or it goes on with the record of the job in the table. -/
theorem spec_handleIssue {job : IssueJob} {Q : JobResult → Signer → Prop}
    (hrefused : (IssueChecks C job → ¬ IssuePolicy job (s.state.devices job.device.did)) →
      ∀ e mails, E (.refused e) { s with mails := mails })
    (hlimited : ¬ WithinRate s job.device.did env.rate → ∀ e, E (.refused e)
      (s.withState (s.state.modify job.device.did (Device.pruneIssues env.rate))))
    (hissue : IssueChecks C job → IssuePolicy job (s.state.devices job.device.did) →
      WithinRate s job.device.did env.rate → ∀ kind approver,
        spec (issueFor C job.device.did job.lifetimeDays kind approver env)
          (s.withState (s.state.insert job.device.did
            (issueRecord job (s.state.devices job.device.did) env.record)))
          (fun r s' => ∀ mails, Q r { s' with mails := mails }) E) :
    spec (handleIssue C job env) s Q E := by
  simp only [handleIssue, spec_bind]
  refine spec_issueJobChecks (fun checks => ?_) fun h e => hrefused (fun c => absurd c h) e s.mails
  rw [spec_read]
  refine spec_checkRid (fun hrid => ?_) fun h => hrefused fun _ policy => h policy.rid
  simp only [spec_check]
  refine ⟨fun h => hrefused (fun _ policy => (issuePolicy_iff.mp policy).2.1 h) _ s.mails, fun hkey =>
    ⟨fun h => hrefused (fun _ policy => (issuePolicy_iff.mp policy).2.2 h) _ s.mails, fun hrev => ?_⟩⟩
  have policy := issuePolicy_iff.mpr ⟨hrid, hkey, hrev⟩
  refine spec_rateOk fun ok hok => ⟨fun h => hlimited ?_ _, fun h => ?_⟩
  · rw [← hok]
    simpa using h
  · have hmid : (s.withState (s.state.modify job.device.did (Device.pruneIssues env.rate))).state.insert
        job.device.did = s.state.insert job.device.did := funext fun d => State.insert_modify _ _ _ _
    rw [spec_update, hmid]
    exact spec_mono (hissue checks policy (hok.mp (by simpa using h)) _ _)
      (fun r s' h => spec_mailWhen fun mails => h mails) fun _ _ h => h

structure IssueDone (C : Crypto) (job : IssueJob) (env : Env) (s s' : Signer) (r : JobResult) :
    Prop where
  setup : SameSetup s s'
  checks : IssueChecks C job
  policy : IssuePolicy job (s.state.devices job.device.did)
  days : ¬ s.cfg.maxLifetimeDays < 1
  append : env.append = none
  save : env.save = none
  state : s'.state = s.state.insert job.device.did
    ((issueRecord job (s.state.devices job.device.did) env.record).issuedAt env.issue)
  saved : s'.saved = s'.state
  result : r = issuedFor C s env (issueRecord job (s.state.devices job.device.did) env.record)
    job.lifetimeDays

/-- An issue job that wrote its record to the table in memory and failed after that. -/
structure IssueHalf (C : Crypto) (job : IssueJob) (env : Env) (s s' : Signer) : Prop where
  setup : SameSetup s s'
  checks : IssueChecks C job
  policy : IssuePolicy job (s.state.devices job.device.did)
  cause : s.cfg.maxLifetimeDays < 1 ∨ env.append ≠ none ∨ env.save ≠ none
  state : ∃ d, d.onFile = (issueRecord job (s.state.devices job.device.did) env.record).onFile ∧
    s'.state = s.state.insert job.device.did d
  saved : s'.saved = s.saved

theorem issue_ends (job : IssueJob) :
    spec (handleIssue C job env) s (fun r s' => IssueDone C job env s s' r)
      (fun e s' => PanicsOnly s e ∧ (Quiet env s s' ∨ IssueHalf C job env s s')) := by
  refine spec_handleIssue (fun _ _ _ => ⟨.refused, .inl ⟨⟨rfl, rfl⟩, rfl, fun _ => rfl, .inl rfl⟩⟩)
    (fun _ _ => ⟨.refused, .inl (.of_modify (Device.onFile_pruneIssues _) ⟨rfl, rfl⟩ rfl rfl)⟩)
    fun checks policy _ kind approver => ?_
  refine spec_issueFor (State.insert_devices_same _ _ _) ?_ ?_ ?_ ?_
  · intro hw mails
    exact ⟨⟨rfl, rfl⟩, checks, policy, hw.days, hw.append, hw.save, State.modify_insert _ _ _ _,
      rfl, rfl⟩
  · intro hmax
    exact ⟨fun _ => hmax, .inr ⟨⟨rfl, rfl⟩, checks, policy, .inl hmax, ⟨_, rfl, rfl⟩, rfl⟩⟩
  · intro e _ he
    exact ⟨.refused, .inr ⟨⟨rfl, rfl⟩, checks, policy, .inr (.inl (by simp [he])),
      ⟨_, rfl, rfl⟩, rfl⟩⟩
  · intro e _ _ he
    exact ⟨.refused, .inr ⟨⟨rfl, rfl⟩, checks, policy, .inr (.inr (by simp [he])),
      ⟨_, Device.onFile_issuedAt env.issue _, State.modify_insert _ _ _ _⟩, rfl⟩⟩

/-! ## Signed requests -/

/-- The device of a signed job is on file under its rid, and approved. -/
structure Known (job : SignedJob) (s : Signer) (device : Device) : Prop where
  found : s.state.devices job.did = some device
  rid : device.rid = job.rid
  status : device.status = .approved

theorem spec_knownApproved {job : SignedJob} {Q : Device → Signer → Prop}
    (hok : ∀ device, Known job s device → Q device s) (hfail : ∀ e, E (.refused e) s) :
    spec (knownApproved job.rid job.did) s Q E := by
  simp only [knownApproved, spec_bind, spec_read, spec_lift, spec_check, spec_pure,
    orRefuse_eq_ok, orRefuse_eq_error, not_not, ne_eq]
  refine ⟨fun device hfound => ⟨fun _ => hfail _, fun hrid => ⟨fun _ => hfail _, fun hst => ?_⟩⟩, ?_⟩
  · exact hok device ⟨hfound, hrid, hst⟩
  · rintro _ ⟨-, rfl⟩
    exact hfail _

theorem Known.spec {job : SignedJob} {device : Device} {Q : Device → Signer → Prop}
    (h : Known job s device) (hok : Q device s) : spec (knownApproved job.rid job.did) s Q E := by
  simp [knownApproved, spec_lift, spec_check, h.found, h.rid, h.status, orRefuse, hok]

theorem spec_parsed {text : String} {key : VerifyingKey C} {Q : VerifyingKey C → Signer → Prop}
    (htext : text = b64 key.bytes) (hok : Q key s) :
    spec (checked (parsePublicKey C text) "") s Q E := by
  simp [spec_checked, parsePublicKey_eq_ok.mpr htext, hok]

/-- The table and the nonces once the nonce of a request has been looked up. -/
def Signer.noted (s : Signer) (did nonce : String) (t : Int64) : State :=
  (s.state.nonceSeen did nonce t).2

theorem Quiet.of_noted {did nonce : String} {f : Device → Device} {s' : Signer}
    (hf : ∀ d, (f d).onFile = d.onFile) (hsetup : SameSetup s s') (hsaved : s'.saved = s.saved)
    (hstate : s'.state = (s.noted did nonce env.nonce).modify did f) : Quiet env s s' := by
  refine ⟨hsetup, hsaved, fun k => ?_, .inr ⟨did, nonce, ?_⟩⟩
  · rw [hstate, onFile_modify hf, Signer.noted, State.nonceSeen_devices]
  · rw [hstate, State.modify_nonces, Signer.noted]

structure RenewAccepted (C : Crypto) (job : SignedJob) (env : Env) (s : Signer) (device : Device)
    (key : VerifyingKey C) (body : RenewBody) : Prop where
  known : Known job s device
  idk : device.idk = b64 key.bytes
  verified : verifyRenew C job.request key env.fresh requestMaxAge = .ok body
  names : body.rid = job.rid ∧ body.did = job.did
  unseen : (s.state.nonceSeen job.did body.nonce env.nonce).1 = false

/-- The signer when `handle_renew` goes on to issue. -/
def Signer.renewing (s : Signer) (job : SignedJob) (body : RenewBody) (env : Env) : Signer :=
  s.withState ((s.noted job.did body.nonce env.nonce).modify job.did (Device.pruneIssues env.rate))

/-- `handle_renew` refuses, with no more than the nonce noted and old issue times dropped, or it
goes on. -/
theorem spec_handleRenew {job : SignedJob} {Q : JobResult → Signer → Prop}
    (hrefused : ∀ e, E (.refused e) s)
    (hseen : ∀ e nonce, E (.refused e) (s.withState (s.noted job.did nonce env.nonce)))
    (hlimited : ∀ e body, E (.refused e) (s.renewing job body env))
    (hissue : ∀ device key body, RenewAccepted C job env s device key body →
      WithinRate s job.did env.rate →
        spec (issueFor C job.did job.lifetimeDays "renew" "device signature" env)
          (s.renewing job body env) Q E) :
    spec (handleRenew C job env) s Q E := by
  simp only [handleRenew, spec_bind]
  refine spec_knownApproved (fun device known => ?_) hrefused
  simp only [spec_checked, spec_check, spec_nonceSeen]
  refine ⟨fun _ _ => hrefused _, fun key hkey => ⟨fun _ _ => hrefused _, fun body hbody =>
    ⟨fun _ => hrefused _, fun hnames => ⟨fun _ => hseen _ _, fun hunseen => ?_⟩⟩⟩⟩
  refine spec_rateOk fun ok hok => ⟨fun _ => hlimited _ body, fun hrate => ?_⟩
  refine hissue device key body ⟨known, parsePublicKey_eq_ok.mp hkey, hbody,
    by simpa [not_or] using hnames, by simpa using hunseen⟩ fun d hd => ?_
  exact hok.mp (by simpa using hrate) d (by simpa using hd)

theorem RenewAccepted.renewing_found {job : SignedJob} {device : Device} {key : VerifyingKey C}
    {body : RenewBody} (h : RenewAccepted C job env s device key body) :
    (s.renewing job body env).state.devices job.did = some (device.pruneIssues env.rate) := by
  simp [Signer.renewing, Signer.withState, Signer.noted, h.known.found]

theorem RenewAccepted.spec {job : SignedJob} {device : Device} {key : VerifyingKey C}
    {body : RenewBody} {Q : JobResult → Signer → Prop}
    (h : RenewAccepted C job env s device key body) (hrate : WithinRate s job.did env.rate)
    (hissue : spec (issueFor C job.did job.lifetimeDays "renew" "device signature" env)
      (s.renewing job body env) Q E) : spec (handleRenew C job env) s Q E := by
  simp only [handleRenew, spec_bind]
  refine h.known.spec (spec_parsed h.idk ?_)
  simp only [spec_checked, h.verified, spec_check, spec_nonceSeen]
  refine ⟨by simp, fun _ heq => ?_⟩
  cases heq
  refine ⟨by simp [h.names], fun _ => ⟨by simp [h.unseen], fun _ => spec_rateOk fun ok hok => ?_⟩⟩
  obtain rfl : ok = true := hok.mpr fun d hd => hrate d (by simpa using hd)
  exact ⟨by simp, fun _ => hissue⟩

structure RenewDone (C : Crypto) (job : SignedJob) (env : Env) (s s' : Signer) (r : JobResult)
    (device : Device) (key : VerifyingKey C) (bytes : Bytes) (body : RenewBody) : Prop where
  setup : SameSetup s s'
  known : Known job s device
  idk : device.idk = b64 key.bytes
  checks : RenewChecks job.request key env.fresh requestMaxAge bytes body
  names : body.rid = job.rid ∧ body.did = job.did
  unseen : (s.state.nonceSeen job.did body.nonce env.nonce).1 = false
  days : ¬ s.cfg.maxLifetimeDays < 1
  append : env.append = none
  save : env.save = none
  state : s'.state = (s.noted job.did body.nonce env.nonce).modify job.did
    (Device.issuedAt env.issue ∘ Device.pruneIssues env.rate)
  saved : s'.saved = s'.state
  result : r = issuedFor C s env device job.lifetimeDays

theorem renew_ends (job : SignedJob) :
    spec (handleRenew C job env) s
      (fun r s' => ∃ device key bytes body, RenewDone C job env s s' r device key bytes body)
      (fun e s' => PanicsOnly s e ∧ Quiet env s s') := by
  have hlimited : ∀ body, Quiet env s (s.renewing job body env) := fun body =>
    .of_noted (Device.onFile_pruneIssues env.rate) ⟨rfl, rfl⟩ rfl rfl
  refine spec_handleRenew (fun _ => ⟨.refused, .refl _ _⟩)
    (fun _ nonce => ⟨.refused, .of_noted (f := id) (fun _ => rfl) ⟨rfl, rfl⟩ rfl
      (State.modify_id _ _).symm⟩)
    (fun _ body => ⟨.refused, hlimited body⟩) fun device key body accepted _ => ?_
  obtain ⟨bytes, checks⟩ := verifyRenew_ok accepted.verified
  refine spec_issueFor accepted.renewing_found ?_ ?_ ?_ ?_
  · intro hw
    exact ⟨device, key, bytes, body, ⟨rfl, rfl⟩, accepted.known, accepted.idk, checks,
      accepted.names, accepted.unseen, hw.days, hw.append, hw.save, State.modify_modify _ _ _ _,
      rfl, rfl⟩
  · exact fun hmax => ⟨fun _ => hmax, hlimited body⟩
  · exact fun _ _ _ => ⟨.refused, hlimited body⟩
  · exact fun _ _ _ _ => ⟨.refused, .of_noted (Device.onFile_comp
      (Device.onFile_pruneIssues env.rate) (Device.onFile_issuedAt env.issue)) ⟨rfl, rfl⟩ rfl
      (State.modify_modify _ _ _ _)⟩

structure KeyUpdateAccepted (C : Crypto) (job : SignedJob) (env : Env) (s : Signer)
    (device : Device) (old new : VerifyingKey C) (body : KeyUpdateBody) : Prop where
  known : Known job s device
  idk : device.idk = b64 old.bytes
  verified : verifyKeyUpdate C job.request old env.fresh requestMaxAge = .ok (body, new)
  names : body.rid = job.rid ∧ body.did = job.did
  prot : body.prot ∈ keyUpdateProts
  unseen : (s.state.nonceSeen job.did body.nonce env.nonce).1 = false

/-- The signer when `handle_key_update` goes on to issue: the record has moved to its new key. -/
def Signer.moving (s : Signer) (job : SignedJob) (body : KeyUpdateBody) (new : VerifyingKey C)
    (env : Env) : Signer :=
  s.withState ((s.noted job.did body.nonce env.nonce).modify job.did
    (Device.rekey (b64 new.bytes) body.prot))

theorem KeyUpdateAccepted.moving_found {job : SignedJob} {device : Device} {old new : VerifyingKey C}
    {body : KeyUpdateBody} (h : KeyUpdateAccepted C job env s device old new body) :
    (s.moving job body new env).state.devices job.did =
      some (device.rekey (b64 new.bytes) body.prot) := by
  simp [Signer.moving, Signer.withState, Signer.noted, h.known.found]

theorem spec_handleKeyUpdate {job : SignedJob} {Q : JobResult → Signer → Prop}
    (hrefused : ∀ e, E (.refused e) s)
    (hseen : ∀ e nonce, E (.refused e) (s.withState (s.noted job.did nonce env.nonce)))
    (hissue : ∀ device old new body, KeyUpdateAccepted C job env s device old new body →
      ∀ kind approver, spec (issueFor C job.did job.lifetimeDays kind approver env)
        (s.moving job body new env) (fun r s' => ∀ mails, Q r { s' with mails := mails }) E) :
    spec (handleKeyUpdate C job env) s Q E := by
  simp only [handleKeyUpdate, spec_bind]
  refine spec_knownApproved (fun device known => ?_) hrefused
  simp only [spec_checked, spec_check, spec_nonceSeen, spec_modifyDevice]
  refine ⟨fun _ _ => hrefused _, fun old hold => ⟨fun _ _ => hrefused _, ?_⟩⟩
  rintro ⟨body, new⟩ hbody
  refine ⟨fun _ => hrefused _, fun hnames => ⟨fun _ => hrefused _, fun hprot =>
    ⟨fun _ => hseen _ _, fun hunseen => ?_⟩⟩⟩
  exact spec_mono (hissue device old new body ⟨known, parsePublicKey_eq_ok.mp hold, hbody,
    by simpa [not_or] using hnames, not_not.mp hprot, by simpa using hunseen⟩ _ _)
    (fun r s' h => spec_mailWhen fun mails => h mails) fun _ _ h => h

theorem KeyUpdateAccepted.spec {job : SignedJob} {device : Device} {old new : VerifyingKey C}
    {body : KeyUpdateBody} {Q : JobResult → Signer → Prop}
    (h : KeyUpdateAccepted C job env s device old new body)
    (hissue : ∀ kind approver, spec (issueFor C job.did job.lifetimeDays kind approver env)
      (s.moving job body new env) (fun r s' => ∀ mails, Q r { s' with mails := mails }) E) :
    spec (handleKeyUpdate C job env) s Q E := by
  simp only [handleKeyUpdate, spec_bind]
  refine h.known.spec (spec_parsed h.idk ?_)
  simp only [spec_checked, h.verified, spec_check, spec_nonceSeen, spec_modifyDevice]
  refine ⟨by simp, fun _ heq => ?_⟩
  cases heq
  refine ⟨by simp [h.names], fun _ => ⟨fun hprot => absurd h.prot hprot,
    fun _ => ⟨by simp [h.unseen], fun _ => ?_⟩⟩⟩
  exact spec_mono (hissue _ _) (fun r s' h => spec_mailWhen fun mails => h mails) fun _ _ h => h

structure KeyUpdatePassed (C : Crypto) (job : SignedJob) (env : Env) (s : Signer)
    (device : Device) (old new : VerifyingKey C) (bytes : Bytes) (body : KeyUpdateBody) :
    Prop where
  known : Known job s device
  idk : device.idk = b64 old.bytes
  checks : KeyUpdateChecks job.request old new env.fresh requestMaxAge bytes body
  names : body.rid = job.rid ∧ body.did = job.did
  prot : body.prot ∈ keyUpdateProts
  unseen : (s.state.nonceSeen job.did body.nonce env.nonce).1 = false

structure KeyUpdateDone (C : Crypto) (job : SignedJob) (env : Env) (s s' : Signer)
    (r : JobResult) (device : Device) (old new : VerifyingKey C) (bytes : Bytes)
    (body : KeyUpdateBody) : Prop where
  setup : SameSetup s s'
  passed : KeyUpdatePassed C job env s device old new bytes body
  days : ¬ s.cfg.maxLifetimeDays < 1
  append : env.append = none
  save : env.save = none
  state : s'.state = (s.noted job.did body.nonce env.nonce).modify job.did
    (Device.issuedAt env.issue ∘ Device.rekey (b64 new.bytes) body.prot)
  saved : s'.saved = s'.state
  result : r = issuedFor C s env (device.rekey (b64 new.bytes) body.prot) job.lifetimeDays

/-- A key update that moved the record in memory and failed after that. -/
structure KeyUpdateHalf (C : Crypto) (job : SignedJob) (env : Env) (s s' : Signer)
    (device : Device) (old new : VerifyingKey C) (bytes : Bytes) (body : KeyUpdateBody) :
    Prop where
  setup : SameSetup s s'
  passed : KeyUpdatePassed C job env s device old new bytes body
  cause : s.cfg.maxLifetimeDays < 1 ∨ env.append ≠ none ∨ env.save ≠ none
  state : ∃ f : Device → Device, (∀ d, (f d).onFile = (d.rekey (b64 new.bytes) body.prot).onFile) ∧
    s'.state = (s.noted job.did body.nonce env.nonce).modify job.did f
  saved : s'.saved = s.saved

theorem keyUpdate_ends (job : SignedJob) :
    spec (handleKeyUpdate C job env) s
      (fun r s' => ∃ device old new bytes body,
        KeyUpdateDone C job env s s' r device old new bytes body)
      (fun e s' => PanicsOnly s e ∧ (Quiet env s s' ∨
        ∃ device old new bytes body,
          KeyUpdateHalf C job env s s' device old new bytes body)) := by
  refine spec_handleKeyUpdate (fun _ => ⟨.refused, .inl (.refl _ _)⟩)
    (fun _ nonce => ⟨.refused, .inl (.of_noted (f := id) (fun _ => rfl) ⟨rfl, rfl⟩ rfl
      (State.modify_id _ _).symm)⟩) fun device old new body accepted kind approver => ?_
  obtain ⟨bytes, checks⟩ := verifyKeyUpdate_ok accepted.verified
  have passed : KeyUpdatePassed C job env s device old new bytes body :=
    ⟨accepted.known, accepted.idk, checks, accepted.names, accepted.prot, accepted.unseen⟩
  refine spec_issueFor accepted.moving_found ?_ ?_ ?_ ?_
  · intro hw mails
    exact ⟨device, old, new, bytes, body, ⟨rfl, rfl⟩, passed, hw.days, hw.append, hw.save,
      State.modify_modify _ _ _ _, rfl, rfl⟩
  · intro hmax
    exact ⟨fun _ => hmax, .inr ⟨device, old, new, bytes, body, ⟨rfl, rfl⟩, passed, .inl hmax,
      ⟨_, fun _ => rfl, rfl⟩, rfl⟩⟩
  · intro e _ he
    exact ⟨.refused, .inr ⟨device, old, new, bytes, body, ⟨rfl, rfl⟩, passed,
      .inr (.inl (by simp [he])), ⟨_, fun _ => rfl, rfl⟩, rfl⟩⟩
  · intro e _ _ he
    exact ⟨.refused, .inr ⟨device, old, new, bytes, body, ⟨rfl, rfl⟩, passed,
      .inr (.inr (by simp [he])),
      ⟨Device.issuedAt env.issue ∘ Device.rekey (b64 new.bytes) body.prot, fun _ => rfl,
        State.modify_modify _ _ _ _⟩, rfl⟩⟩

/-! ## Revocations -/

structure RevokeDone (job : RevokeJob) (env : Env) (s s' : Signer) (r : JobResult) : Prop where
  setup : SameSetup s s'
  rid : ∀ d ∈ s.state.devices job.did, d.rid = job.rid
  append : env.append = none
  save : env.save = none
  state : s'.state = s.state.modify job.did Device.revoke
  saved : s'.saved = s'.state
  result : r = { JobResult.default with ok := true }

structure RevokeHalf (job : RevokeJob) (env : Env) (s s' : Signer) : Prop where
  setup : SameSetup s s'
  rid : ∀ d ∈ s.state.devices job.did, d.rid = job.rid
  cause : env.append ≠ none ∨ env.save ≠ none
  state : s'.state = s.state.modify job.did Device.revoke
  saved : s'.saved = s.saved

theorem spec_handleRevoke (job : RevokeJob) :
    spec (handleRevoke job env) s (fun r s' => RevokeDone job env s s' r)
      (fun e s' => PanicsOnly s e ∧ (s' = s ∧ (∃ d ∈ s.state.devices job.did, d.rid ≠ job.rid) ∨
        RevokeHalf job env s s')) := by
  simp only [handleRevoke, spec_bind, spec_read, spec_check, spec_modifyDevice, spec_append,
    spec_save, spec_pure]
  refine ⟨fun hrid => ⟨.refused, .inl ⟨trivial, hrid⟩⟩, fun hrid => ?_⟩
  have hrid : ∀ d ∈ s.state.devices job.did, d.rid = job.rid := by
    intro d hd
    by_contra hne
    exact hrid ⟨d, hd, hne⟩
  refine ⟨fun e he => ⟨.refused, .inr ⟨⟨rfl, rfl⟩, hrid, .inl (by simp [he]), rfl, rfl⟩⟩,
    fun happ => ?_⟩
  refine ⟨fun e he => ⟨.refused, .inr ⟨⟨rfl, rfl⟩, hrid, .inr (by simp [he]), rfl, rfl⟩⟩,
    fun hsv => ?_⟩
  exact ⟨⟨rfl, rfl⟩, hrid, happ, hsv, rfl, rfl, rfl⟩

/-! ## Jobs -/

/-- The answer to a job that failed: an error, or none after a panic. -/
inductive Refused (job : Job) (s : Signer) : Option JobResult → Prop where
  | answered (e : String) :
    Refused job s (some { JobResult.default with id := job.id, error := some e })
  | panicked (h : s.cfg.maxLifetimeDays < 1) : Refused job s none

/-- What processing a job can do: the answer and the signer after it. -/
inductive Effect (C : Crypto) (job : Job) (env : Env) (s : Signer) :
    Option JobResult → Signer → Prop where
  | quiet {res s'} (hres : Refused job s res) (h : Quiet env s s') : Effect C job env s res s'
  | issued {j r s'} (hkind : job.kind = "issue") (hjob : decodeIssueJob job.payload = some j)
      (h : IssueDone C j env s s' r) : Effect C job env s (some { r with id := job.id }) s'
  | issueHalf {j res s'} (hres : Refused job s res) (hkind : job.kind = "issue")
      (hjob : decodeIssueJob job.payload = some j) (h : IssueHalf C j env s s') :
      Effect C job env s res s'
  | renewed {j r s' device key bytes body} (hkind : job.kind = "renew")
      (hjob : decodeSignedJob job.payload = some j)
      (h : RenewDone C j env s s' r device key bytes body) :
      Effect C job env s (some { r with id := job.id }) s'
  | keyUpdated {j r s' device old new bytes body} (hkind : job.kind = "keyupdate")
      (hjob : decodeSignedJob job.payload = some j)
      (h : KeyUpdateDone C j env s s' r device old new bytes body) :
      Effect C job env s (some { r with id := job.id }) s'
  | keyUpdateHalf {j res s' device old new bytes body} (hres : Refused job s res)
      (hkind : job.kind = "keyupdate") (hjob : decodeSignedJob job.payload = some j)
      (h : KeyUpdateHalf C j env s s' device old new bytes body) : Effect C job env s res s'
  | revoked {j r s'} (hkind : job.kind = "revoke") (hjob : decodeRevokeJob job.payload = some j)
      (h : RevokeDone j env s s' r) : Effect C job env s (some { r with id := job.id }) s'
  | revokeHalf {j res s'} (hres : Refused job s res) (hkind : job.kind = "revoke")
      (hjob : decodeRevokeJob job.payload = some j) (h : RevokeHalf j env s s') :
      Effect C job env s res s'

theorem spec_decoded {α : Type} {payload : Option α} {kind : String} {Q : α → Signer → Prop}
    (hok : ∀ a, payload = some a → Q a s) (hfail : ∀ e, E (.refused e) s) :
    spec (decoded payload kind env) s Q E := by
  simp only [decoded, spec_lift, orRefuse_eq_ok, orRefuse_eq_error]
  refine ⟨hok, ?_⟩
  rintro _ ⟨-, rfl⟩
  exact hfail _

theorem spec_handle {job : Job} {Q : JobResult → Signer → Prop} (hrefused : ∀ e, E (.refused e) s)
    (hissue : ∀ j, job.kind = "issue" → decodeIssueJob job.payload = some j →
      spec (handleIssue C j env) s Q E)
    (hrenew : ∀ j, job.kind = "renew" → decodeSignedJob job.payload = some j →
      spec (handleRenew C j env) s Q E)
    (hkey : ∀ j, job.kind = "keyupdate" → decodeSignedJob job.payload = some j →
      spec (handleKeyUpdate C j env) s Q E)
    (hrevoke : ∀ j, job.kind = "revoke" → decodeRevokeJob job.payload = some j →
      spec (handleRevoke j env) s Q E) : spec (handle C job env) s Q E := by
  unfold handle
  split_ifs with h1 h2 h3 h4
  · exact spec_bind.mpr (spec_decoded (fun j hj => hissue j h1 hj) hrefused)
  · exact spec_bind.mpr (spec_decoded (fun j hj => hrenew j h2 hj) hrefused)
  · exact spec_bind.mpr (spec_decoded (fun j hj => hkey j h3 hj) hrefused)
  · exact spec_bind.mpr (spec_decoded (fun j hj => hrevoke j h4 hj) hrefused)
  · exact hrefused _

section
variable {job : Job}

theorem handle_issue {j : IssueJob} (hkind : job.kind = "issue")
    (hjob : decodeIssueJob job.payload = some j) : handle C job env = handleIssue C j env := by
  simp only [handle, hkind, hjob]
  rfl

theorem handle_renew {j : SignedJob} (hkind : job.kind = "renew")
    (hjob : decodeSignedJob job.payload = some j) : handle C job env = handleRenew C j env := by
  simp only [handle, hkind, hjob]
  rfl

theorem handle_keyUpdate {j : SignedJob} (hkind : job.kind = "keyupdate")
    (hjob : decodeSignedJob job.payload = some j) :
    handle C job env = handleKeyUpdate C j env := by
  simp only [handle, hkind, hjob]
  rfl

theorem handle_revoke {j : RevokeJob} (hkind : job.kind = "revoke")
    (hjob : decodeRevokeJob job.payload = some j) : handle C job env = handleRevoke j env := by
  simp only [handle, hkind, hjob]
  rfl

end

/-- `R` of the answer to a job whose handler failed, and of the signer after the refusal was
logged. -/
def Settles (job : Job) (R : Option JobResult → Signer → Prop) (s' : Signer) : Failure → Prop
  | .panicked => R none s'
  | .refused e => ∀ log, s'.log <+: log →
    R (some { JobResult.default with id := job.id, error := some e }) { s' with log := log }

theorem spec_process {job : Job} {R : Option JobResult → Signer → Prop}
    (h : spec (handle C job env) s (fun r s' => R (some { r with id := job.id }) s')
      fun e s' => Settles job R s' e) :
    R (process C job env s).1 (process C job env s).2 := by
  unfold process
  rcases hh : handle C job env s with ⟨_ | r, s'⟩
  · rename_i e
    have hfail := spec_error h hh
    cases e with
    | panicked => exact hfail
    | refused e =>
      simp only
      split_ifs
      · exact hfail _ (List.prefix_append _ _)
      · exact hfail _ List.prefix_rfl
  · have hdone := spec_ok h hh
    exact hdone

theorem SameSetup.log {s s' : Signer} (h : SameSetup s s') (log : List (Int64 × LogEntry)) :
    SameSetup s { s' with log := log } := ⟨h.cfg, h.keys⟩

theorem settles_of_refused {job : Job} {R : Option JobResult → Signer → Prop} {e : Failure}
    {s' : Signer} (hp : PanicsOnly s e)
    (h : ∀ log res, Refused job s res → R res { s' with log := log }) : Settles job R s' e := by
  cases e with
  | panicked => exact h s'.log none (.panicked (hp rfl))
  | refused e => exact fun log _ => h log _ (.answered e)

/-- **Everything a job can do.** -/
theorem process_effect (C : Crypto) (job : Job) (env : Env) (s : Signer) :
    Effect C job env s (process C job env s).1 (process C job env s).2 := by
  have hquiet : ∀ {s' : Signer}, Quiet env s s' → ∀ log res, Refused job s res →
      Effect C job env s res { s' with log := log } :=
    fun h log _ hres => .quiet hres ⟨h.setup.log log, h.saved, h.onFile, h.nonces⟩
  refine spec_process (spec_handle (fun e => settles_of_refused .refused (hquiet (Quiet.refl env s)))
    (fun j hkind hj => ?_) (fun j hkind hj => ?_) (fun j hkind hj => ?_) fun j hkind hj => ?_)
  · refine spec_mono (issue_ends j) (fun r s' h => .issued hkind hj h) ?_
    rintro e s' ⟨hp, h | h⟩
    · exact settles_of_refused hp (hquiet h)
    · exact settles_of_refused hp fun log _ hres => .issueHalf hres hkind hj
        ⟨h.setup.log log, h.checks, h.policy, h.cause, h.state, h.saved⟩
  · refine spec_mono (renew_ends j) ?_ fun e s' h => settles_of_refused h.1 (hquiet h.2)
    rintro r s' ⟨device, key, bytes, body, h⟩
    exact .renewed hkind hj h
  · refine spec_mono (keyUpdate_ends j) ?_ ?_
    · rintro r s' ⟨device, old, new, bytes, body, h⟩
      exact .keyUpdated hkind hj h
    · rintro e s' ⟨hp, h | ⟨device, old, new, bytes, body, h⟩⟩
      · exact settles_of_refused hp (hquiet h)
      · exact settles_of_refused hp fun log _ hres => .keyUpdateHalf hres hkind hj
          ⟨h.setup.log log, h.passed, h.cause, h.state, h.saved⟩
  · refine spec_mono (spec_handleRevoke j) (fun r s' h => .revoked hkind hj h) ?_
    rintro e s' ⟨hp, ⟨rfl, -⟩ | h⟩
    · exact settles_of_refused hp (hquiet (Quiet.refl env _))
    · exact settles_of_refused hp fun log _ hres => .revokeHalf hres hkind hj
        ⟨h.setup.log log, h.rid, h.cause, h.state, h.saved⟩

section
variable {job : Job} {res : Option JobResult} {s' : Signer}

theorem Effect.setup (h : Effect C job env s res s') : SameSetup s s' := by
  cases h with
  | quiet _ h | issued _ _ h | issueHalf _ _ _ h | renewed _ _ h | keyUpdated _ _ h
  | keyUpdateHalf _ _ _ h | revoked _ _ h | revokeHalf _ _ _ h => exact h.setup

theorem Effect.saved (h : Effect C job env s res s') :
    s'.saved = s.saved ∨ s'.saved = s'.state := by
  cases h with
  | quiet _ h | issueHalf _ _ _ h | keyUpdateHalf _ _ _ h | revokeHalf _ _ _ h =>
    exact .inl h.saved
  | issued _ _ h | renewed _ _ h | keyUpdated _ _ h | revoked _ _ h => exact .inr h.saved

end

end ManagedDirectory.CaSigner
