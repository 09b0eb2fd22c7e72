import ManagedDirectory.Signer.Lifetime

/-!
# What a refused job leaves in memory

`handle_issue` and `handle_key_update` change the device table before `issue_for` writes the log
and the state file, and nothing takes the change back when one of these fails. A job that passes
its checks and would change a record (`WouldChange`) is then answered with an error while the
table has already moved.

`refused_unchanged_iff`: this is the only way a refused job changes a record.
-/

namespace ManagedDirectory.CaSigner

open Codec Lib Passport Proc

variable {C : Crypto} {s s' : Signer} {env : Env} {E : Failure → Signer → Prop}

/-! ## Records -/

structure Standing where
  rid : String
  idk : String
  prot : String
  status : Status
  deriving DecidableEq

def Device.standing (d : Device) : Standing := ⟨d.rid, d.idk, d.prot, d.status⟩

/-- The same devices are on file, with the same rid, key, protection and status. -/
def Unchanged (s s' : Signer) : Prop :=
  ∀ did, (s'.state.devices did).map Device.standing = (s.state.devices did).map Device.standing

theorem Unchanged.refl (s : Signer) : Unchanged s s := fun _ => rfl

theorem standing_of_onFile {d d' : Device} (h : d.onFile = d'.onFile) :
    d.standing = d'.standing := by
  have := congrArg Device.standing h
  exact this

theorem Quiet.unchanged (h : Quiet env s s') : Unchanged s s' := by
  intro did
  have hfile := congrArg (Option.map Device.standing) (h.onFile did)
  rw [Option.map_map, Option.map_map] at hfile
  exact hfile

theorem unchanged_update_iff {did : String} {d : Device}
    (h : s'.state.devices = Function.update s.state.devices did (some d)) :
    Unchanged s s' ↔ (s.state.devices did).map Device.standing = some d.standing := by
  unfold Unchanged
  rw [h]
  constructor
  · intro hall
    simpa using (hall did).symm
  · intro hsame k
    by_cases hk : k = did
    · subst hk
      simp [hsame]
    · rw [Function.update_of_ne hk]

/-! ## Failing after the checks -/

def DiskFails (env : Env) : Prop := env.append ≠ none ∨ env.save ≠ none

/-- `issue_for` for a device on file with a failing disk: refused, with no more than issue times
changed. -/
theorem issueFor_fails {did kind approver : String} {days : Int64} {device : Device}
    {Q : JobResult → Signer → Prop} (hd : s.state.devices did = some device)
    (hdays : ¬ s.cfg.maxLifetimeDays < 1) (hdisk : DiskFails env)
    (h : ∀ e s' f, (∀ d, (f d).onFile = d.onFile) → s'.state = s.state.modify did f →
      E (.refused e) s') :
    spec (issueFor C did days kind approver env) s Q E := by
  refine spec_issueFor hd (fun hw => ?_) (fun hmax => absurd hmax hdays)
    (fun e _ _ => h e s id (fun _ => rfl) (State.modify_id _ _).symm)
    fun e _ _ _ => h e _ _ (Device.onFile_issuedAt env.issue) rfl
  rcases hdisk with hne | hne
  · exact absurd hw.append hne
  · exact absurd hw.save hne

/-- `issue_for` for a device on file: the days were in order and the disk failed if it refuses, with
no more than issue times changed. -/
theorem issueFor_refused {did kind approver : String} {days : Int64} {device : Device}
    {Q : JobResult → Signer → Prop} (hd : s.state.devices did = some device)
    (hok : ∀ r s', r.ok = true → Q r s') (hpanic : E .panicked s)
    (h : ∀ e s' f, ¬ s.cfg.maxLifetimeDays < 1 → DiskFails env → (∀ d, (f d).onFile = d.onFile) →
      s'.state = s.state.modify did f → E (.refused e) s') :
    spec (issueFor C did days kind approver env) s Q E :=
  spec_issueFor hd (fun _ => hok _ _ rfl) (fun _ => hpanic)
    (fun e hdays he => h e s id hdays (.inl (by simp [he])) (fun _ => rfl)
      (State.modify_id _ _).symm)
    fun e hdays _ he => h e _ _ hdays (.inr (by simp [he])) (Device.onFile_issuedAt env.issue) rfl

/-! ## Issue jobs -/

def IssueJob.standing (job : IssueJob) : Standing :=
  ⟨job.device.rid, job.device.idk, job.device.prot, .approved⟩

theorem standing_issueRecord (job : IssueJob) (existing : Option Device) (t : Int64) :
    (issueRecord job existing t).standing = job.standing := rfl

/-- An issue job that passes every check and changes what is on file. -/
structure IssueChanges (C : Crypto) (job : IssueJob) (env : Env) (s : Signer) : Prop where
  checks : IssueChecks C job
  policy : IssuePolicy job (s.state.devices job.device.did)
  rate : WithinRate s job.device.did env.rate
  differs : (s.state.devices job.device.did).map Device.standing ≠ some job.standing

theorem unchanged_issuing_iff {job : IssueJob} {f : Device → Device}
    (hf : ∀ d, (f d).onFile = d.onFile)
    (hstate : s'.state = (s.state.insert job.device.did
      (issueRecord job (s.state.devices job.device.did) env.record)).modify job.device.did f) :
    Unchanged s s' ↔ (s.state.devices job.device.did).map Device.standing = some job.standing := by
  rw [State.modify_insert] at hstate
  rw [unchanged_update_iff (by rw [hstate, State.insert]), standing_of_onFile (hf _),
    standing_issueRecord]

theorem handleIssue_refused (job : IssueJob) :
    spec (handleIssue C job env) s (fun r _ => r.ok = true) fun e s' =>
      ∀ text, e = .refused text → Unchanged s s' ∨
        ¬ s.cfg.maxLifetimeDays < 1 ∧ IssueChanges C job env s ∧ DiskFails env := by
  have hlimited : Quiet env s (s.withState (s.state.modify job.device.did
      (Device.pruneIssues env.rate))) :=
    .of_modify (Device.onFile_pruneIssues _) ⟨rfl, rfl⟩ rfl rfl
  refine spec_handleIssue (fun _ _ _ _ _ => .inl fun _ => rfl)
    (fun _ _ _ _ => .inl hlimited.unchanged) fun checks policy hrate _ _ => ?_
  -- from here on the record is in the table
  refine issueFor_refused (State.insert_devices_same _ _ _) (fun _ _ hr _ => hr)
    (fun _ h => by cases h) fun e s' f hdays hdisk hf hstate _ _ => ?_
  by_cases hsame : (s.state.devices job.device.did).map Device.standing = some job.standing
  · exact .inl ((unchanged_issuing_iff hf hstate).mpr hsame)
  · exact .inr ⟨hdays, ⟨checks, policy, hrate, hsame⟩, hdisk⟩

theorem handleIssue_half {job : IssueJob} (hdays : ¬ s.cfg.maxLifetimeDays < 1)
    (h : IssueChanges C job env s) (hdisk : DiskFails env) :
    spec (handleIssue C job env) s (fun _ _ => False) fun e s' =>
      (∃ text, e = .refused text) ∧ ¬ Unchanged s s' := by
  refine spec_handleIssue (fun hno => absurd h.policy (hno h.checks)) (fun hno => absurd h.rate hno)
    fun _ _ _ _ _ => ?_
  refine issueFor_fails (State.insert_devices_same _ _ _) hdays hdisk fun e s' f hf hstate => ?_
  exact ⟨⟨e, rfl⟩, fun hun => h.differs ((unchanged_issuing_iff hf hstate).mp hun)⟩

/-! ## Key updates -/

/-- A key update that passes every check and moves its device to another key or protection. -/
def KeyUpdateChanges (C : Crypto) (job : SignedJob) (env : Env) (s : Signer) : Prop :=
  ∃ device old new body, KeyUpdateAccepted C job env s device old new body ∧
    (b64 new.bytes ≠ device.idk ∨ body.prot ≠ device.prot)

theorem standing_rekey_eq_iff {d : Device} {idk prot : String} :
    (d.rekey idk prot).standing = d.standing ↔ idk = d.idk ∧ prot = d.prot := by
  simp [Device.standing, Device.rekey]

theorem KeyUpdateAccepted.unchanged_iff {job : SignedJob} {device : Device}
    {old new : VerifyingKey C} {body : KeyUpdateBody} {f : Device → Device}
    (h : KeyUpdateAccepted C job env s device old new body) (hf : ∀ d, (f d).onFile = d.onFile)
    (hstate : s'.state = (s.moving job body new env).state.modify job.did f) :
    Unchanged s s' ↔ b64 new.bytes = device.idk ∧ body.prot = device.prot := by
  have hdevices : s'.state.devices = Function.update s.state.devices job.did
      (some (f (device.rekey (b64 new.bytes) body.prot))) := by
    rw [hstate, Signer.moving, Signer.withState, State.modify_modify, State.modify, Signer.noted,
      State.nonceSeen_devices, h.known.found]
    rfl
  rw [unchanged_update_iff hdevices, h.known.found, Option.map_some, Option.some.injEq,
    standing_of_onFile (hf _), eq_comm, standing_rekey_eq_iff]

theorem handleKeyUpdate_refused (job : SignedJob) :
    spec (handleKeyUpdate C job env) s (fun r _ => r.ok = true) fun e s' =>
      ∀ text, e = .refused text → Unchanged s s' ∨
        ¬ s.cfg.maxLifetimeDays < 1 ∧ KeyUpdateChanges C job env s ∧ DiskFails env := by
  refine spec_handleKeyUpdate (fun _ _ _ => .inl (Unchanged.refl s))
    (fun _ nonce _ _ => .inl fun did => ?_) fun device old new body accepted _ _ => ?_
  · rw [Signer.withState, Signer.noted, State.nonceSeen_devices]
  -- from here on the record has moved
  refine issueFor_refused accepted.moving_found (fun _ _ hr _ => hr) (fun _ h => by cases h)
    fun e s' f hdays hdisk hf hstate _ _ => ?_
  by_cases hsame : b64 new.bytes = device.idk ∧ body.prot = device.prot
  · exact .inl ((accepted.unchanged_iff hf hstate).mpr hsame)
  · exact .inr ⟨hdays, ⟨device, old, new, body, accepted, not_and_or.mp hsame⟩, hdisk⟩

theorem handleKeyUpdate_half {job : SignedJob} (hdays : ¬ s.cfg.maxLifetimeDays < 1)
    (h : KeyUpdateChanges C job env s) (hdisk : DiskFails env) :
    spec (handleKeyUpdate C job env) s (fun _ _ => False) fun e s' =>
      (∃ text, e = .refused text) ∧ ¬ Unchanged s s' := by
  obtain ⟨device, old, new, body, accepted, hdiffers⟩ := h
  refine accepted.spec fun _ _ => issueFor_fails accepted.moving_found hdays hdisk
    fun e s' f hf hstate => ⟨⟨e, rfl⟩, fun hun => ?_⟩
  exact not_and_or.mpr hdiffers ((accepted.unchanged_iff hf hstate).mp hun)

/-! ## Jobs -/

/-- The job passes every check of its handler and would change a record. -/
def WouldChange (C : Crypto) (job : Job) (env : Env) (s : Signer) : Prop :=
  (∃ j, job.kind = "issue" ∧ decodeIssueJob job.payload = some j ∧ IssueChanges C j env s) ∨
  ∃ j, job.kind = "keyupdate" ∧ decodeSignedJob job.payload = some j ∧ KeyUpdateChanges C j env s

theorem handle_refused {job : Job} (hkind : job.kind ∈ ["issue", "renew", "keyupdate"]) :
    spec (handle C job env) s (fun r _ => r.ok = true) fun e s' =>
      ∀ text, e = .refused text → Unchanged s s' ∨
        ¬ s.cfg.maxLifetimeDays < 1 ∧ WouldChange C job env s ∧ DiskFails env := by
  refine spec_handle (fun _ _ _ => .inl (Unchanged.refl s)) (fun j hk hj => ?_) (fun j hk hj => ?_)
    (fun j hk hj => ?_) fun j hk hj => ?_
  · refine spec_mono (handleIssue_refused j) (fun _ _ h => h) fun e s' h text he => ?_
    exact (h text he).imp_right fun hc => ⟨hc.1, .inl ⟨j, hk, hj, hc.2.1⟩, hc.2.2⟩
  · refine spec_mono (renew_ends j) ?_ fun e s' h _ _ => .inl h.2.unchanged
    rintro r s' ⟨device, key, bytes, body, h⟩
    rw [h.result]
    rfl
  · refine spec_mono (handleKeyUpdate_refused j) (fun _ _ h => h) fun e s' h text he => ?_
    exact (h text he).imp_right fun hc => ⟨hc.1, .inr ⟨j, hk, hj, hc.2.1⟩, hc.2.2⟩
  · simp [hk] at hkind

theorem process_half {job : Job} (hdays : ¬ s.cfg.maxLifetimeDays < 1)
    (h : WouldChange C job env s) (hdisk : DiskFails env) :
    ∃ r, (process C job env s).1 = some r ∧ r.ok = false ∧
      ¬ Unchanged s (process C job env s).2 := by
  have hhalf : spec (handle C job env) s (fun _ _ => False) fun e s' =>
      (∃ text, e = .refused text) ∧ ¬ Unchanged s s' := by
    rcases h with ⟨j, hkind, hj, h⟩ | ⟨j, hkind, hj, h⟩
    · exact handle_issue hkind hj ▸ handleIssue_half hdays h hdisk
    · exact handle_keyUpdate hkind hj ▸ handleKeyUpdate_half hdays h hdisk
  refine spec_process (R := fun res s' => ∃ r, res = some r ∧ r.ok = false ∧ ¬ Unchanged s s')
    (spec_mono hhalf (fun _ _ h => h.elim) ?_)
  -- the log entry of the refusal changes no record
  rintro _ s' ⟨⟨text, rfl⟩, hchanged⟩ log -
  exact ⟨_, rfl, rfl, hchanged⟩

/-- **A refused job leaves every record as it was, unless it passed its checks, would change a
record and the log or the state file could not be written.** -/
theorem refused_unchanged_iff {job : Job} (hkind : job.kind ∈ ["issue", "renew", "keyupdate"]) :
    (∀ r, (process C job env s).1 = some r → r.ok = false →
      Unchanged s (process C job env s).2) ↔
    (¬ s.cfg.maxLifetimeDays < 1 → WouldChange C job env s →
      env.append = none ∧ env.save = none) := by
  constructor
  · intro h hdays hchange
    by_contra hdisk
    obtain ⟨r, hr, hok, hchanged⟩ := process_half hdays hchange (not_and_or.mp hdisk)
    exact hchanged (h r hr hok)
  · intro h
    refine spec_process (R := fun res s' => ∀ r, res = some r → r.ok = false → Unchanged s s')
      (spec_mono (handle_refused hkind) (fun r s' hok => ?_) fun e s' hfail => ?_)
    · rintro _ ⟨⟩ hfalse
      exact absurd hok (by simpa using hfalse)
    · cases e with
      | panicked =>
        rintro r ⟨⟩
      | refused text =>
        intro log _ r _ _
        rcases hfail text rfl with hun | ⟨hdays, hchange, hdisk⟩
        · exact hun
        · exact absurd (h hdays hchange) (not_and_or.mpr hdisk)

namespace Sample

def fullDisk : Env := { envAt 1000 with append := some "No space left on device" }

def newSigner : Signer := { signer with state := State.empty, saved := State.empty }

theorem approve_changes : WouldChange prefixCrypto approveJob fullDisk newSigner := by
  refine .inl ⟨issueJob, rfl, decodeIssueJob_payload issueJob, issueChecks, ?_, ?_, ?_⟩
  · constructor <;> simp [newSigner, State.empty]
  · intro d hd
    cases hd
  · simp [newSigner, State.empty]

end Sample

open Sample in
/-- A device that is on file as the job has it is not changed by an approval that finds the disk
full. -/
theorem sample_refused_unchanged :
    fullDisk.append ≠ none ∧
      ∀ r, (process prefixCrypto approveJob fullDisk signer).1 = some r →
        r.ok = false →
        Unchanged signer
          (process prefixCrypto approveJob fullDisk signer).2 := by
  refine ⟨by simp [fullDisk], (refused_unchanged_iff (by decide)).mpr fun _ hchange => ?_⟩
  rcases hchange with ⟨j, -, hj, h⟩ | ⟨j, hkind, -⟩
  · rw [show decodeIssueJob approveJob.payload = some issueJob from
      decodeIssueJob_payload issueJob] at hj
    cases hj
    exact absurd rfl h.differs
  · exact absurd hkind (by decide)

open Sample in
/-- A first approval that finds the disk full is refused, but the device is now on file. -/
theorem refused_device_on_file :
    ∃ r, (process prefixCrypto approveJob fullDisk newSigner).1 = some r ∧
      r.ok = false ∧
      ¬ Unchanged newSigner
        (process prefixCrypto approveJob fullDisk newSigner).2 :=
  process_half (by decide) approve_changes (.inl (by simp [fullDisk]))

end ManagedDirectory.CaSigner
