import ManagedDirectory.Signer.Runs

/-!
# Jobs that succeed

The converse of the checks: a job that meets its policy, within the device's rate and with the
disk working, is answered with `ok`, and its answer and the tables after it are known
(`Succeeds`). No other outcome is possible for it.
-/

namespace ManagedDirectory.CaSigner

open Codec Lib Passport Proc

variable {C : Crypto} {s : Signer} {env : Env} {E : Failure → Signer → Prop}

/-- The handler cannot fail; it answers `r` and leaves the tables `st`, in memory and on disk. -/
structure Succeeds (m : Handler JobResult) (s : Signer) (r : JobResult) (st : State) : Prop where
  holds : spec m s (fun r' s' => r' = r ∧ SameSetup s s' ∧ s'.state = st ∧ s'.saved = st)
    fun _ _ => False

/-! ## Handlers -/

theorem issueFor_succeeds {did kind approver : String} {days : Int64} {device : Device}
    {Q : JobResult → Signer → Prop} (hd : s.state.devices did = some device)
    (hw : Working s env) (h : Q (issuedFor C s env device days)
      (s.issued C did kind approver device (clampDays days s.cfg.maxLifetimeDays) env)) :
    spec (issueFor C did days kind approver env) s Q E :=
  spec_issueFor hd (fun _ => h) (fun hmax => absurd hmax hw.days)
    (fun e _ he => by simp [hw.append] at he) fun e _ _ he => by simp [hw.save] at he

/-- **A valid approval gets its passport.** -/
theorem handleIssue_succeeds {job : IssueJob} (checks : IssueChecks C job)
    (policy : IssuePolicy job (s.state.devices job.device.did))
    (hrate : WithinRate s job.device.did env.rate) (hw : Working s env) :
    let record := issueRecord job (s.state.devices job.device.did) env.record
    Succeeds (handleIssue C job env) s (issuedFor C s env record job.lifetimeDays)
      (s.state.insert job.device.did (record.issuedAt env.issue)) := by
  refine ⟨spec_handleIssue (fun h => absurd policy (h checks)) (fun h => absurd hrate h)
    fun _ _ _ _ _ => ?_⟩
  refine issueFor_succeeds (State.insert_devices_same _ _ _) ⟨hw.days, hw.append, hw.save⟩ fun mails => ?_
  exact ⟨rfl, ⟨rfl, rfl⟩, State.modify_insert _ _ _ _, State.modify_insert _ _ _ _⟩

/-- **A valid renewal gets its passport.** -/
theorem handleRenew_succeeds {job : SignedJob} {device : Device} {key : VerifyingKey C}
    {body : RenewBody} (accepted : RenewAccepted C job env s device key body)
    (hrate : WithinRate s job.did env.rate) (hw : Working s env) :
    Succeeds (handleRenew C job env) s (issuedFor C s env device job.lifetimeDays)
      ((s.noted job.did body.nonce env.nonce).modify job.did
        (Device.issuedAt env.issue ∘ Device.pruneIssues env.rate)) := by
  refine ⟨accepted.spec hrate (issueFor_succeeds accepted.renewing_found
    ⟨hw.days, hw.append, hw.save⟩ ?_)⟩
  exact ⟨rfl, ⟨rfl, rfl⟩, State.modify_modify _ _ _ _, State.modify_modify _ _ _ _⟩

/-- **A valid key update gets its passport**, whatever the device's rate. -/
theorem handleKeyUpdate_succeeds {job : SignedJob} {device : Device} {old new : VerifyingKey C}
    {body : KeyUpdateBody} (accepted : KeyUpdateAccepted C job env s device old new body)
    (hw : Working s env) :
    Succeeds (handleKeyUpdate C job env) s
      (issuedFor C s env (device.rekey (b64 new.bytes) body.prot) job.lifetimeDays)
      ((s.noted job.did body.nonce env.nonce).modify job.did
        (Device.issuedAt env.issue ∘ Device.rekey (b64 new.bytes) body.prot)) := by
  refine ⟨accepted.spec fun _ _ => issueFor_succeeds accepted.moving_found
    ⟨hw.days, hw.append, hw.save⟩ fun mails => ?_⟩
  exact ⟨rfl, ⟨rfl, rfl⟩, State.modify_modify _ _ _ _, State.modify_modify _ _ _ _⟩

/-- **A revocation is carried out**, also for a device that is not on file. -/
theorem handleRevoke_succeeds {job : RevokeJob}
    (hrid : ∀ d ∈ s.state.devices job.did, d.rid = job.rid)
    (happend : env.append = none) (hsave : env.save = none) :
    Succeeds (handleRevoke job env) s { JobResult.default with ok := true }
      (s.state.modify job.did Device.revoke) := by
  refine ⟨spec_mono (spec_handleRevoke job)
    (fun r s' h => ⟨h.result, h.setup, h.state, h.saved.trans h.state⟩) ?_⟩
  rintro e s' ⟨-, ⟨-, d, hd, hne⟩ | h⟩
  · exact hne (hrid d hd)
  · rcases h.cause with hc | hc
    · exact hc happend
    · exact hc hsave

/-! ## Jobs -/

theorem process_of_succeeds {job : Job} {r : JobResult} {st : State}
    (h : Succeeds (handle C job env) s r st) :
    (process C job env s).1 = some { r with id := job.id } ∧
      SameSetup s (process C job env s).2 ∧ (process C job env s).2.state = st ∧
      (process C job env s).2.saved = st := by
  obtain ⟨r', s', heq, rfl, hsetup, hstate, hsaved⟩ := exists_ok h.holds
  simp only [process, heq]
  exact ⟨trivial, hsetup, hstate, hsaved⟩

theorem jobEvent_of_succeeds {job : Job} {r : JobResult} {st : State}
    (h : Succeeds (handle C job env) s r st) :
    SameSetup s (jobEvent C job env s).after ∧ (jobEvent C job env s).after.state = st ∧
      (jobEvent C job env s).after.saved = st :=
  (process_of_succeeds h).2

section
variable {job : Job} {r : JobResult} {st : State}

theorem handle_issue_succeeds {j : IssueJob} (hkind : job.kind = "issue")
    (hjob : decodeIssueJob job.payload = some j) (h : Succeeds (handleIssue C j env) s r st) :
    Succeeds (handle C job env) s r st := handle_issue hkind hjob ▸ h

theorem handle_renew_succeeds {j : SignedJob} (hkind : job.kind = "renew")
    (hjob : decodeSignedJob job.payload = some j) (h : Succeeds (handleRenew C j env) s r st) :
    Succeeds (handle C job env) s r st := handle_renew hkind hjob ▸ h

theorem handle_keyUpdate_succeeds {j : SignedJob} (hkind : job.kind = "keyupdate")
    (hjob : decodeSignedJob job.payload = some j)
    (h : Succeeds (handleKeyUpdate C j env) s r st) : Succeeds (handle C job env) s r st :=
  handle_keyUpdate hkind hjob ▸ h

theorem handle_revoke_succeeds {j : RevokeJob} (hkind : job.kind = "revoke")
    (hjob : decodeRevokeJob job.payload = some j) (h : Succeeds (handleRevoke j env) s r st) :
    Succeeds (handle C job env) s r st := handle_revoke hkind hjob ▸ h

end

end ManagedDirectory.CaSigner
