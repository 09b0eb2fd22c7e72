import ManagedDirectory.Signer.Runs

/-!
# Custody of the device table

Jobs come from RDS, which the signer does not trust. Whatever they carry: the RustDesk id on file
for a device never changes, its identity key changes only by a new approval or by a request signed
with the old and the new key (`Effect.change`), and signed jobs yield passports only for devices
that are on file, under the same RustDesk id and approved (`Effect.passport_known`). The step facts
hold whether or not the job then fails.
-/

namespace ManagedDirectory.CaSigner

open Codec Lib Passport

variable {C : Crypto} {job : Job} {env : Env} {s s' : Signer} {res : Option JobResult}

/-! ## One job -/

variable {d d' : Device} {k : String}

theorem onFile_rid (h : d'.onFile = d.onFile) : d'.rid = d.rid := by
  have := congrArg Device.rid h
  exact this

theorem onFile_idk (h : d'.onFile = d.onFile) : d'.idk = d.idk := by
  have := congrArg Device.idk h
  exact this

theorem onFile_status (h : d'.onFile = d.onFile) : d'.status = d.status := by
  have := congrArg Device.status h
  exact this

theorem Quiet.device (h : Quiet env s s') (hd : s.state.devices k = some d) :
    ∃ d', s'.state.devices k = some d' ∧ d'.onFile = d.onFile := by
  have := h.onFile k
  rw [hd, Option.map_some, Option.map_eq_some_iff] at this
  exact this

/-- How one job may change the record of a device: not at all on file, by an issue job that
passed its policy, by a key update that carried both signatures, or to revoked. -/
inductive Change (C : Crypto) (job : Job) (k : String) (d d' : Device) : Prop where
  | kept (h : d'.onFile = d.onFile)
  | issued {j : IssueJob} (hkind : job.kind = "issue")
      (hjob : decodeIssueJob job.payload = some j) (hdid : j.device.did = k)
      (hrid : d.rid = j.device.rid) (hrid' : d'.rid = j.device.rid)
      (hidk : d'.idk = j.device.idk) (hstatus : d'.status = .approved)
      (hkey : d.idk ≠ j.device.idk → j.reason = "approve")
  | rekeyed {j : SignedJob} {old new : VerifyingKey C} {now : Int64} {bytes : Bytes}
      {body : KeyUpdateBody} (hkind : job.kind = "keyupdate")
      (hjob : decodeSignedJob job.payload = some j) (hdid : j.did = k)
      (hold : d.idk = b64 old.bytes)
      (hchecks : KeyUpdateChecks j.request old new now requestMaxAge bytes body)
      (h : d'.onFile = (d.rekey (b64 new.bytes) body.prot).onFile)
  | revoked {j : RevokeJob} (hkind : job.kind = "revoke")
      (hjob : decodeRevokeJob job.payload = some j) (hdid : j.did = k) (h : d' = d.revoke)

theorem change_of_issue {j : IssueJob} {x : Device} {t : Int64} (hkind : job.kind = "issue")
    (hjob : decodeIssueJob job.payload = some j)
    (hpolicy : IssuePolicy j (s.state.devices j.device.did))
    (hx : x.onFile = (issueRecord j (s.state.devices j.device.did) t).onFile)
    (hstate : s'.state = s.state.insert j.device.did x) (hd : s.state.devices k = some d) :
    ∃ d', s'.state.devices k = some d' ∧ Change C job k d d' := by
  by_cases hk : k = j.device.did
  · subst hk
    refine ⟨x, by rw [hstate, State.insert_devices_same], ?_⟩
    exact .issued hkind hjob rfl (hpolicy.rid d hd) (onFile_rid hx) (onFile_idk hx)
      (onFile_status hx) (hpolicy.key d hd)
  · exact ⟨d, by rw [hstate, State.insert_devices_of_ne _ _ hk, hd], .kept rfl⟩

theorem change_of_keyUpdate {j : SignedJob} {device : Device} {old new : VerifyingKey C}
    {bytes : Bytes} {body : KeyUpdateBody} {f : Device → Device} (hkind : job.kind = "keyupdate")
    (hjob : decodeSignedJob job.payload = some j)
    (hpassed : KeyUpdatePassed C j env s device old new bytes body)
    (hf : ∀ d, (f d).onFile = (d.rekey (b64 new.bytes) body.prot).onFile)
    (hstate : s'.state = (s.noted j.did body.nonce env.nonce).modify j.did f)
    (hd : s.state.devices k = some d) :
    ∃ d', s'.state.devices k = some d' ∧ Change C job k d d' := by
  by_cases hk : k = j.did
  · subst hk
    have hsame : device = d := by
      have := hpassed.known.found
      rw [hd, Option.some_inj] at this
      exact this.symm
    subst hsame
    refine ⟨f device, ?_, .rekeyed hkind hjob rfl hpassed.idk hpassed.checks (hf device)⟩
    rw [hstate, State.modify_devices_same, Signer.noted, State.nonceSeen_devices, hd,
      Option.map_some]
  · refine ⟨d, ?_, .kept rfl⟩
    rw [hstate, State.modify_devices_of_ne _ _ hk, Signer.noted, State.nonceSeen_devices, hd]

theorem change_of_revoke {j : RevokeJob} (hkind : job.kind = "revoke")
    (hjob : decodeRevokeJob job.payload = some j)
    (hstate : s'.state = s.state.modify j.did Device.revoke) (hd : s.state.devices k = some d) :
    ∃ d', s'.state.devices k = some d' ∧ Change C job k d d' := by
  by_cases hk : k = j.did
  · subst hk
    exact ⟨d.revoke, by rw [hstate, State.modify_devices_same, hd, Option.map_some],
      .revoked hkind hjob rfl rfl⟩
  · exact ⟨d, by rw [hstate, State.modify_devices_of_ne _ _ hk, hd], .kept rfl⟩

/-- **A record stays on file, and changes in one of four ways.** -/
theorem Effect.change (h : Effect C job env s res s') (hd : s.state.devices k = some d) :
    ∃ d', s'.state.devices k = some d' ∧ Change C job k d d' := by
  cases h with
  | quiet _ hq =>
    obtain ⟨d', hd', hfile⟩ := hq.device hd
    exact ⟨d', hd', .kept hfile⟩
  | issued hkind hjob hdone =>
    exact change_of_issue hkind hjob hdone.policy (Device.onFile_issuedAt _ _) hdone.state hd
  | issueHalf _ hkind hjob hhalf =>
    obtain ⟨x, hx, hstate⟩ := hhalf.state
    exact change_of_issue hkind hjob hhalf.policy hx hstate hd
  | renewed hkind hjob hdone =>
    rename_i j r device key bytes body
    have hf := Device.onFile_comp (Device.onFile_pruneIssues env.rate)
      (Device.onFile_issuedAt env.issue)
    have hsame := onFile_modify hf (s.noted j.did body.nonce env.nonce) j.did k
    rw [← hdone.state, Signer.noted, State.nonceSeen_devices, hd, Option.map_some,
      Option.map_eq_some_iff] at hsame
    obtain ⟨d', hd', hfile⟩ := hsame
    exact ⟨d', hd', .kept hfile⟩
  | keyUpdated hkind hjob hdone =>
    exact change_of_keyUpdate (f := Device.issuedAt _ ∘ Device.rekey _ _) hkind hjob hdone.passed
      (fun _ => rfl) hdone.state hd
  | keyUpdateHalf _ hkind hjob hhalf =>
    obtain ⟨f, hf, hstate⟩ := hhalf.state
    exact change_of_keyUpdate hkind hjob hhalf.passed hf hstate hd
  | revoked hkind hjob hdone => exact change_of_revoke hkind hjob hdone.state hd
  | revokeHalf _ hkind hjob hhalf => exact change_of_revoke hkind hjob hhalf.state hd

theorem Change.rid_eq (h : Change C job k d d') : d'.rid = d.rid := by
  cases h with
  | kept h => exact onFile_rid h
  | issued _ _ _ hrid hrid' => exact hrid'.trans hrid.symm
  | rekeyed _ _ _ _ _ h => exact (onFile_rid h).trans rfl
  | revoked _ _ _ h => rw [h]; rfl

inductive KeyChange (C : Crypto) (job : Job) (k : String) (d d' : Device) : Prop where
  | approved {j : IssueJob} (hkind : job.kind = "issue")
      (hjob : decodeIssueJob job.payload = some j) (hdid : j.device.did = k)
      (hreason : j.reason = "approve")
  | signed {j : SignedJob} {old new : VerifyingKey C} {bytes oldSig newSig : Bytes}
      (hkind : job.kind = "keyupdate") (hjob : decodeSignedJob job.payload = some j)
      (hdid : j.did = k) (hold : d.idk = b64 old.bytes) (hnew : d'.idk = b64 new.bytes)
      (hrequest : splitDots j.request = [b64 bytes, b64 oldSig, b64 newSig])
      (holdSig : C.verify old.bytes (signed keyupdateDomain bytes) oldSig = true)
      (hnewSig : C.verify new.bytes (signed keyupdateDomain bytes) newSig = true)

theorem Change.keyChange (h : Change C job k d d') (hne : d'.idk ≠ d.idk) :
    KeyChange C job k d d' := by
  cases h with
  | kept h => exact absurd (onFile_idk h) hne
  | issued hkind hjob hdid _ _ hidk _ hkey =>
    exact .approved hkind hjob hdid (hkey fun heq => hne (hidk.trans heq.symm))
  | rekeyed hkind hjob hdid hold hchecks h =>
    obtain ⟨oldSig, newSig, hrequest, holdSig, hnewSig⟩ := hchecks.carried
    exact .signed hkind hjob hdid hold ((onFile_idk h).trans rfl) hrequest holdSig hnewSig
  | revoked _ _ _ h =>
    subst h
    exact absurd rfl hne

theorem Refused.passport_none (h : Refused job s res) {r : JobResult} (hr : res = some r) :
    r.passport = none := by
  cases h with
  | answered e =>
    cases hr
    rfl
  | panicked => cases hr

theorem Effect.passport_known (h : Effect C job env s res s')
    (hkind : job.kind = "renew" ∨ job.kind = "keyupdate") {r : JobResult} (hr : res = some r)
    (hpass : r.passport ≠ none) :
    ∃ j d, decodeSignedJob job.payload = some j ∧ s.state.devices j.did = some d ∧
      d.rid = j.rid ∧ d.status = .approved := by
  cases h with
  | quiet hres | issueHalf hres | keyUpdateHalf hres | revokeHalf hres =>
    exact absurd (hres.passport_none hr) hpass
  | issued hk | revoked hk =>
    rw [hk] at hkind
    exact absurd hkind (by decide)
  | renewed _ hjob hdone =>
    exact ⟨_, _, hjob, hdone.known.found, hdone.known.rid, hdone.known.status⟩
  | keyUpdated _ hjob hdone =>
    exact ⟨_, _, hjob, hdone.passed.known.found, hdone.passed.known.rid,
      hdone.passed.known.status⟩

/-! ## Runs -/

/-- **Custody.** From any device table and over any jobs: a device on file keeps its RustDesk id,
its key changes only by an approval or under both signatures, and a renew or keyupdate job yields
a passport only for a device on file under the job's rid and approved. -/
theorem custody {s₀ : Signer} {es : List (Event Signer Processed)}
    (h : Run (JobStep C) s₀ es s) (k : String) :
    (∀ d, s₀.state.devices k = some d →
      ∃ d', s.state.devices k = some d' ∧ d'.rid = d.rid) ∧
    (∀ e ∈ es, ∀ d d', e.before.state.devices k = some d → e.after.state.devices k = some d' →
      d'.idk ≠ d.idk → KeyChange C e.label.job k d d') ∧
    (∀ e ∈ es, e.label.job.kind = "renew" ∨ e.label.job.kind = "keyupdate" →
      ∀ r, e.label.answer = some r → r.passport ≠ none →
      ∃ j d, decodeSignedJob e.label.job.payload = some j ∧ e.before.state.devices j.did = some d ∧
        d.rid = j.rid ∧ d.status = .approved) := by
  refine ⟨fun d hd => ?_, fun e he d d' hd hd' hne => ?_, fun e he hkind r hr hpass => ?_⟩
  · refine h.invariant (fun s => ∃ d', s.state.devices k = some d' ∧ d'.rid = d.rid)
      ⟨d, hd, rfl⟩ ?_
    rintro s p s' ⟨d₁, hd₁, hrid⟩ hstep
    obtain ⟨d₂, hd₂, hchange⟩ := hstep.effect.change hd₁
    exact ⟨d₂, hd₂, hchange.rid_eq.trans hrid⟩
  · obtain ⟨d₂, hd₂, hchange⟩ := (h.step_of_mem he).effect.change hd
    rw [hd', Option.some_inj] at hd₂
    subst hd₂
    exact hchange.keyChange hne
  · exact (h.step_of_mem he).effect.passport_known hkind hr hpass

open Sample in
/-- The device keeps its RustDesk id over a job that names another one. -/
theorem sample_custody :
    ∃ d', (process prefixCrypto revokeJob (envAt 1001) signer).2.state.devices
      did = some d' ∧ d'.rid = "123456789" :=
  (custody (.snoc .nil (jobStep_process prefixCrypto revokeJob (envAt 1001)
    signer)) did).1 device (State.insert_devices_same _ _ _)

end ManagedDirectory.CaSigner
