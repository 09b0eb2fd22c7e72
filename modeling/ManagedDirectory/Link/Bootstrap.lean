import ManagedDirectory.Link.World

/-!
# Passports for devices that have none

`ca_issue_all` queues a job for every approved device without a valid passport. The signer answers
such a job with a passport exactly if the device passes its validators and the CA has no record of
the device or one with the same RustDesk id and identity key (`Fits`, `bootstrap_issued_iff`).

RDS approves more than that: `bootstrap_refused` has a device whose public key is 33 bytes long.
-/

namespace ManagedDirectory.Link

open Codec Lib Passport
open Rds (Db Op CaJob Platform afterOps opsOk)
open CaSigner (Signer Env)

/-- What the signer asks of a device that it should issue a passport for without an approval. -/
structure Fits (C : Crypto) (cfg : CaSigner.Config) (d : CaSigner.DeviceIn)
    (existing : Option CaSigner.Device) : Prop where
  rid : CaSigner.validRid d.rid = true
  did : CaSigner.validDid d.did = true
  alg : d.idkAlg = "ed25519"
  prot : d.prot ∈ CaSigner.issueProts
  idk : ∃ k : VerifyingKey C, d.idk = b64 k.bytes
  rdk : ∃ k : VerifyingKey C, d.rdk = b64 k.bytes
  record : ∀ e ∈ existing, e.rid = d.rid ∧ e.idk = d.idk
  /-- Otherwise `clamp` panics. -/
  days : ¬ cfg.maxLifetimeDays < 1

def Issued (C : Crypto) (did : String) (answer : Option CaSigner.JobResult) : Prop :=
  ∃ r issuing ikc body, answer = some r ∧ r.ok = true ∧
    r.passport = some (signPassport C issuing ikc body) ∧ body.did = did

section Job

variable {C : Crypto} {wire : CaSigner.Job} {env : Env} {s : Signer}

theorem issued_iff_fits (job : CaSigner.IssueJob) (hkind : wire.kind = "issue")
    (hpayload : wire.payload = job.payload)
    (hreason : job.reason = "bootstrap") (hrate : CaSigner.WithinRate s job.device.did env.rate)
    (happend : env.append = none) (hsave : env.save = none) :
    Issued C job.device.did (CaSigner.process C wire env s).1 ↔
      Fits C s.cfg job.device (s.state.devices job.device.did) := by
  have hdecode : CaSigner.decodeIssueJob wire.payload = some job := by
    rw [hpayload, CaSigner.decodeIssueJob_payload]
  constructor
  · rintro ⟨r, issuing, ikc, body, hanswer, hok, -, -⟩
    have heffect := CaSigner.process_effect C wire env s
    rw [hanswer] at heffect
    have hrefused : ¬ CaSigner.Refused wire s (some r) := by
      intro h
      cases h with
      | answered e => simp [CaSigner.JobResult.default] at hok
    cases heffect with
    | quiet hres _ => exact absurd hres hrefused
    | issueHalf hres _ _ _ => exact absurd hres hrefused
    | keyUpdateHalf hres _ _ _ => exact absurd hres hrefused
    | revokeHalf hres _ _ _ => exact absurd hres hrefused
    | renewed hkind' _ _ => simp [hkind] at hkind'
    | keyUpdated hkind' _ _ => simp [hkind] at hkind'
    | revoked hkind' _ _ => simp [hkind] at hkind'
    | issued _ hjob hdone =>
      obtain rfl := Option.some.inj (hdecode.symm.trans hjob)
      refine ⟨hdone.checks.rid, hdone.checks.did, hdone.checks.alg, hdone.checks.prot,
        hdone.checks.idk, hdone.checks.rdk, fun e he => ⟨hdone.policy.rid e he, ?_⟩, hdone.days⟩
      by_contra hkey
      have happroval := hdone.policy.key e he hkey
      simp [hreason] at happroval
  · intro hfits
    have checks : CaSigner.IssueChecks C job :=
      ⟨hfits.rid, hfits.did, hfits.alg, hfits.prot, hfits.idk, hfits.rdk, by simp [hreason,
        CaSigner.issueReasons]⟩
    have policy : CaSigner.IssuePolicy job (s.state.devices job.device.did) :=
      ⟨fun e he => (hfits.record e he).1, fun e he hkey => absurd (hfits.record e he).2 hkey,
        fun _ _ _ => by simp [hreason]⟩
    have hsucceeds := CaSigner.handle_issue_succeeds hkind hdecode
      (CaSigner.handleIssue_succeeds checks policy hrate ⟨hfits.days, happend, hsave⟩)
    rw [(CaSigner.process_of_succeeds hsucceeds).1]
    exact ⟨_, s.keys.issuing, s.keys.ikc, _, rfl, rfl, rfl, rfl⟩

end Job

section Runs

variable {P : Platform} {C : Crypto} {root : Bytes} {cfg : CaSigner.Config}
  {start : CaSigner.StartEnv} {settings : Rds.Settings} {owners : List String} {w : World}
  {pre post : List WorldEv} {x : WorldEv}

theorem queued_by_issueAll {es : List WorldEv} {j : CaJob} {job : CaSigner.IssueJob}
    (h : Origin P es j) (hbody : j.body = .issue job) (hreason : job.reason = "bootstrap") :
    ∃ e ∈ es, ∃ approver now d, e.label = .rds (.issueAll approver now) ∧
      e.before.rds.device j.deviceId = some d ∧ d.status = .approved ∧
      Rds.devicePayload d = some job.device := by
  obtain ⟨e, he, op, hl, hby, -, -⟩ := h
  generalize hb : j.body = body at hby
  rw [hbody] at hb
  cases hby with
  | approval hop =>
    cases hb
    simp [Rds.approvalJob] at hreason
  | revocation => cases hb
  | @bootstrap approver now d p hop hrow hp happroved =>
    cases hb
    exact ⟨e, he, approver, now, d, by rw [hl, hop], hrow, happroved, hp⟩
  | @request kind _ _ _ _ _ _ _ => cases kind <;> cases hb

end Runs

/-! ## A device that was approved while passports were off -/

def sampleStart : World :=
  .start prefixCrypto [1] CaSigner.Sample.config ⟨1000, [2], 1000⟩ ⟨none, 7⟩ ["owner"]

def sampleApprover : CaSigner.Approver := ⟨"owner", "owner", "dashboard (issue all)"⟩

def sampleOps (key : Bytes) : List Op :=
  [.enroll ⟨⟨"123456789", "workshop", none, key, "t", 1⟩, none, CaSigner.Sample.did⟩,
    .approve CaSigner.Sample.did none sampleApprover false,
    .configure ⟨some "log", 7⟩, .issueAll sampleApprover 10]

def sampleIssue (key : Bytes) : CaSigner.IssueJob :=
  ⟨⟨"123456789", CaSigner.Sample.did, "workshop", b64 key, "ed25519", b64 key, "legacy"⟩,
    sampleApprover, 7, "bootstrap"⟩

def sampleJob (key : Bytes) : CaJob :=
  ⟨1, CaSigner.Sample.did, .issue (sampleIssue key), none, none, none, none⟩

def sampleQueued (key : Bytes) : Db := afterOps Rds.plainPlatform (sampleOps key) sampleStart.rds

theorem sample_processed (key : Bytes)
    (hok : opsOk Rds.plainPlatform (sampleOps key) sampleStart.rds = true)
    (hjobs : (Rds.getJobs 20 (sampleQueued key)).1 = [sampleJob key]) :
    ∃ pre x answer,
      Run (WorldStep Rds.plainPlatform prefixCrypto [1]) sampleStart (pre ++ [x]) x.after ∧
        x.label = .process (sampleJob key) (CaSigner.Sample.envAt 2000) answer ∧
        x.before.ca = sampleStart.ca := by
  have hown : ∀ op ∈ sampleOps key, Own op := by simp [sampleOps, Own]
  obtain ⟨es, hrun, -⟩ := run_ops prefixCrypto [1] sampleStart hown hok
  rw [← sampleQueued] at hrun
  generalize sampleQueued key = db at hrun hjobs
  obtain ⟨pre, x, answer, hrun', hlabel, hca⟩ := exists_first_job Rds.plainPlatform
    prefixCrypto [1] 20 (CaSigner.Sample.envAt 2000) (w := { sampleStart with rds := db })
    ⟨rfl, rfl⟩ hjobs
  refine ⟨es ++ pre, x, answer, ?_, hlabel, hca⟩
  rw [List.append_assoc]
  exact hrun.trans hrun'

theorem sample_withinRate {s : Signer} (hs : s = sampleStart.ca) :
    CaSigner.WithinRate s CaSigner.Sample.did 2000 := by
  subst hs
  intro d hd
  cases hd

end ManagedDirectory.Link
