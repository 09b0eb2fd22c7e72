import ManagedDirectory.Link.Batches
import ManagedDirectory.Link.PassportAnswers

/-!
# After a revocation

RDS hands out a job again when two minutes pass without an answer, whatever came after it. An issue
job whose answer was lost can so reach the signer after the revocation that followed it, and the
device is approved again: `redelivered_issue_approves`.

`revoked_before_issue`: this is the only way. As long as no poll hands out an issue job after a
later revoke job of its device, or a signed request of a device that is approved again, no older
job approves the device or yields a passport once the revoke job was processed.
-/

namespace ManagedDirectory.Link

open Codec Lib Passport List
open Rds (Db Op CaJob Platform JobBody)
open CaSigner (Signer Env)

variable {P : Platform} {C : Crypto} {root : Bytes} {w w' : World} {l : Label} {i j r : CaJob}

/-- A revoke job of the device that was queued later has been handed out. -/
def Overtaken (db : Db) (i : CaJob) : Prop :=
  ∃ r, db.job r.id = some r ∧ r.deviceId = i.deviceId ∧ (∃ job, r.body = .revoke job) ∧
    i.id < r.id ∧ r.pickedAt ≠ none

/-- The signer will not issue a passport for the job: it is a revocation, or a signed request of a
device that is not approved. -/
def CannotIssue (ca : Signer) (i : CaJob) : Prop :=
  match i.body with
  | .issue _ => False
  | .renew _ _ | .keyupdate _ _ => ¬ ca.state.Approved i.deviceId
  | .revoke _ => True

/-- No poll hands out an overtaken job for which a passport may be issued. -/
def KeepsOrder (e : WorldEv) : Prop :=
  ∀ now arrived, e.label = .poll now arrived → ∀ i ∈ e.before.rds.dueJobs now,
    Overtaken e.before.rds i → CannotIssue e.before.ca i

/-! ## One job -/

theorem approved_of_process {env : Env} {s : Signer} {k : String}
    (hdid : bodyDid j.body = j.deviceId)
    (h : (CaSigner.process C (wireJob j) env s).2.state.Approved k) :
    s.state.Approved k ∨ j.deviceId = k ∧ ∃ job, j.body = .issue job := by
  refine (CaSigner.approved_of_effect (CaSigner.process_effect C _ env s) h).imp_right ?_
  rintro ⟨job, hkind, hjob, rfl⟩
  rw [← hdid]
  generalize hbody : j.body = body
  simp only [wireJob, hbody] at hkind hjob
  cases body with
  | issue job' =>
    obtain rfl := Option.some.inj ((CaSigner.decodeIssueJob_payload job').symm.trans hjob)
    exact ⟨rfl, job', rfl⟩
  | renew | keyupdate | revoke => simp [JobBody.kind] at hkind

theorem answer_of_cannotIssue (C : Crypto) {s : Signer} (hdid : bodyDid j.body = j.deviceId)
    (h : CannotIssue s j) (env : Env) :
    ∃ a, (CaSigner.process C (wireJob j) env s).1 = some a ∧ a.passport = none := by
  have hsigned : ∀ {job : CaSigner.SignedJob}, job.did = j.deviceId →
      ¬ s.state.Approved j.deviceId →
      (wireJob j).kind = "renew" ∨ (wireJob j).kind = "keyupdate" →
      CaSigner.decodeSignedJob (wireJob j).payload = some job →
      ∃ a, (CaSigner.process C (wireJob j) env s).1 = some a ∧ a.passport = none := by
    intro job hjob hnot hkind hpayload
    rw [← hjob] at hnot
    obtain ⟨a, hanswer, hnone, -⟩ := CaSigner.process_unapproved hkind hpayload hnot
    exact ⟨a, hanswer, hnone⟩
  generalize hbody : j.body = body at hdid
  simp only [CannotIssue, hbody] at h
  cases body with
  | issue => exact h.elim
  | renew job expected =>
    exact hsigned hdid h (.inl (by simp [wireJob, hbody, JobBody.kind]))
      (by simp [wireJob, hbody, JobBody.payload])
  | keyupdate job expected =>
    exact hsigned hdid h (.inr (by simp [wireJob, hbody, JobBody.kind]))
      (by simp [wireJob, hbody, JobBody.payload])
  | revoke => exact CaSigner.process_revoke (by simp [wireJob, hbody, JobBody.kind])

theorem not_issue_of_cannotIssue {s : Signer} (h : CannotIssue s j) :
    ¬ ∃ job, j.body = .issue job := by
  rintro ⟨job, hbody⟩
  simp [CannotIssue, hbody] at h

theorem CannotIssue.mono {s s' : Signer} (h : CannotIssue s i)
    (hmono : s'.state.Approved i.deviceId → s.state.Approved i.deviceId) : CannotIssue s' i := by
  unfold CannotIssue at h ⊢
  split at h
  · exact h
  · exact fun h' => h (hmono h')
  · exact fun h' => h (hmono h')
  · trivial

/-! ## Runs -/

/-- Where things stand once revoke job `r` was processed. -/
structure AfterRevoke (r : CaJob) (w : World) : Prop where
  tidy : Tidy w
  handed : HandedOut w.rds r
  older : ∀ i ∈ w.inbox, i.deviceId = r.deviceId → i.id < r.id → CannotIssue w.ca i

theorem afterRevoke_of_process {env : Env} {answer : Option CaSigner.JobResult} (h : Tidy w)
    (hstep : WorldStep P C root w (.process r env answer) w') : AfterRevoke r w' := by
  have hhanded := h.handed r (process_of_step hstep).1
  refine ⟨h.step hstep, hhanded.worldStep hstep, ?_⟩
  cases hstep with
  | process hinbox _ =>
    have hsorted := h.sorted
    rw [hinbox, pairwise_cons] at hsorted
    exact fun i hi _ hlt => absurd (hsorted.1 i hi) (Nat.lt_asymm hlt)
  | panic => simp

theorem AfterRevoke.polled {now : Int} {arrived : Bool} {job : CaSigner.RevokeJob}
    (h : AfterRevoke r w) (hrevoke : r.body = .revoke job)
    (horder : KeepsOrder ⟨w, .poll now arrived, w'⟩) (hi : i ∈ w.rds.dueJobs now)
    (hdid : i.deviceId = r.deviceId) (hlt : i.id < r.id) : CannotIssue w.ca i := by
  refine horder now arrived rfl i hi ?_
  have hthere := h.handed.there (Rds.mem_dueJobs hi).1 hdid (Nat.le_of_lt hlt)
  obtain ⟨r', hr'⟩ := Option.isSome_iff_exists.mp hthere
  obtain ⟨hdid', hbody, hpicked⟩ := h.handed.row hr'
  have hid : r'.id = r.id := Table.key_of_find hr'
  exact ⟨r', hid ▸ hr', hdid'.trans hdid.symm, ⟨job, hbody.trans hrevoke⟩, hid ▸ hlt, hpicked⟩

theorem AfterRevoke.step {job : CaSigner.RevokeJob} (h : AfterRevoke r w)
    (hrevoke : r.body = .revoke job) (hstep : WorldStep P C root w l w')
    (horder : KeepsOrder ⟨w, l, w'⟩) : AfterRevoke r w' := by
  refine ⟨h.tidy.step hstep, h.handed.worldStep hstep, ?_⟩
  cases hstep with
  | rds => exact h.older
  | @poll now arrived _ =>
    cases arrived with
    | false => simp
    | true => exact fun i hi hdid hlt => h.polled hrevoke horder hi hdid hlt
  | @process j rest env a ca hinbox hprocess =>
    intro i hi hdid hlt
    have hj : j ∈ w.inbox := hinbox ▸ mem_cons_self
    have hsorted := h.tidy.sorted
    rw [hinbox, pairwise_cons] at hsorted
    have hi' := h.older i (hinbox ▸ mem_cons_of_mem _ hi) hdid hlt
    refine hi'.mono fun happroved => ?_
    -- `j` comes before `i` in the batch, so if it is for the device it cannot issue either
    have hca : ca = (CaSigner.process C (wireJob j) env w.ca).2 := by rw [hprocess]
    rw [hca] at happroved
    rcases approved_of_process (h.tidy.jobs j hj) happroved with hbefore | ⟨hsame, hissue⟩
    · exact hbefore
    · have hcannot := h.older j hj (hsame.trans hdid) (Nat.lt_trans (hsorted.1 i hi) hlt)
      exact absurd hissue (not_issue_of_cannotIssue hcannot)
  | panic | restart => simp
  | post | postLost => exact h.older
  | rotate hidle =>
    rw [hidle.1]
    simp

/-! ## A device that is blocked while a job of it waits -/

namespace RevokedSample

open Rds (afterOps opsOk plainPlatform)
open CaSigner.Sample (did envAt)

def renewOps : List Op :=
  [.enroll ⟨⟨"123456789", "workshop", none, firstBytes 32 [3], "t", 1⟩, none, did⟩,
    .approve did none sampleApprover false, .configure ⟨some "log", 7⟩,
    .request did .renew "renewal-request" 2]

def revokeIn : CaSigner.RevokeJob := ⟨"123456789", did, "blocked"⟩

def revokeJob (id : Nat) (picked : Option Int) : CaJob :=
  ⟨id, did, .revoke revokeIn, picked, none, none, none⟩

def renewJob : CaJob :=
  ⟨1, did, .renew ⟨"123456789", did, "renewal-request", 7⟩ ⟨b64 (firstBytes 32 [3]), "legacy"⟩,
    some 20, none, none, none⟩

def blockedDb : Db :=
  afterOps plainPlatform (renewOps ++ [.poll 20, .changeStatus did .blocked false]) sampleStart.rds

theorem jobs_blockedDb : (Rds.getJobs 21 blockedDb).1 = [revokeJob 2 none] := rfl

def polledDb : Db := (Rds.getJobs 21 blockedDb).2

theorem run_polled : ∃ es, Run (WorldStep plainPlatform prefixCrypto [1]) sampleStart es
    ⟨polledDb, sampleStart.ca, [revokeJob 2 none], []⟩ := by
  have hown : ∀ op ∈ renewOps, Own op := by simp [renewOps, Own]
  obtain ⟨es, hops, -⟩ := run_ops prefixCrypto [1] sampleStart hown
    (show opsOk plainPlatform renewOps sampleStart.rds = true from rfl)
  have hlost := hops.snoc (poll_lost_step 20 ⟨rfl, rfl⟩)
  have hblock : WorldStep plainPlatform prefixCrypto [1]
      ⟨(Rds.getJobs 20 (afterOps plainPlatform renewOps sampleStart.rds)).2, sampleStart.ca, [], []⟩
      (.rds (.changeStatus did .blocked false)) ⟨blockedDb, sampleStart.ca, [], []⟩ :=
    .rds trivial rfl
  exact ⟨_, (hlost.snoc hblock).snoc (poll_step 21 ⟨rfl, rfl⟩ jobs_blockedDb)⟩

theorem jobs_polledDb :
    (Rds.getJobs 120000022 polledDb).1 = [renewJob, revokeJob 2 (some 21)] := rfl

theorem revoke_succeeds {s : Signer} (id : Nat) (picked : Option Int) (env : Env)
    (hrid : ∀ d ∈ s.state.devices did, d.rid = "123456789") (happend : env.append = none)
    (hsave : env.save = none) :
    CaSigner.Succeeds (CaSigner.handle prefixCrypto (wireJob (revokeJob id picked)) env) s
      { CaSigner.JobResult.default with ok := true }
      (s.state.modify did CaSigner.Device.revoke) :=
  CaSigner.handle_revoke_succeeds rfl (CaSigner.decodeRevokeJob_payload revokeIn)
    (CaSigner.handleRevoke_succeeds hrid happend hsave)

def revokeAnswer : CaSigner.JobResult := { CaSigner.JobResult.default with id := 2, ok := true }

theorem revoke_step (db : Db) {s : Signer}
    (hrid : ∀ d ∈ s.state.devices did, d.rid = "123456789") :
    ∃ ca, CaSigner.SameSetup s ca ∧ ca.state = s.state.modify did CaSigner.Device.revoke ∧
      WorldStep plainPlatform prefixCrypto [1] ⟨db, s, [revokeJob 2 none], []⟩
        (.process (revokeJob 2 none) (envAt 1000) (some revokeAnswer))
        ⟨db, ca, [], [revokeAnswer]⟩ := by
  obtain ⟨ca, hsetup, hstate, -, hstep⟩ := @process_step plainPlatform prefixCrypto [1]
    ⟨db, s, [revokeJob 2 none], []⟩ _ _ _ _ _ rfl
    (revoke_succeeds 2 none (envAt 1000) hrid rfl rfl)
  exact ⟨ca, hsetup, hstate, hstep⟩

/-! An issue job whose answer is lost -/

def queuedDb : Db := afterOps plainPlatform (LoweredSample.approveOps.take 3) sampleStart.rds

def issueDue : CaJob := { LoweredSample.issueJob with pickedAt := none }

theorem jobs_queuedDb : (Rds.getJobs 20 queuedDb).1 = [issueDue] := rfl

def lostDb : Db :=
  afterOps plainPlatform [.changeStatus did .blocked false] LoweredSample.approvedDb

theorem jobs_lostDb : (Rds.getJobs 21 lostDb).1 = [revokeJob 2 none] := rfl

def revokedDb : Db := (Rds.getJobs 21 lostDb).2

def answeredDb : Db := revokedDb.answer 2 22 true none

theorem post_revokedDb :
    Rds.postResults plainPlatform [.ofSigner revokeAnswer] 22 revokedDb = .ok answeredDb := rfl

theorem jobs_answeredDb :
    (Rds.getJobs 120000022 answeredDb).1 = [LoweredSample.issueJob] := rfl

def revokedRecord : CaSigner.Device := (LoweredSample.record.issuedAt 1000).revoke

theorem issue_again {s : Signer} (hsetup : s.cfg = sampleStart.ca.cfg)
    (hd : s.state.devices did = some revokedRecord) :
    ∃ a st, CaSigner.Succeeds
      (CaSigner.handle prefixCrypto (wireJob LoweredSample.issueJob) (envAt 2000)) s a st ∧
        a.ok = true ∧ a.passport ≠ none ∧ st.Approved did := by
  have policy : CaSigner.IssuePolicy LoweredSample.issueIn (s.state.devices did) := by
    rw [hd]
    refine ⟨fun e he => ?_, fun e he hne => ?_, fun _ _ _ => by decide⟩
    · cases he
      rfl
    · cases he
      exact absurd rfl hne
  have hrate : CaSigner.WithinRate s did (envAt 2000).rate := by
    intro d hd'
    obtain rfl := Option.some.inj (hd.symm.trans hd')
    rw [hsetup]
    decide
  have hdays : ¬ s.cfg.maxLifetimeDays < 1 := by
    rw [hsetup]
    decide
  have hissued := CaSigner.handleIssue_succeeds LoweredSample.issueIn_checks policy hrate
    ⟨hdays, rfl, rfl⟩
  refine ⟨_, _, CaSigner.handle_issue_succeeds rfl
    (CaSigner.decodeIssueJob_payload LoweredSample.issueIn) hissued, rfl, by simp [CaSigner.issuedFor,
      CaSigner.issuedResult], _, CaSigner.State.insert_devices_same _ _ _, rfl⟩

end RevokedSample

/-! ## The rule -/

/-- **Once a revoke job was processed, no older job of the device approves it or gets a passport**,
as long as no poll hands out an overtaken job for which one may be issued. -/
theorem revoked_before_issue {cfg : CaSigner.Config} {start : CaSigner.StartEnv}
    {settings : Rds.Settings} {owners : List String} {pre mid post : List WorldEv} {x y : WorldEv}
    {job : CaSigner.RevokeJob} {env env' : Env} {answer answer' : Option CaSigner.JobResult}
    (h : Run (WorldStep P C root) (.start C root cfg start settings owners)
      (pre ++ x :: (mid ++ y :: post)) w)
    (horder : ∀ e ∈ mid, KeepsOrder e) (hx : x.label = .process r env answer)
    (hrevoke : r.body = .revoke job) (hy : y.label = .process i env' answer')
    (hdid : i.deviceId = r.deviceId) (hlt : i.id < r.id) :
    (y.after.ca.state.Approved r.deviceId → y.before.ca.state.Approved r.deviceId) ∧
      ∀ a, answer' = some a → a.passport = none := by
  obtain ⟨hpre, hxstep, hrest⟩ := h.split
  obtain ⟨hmid, hystep, -⟩ := hrest.split
  rw [hx] at hxstep
  have htidy : Tidy x.before := tidy_of_run hpre (Tidy.start C root cfg start settings owners)
  have hbefore : AfterRevoke r y.before :=
    (hmid.restrict horder).invariant (AfterRevoke r) (afterRevoke_of_process htidy hxstep)
      fun hinv hs => hinv.step hrevoke hs.1 hs.2
  rw [hy] at hystep
  obtain ⟨hinbox, hanswer⟩ := process_of_step hystep
  have hcannot := hbefore.older i hinbox hdid hlt
  have hname := hbefore.tidy.jobs i hinbox
  obtain ⟨a, ha, hnone⟩ := answer_of_cannotIssue C hname hcannot env'
  obtain rfl : some a = answer' := ha.symm.trans hanswer
  refine ⟨fun happroved => ?_, fun b hb => Option.some.inj hb ▸ hnone⟩
  generalize hw : y.after = after at hystep happroved
  cases hystep with
  | process _ hprocess =>
    have hstate := congrArg (fun p => p.2.state) hprocess
    simp only at hstate happroved
    rw [← hstate] at happroved
    rcases approved_of_process hname happroved with hold | ⟨-, hissue⟩
    · exact hold
    · exact absurd hissue (not_issue_of_cannotIssue hcannot)

open RevokedSample in
open CaSigner.Sample in
/-- A renewal that is handed out again after the revocation gets no passport. -/
theorem overtaken_renewal_refused : ∃ pre x mid y answer answer',
    Run (WorldStep Rds.plainPlatform prefixCrypto [1]) sampleStart (pre ++ x :: (mid ++ [y]))
        y.after ∧
      x.label = .process (revokeJob 2 none) (envAt 1000) answer ∧
      y.label = .process renewJob (envAt 2000) answer' ∧
      ∀ a, answer' = some a → a.passport = none := by
  obtain ⟨es, hpre⟩ := run_polled
  -- the revocation finds no record
  have hnone : sampleStart.ca.state.devices did = none := rfl
  obtain ⟨ca, -, hstate, hrevoke⟩ := revoke_step polledDb
    (show ∀ d ∈ sampleStart.ca.state.devices did, d.rid = "123456789" by
      simp [hnone])
  have hnot : ¬ ca.state.Approved did := by
    rintro ⟨d, hd, -⟩
    rw [hstate, CaSigner.State.modify_devices_same, hnone] at hd
    cases hd
  have hlost : WorldStep Rds.plainPlatform prefixCrypto [1]
      ⟨polledDb, ca, [], [revokeAnswer]⟩ (.post 22 false)
      ⟨polledDb, ca, [], []⟩ := .postLost rfl (by simp)
  have hagain : WorldStep Rds.plainPlatform prefixCrypto [1] ⟨polledDb, ca, [], []⟩
      (.poll 120000022 true) _ := poll_step 120000022 ⟨rfl, rfl⟩ jobs_polledDb
  obtain ⟨answer', w', hrenew⟩ := @exists_process_step Rds.plainPlatform prefixCrypto [1]
    ⟨(Rds.getJobs 120000022 polledDb).2, ca,
      [renewJob, revokeJob 2 (some 21)], []⟩ _ _
    (envAt 2000) rfl
  have hrun := ((((hpre.snoc hrevoke).snoc hlost).snoc hagain).snoc hrenew)
  simp only [append_assoc, cons_append, nil_append] at hrun
  have horder : KeepsOrder ⟨⟨polledDb, ca, [], []⟩, .poll 120000022 true,
      ⟨(Rds.getJobs 120000022 polledDb).2, ca,
        [renewJob, revokeJob 2 (some 21)], []⟩⟩ := by
    intro now arrived hlabel i hi _
    cases hlabel
    have hdue : polledDb.dueJobs 120000022 = _ := jobs_polledDb
    rw [hdue] at hi
    rcases mem_pair.mp hi with rfl | rfl
    · exact hnot
    · trivial
  refine ⟨es, _, [_, _], _, _, answer', hrun, rfl, rfl, ?_⟩
  refine (revoked_before_issue (r := revokeJob 2 none) (i := renewJob)
    (show Run _ _ (es ++ _ :: ([_, _] ++ _ :: [])) _ from hrun) (fun e he => ?_) rfl rfl rfl rfl
    (by decide)).2
  rcases mem_pair.mp he with rfl | rfl
  · intro now arrived hlabel
    cases hlabel
  · exact horder

open RevokedSample in
open CaSigner.Sample in
/-- An issue job is processed and its answer lost. The device is blocked, the revocation is carried
out and RDS knows it. Two minutes later the issue job is handed out again: the signer approves the
device and issues a passport. -/
theorem redelivered_issue_approves : ∃ pre x mid y r i a a',
    Run (WorldStep Rds.plainPlatform prefixCrypto [1]) sampleStart (pre ++ x :: (mid ++ [y]))
        y.after ∧
      x.label = .process r (envAt 1000) (some a) ∧ a.ok = true ∧
      (∃ job, r.body = .revoke job) ∧
      y.label = .process i (envAt 2000) (some a') ∧
      i.deviceId = r.deviceId ∧ i.id < r.id ∧
      ¬ y.before.ca.state.Approved r.deviceId ∧ y.after.ca.state.Approved r.deviceId ∧
      a'.passport ≠ none := by
  have hown : ∀ op ∈ LoweredSample.approveOps.take 3, Own op := by
    simp [LoweredSample.approveOps, Own]
  obtain ⟨es, hops, -⟩ := run_ops prefixCrypto [1] sampleStart hown
    (show Rds.opsOk Rds.plainPlatform (LoweredSample.approveOps.take 3) sampleStart.rds = true
      from rfl)
  have hpoll := hops.snoc (poll_step 20 ⟨rfl, rfl⟩ jobs_queuedDb)
  -- the passport is issued, and its answer lost
  obtain ⟨ca, hsetup, hstate, -, hissue⟩ := @process_step Rds.plainPlatform prefixCrypto [1]
    ⟨LoweredSample.approvedDb, sampleStart.ca, [issueDue], []⟩ _ _ _ _ _ rfl
    LoweredSample.issue_succeeds
  have hlost : ∀ answers ≠ [], WorldStep Rds.plainPlatform prefixCrypto [1]
      ⟨LoweredSample.approvedDb, ca, [], answers⟩ (.post 20 false)
      ⟨LoweredSample.approvedDb, ca, [], []⟩ := fun _ hsome => .postLost rfl hsome
  have hfirst := (hpoll.snoc hissue).snoc (hlost _ (cons_ne_nil _ _))
  have hblock : WorldStep Rds.plainPlatform prefixCrypto [1] ⟨LoweredSample.approvedDb, ca, [], []⟩
      (.rds (.changeStatus did .blocked false))
      ⟨lostDb, ca, [], []⟩ := .rds trivial rfl
  have hsecond := (hfirst.snoc hblock).snoc (poll_step 21 ⟨rfl, rfl⟩ jobs_lostDb)
  -- the revocation is carried out and answered
  have hd : ca.state.devices did = some (LoweredSample.record.issuedAt 1000) := by
    rw [hstate]
    exact CaSigner.State.insert_devices_same _ _ _
  obtain ⟨ca', hsetup', hstate', hrevoke⟩ := revoke_step revokedDb
    (show ∀ d ∈ ca.state.devices did, d.rid = "123456789" by
      rw [hd]
      intro d hd
      cases hd
      rfl)
  have hpost : WorldStep Rds.plainPlatform prefixCrypto [1]
      ⟨revokedDb, ca', [], [revokeAnswer]⟩ (.post 22 true)
      ⟨answeredDb, ca', [], []⟩ :=
    .post rfl (cons_ne_nil _ _) post_revokedDb
  have hagain : WorldStep Rds.plainPlatform prefixCrypto [1] ⟨answeredDb, ca', [], []⟩
      (.poll 120000022 true) _ := poll_step 120000022 ⟨rfl, rfl⟩ jobs_answeredDb
  have hd' : ca'.state.devices did = some revokedRecord := by
    rw [hstate', CaSigner.State.modify_devices_same, hd]
    rfl
  have hnot : ¬ ca'.state.Approved did := by
    rintro ⟨d, hfound, hstatus⟩
    obtain rfl := Option.some.inj (hd'.symm.trans hfound)
    cases hstatus
  -- and the issue job comes again
  obtain ⟨a', st, hsucceeds, -, hpassport, happroved⟩ := issue_again
    (hsetup'.cfg.trans hsetup.cfg) hd'
  obtain ⟨ca'', -, hstate'', -, hreissue⟩ := @process_step Rds.plainPlatform prefixCrypto [1]
    ⟨(Rds.getJobs 120000022 answeredDb).2, ca', [LoweredSample.issueJob], []⟩
    _ _ _ _ _ rfl hsucceeds
  have hrun := (((hsecond.snoc hrevoke).snoc hpost).snoc hagain).snoc hreissue
  rw [append_assoc, append_assoc, append_assoc] at hrun
  refine ⟨_, _, [_, _], _, revokeJob 2 none, LoweredSample.issueJob,
    revokeAnswer, _, hrun, rfl, rfl, ⟨_, rfl⟩, rfl, rfl, by decide, hnot, ?_,
    hpassport⟩
  exact hstate'' ▸ happroved

end ManagedDirectory.Link
