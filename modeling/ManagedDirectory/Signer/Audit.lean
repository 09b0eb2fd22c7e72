import ManagedDirectory.Signer.Lifetime

/-!
# What the log tells about the passports

A passport leaves the signer only after the log has its issue (`process_logged`): `issue_for`
returns the token after the append, and a job only adds to the log. The key that signed it is
another matter. A start is logged before the first job, but `rotate_if_needed` has the new key in
use when it writes its entry, and the main loop goes on when that fails: `unlogged_rotation` is a
passport under a key the log never names. `issuance_audited` says that nothing else can go wrong:
in a run whose due rotations are all logged, every passport is `Recorded`.
-/

namespace ManagedDirectory.CaSigner

open Codec Lib Passport Proc List

variable {C : Crypto} {root : Bytes} {s s' : Signer} {env : Env}

/-! ## Jobs only add to the log -/

structure Grown (s s' : Signer) : Prop where
  setup : SameSetup s s'
  log : s.log <+: s'.log

theorem Grown.refl (s : Signer) : Grown s s := ⟨⟨rfl, rfl⟩, prefix_rfl⟩

/-! ## Passports are in the log before they are returned -/

/-- The entry `issue_for` writes about a passport. -/
def issuedEntry (C : Crypto) (kind approver : String) (body : PassportBody) : LogEntry :=
  .issued kind body.rid body.did body.serial body.exp
    (fingerprint C ((unb64 body.idk).getD [])) body.prot body.ikid approver

/-- The passport of an answer, if it has one, was signed with the key of `s` and its issue is in
the log of `s'`. -/
def Logged (C : Crypto) (s : Signer) (r : JobResult) (s' : Signer) : Prop :=
  ∀ token, r.passport = some token → ∃ body : PassportBody,
    token = signPassport C s.keys.issuing s.keys.ikc body ∧ body.ikid = s.keys.kid ∧
    (r.serial = some body.serial ∧ r.exp = some body.exp) ∧
    ∃ t kind approver, (t, issuedEntry C kind approver body) ∈ s'.log

/-- A job that issues nothing, or has logged what it issues. -/
theorem issueFor_logged (s : Signer) {did kind approver : String} {days : Int64} {device : Device} {m : Signer}
    {Q : JobResult → Signer → Prop} {E : Failure → Signer → Prop}
    (hd : m.state.devices did = some device) (hm : Grown s m) (hlog : m.log = s.log)
    (hok : ∀ r s', Grown s s' → Logged C s r s' → Q r s') (hfail : ∀ e s', Grown s s' → E e s') :
    spec (issueFor C did days kind approver env) m Q E := by
  have hissued : Grown s (m.issued C did kind approver device
      (clampDays days m.cfg.maxLifetimeDays) env) :=
    ⟨⟨hm.setup.cfg, hm.setup.keys⟩, hlog ▸ prefix_append _ _⟩
  refine spec_issueFor hd (fun _ => hok _ _ hissued fun token htoken => ?_) (fun _ => hfail _ _ hm)
    (fun _ _ _ => hfail _ _ hm) fun _ _ _ _ =>
      hfail _ _ ⟨⟨hissued.setup.cfg, hissued.setup.keys⟩, hissued.log⟩
  refine ⟨_, (Option.some.inj htoken).symm.trans (by rw [hm.setup.keys]), ?_, ⟨rfl, rfl⟩,
    env.logged, kind, approver, mem_append_right _ (mem_singleton.mpr rfl)⟩
  exact congrArg Keys.kid hm.setup.keys

theorem handle_logged (job : Job) :
    spec (handle C job env) s (fun r s' => Grown s s' ∧ Logged C s r s') fun _ s' => Grown s s' := by
  refine spec_handle (fun _ => Grown.refl s) (fun j _ _ => ?_) (fun j _ _ => ?_) (fun j _ _ => ?_)
    fun j _ _ => ?_
  · refine spec_handleIssue (fun _ _ _ => ⟨⟨rfl, rfl⟩, prefix_rfl⟩)
      (fun _ _ => ⟨⟨rfl, rfl⟩, prefix_rfl⟩) fun _ _ _ _ _ => ?_
    exact issueFor_logged s (State.insert_devices_same _ _ _) ⟨⟨rfl, rfl⟩, prefix_rfl⟩ rfl
      (fun _ _ h hl _ => ⟨⟨⟨h.setup.cfg, h.setup.keys⟩, h.log⟩, hl⟩) fun _ _ h => h
  · refine spec_handleRenew (fun _ => Grown.refl s) (fun _ _ => ⟨⟨rfl, rfl⟩, prefix_rfl⟩)
      (fun _ _ => ⟨⟨rfl, rfl⟩, prefix_rfl⟩) fun _ _ _ accepted _ => ?_
    exact issueFor_logged s accepted.renewing_found ⟨⟨rfl, rfl⟩, prefix_rfl⟩ rfl
      (fun _ _ h hl => ⟨h, hl⟩) fun _ _ h => h
  · refine spec_handleKeyUpdate (fun _ => Grown.refl s) (fun _ _ => ⟨⟨rfl, rfl⟩, prefix_rfl⟩)
      fun _ _ _ _ accepted _ _ => ?_
    exact issueFor_logged s accepted.moving_found ⟨⟨rfl, rfl⟩, prefix_rfl⟩ rfl
      (fun _ _ h hl _ => ⟨⟨⟨h.setup.cfg, h.setup.keys⟩, h.log⟩, hl⟩) fun _ _ h => h
  · simp only [handleRevoke, spec_bind, spec_read, spec_check, spec_modifyDevice, spec_append,
      spec_save, spec_pure]
    have hgrown : ∀ {s'}, s'.cfg = s.cfg → s'.keys = s.keys → s.log <+: s'.log → Grown s s' :=
      fun hcfg hkeys hlog => ⟨⟨hcfg, hkeys⟩, hlog⟩
    refine ⟨fun _ => Grown.refl s, fun _ => ⟨fun _ _ => hgrown rfl rfl prefix_rfl, fun _ =>
      ⟨fun _ _ => hgrown rfl rfl (prefix_append _ _), fun _ =>
        ⟨hgrown rfl rfl (prefix_append _ _), fun token htoken => ?_⟩⟩⟩⟩
    cases htoken

/-- **A job only adds to the log, and an issue is in it before the passport is returned.** -/
theorem process_logged (C : Crypto) (job : Job) (env : Env) (s : Signer) :
    Grown s (process C job env s).2 ∧
      ∀ r, (process C job env s).1 = some r → Logged C s r (process C job env s).2 := by
  refine spec_process (R := fun res s' => Grown s s' ∧ ∀ r, res = some r → Logged C s r s')
    (spec_mono (handle_logged job) (fun r s' h => ⟨h.1, ?_⟩) fun e s' h => ?_)
  · rintro _ ⟨⟩
    exact h.2
  · cases e with
    | panicked => exact ⟨h, fun r hr => (by cases hr)⟩
    | refused text =>
      refine fun log hlog => ⟨⟨h.setup.log log, h.log.trans hlog⟩, ?_⟩
      rintro _ ⟨⟩ token ⟨⟩

/-! ## Keys named in the log -/

def LogEntry.Names (kid : String) : LogEntry → Prop
  | .start k _ => k = kid
  | .issuingKey k _ _ => k = kid
  | _ => False

def KeyNamed (s : Signer) : Prop := ∃ x ∈ s.log, x.2.Names s.keys.kid

theorem keyNamed_restart (env : StartEnv) (s : Signer) : KeyNamed (restart C root env s) :=
  ⟨_, mem_append_right _ (mem_singleton.mpr rfl), rfl⟩

theorem KeyNamed.of_grown (h : KeyNamed s) (hgrown : Grown s s') : KeyNamed s' := by
  obtain ⟨x, hx, hnames⟩ := h
  exact ⟨x, hgrown.log.subset hx, hgrown.setup.keys ▸ hnames⟩

def RotateEnv.Due (env : RotateEnv) (s : Signer) : Prop :=
  env.now - s.keys.created ≥ s.cfg.issuingKeyDays * 86400

theorem KeyNamed.rotate {env : RotateEnv} (h : KeyNamed s)
    (hlogged : env.Due s → env.append = none) : KeyNamed (rotateIfNeeded C root env s) := by
  unfold rotateIfNeeded
  split_ifs with hdue
  · simp only [hlogged hdue]
    exact ⟨_, mem_append_right _ (mem_singleton.mpr rfl), rfl⟩
  · exact h

def RotationsLogged (es : List (Event Signer Act)) : Prop :=
  ∀ e ∈ es, ∀ env, e.label = .rotate env → env.Due e.before → env.append = none

theorem rotationsLogged_job (job : Job) (env : Env) (s : Signer) :
    RotationsLogged [jobEvent C job env s] := by
  intro e he renv hrotate
  rw [mem_singleton.mp he] at hrotate
  cases hrotate

theorem keyNamed_of_step {a : Act} (h : KeyNamed s) (hstep : ActStep C root s a s')
    (hlogged : ∀ env, a = .rotate env → env.Due s → env.append = none) : KeyNamed s' := by
  cases a with
  | job p =>
    have hgrown := (process_logged C p.job p.env s).1
    rw [show process C p.job p.env s = (p.answer, s') from hstep] at hgrown
    exact h.of_grown hgrown
  | rotate env =>
    obtain rfl := hstep
    exact h.rotate (hlogged env rfl)
  | restart env =>
    obtain rfl := hstep
    exact keyNamed_restart env s

theorem keyNamed_of_run {s₀ : Signer} {es : List (Event Signer Act)}
    (h : Run (ActStep C root) s₀ es s) (h0 : KeyNamed s₀) (hlogged : RotationsLogged es) :
    KeyNamed s ∧ ∀ e ∈ es, KeyNamed e.before := by
  induction h with
  | nil => exact ⟨h0, fun e he => by cases he⟩
  | @snoc es s s' a h hstep ih =>
    obtain ⟨hs, hes⟩ := ih fun e he => hlogged e (mem_append_left _ he)
    refine ⟨keyNamed_of_step hs hstep fun env ha => ?_, fun e he => ?_⟩
    · exact hlogged ⟨s, a, s'⟩ (mem_append_right _ (mem_singleton.mpr rfl)) env ha
    · rcases mem_append.mp he with he | he
      · exact hes e he
      · obtain rfl := mem_singleton.mp he
        exact hs

/-! ## The audit -/

/-- When the job has been answered, the log has an entry with the serial, device id, expiry and
key fingerprint of the passport, and before the job it named the issuing key that signed it. -/
def Recorded (C : Crypto) (e : Event Signer Act) (token : String) : Prop :=
  ∃ body : PassportBody,
    token = signPassport C e.before.keys.issuing e.before.keys.ikc body ∧
    body.ikid = e.before.keys.kid ∧
    (∃ t kind approver, (t, issuedEntry C kind approver body) ∈ e.after.log) ∧
    ∃ x ∈ e.before.log, x.2.Names body.ikid

/-- **Audit completeness.** From a start on, over any jobs, restarts and failing appends: as long
as every rotation that is due is logged, every passport returned is recorded. -/
theorem issuance_audited {s₀ : Signer} {start : StartEnv} {es : List (Event Signer Act)}
    (h : Run (ActStep C root) (restart C root start s₀) es s) (hlogged : RotationsLogged es) :
    ∀ e ∈ es, ∀ p r token, e.label = .job p → p.answer = some r → r.passport = some token →
      Recorded C e token := by
  intro e he p r token hlabel hr htoken
  have hnamed := (keyNamed_of_run h (keyNamed_restart start s₀) hlogged).2 e he
  have hstep := h.step_of_mem he
  rw [hlabel] at hstep
  have hanswer := (process_logged C p.job p.env e.before).2
  rw [show process C p.job p.env e.before = (p.answer, e.after) from hstep] at hanswer
  obtain ⟨body, hsigned, hikid, -, hentry⟩ := hanswer r hr token htoken
  refine ⟨body, hsigned, hikid, hentry, ?_⟩
  rw [hikid]
  exact hnamed

/-! ## A start, and a rotation whose entry is lost -/

namespace Sample

def started : Signer := restart prefixCrypto [1] ⟨1000, [2], 1000⟩ signer

def due : Int64 := 1000 + 30 * 86400

def lostRotation : RotateEnv := ⟨due, due, [4], due, some "No space left on device"⟩

def rotated : Signer := { started with keys := Keys.new prefixCrypto [1] [4] due 30 }

theorem run_rotated : Run (ActStep prefixCrypto [1]) started
    [⟨started, .rotate lostRotation, rotated⟩] rotated := by
  have hstep : ActStep prefixCrypto [1] started (.rotate lostRotation) rotated :=
    (if_pos (by decide)).symm
  exact .snoc .nil hstep

def lateApproval : Event Signer Act :=
  jobEvent prefixCrypto approveJob (envAt (due + 60)) rotated

theorem rotated_unnamed : ∀ x ∈ rotated.log, ¬ x.2.Names rotated.keys.kid := by
  intro x hx
  obtain rfl := mem_singleton.mp hx
  exact (by decide : ¬ kidFor prefixCrypto (prefixCrypto.verifyingKey [2]) =
    kidFor prefixCrypto (prefixCrypto.verifyingKey [4]))

end Sample

open Sample in
/-- The approval after the start is recorded with its key. -/
theorem sample_issuance_audited :
    Recorded prefixCrypto
      (jobEvent prefixCrypto approveJob (envAt 1060) started)
      ((issuedFor prefixCrypto started (envAt 1060) (approved 1060)
        7).passport.getD "") := by
  have hrun : Run (ActStep prefixCrypto [1]) started
      [jobEvent prefixCrypto approveJob (envAt 1060) started] _ :=
    run_jobEvent .nil approveJob (envAt 1060)
  have hanswer := (process_of_succeeds (approve_succeeds_at (s := started) rfl rfl
    1060)).1
  exact issuance_audited hrun (rotationsLogged_job _ _ _) _ (mem_singleton.mpr rfl) _ _ _ rfl
    hanswer rfl

open Sample in
/-- The append of a due rotation fails, the main loop goes on, and the next approval is answered
with a passport under a key that no entry of the log names. -/
theorem unlogged_rotation :
    ∃ (es : List (Event Signer Act)) (s : Signer) (e : Event Signer Act) (p : Processed)
      (r : JobResult) (token : String),
      Run (ActStep prefixCrypto [1]) (restart prefixCrypto [1] ⟨1000, [2], 1000⟩ signer)
        es s ∧
      e ∈ es ∧ e.label = .job p ∧ p.answer = some r ∧ r.ok = true ∧ r.passport = some token ∧
      ¬ Recorded prefixCrypto e token := by
  have hanswer := (process_of_succeeds (approve_succeeds_at (s := rotated) rfl rfl
    (due + 60))).1
  refine ⟨_, _, lateApproval, ⟨approveJob, envAt (due + 60), _⟩, _, _,
    run_jobEvent run_rotated approveJob (envAt (due + 60)),
    mem_append_right _ (mem_singleton.mpr rfl), rfl, hanswer, rfl, rfl, ?_⟩
  rintro ⟨body, -, hikid, -, x, hx, hnames⟩
  rw [hikid] at hnames
  exact rotated_unnamed x hx hnames

end ManagedDirectory.CaSigner
