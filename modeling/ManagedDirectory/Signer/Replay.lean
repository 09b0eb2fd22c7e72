import ManagedDirectory.Signer.Payloads
import ManagedDirectory.Signer.Progress
import ManagedDirectory.Lib.MachineInt

/-!
# No signed request yields two passports

A request is accepted while its timestamp is fresh, and its nonce is remembered for much longer
than that. The nonce is saved before the result is returned, so it survives a restart. But the two
checks read the clock one after the other: if it jumps ahead between them, the nonce is already
forgotten for a request that was still fresh (`replay_after_clock_jump`). Without such a jump no
body is accepted twice (`no_request_twice`).
-/

namespace ManagedDirectory.CaSigner

open Codec Lib Passport List

variable {C : Crypto} {job : Job} {env : Env} {s s' : Signer} {res : Option JobResult}

/-! ## The nonce list -/

theorem mem_nonceSeen {st : State} (did nonce : String) (t : Int64)
    {n : String × String × Int64} (hn : n ∈ st.nonces) :
    n ∈ (st.nonceSeen did nonce t).2.nonces ∨ nonceKeep ≤ t - n.2.2 := by
  by_cases hold : t - n.2.2 < nonceKeep
  · left
    have hkept : n ∈ (st.pruneNonces t).nonces := by
      simp [State.pruneNonces, hn, hold]
    unfold State.nonceSeen
    simp only
    split_ifs
    · exact hkept
    · exact mem_append_left _ hkept
  · exact .inr (Int64.not_lt.mp hold)

theorem mem_of_unseen {st : State} {did nonce : String} {t : Int64}
    (h : (st.nonceSeen did nonce t).1 = false) :
    (did, nonce, t) ∈ (st.nonceSeen did nonce t).2.nonces := by
  unfold State.nonceSeen at h ⊢
  simp only at h ⊢
  split_ifs at h ⊢
  simp

theorem old_of_unseen {st : State} {did nonce : String} {t u : Int64}
    (h : (st.nonceSeen did nonce t).1 = false) (hn : (did, nonce, u) ∈ st.nonces) :
    nonceKeep ≤ t - u := by
  by_contra hyoung
  have hkept : (did, nonce, u) ∈ (st.pruneNonces t).nonces := by
    simp [State.pruneNonces, hn, Int64.not_le.mp hyoung]
  unfold State.nonceSeen at h
  simp only at h
  split_ifs at h with hany
  simp only [any_eq_true, Bool.and_eq_true, beq_iff_eq, not_exists, not_and] at hany
  exact hany _ hkept rfl rfl

/-! ## One job -/

theorem Effect.nonces (h : Effect C job env s res s') :
    s'.state.nonces = s.state.nonces ∨
      ∃ did nonce, s'.state.nonces = (s.state.nonceSeen did nonce env.nonce).2.nonces := by
  cases h with
  | quiet _ h => exact h.nonces
  | issued _ _ h => exact .inl (by rw [h.state, State.insert_nonces])
  | issueHalf _ _ _ h =>
    obtain ⟨d, -, hstate⟩ := h.state
    exact .inl (by rw [hstate, State.insert_nonces])
  | renewed _ _ h => exact .inr ⟨_, _, by rw [h.state, State.modify_nonces, Signer.noted]⟩
  | keyUpdated _ _ h => exact .inr ⟨_, _, by rw [h.state, State.modify_nonces, Signer.noted]⟩
  | keyUpdateHalf _ _ _ h =>
    obtain ⟨f, -, hstate⟩ := h.state
    exact .inr ⟨_, _, by rw [hstate, State.modify_nonces, Signer.noted]⟩
  | revoked _ _ h => exact .inl (by rw [h.state, State.modify_nonces])
  | revokeHalf _ _ _ h => exact .inl (by rw [h.state, State.modify_nonces])

inductive Carries (bytes : Bytes) (did nonce : String) (ts : Int64) : Prop where
  | renew {b : RenewBody} (hjson : renewLayout.fromSlice bytes = some b) (hdid : b.did = did)
      (hnonce : b.nonce = nonce) (hts : b.ts = ts)
  | keyUpdate {b : KeyUpdateBody} (hjson : keyUpdateLayout.fromSlice bytes = some b)
      (hdid : b.did = did) (hnonce : b.nonce = nonce) (hts : b.ts = ts)

theorem renew_ne_keyUpdate {bytes : Bytes} {b : RenewBody} {c : KeyUpdateBody}
    (hb : renewLayout.fromSlice bytes = some b) : keyUpdateLayout.fromSlice bytes ≠ some c := by
  intro hc
  rcases Layout.compatible hb hc with h | h
  · exact absurd (h "idk" (by decide)) (by decide)
  · exact absurd h (by decide)

theorem Carries.unique {bytes : Bytes} {did did' nonce nonce' : String} {ts ts' : Int64}
    (h : Carries bytes did nonce ts) (h' : Carries bytes did' nonce' ts') :
    did = did' ∧ nonce = nonce' ∧ ts = ts' := by
  cases h with
  | renew hjson hdid hnonce hts =>
    cases h' with
    | renew hjson' hdid' hnonce' hts' =>
      obtain rfl := Option.some.inj (hjson.symm.trans hjson')
      exact ⟨hdid.symm.trans hdid', hnonce.symm.trans hnonce', hts.symm.trans hts'⟩
    | keyUpdate hjson' => exact absurd hjson' (renew_ne_keyUpdate hjson)
  | keyUpdate hjson hdid hnonce hts =>
    cases h' with
    | renew hjson' => exact absurd hjson (renew_ne_keyUpdate hjson')
    | keyUpdate hjson' hdid' hnonce' hts' =>
      obtain rfl := Option.some.inj (hjson.symm.trans hjson')
      exact ⟨hdid.symm.trans hdid', hnonce.symm.trans hnonce', hts.symm.trans hts'⟩

/-- A request with signed body `bytes` was accepted. -/
structure Accepted (env : Env) (s s' : Signer) (bytes : Bytes) (did nonce : String) (ts : Int64) :
    Prop where
  body : Carries bytes did nonce ts
  fresh : (env.fresh - ts).abs ≤ requestMaxAge
  unseen : (s.state.nonceSeen did nonce env.nonce).1 = false
  noted : (did, nonce, env.nonce) ∈ s'.state.nonces
  saved : s'.saved = s'.state

theorem Refused.ok_false (h : Refused job s res) {r : JobResult} (hr : res = some r) :
    r.ok = false := by
  cases h with
  | answered e =>
    cases hr
    rfl
  | panicked => cases hr

/-- The event is a renew or keyupdate job that succeeded, with signed body `bytes`. -/
def Yields (e : Event Signer Act) (bytes : Bytes) : Prop :=
  ∃ p j r, e.label = .job p ∧ (p.job.kind = "renew" ∨ p.job.kind = "keyupdate") ∧
    p.answer = some r ∧ r.ok = true ∧ decodeSignedJob p.job.payload = some j ∧
    requestBytes j.request = some bytes

theorem Effect.accepted (h : Effect C job env s res s')
    (hkind : job.kind = "renew" ∨ job.kind = "keyupdate") {r : JobResult} (hr : res = some r)
    (hok : r.ok = true) {j : SignedJob} (hj : decodeSignedJob job.payload = some j)
    {bytes : Bytes} (hbytes : requestBytes j.request = some bytes) :
    ∃ did nonce ts, Accepted env s s' bytes did nonce ts := by
  cases h with
  | quiet hres | issueHalf hres | keyUpdateHalf hres | revokeHalf hres =>
    exact absurd (hres.ok_false hr) (by simp [hok])
  | issued hk | revoked hk =>
    rw [hk] at hkind
    exact absurd hkind (by decide)
  | renewed _ hjob hdone =>
    obtain rfl := Option.some.inj (hj.symm.trans hjob)
    obtain rfl := Option.some.inj (hbytes.symm.trans hdone.checks.requestBytes_eq)
    refine ⟨_, _, _, .renew hdone.checks.json hdone.names.2 rfl rfl, hdone.checks.fresh,
      hdone.unseen, ?_, hdone.saved⟩
    rw [hdone.state, State.modify_nonces]
    exact mem_of_unseen hdone.unseen
  | keyUpdated _ hjob hdone =>
    obtain rfl := Option.some.inj (hj.symm.trans hjob)
    obtain rfl := Option.some.inj (hbytes.symm.trans hdone.passed.checks.requestBytes_eq)
    refine ⟨_, _, _, .keyUpdate hdone.passed.checks.json hdone.passed.names.2 rfl rfl,
      hdone.passed.checks.fresh, hdone.passed.unseen, ?_, hdone.saved⟩
    rw [hdone.state, State.modify_nonces]
    exact mem_of_unseen hdone.passed.unseen

/-! ## Runs -/

/-- The nonce noted at `u` is in the list, or it was old by the time `c`. -/
def Remembered (c : Int) (st : State) (did nonce : String) (u : Int64) : Prop :=
  (did, nonce, u) ∈ st.nonces ∨ u.toInt + 1800 ≤ c

theorem age_of_nonceKeep_le {t u : Int64} (ht : 0 ≤ t.toInt ∧ t.toInt < 2 ^ 62)
    (hu : 0 ≤ u.toInt ∧ u.toInt < 2 ^ 62) (h : nonceKeep ≤ t - u) : u.toInt + 1800 ≤ t.toInt := by
  have hle := Int64.le_iff_toInt_le.mp h
  rw [toInt_sub_of_fits (by omega) (by omega)] at hle
  have hkeep : nonceKeep.toInt = 1800 := rfl
  omega

theorem Remembered.nonceSeen {c : Int} {st : State} {did nonce : String} {t u : Int64}
    (h : Remembered c st did nonce u) (did' nonce' : String) (ht : 0 ≤ t.toInt ∧ t.toInt < 2 ^ 62)
    (hu : 0 ≤ u.toInt ∧ u.toInt < 2 ^ 62) (htc : t.toInt ≤ c) :
    Remembered c (st.nonceSeen did' nonce' t).2 did nonce u := by
  rcases h with h | h
  · rcases mem_nonceSeen did' nonce' t h with hmem | hold
    · exact .inl hmem
    · exact .inr ((age_of_nonceKeep_le ht hu hold).trans htc)
  · exact .inr h

theorem ActStep.remembered {root : Bytes} {a : Act} (hstep : ActStep C root s a s') {c : Int}
    {did nonce : String} {u : Int64} (hu : 0 ≤ u.toInt ∧ u.toInt < 2 ^ 62)
    (hclock : ∀ t ∈ a.readings, 0 ≤ t ∧ t < 2 ^ 62 ∧ t ≤ c)
    (hstate : Remembered c s.state did nonce u) (hsaved : Remembered c s.saved did nonce u) :
    Remembered c s'.state did nonce u ∧ Remembered c s'.saved did nonce u := by
  cases a with
  | job p =>
    have hnow := hclock p.env.nonce.toInt (by simp [Act.readings, Env.readings])
    have hstate' : Remembered c s'.state did nonce u := by
      rcases hstep.effect.nonces with heq | ⟨did', nonce', heq⟩
      · unfold Remembered at hstate ⊢
        rwa [heq]
      · have := hstate.nonceSeen did' nonce' ⟨hnow.1, hnow.2.1⟩ hu hnow.2.2
        unfold Remembered at this ⊢
        rwa [heq]
    refine ⟨hstate', ?_⟩
    rcases hstep.effect.saved with heq | heq
    · rwa [heq]
    · rwa [heq]
  | rotate env =>
    have hsame : s'.state = s.state ∧ s'.saved = s.saved := by
      obtain rfl := hstep
      unfold rotateIfNeeded
      split_ifs
      · simp only
        split <;> exact ⟨rfl, rfl⟩
      · exact ⟨rfl, rfl⟩
    rw [hsame.1, hsame.2]
    exact ⟨hstate, hsaved⟩
  | restart env =>
    obtain rfl := hstep
    exact ⟨hsaved, hsaved⟩

/-- In each signed job the clock advances less than the freshness window between the freshness
check and the nonce check. -/
def NoClockJump (es : List (Event Signer Act)) : Prop :=
  ∀ e ∈ es, ∀ p, e.label = .job p → p.job.kind = "renew" ∨ p.job.kind = "keyupdate" →
    p.env.nonce.toInt - p.env.fresh.toInt < 600

/-- Every accepted nonce of a run is remembered, in memory and on disk. -/
def AllRemembered (es : List (Event Signer Act)) (s : Signer) : Prop :=
  ∀ e ∈ es, ∀ p, e.label = .job p → ∀ {bytes did nonce ts},
    Accepted p.env e.before e.after bytes did nonce ts →
    ∀ c, (∀ t ∈ readings es, t ≤ c) →
      Remembered c s.state did nonce p.env.nonce ∧ Remembered c s.saved did nonce p.env.nonce

theorem readings_append (es : List (Event Signer Act)) (e : Event Signer Act) :
    readings (es ++ [e]) = readings es ++ e.label.readings := by
  simp [readings]

theorem mem_readings {es : List (Event Signer Act)} {e : Event Signer Act} (he : e ∈ es) {t : Int}
    (ht : t ∈ e.label.readings) : t ∈ readings es := mem_flatMap.mpr ⟨e, he, ht⟩

theorem allRemembered_of_run {root : Bytes} {s₀ : Signer} {es : List (Event Signer Act)}
    (h : Run (ActStep C root) s₀ es s) (hclock : SteadyClock es) : AllRemembered es s := by
  induction h with
  | nil => simp [AllRemembered]
  | @snoc es s s' a h hstep ih =>
    intro e he p hp bytes did nonce ts hacc c hc
    rw [readings_append] at hc
    have hrange := hclock.range
    rcases mem_append.mp he with he | he
    · have hu := hrange _ (mem_readings (mem_append_left _ he)
        (by rw [hp]; simp [Act.readings, Env.readings] : p.env.nonce.toInt ∈ e.label.readings))
      obtain ⟨hst, hsv⟩ := ih hclock.before e he p hp hacc c
        fun t ht => hc t (mem_append_left _ ht)
      refine hstep.remembered hu (fun t ht => ?_) hst hsv
      have := hrange t (mem_readings (mem_append_right _ (mem_singleton.mpr rfl)) ht)
      exact ⟨this.1, this.2, hc t (mem_append_right _ ht)⟩
    · obtain rfl := mem_singleton.mp he
      exact ⟨.inl hacc.noted, .inl (hacc.saved ▸ hacc.noted)⟩

theorem not_accepted_twice {es : List (Event Signer Act)} {e : Event Signer Act} {p q : Processed}
    {a : Act} (hclock : SteadyClock (es ++ [⟨s, a, s'⟩])) (hall : AllRemembered es s)
    (he : e ∈ es) (hp : e.label = .job p) (hq : a = .job q) {bytes : Bytes}
    {did did' nonce nonce' : String} {ts ts' : Int64}
    (hacc : Accepted p.env e.before e.after bytes did nonce ts)
    (hacc' : Accepted q.env s s' bytes did' nonce' ts')
    (hgap : q.env.nonce.toInt - q.env.fresh.toInt < 600) : False := by
  subst hq
  obtain ⟨rfl, rfl, rfl⟩ := hacc.body.unique hacc'.body
  have hrange : ∀ {t}, t ∈ readings (es ++ [⟨s, .job q, s'⟩]) → 0 ≤ t ∧ t < 2 ^ 62 :=
    fun ht => hclock.range _ ht
  have hold : ∀ {t}, t ∈ p.env.readings → t ∈ readings es := fun ht =>
    mem_readings he (by rw [hp]; exact ht)
  have hnew : ∀ {t}, t ∈ q.env.readings → 0 ≤ t ∧ t < 2 ^ 62 := fun ht =>
    hrange (by rw [readings_append]; exact mem_append_right _ ht)
  have hfresh : q.env.fresh.toInt ∈ q.env.readings := by simp [Env.readings]
  have hpf : p.env.fresh.toInt ∈ p.env.readings := by simp [Env.readings]
  have hpn : p.env.nonce.toInt ∈ p.env.readings := by simp [Env.readings]
  have hqn : q.env.nonce.toInt ∈ q.env.readings := by simp [Env.readings]
  have hbefore : ∀ {t}, t ∈ readings es → 0 ≤ t ∧ t < 2 ^ 62 := fun ht =>
    hclock.before.range _ ht
  -- Both readings were fresh for the same timestamp.
  have hclose := close_of_abs_sub_le (n := 600) (by omega) (hbefore (hold hpf)) (hnew hfresh)
    (Int64.le_iff_toInt_le.mp hacc.fresh) (Int64.le_iff_toInt_le.mp hacc'.fresh)
  have horder : p.env.fresh.toInt ≤ p.env.nonce.toInt := by
    have hsub : p.env.readings.Sublist (readings es) := by
      have := sublist_flatten_of_mem (mem_map_of_mem (f := fun e => e.label.readings) he)
      rwa [hp] at this
    have := hclock.before.sorted.sublist hsub
    simp only [Env.readings, pairwise_cons] at this
    exact this.1 _ (by simp)
  rcases (hall e he p hp hacc q.env.fresh.toInt fun t ht => hclock.le_last ht hfresh).1 with
    hmem | hgone
  · have := age_of_nonceKeep_le (hnew hqn) (hbefore (hold hpn)) (old_of_unseen hacc'.unseen hmem)
    omega
  · omega

/-- **No signed body yields two passports**, over any jobs, restarts and failed saves, as long as
the clock does not jump between the two checks of a signed job. -/
theorem no_request_twice {root : Bytes} {s₀ : Signer} {es : List (Event Signer Act)}
    (h : Run (ActStep C root) s₀ es s) (hclock : SteadyClock es) (hjump : NoClockJump es) :
    es.Pairwise fun e e' => ∀ bytes, ¬ (Yields e bytes ∧ Yields e' bytes) := by
  have haccepted : ∀ {s a s' bytes}, ActStep C root s a s' → Yields ⟨s, a, s'⟩ bytes →
      ∃ p, a = .job p ∧ (p.job.kind = "renew" ∨ p.job.kind = "keyupdate") ∧
        ∃ did nonce ts, Accepted p.env s s' bytes did nonce ts := by
    rintro s a s' bytes hstep ⟨p, j, r, hlabel, hkind, hans, hok, hj, hbytes⟩
    obtain rfl : a = .job p := hlabel
    exact ⟨p, rfl, hkind, hstep.effect.accepted hkind hans hok hj hbytes⟩
  induction h with
  | nil => exact .nil
  | @snoc es s s' a h hstep ih =>
    rw [pairwise_append]
    refine ⟨ih hclock.before fun e he => hjump e (mem_append_left _ he),
      pairwise_singleton _ _, ?_⟩
    rintro e he e' he' bytes ⟨hy, hy'⟩
    obtain rfl := mem_singleton.mp he'
    obtain ⟨p, hp, -, did, nonce, ts, hacc⟩ := haccepted (h.step_of_mem he) hy
    obtain ⟨q, hq, hkind, did', nonce', ts', hacc'⟩ := haccepted hstep hy'
    exact not_accepted_twice hclock (allRemembered_of_run h hclock.before) he hp hq hacc hacc'
      (hjump _ (mem_append_right _ (mem_singleton.mpr rfl)) q hq hkind)

theorem Yields.of_succeeds {r : JobResult} {st : State} {j : SignedJob} {bytes : Bytes}
    (hkind : job.kind = "renew" ∨ job.kind = "keyupdate")
    (h : Succeeds (handle C job env) s r st) (hok : r.ok = true)
    (hj : decodeSignedJob job.payload = some j) (hbytes : requestBytes j.request = some bytes) :
    Yields (jobEvent C job env s) bytes :=
  ⟨_, j, _, rfl, hkind, (process_of_succeeds h).1, hok, hj, hbytes⟩

/-! ## One renewal, sent twice -/

namespace Sample

def renewBody : RenewBody where
  typ := "rdc-renew"
  v := version
  rid := "123456789"
  did := did
  idk := b64 (firstBytes 32 [3])
  ts := 1000
  nonce := "n1"

def renewRequest : String := signRenew prefixCrypto [3] renewBody

def renewSigned : SignedJob := ⟨"123456789", did, renewRequest, 7⟩

def renewJob (id : Int64) : Job := ⟨id, "renew", renewSigned.payload device.idk device.prot⟩

theorem decode_renewJob (id : Int64) : decodeSignedJob (renewJob id).payload = some renewSigned :=
  decodeSignedJob_payload _ _ _

theorem renewRequest_short : byteLen renewRequest ≤ maxTokenLen := by
  refine byteLen_signRenew_le ?_ ?_
  · simp only [forall_mem_cons, renewBody]
    exact ⟨by decide, by decide, by decide, plain_b64 _, by decide, by simp⟩
  · have hidk : renewBody.idk.length = 43 := by simp [renewBody, length_b64, length_firstBytes]
    have hrest : renewBody.typ.length + renewBody.rid.length + renewBody.did.length +
        renewBody.nonce.length ≤ 1000 := by decide
    omega

theorem verify_renewRequest {now : Int64} (hfresh : (now - 1000).abs ≤ requestMaxAge) :
    verifyRenew prefixCrypto renewRequest (prefixCrypto.verifyingKey [3]) now requestMaxAge =
      .ok renewBody :=
  verifyRenew_signRenew prefixCrypto_correct renewRequest_short ⟨rfl, rfl⟩ rfl hfresh

theorem renew_accepted {s : Signer} {env : Env} {d : Device} (id : Int64)
    (hd : s.state.devices did = some d) (hfile : d.onFile = device.onFile)
    (hfresh : (env.fresh - 1000).abs ≤ requestMaxAge)
    (hunseen : (s.state.nonceSeen did "n1" env.nonce).1 = false)
    (hrate : WithinRate s did env.rate) (hw : Working s env) :
    Succeeds (handle prefixCrypto (renewJob id) env) s (issuedFor prefixCrypto s env d 7)
      ((s.noted did "n1" env.nonce).modify did
        (Device.issuedAt env.issue ∘ Device.pruneIssues env.rate)) := by
  have accepted : RenewAccepted prefixCrypto renewSigned env s d (prefixCrypto.verifyingKey [3])
      renewBody := by
    refine ⟨⟨hd, congrArg Device.rid hfile, congrArg Device.status hfile⟩,
      congrArg Device.idk hfile, ?_, ⟨rfl, rfl⟩, hunseen⟩
    rw [renewSigned]
    exact verify_renewRequest hfresh
  exact handle_renew_succeeds rfl (decode_renewJob id) (handleRenew_succeeds accepted hrate hw)

def jumpEnv : Env := { envAt 2800 with fresh := 1500 }

def firstEvent : Event Signer Act := jobEvent prefixCrypto (renewJob 1) (envAt 1000) signer

def secondEvent : Event Signer Act :=
  jobEvent prefixCrypto (renewJob 2) jumpEnv firstEvent.after

theorem run_first : Run (ActStep prefixCrypto [1]) signer [firstEvent] firstEvent.after :=
  run_jobEvent .nil (renewJob 1) (envAt 1000)

theorem run_second :
    Run (ActStep prefixCrypto [1]) signer [firstEvent, secondEvent] secondEvent.after :=
  run_jobEvent run_first (renewJob 2) jumpEnv

theorem second_steady : SteadyClock [firstEvent, secondEvent] := by
  constructor <;> decide

theorem first_succeeds :
    Succeeds (handle prefixCrypto (renewJob 1) (envAt 1000)) signer
      (issuedFor prefixCrypto signer (envAt 1000) device 7)
      ((signer.noted did "n1" 1000).modify did
        (Device.issuedAt 1000 ∘ Device.pruneIssues 1000)) := by
  refine renew_accepted 1 (State.insert_devices_same _ _ _) rfl (by decide) (by decide) ?_
    ⟨by decide, rfl, rfl⟩
  intro d hd
  simp only [signer, State.insert_devices_same, Option.mem_def, Option.some.injEq] at hd
  subst hd
  decide

theorem second_succeeds :
    Succeeds (handle prefixCrypto (renewJob 2) jumpEnv) firstEvent.after
      (issuedFor prefixCrypto firstEvent.after jumpEnv ((device.pruneIssues 1000).issuedAt 1000) 7)
      ((firstEvent.after.noted did "n1" 2800).modify did
        (Device.issuedAt 2800 ∘ Device.pruneIssues 2800)) := by
  obtain ⟨hsetup, hstate, -⟩ := jobEvent_of_succeeds first_succeeds
  rw [← firstEvent] at hsetup hstate
  have hcfg : firstEvent.after.cfg = config := hsetup.cfg
  have hd : firstEvent.after.state.devices did =
      some ((device.pruneIssues 1000).issuedAt 1000) := by
    rw [hstate]
    simp [Signer.noted, signer]
  refine renew_accepted 2 hd rfl (by decide) ?_ ?_ ⟨?_, rfl, rfl⟩
  · rw [hstate]
    decide
  · intro d hd'
    obtain rfl := Option.some.inj (hd.symm.trans hd')
    rw [hcfg]
    decide
  · rw [hcfg]
    decide

theorem requestBytes_renewRequest :
    requestBytes renewSigned.request = some (renewLayout.toVec renewBody) :=
  requestBytes_signRenew [3] renewBody

theorem yields_of_succeeds {s : Signer} {env : Env} {d : Device} {st : State} {id : Int64}
    (h : Succeeds (handle prefixCrypto (renewJob id) env) s (issuedFor prefixCrypto s env d 7) st) :
    Yields (jobEvent prefixCrypto (renewJob id) env s) (renewLayout.toVec renewBody) :=
  .of_succeeds (.inl rfl) h rfl (decode_renewJob id) requestBytes_renewRequest

end Sample

open Sample in
/-- The freshness check at 1500 and the nonce check at 2800 let a renewal of 1000 through that was
already answered at 1000. -/
theorem replay_after_clock_jump :
    ∃ (e e' : Event Signer Act) (s : Signer) (bytes : Bytes),
      Run (ActStep prefixCrypto [1]) signer [e, e'] s ∧ SteadyClock [e, e'] ∧
      Yields e bytes ∧ Yields e' bytes :=
  ⟨firstEvent, secondEvent, _, _, run_second, second_steady,
    yields_of_succeeds first_succeeds,
    yields_of_succeeds second_succeeds⟩

open Sample in
/-- Once it is answered, the same renewal sent again within the hour is not. -/
theorem sample_no_request_twice :
    Yields firstEvent (renewLayout.toVec renewBody) ∧
      ¬ Yields (jobEvent prefixCrypto (renewJob 2) (envAt 1500)
        firstEvent.after) (renewLayout.toVec renewBody) := by
  have hfirst := yields_of_succeeds first_succeeds
  refine ⟨hfirst, fun hsecond => ?_⟩
  have hpair := no_request_twice
    (run_jobEvent run_first (renewJob 2) (envAt 1500)) (by constructor <;> decide)
    (by
      intro e he p hp _
      simp only [cons_append, nil_append, mem_cons, not_mem_nil, or_false] at he
      rcases he with rfl | rfl <;> cases hp <;> decide)
  have := rel_of_pairwise_cons hpair (mem_singleton.mpr rfl)
  exact this _ ⟨hfirst, hsecond⟩

end ManagedDirectory.CaSigner
