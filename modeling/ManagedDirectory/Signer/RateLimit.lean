import ManagedDirectory.Signer.Refusals

/-!
# How many passports a device gets in an hour

`rate_ok` looks at the issue times a record keeps. `Kept` says what every job does to them: issue
times less than an hour old stay on file, also when the job fails or the record is rebuilt by a
new approval. Over a run, the passports of the last hour are therefore all on file (`Tracks`), and
a job that looked at the limiter cannot exceed it.

Key updates do not look at it. `issues_within_rate` is the limit for runs in which each key update
would have passed it.
-/

namespace ManagedDirectory.CaSigner

open Codec Lib Passport Proc List

variable {C : Crypto} {s s' : Signer} {env : Env}

/-! ## Issue times on file -/

def State.issues (st : State) (did : String) : List Int64 :=
  ((st.devices did).map Device.recentIssues).getD []

/-- The issue times `rate_ok` counts at `t`. -/
def lastHour (t : Int64) (issues : List Int64) : List Int64 :=
  issues.filter fun at' => t - at' < 3600

theorem recentIssues_pruneIssues (t : Int64) (d : Device) :
    (d.pruneIssues t).recentIssues = lastHour t d.recentIssues := rfl

theorem State.issues_of_some {st : State} {did : String} {d : Device}
    (h : st.devices did = some d) : st.issues did = d.recentIssues := by
  simp [State.issues, h]

theorem lastHour_sublist (t : Int64) (issues : List Int64) :
    List.Sublist (lastHour t issues) issues := filter_sublist

theorem withinRate_iff {did : String} {t : Int64} :
    WithinRate s did t ↔ s.state.devices did = none ∨
      (lastHour t (s.state.issues did)).length < s.cfg.maxIssuesPerDeviceHour := by
  unfold WithinRate State.issues
  cases s.state.devices did with
  | none => simp
  | some d => simp [recentIssues_pruneIssues]

/-- No issue time less than an hour old at `t` is forgotten. -/
def Kept (t : Int64) (st st' : State) : Prop :=
  ∀ did, List.Sublist (lastHour t (st.issues did)) (st'.issues did)

theorem Kept.of_devices {t : Int64} {st st' : State} (h : st'.devices = st.devices) :
    Kept t st st' := by
  intro did
  unfold State.issues
  rw [h]
  exact lastHour_sublist _ _

theorem Kept.modify {t : Int64} {st : State} {f : Device → Device} (did : String)
    (hf : ∀ d, List.Sublist (lastHour t d.recentIssues) (f d).recentIssues) :
    Kept t st (st.modify did f) := by
  intro k
  by_cases hk : k = did
  · subst hk
    unfold State.issues
    rw [State.modify_devices_same]
    cases st.devices k with
    | none => exact lastHour_sublist _ _
    | some d => exact hf d
  · unfold State.issues
    rw [State.modify_devices_of_ne _ _ hk]
    exact lastHour_sublist _ _

theorem Kept.insert {t : Int64} {st : State} {did : String} {d : Device}
    (hd : List.Sublist (lastHour t (st.issues did)) d.recentIssues) :
    Kept t st (st.insert did d) := by
  intro k
  by_cases hk : k = did
  · subst hk
    rw [State.issues_of_some (State.insert_devices_same st k d)]
    exact hd
  · unfold State.issues
    rw [State.insert_devices_of_ne _ _ hk]
    exact lastHour_sublist _ _

theorem sublist_issuedAt (u : Int64) (d : Device) :
    List.Sublist d.recentIssues (d.issuedAt u).recentIssues :=
  sublist_append_left _ _

/-! ## Handlers -/

theorem Kept.noted {t : Int64} {did nonce : String} {u : Int64} {f : Device → Device}
    (hf : ∀ d, List.Sublist (lastHour t d.recentIssues) (f d).recentIssues) :
    Kept t s.state ((s.state.nonceSeen did nonce u).2.modify did f) := by
  intro k
  have hissues : s.state.issues k = (s.state.nonceSeen did nonce u).2.issues k := by
    simp only [State.issues, State.nonceSeen_devices]
  rw [hissues]
  exact Kept.modify _ hf k

/-- A failing `issue_for` forgets no issue, if the table it starts from keeps them. -/
theorem issueFor_kept {did kind approver : String} {days : Int64} {device : Device} {m : Signer}
    {Q : JobResult → Signer → Prop} (hd : m.state.devices did = some device)
    (hok : ∀ r s', r.ok = true → Q r s')
    (hkept : ∀ f, (∀ d, List.Sublist d.recentIssues (f d).recentIssues) →
      Kept env.rate s.state (m.state.modify did f)) :
    spec (issueFor C did days kind approver env) m Q fun _ s' => Kept env.rate s.state s'.state := by
  have hsame : Kept env.rate s.state m.state := by
    simpa using hkept id fun _ => List.Sublist.refl _
  exact spec_issueFor hd (fun _ => hok _ _ rfl) (fun _ => hsame) (fun _ _ _ => hsame)
    fun _ _ _ _ => hkept _ (sublist_issuedAt env.issue)

theorem handleIssue_issues (job : IssueJob) :
    spec (handleIssue C job env) s
      (fun r _ => r.ok = true ∧ WithinRate s job.device.did env.rate)
      fun _ s' => Kept env.rate s.state s'.state := by
  refine spec_handleIssue (fun _ _ _ => Kept.of_devices rfl)
    (fun _ _ => Kept.modify _ fun _ => List.Sublist.refl _) fun _ _ hrate _ _ => ?_
  refine issueFor_kept (State.insert_devices_same _ _ _) (fun _ _ hr _ => ⟨hr, hrate⟩) fun f hf => ?_
  -- the rebuilt record has the issue times it had before the limiter looked
  rw [Signer.withState, State.modify_insert]
  exact Kept.insert ((lastHour_sublist _ _).trans
    (hf (issueRecord job (s.state.devices job.device.did) env.record)))

theorem handleRenew_issues (job : SignedJob) :
    spec (handleRenew C job env) s (fun r _ => r.ok = true ∧ WithinRate s job.did env.rate)
      fun _ s' => Kept env.rate s.state s'.state := by
  refine spec_handleRenew (fun _ => Kept.of_devices rfl)
    (fun _ _ => Kept.of_devices (State.nonceSeen_devices _ _ _ _))
    (fun _ _ => Kept.noted fun _ => List.Sublist.refl _) fun device key body accepted hrate => ?_
  refine issueFor_kept accepted.renewing_found (fun _ _ hr => ⟨hr, hrate⟩) fun f hf => ?_
  rw [Signer.renewing, Signer.withState, State.modify_modify]
  exact Kept.noted fun d => hf (d.pruneIssues env.rate)

theorem handleKeyUpdate_issues (job : SignedJob) :
    spec (handleKeyUpdate C job env) s (fun r _ => r.ok = true)
      fun _ s' => Kept env.rate s.state s'.state := by
  refine spec_handleKeyUpdate (fun _ => Kept.of_devices rfl)
    (fun _ _ => Kept.of_devices (State.nonceSeen_devices _ _ _ _))
    fun device old new body accepted _ _ => ?_
  refine issueFor_kept accepted.moving_found (fun _ _ hr _ => hr) fun f hf => ?_
  rw [Signer.moving, Signer.withState, State.modify_modify]
  exact Kept.noted fun d =>
    (lastHour_sublist _ _).trans (hf (d.rekey (b64 new.bytes) body.prot))

theorem handleRevoke_issues (job : RevokeJob) :
    spec (handleRevoke job env) s (fun r _ => r.ok = true)
      fun _ s' => Kept env.rate s.state s'.state := by
  refine spec_mono (spec_handleRevoke job) (fun r s' h => by rw [h.result]) ?_
  rintro e s' ⟨-, ⟨rfl, -⟩ | h⟩
  · exact Kept.of_devices rfl
  · rw [h.state]
    exact Kept.modify _ fun _ => lastHour_sublist _ _

/-! ## Jobs -/

def Job.device (job : Job) : Option String :=
  if job.kind = "issue" then (decodeIssueJob job.payload).map fun j => j.device.did
  else (decodeSignedJob job.payload).map SignedJob.did

/-- Issue and renew jobs look at the limiter before they succeed; no failing job forgets an issue
of the last hour. -/
theorem handle_issues (job : Job) :
    spec (handle C job env) s
      (fun r _ => r.ok = true ∧ ∀ did ∈ job.device, job.kind = "issue" ∨ job.kind = "renew" →
        WithinRate s did env.rate)
      fun _ s' => Kept env.rate s.state s'.state := by
  refine spec_handle (fun _ => Kept.of_devices rfl) (fun j hk hj => ?_) (fun j hk hj => ?_)
    (fun j hk _ => ?_) fun j hk _ => ?_
  · refine spec_mono (handleIssue_issues j) (fun r s' h => ⟨h.1, fun did hdid _ => ?_⟩) fun _ _ h => h
    obtain rfl : j.device.did = did := by simpa [Job.device, hk, hj] using hdid
    exact h.2
  · refine spec_mono (handleRenew_issues j) (fun r s' h => ⟨h.1, fun did hdid _ => ?_⟩) fun _ _ h => h
    obtain rfl : j.did = did := by simpa [Job.device, hk, hj] using hdid
    exact h.2
  · refine spec_mono (handleKeyUpdate_issues j) (fun r s' h => ⟨h, ?_⟩) fun _ _ h => h
    simp [hk]
  · refine spec_mono (handleRevoke_issues j) (fun r s' h => ⟨h, ?_⟩) fun _ _ h => h
    simp [hk]

def Processed.issuedTo (p : Processed) : Option String :=
  match p.answer with
  | some r => if r.passport.isSome then p.job.device else none
  | none => none

structure Noted (C : Crypto) (did : String) (s : Signer) (p : Processed) (s' : Signer) : Prop where
  kept : List.Sublist (lastHour p.env.rate (s.state.issues did)) (s'.state.issues did)
  saved : s'.saved = s.saved ∨ s'.saved = s'.state
  issued : p.issuedTo = some did →
    List.Sublist (lastHour p.env.rate (s.state.issues did) ++ [p.env.issue])
      (s'.state.issues did) ∧ s'.saved = s'.state
  limited : p.issuedTo = some did → WithinRate s did p.env.rate ∨
    ∃ j device old new bytes body, p.job.kind = "keyupdate" ∧
      decodeSignedJob p.job.payload = some j ∧ j.did = did ∧
      KeyUpdatePassed C j p.env s device old new bytes body

section
variable {p : Processed}

theorem Refused.ok_eq_false {job : Job} {res : Option JobResult} (h : Refused job s res) :
    ∀ r, res = some r → r.ok = false := by
  cases h with
  | answered e =>
    rintro r ⟨⟩
    rfl
  | panicked =>
    rintro r ⟨⟩

theorem Refused.issuedTo_eq_none (h : Refused p.job s p.answer) : p.issuedTo = none := by
  unfold Processed.issuedTo
  generalize p.answer = res at h
  cases h <;> rfl

/-- What the limiter has to do with an answer. -/
structure Limited (s : Signer) (job : Job) (t : Int64) (res : Option JobResult) (s' : Signer) :
    Prop where
  looked : ∀ r, res = some r → r.ok = true → ∀ did ∈ job.device,
    job.kind = "issue" ∨ job.kind = "renew" → WithinRate s did t
  kept : (∀ r, res = some r → r.ok = false) → Kept t s.state s'.state

theorem JobStep.limited (h : JobStep C s p s') : Limited s p.job p.env.rate p.answer s' := by
  have hprocess : Limited s p.job p.env.rate (process C p.job p.env s).1
      (process C p.job p.env s).2 := by
    refine spec_process (spec_mono (handle_issues p.job) (fun r s' hdone => ?_) fun e s' hkept => ?_)
    · exact ⟨fun _ _ _ => hdone.2, fun hfalse => absurd (hfalse _ rfl) (by simp [hdone.1])⟩
    · cases e with
      | panicked => exact ⟨fun r hr => (by cases hr), fun _ => hkept⟩
      | refused text =>
        refine fun log _ => ⟨fun r hr hok => ?_, fun _ => hkept⟩
        cases hr
        cases hok
  rwa [h] at hprocess

theorem issues_noted_modify {did nonce : String} {t : Int64} {d : Device} (f : Device → Device)
    (hd : s.state.devices did = some d) :
    ((s.noted did nonce t).modify did f).issues did = (f d).recentIssues :=
  State.issues_of_some (by simp [Signer.noted, hd])

theorem Noted.of_refused {did : String} (hstep : JobStep C s p s')
    (hres : Refused p.job s p.answer) (hsaved : s'.saved = s.saved) : Noted C did s p s' := by
  have hnone : p.issuedTo ≠ some did := by simp [hres.issuedTo_eq_none]
  exact ⟨hstep.limited.kept hres.ok_eq_false did, .inl hsaved, fun h => absurd h hnone,
    fun h => absurd h hnone⟩

theorem Noted.of_issued {did k : String} (hsaved : s'.saved = s'.state)
    (hto : p.issuedTo = some k) (hkept : Kept p.env.rate s.state s'.state)
    (hissued : List.Sublist (lastHour p.env.rate (s.state.issues k) ++ [p.env.issue])
      (s'.state.issues k))
    (hlimited : WithinRate s k p.env.rate ∨
      ∃ j device old new bytes body, p.job.kind = "keyupdate" ∧
        decodeSignedJob p.job.payload = some j ∧ j.did = k ∧
        KeyUpdatePassed C j p.env s device old new bytes body) : Noted C did s p s' := by
  refine ⟨hkept did, .inr hsaved, fun h => ?_, fun h => ?_⟩
  · obtain rfl := Option.some.inj (hto.symm.trans h)
    exact ⟨hissued, hsaved⟩
  · obtain rfl := Option.some.inj (hto.symm.trans h)
    exact hlimited

/-- **What one job does to a device's issue times.** -/
theorem JobStep.noted (hstep : JobStep C s p s') (did : String) : Noted C did s p s' := by
  obtain ⟨job, env, answer⟩ := p
  have heff := hstep.effect
  have hlimited := hstep.limited.looked
  simp only at heff hlimited
  cases heff with
  | quiet hres h => exact .of_refused hstep hres h.saved
  | issueHalf hres _ _ h => exact .of_refused hstep hres h.saved
  | keyUpdateHalf hres _ _ h => exact .of_refused hstep hres h.saved
  | revokeHalf hres _ _ h => exact .of_refused hstep hres h.saved
  | @issued j r s' hkind hjob h =>
    have hdevice : job.device = some j.device.did := by simp [Job.device, hkind, hjob]
    have hkept : Kept env.rate s.state s'.state := by
      rw [h.state]
      exact Kept.insert ((lastHour_sublist _ _).trans (sublist_issuedAt env.issue
        (issueRecord j (s.state.devices j.device.did) env.record)))
    have hnow : s'.state.issues j.device.did = s.state.issues j.device.did ++ [env.issue] := by
      rw [h.state, State.issues_of_some (State.insert_devices_same _ _ _)]
      rfl
    refine .of_issued h.saved (by rw [h.result]; exact hdevice) hkept ?_
      (.inl (hlimited _ rfl (by rw [h.result]; rfl) _ hdevice (.inl hkind)))
    rw [hnow]
    exact (lastHour_sublist _ _).append_right _
  | @renewed j r s' device key bytes body hkind hjob h =>
    have hdevice : job.device = some j.did := by simp [Job.device, hkind, hjob]
    have hkept : Kept env.rate s.state s'.state := by
      rw [h.state]
      exact Kept.noted fun d => sublist_issuedAt env.issue (d.pruneIssues env.rate)
    have hnow : s'.state.issues j.did = lastHour env.rate (s.state.issues j.did) ++ [env.issue] := by
      rw [h.state, issues_noted_modify _ h.known.found, State.issues_of_some h.known.found]
      rfl
    refine .of_issued h.saved (by rw [h.result]; exact hdevice) hkept ?_
      (.inl (hlimited _ rfl (by rw [h.result]; rfl) _ hdevice (.inr hkind)))
    rw [hnow]
  | @keyUpdated j r s' device old new bytes body hkind hjob h =>
    have hdevice : job.device = some j.did := by simp [Job.device, hkind, hjob]
    have hkept : Kept env.rate s.state s'.state := by
      rw [h.state]
      exact Kept.noted fun d => (lastHour_sublist _ _).trans
        (sublist_issuedAt env.issue (d.rekey (b64 new.bytes) body.prot))
    have hnow : s'.state.issues j.did = s.state.issues j.did ++ [env.issue] := by
      rw [h.state, issues_noted_modify _ h.passed.known.found,
        State.issues_of_some h.passed.known.found]
      rfl
    refine .of_issued h.saved (by rw [h.result]; exact hdevice) hkept ?_
      (.inr ⟨j, device, old, new, bytes, body, hkind, hjob, rfl, h.passed⟩)
    rw [hnow]
    exact (lastHour_sublist _ _).append_right _
  | @revoked j r s' hkind hjob h =>
    have hnone : (⟨job, env, some { r with id := job.id }⟩ : Processed).issuedTo ≠ some did := by
      simp [Processed.issuedTo, h.result, JobResult.default]
    refine ⟨?_, .inr h.saved, fun h => absurd h hnone, fun h => absurd h hnone⟩
    rw [h.state]
    exact Kept.modify (f := Device.revoke) _ (fun _ => lastHour_sublist _ _) did

end

/-! ## Runs -/

def issueTimes (did : String) (es : List (Event Signer Act)) : List Int64 :=
  es.filterMap fun e =>
    match e.label with
    | .job p => if p.issuedTo = some did then some p.env.issue else none
    | _ => none

theorem issueTimes_snoc (did : String) (es : List (Event Signer Act)) (e : Event Signer Act) :
    issueTimes did (es ++ [e]) = issueTimes did es ++ issueTimes did [e] :=
  filterMap_append

theorem issueTimes_job (did : String) (s s' : Signer) (p : Processed) :
    issueTimes did [⟨s, .job p, s'⟩] = if p.issuedTo = some did then [p.env.issue] else [] := by
  by_cases h : p.issuedTo = some did <;> simp [issueTimes, h]

theorem issue_mem_readings (env : Env) : env.issue.toInt ∈ env.readings := by
  simp [Env.readings]

theorem rate_mem_readings (env : Env) : env.rate.toInt ∈ env.readings := by
  simp [Env.readings]

theorem mem_readings_of_issueTimes {did : String} {es : List (Event Signer Act)} {x : Int64}
    (h : x ∈ issueTimes did es) : x.toInt ∈ readings es := by
  obtain ⟨e, he, hx⟩ := mem_filterMap.mp h
  refine mem_flatMap.mpr ⟨e, he, ?_⟩
  cases hl : e.label with
  | job p =>
    rw [hl] at hx
    simp only at hx
    split_ifs at hx
    cases hx
    exact issue_mem_readings p.env
  | rotate => simp [hl] at hx
  | restart => simp [hl] at hx

/-- The passports issued in the hour before `u` are among the issue times on file. -/
def Tracks (did : String) (u : Int) (times : List Int64) (st : State) : Prop :=
  ∀ x ∈ times, u - 3600 < x.toInt → times.count x ≤ (st.issues did).count x

theorem Tracks.mono {did : String} {t u : Int} {times : List Int64} {st : State}
    (h : Tracks did t times st) (htu : t ≤ u) : Tracks did u times st :=
  fun x hx hlate => h x hx (by omega)

theorem sub_lt_hour {t x : Int64} (hx : x.toInt ≤ t.toInt) (hlate : t.toInt - 3600 < x.toInt) :
    t - x < 3600 := by
  have hhour : (3600 : Int64).toInt = 3600 := rfl
  rw [Int64.lt_iff_toInt_lt, toInt_sub_of_fits (by omega) (by omega), hhour]
  omega

theorem count_lastHour {t x : Int64} (hx : x.toInt ≤ t.toInt) (hlate : t.toInt - 3600 < x.toInt)
    (issues : List Int64) : (lastHour t issues).count x = issues.count x :=
  count_filter (by simpa using sub_lt_hour hx hlate)

theorem Tracks.count_le {did : String} {t : Int64} {times : List Int64} {st : State}
    (h : Tracks did t.toInt times st) (hpast : ∀ x ∈ times, x.toInt ≤ t.toInt) {x : Int64}
    (hlate : t.toInt - 3600 < x.toInt) : times.count x ≤ (lastHour t (st.issues did)).count x := by
  by_cases hx : x ∈ times
  · rw [count_lastHour (hpast x hx) hlate]
    exact h x hx hlate
  · rw [count_eq_zero_of_not_mem hx]
    exact Nat.zero_le _

theorem Tracks.countP_le {did : String} {t : Int64} {times : List Int64} {st : State} {T : Int}
    (h : Tracks did t.toInt times st) (hpast : ∀ x ∈ times, x.toInt ≤ t.toInt)
    (hT : t.toInt - 3600 < T) :
    times.countP (fun x => T ≤ x.toInt) ≤ (lastHour t (st.issues did)).length := by
  rw [countP_eq_length_filter]
  refine List.Subperm.length_le (subperm_ext_iff.mpr fun x hx => ?_)
  have hTx : T ≤ x.toInt := by simpa using (mem_filter.mp hx).2
  rw [count_filter (by simpa using hTx)]
  exact h.count_le hpast (by omega)

theorem Noted.tracks {did : String} {p : Processed} {times : List Int64} {u : Int}
    (h : Noted C did s p s') (hpast : ∀ x ∈ times, x.toInt ≤ p.env.rate.toInt)
    (hu : p.env.rate.toInt ≤ u) (hstate : Tracks did p.env.rate.toInt times s.state)
    (hsaved : Tracks did p.env.rate.toInt times s.saved) :
    Tracks did u (times ++ issueTimes did [⟨s, .job p, s'⟩]) s'.state ∧
      Tracks did u (times ++ issueTimes did [⟨s, .job p, s'⟩]) s'.saved := by
  rw [issueTimes_job]
  by_cases hto : p.issuedTo = some did
  · rw [if_pos hto]
    obtain ⟨hsub, hfile⟩ := h.issued hto
    have htracks : Tracks did u (times ++ [p.env.issue]) s'.state := by
      intro x _ hlate
      refine le_trans ?_ (hsub.count_le x)
      rw [count_append, count_append]
      exact Nat.add_le_add_right (hstate.count_le hpast (by omega)) _
    exact ⟨htracks, hfile ▸ htracks⟩
  · rw [if_neg hto, append_nil]
    have htracks : Tracks did u times s'.state := by
      intro x _ hlate
      exact (hstate.count_le hpast (by omega)).trans (h.kept.count_le x)
    refine ⟨htracks, ?_⟩
    rcases h.saved with hold | hnew
    · rw [hold]
      exact hsaved.mono hu
    · rw [hnew]
      exact htracks

theorem ActStep.other {root : Bytes} {act : Act} (h : ActStep C root s act s')
    (hact : ∀ p, act ≠ .job p) :
    s'.cfg = s.cfg ∧ (s'.state = s.state ∨ s'.state = s.saved) ∧ s'.saved = s.saved := by
  cases act with
  | job p => exact absurd rfl (hact p)
  | rotate env =>
    obtain rfl : s' = rotateIfNeeded C root env s := h
    rcases rotateIfNeeded_eq C root env s with ⟨⟨log, heq⟩, -⟩ | ⟨heq, -⟩
    · rw [heq]
      exact ⟨rfl, .inl rfl, rfl⟩
    · rw [heq]
      exact ⟨rfl, .inl rfl, rfl⟩
  | restart env =>
    obtain rfl : s' = restart C root env s := h
    exact ⟨rfl, .inr rfl, rfl⟩

theorem issueTimes_other {did : String} {act : Act} (hact : ∀ p, act ≠ .job p) :
    issueTimes did [⟨s, act, s'⟩] = [] := by
  cases act with
  | job p => exact absurd rfl (hact p)
  | rotate => rfl
  | restart => rfl

theorem sorted_env {env : Env} (h : env.readings.Pairwise (· ≤ ·)) :
    env.rate.toInt ≤ env.issue.toInt := by
  simp only [Env.readings, pairwise_cons, mem_cons, forall_eq_or_imp] at h
  exact h.2.2.1.2.1

theorem tracks_of_run {root : Bytes} {s₀ : Signer} {es : List (Event Signer Act)}
    (hrun : Run (ActStep C root) s₀ es s) (did : String)
    (hclock : (readings es).Pairwise (· ≤ ·)) {u : Int} (hu : ∀ t ∈ readings es, t ≤ u) :
    Tracks did u (issueTimes did es) s.state ∧ Tracks did u (issueTimes did es) s.saved := by
  induction hrun generalizing u with
  | nil =>
    have hnone : ∀ st, Tracks did u [] st := fun _ _ hx => absurd hx not_mem_nil
    exact ⟨hnone _, hnone _⟩
  | @snoc es s s' act _ hstep ih =>
    rw [readings_snoc] at hclock hu
    obtain ⟨hbefore, hlast, hle⟩ := pairwise_append.mp hclock
    rw [issueTimes_snoc]
    by_cases hact : ∃ p, act = .job p
    · obtain ⟨p, rfl⟩ := hact
      have hrate := rate_mem_readings p.env
      have hpast : ∀ t ∈ readings es, t ≤ p.env.rate.toInt := fun t ht => hle t ht _ hrate
      obtain ⟨hstate, hsaved⟩ := ih hbefore hpast
      exact (JobStep.noted hstep did).tracks
        (fun x hx => hpast _ (mem_readings_of_issueTimes hx))
        (hu _ (mem_append_right _ hrate)) hstate hsaved
    · have hact : ∀ p, act ≠ .job p := fun p hp => hact ⟨p, hp⟩
      obtain ⟨hstate, hsaved⟩ := ih hbefore fun t ht => hu t (mem_append_left _ ht)
      obtain ⟨-, hstates, hkept⟩ := hstep.other hact
      rw [issueTimes_other hact, append_nil, hkept]
      refine ⟨?_, hsaved⟩
      rcases hstates with heq | heq
      · rw [heq]
        exact hstate
      · rw [heq]
        exact hsaved

theorem cfg_of_run {root : Bytes} {s₀ : Signer} {es : List (Event Signer Act)}
    (hrun : Run (ActStep C root) s₀ es s) : s.cfg = s₀.cfg := by
  refine hrun.invariant (fun s => s.cfg = s₀.cfg) rfl fun {s act s'} hs hstep => ?_
  by_cases hact : ∃ p, act = .job p
  · obtain ⟨p, rfl⟩ := hact
    exact (JobStep.effect hstep).setup.cfg.trans hs
  · exact (hstep.other fun p hp => hact ⟨p, hp⟩).1.trans hs

/-- A key update that passes its checks comes when the limiter would let it. -/
def LimitedUpdate (C : Crypto) (e : Event Signer Act) : Prop :=
  ∀ p j device old new bytes body, e.label = .job p → p.job.kind = "keyupdate" →
    decodeSignedJob p.job.payload = some j →
    KeyUpdatePassed C j p.env e.before device old new bytes body →
    WithinRate e.before j.did p.env.issue

/-- **In every run whose key updates would pass the limiter, a device gets no more than
`max_issues_per_device_hour` passports within 3600 seconds**, if the limit is not zero. -/
theorem issues_within_rate {root : Bytes} {s₀ : Signer} {es : List (Event Signer Act)}
    (hrun : Run (ActStep C root) s₀ es s) (hclock : (readings es).Pairwise (· ≤ ·))
    (hmax : 0 < s₀.cfg.maxIssuesPerDeviceHour) (hupdates : ∀ e ∈ es, LimitedUpdate C e)
    (did : String) (T : Int) :
    (issueTimes did es).countP (fun t => T ≤ t.toInt ∧ t.toInt < T + 3600) ≤
      s₀.cfg.maxIssuesPerDeviceHour := by
  induction hrun with
  | nil => exact Nat.zero_le _
  | @snoc es s s' act hpre hstep ih =>
    rw [readings_snoc] at hclock
    obtain ⟨hbefore, hlast, hle⟩ := pairwise_append.mp hclock
    have ih := ih hbefore fun e he => hupdates e (mem_append_left _ he)
    rw [issueTimes_snoc, countP_append]
    by_cases hissues : ∃ p, act = .job p ∧ p.issuedTo = some did ∧
        (T ≤ p.env.issue.toInt ∧ p.env.issue.toInt < T + 3600)
    · obtain ⟨p, rfl, hto, hT, hend⟩ := hissues
      -- the last reading the limiter was, or could have been, asked at
      obtain ⟨t, hmem, hti, hwithin⟩ : ∃ t : Int64, t.toInt ∈ p.env.readings ∧
          t.toInt ≤ p.env.issue.toInt ∧ WithinRate s did t := by
        rcases (JobStep.noted hstep did).limited hto with hrate |
          ⟨j, device, old, new, bytes, body, hkind, hj, rfl, hpassed⟩
        · exact ⟨_, rate_mem_readings _, sorted_env hlast, hrate⟩
        · exact ⟨_, issue_mem_readings _, le_rfl, hupdates _ (mem_append_right _
            (mem_singleton.mpr rfl)) p j device old new bytes body rfl hkind hj hpassed⟩
      have hpast : ∀ u ∈ readings es, u ≤ t.toInt := fun u hu => hle u hu _ hmem
      have htracks := (tracks_of_run hpre did hbefore hpast).1
      have hcount := htracks.countP_le (T := T)
        (fun x hx => hpast _ (mem_readings_of_issueTimes hx)) (by omega)
      have hwindow : (issueTimes did es).countP (fun t => T ≤ t.toInt ∧ t.toInt < T + 3600) ≤
          (issueTimes did es).countP (fun x => T ≤ x.toInt) :=
        countP_mono_left fun x _ hx => by simp_all
      have hlength : (lastHour t (s.state.issues did)).length < s₀.cfg.maxIssuesPerDeviceHour := by
        rw [← cfg_of_run hpre] at hmax ⊢
        rcases withinRate_iff.mp hwithin with hnone | hlt
        · simpa [State.issues, hnone, lastHour] using hmax
        · exact hlt
      rw [issueTimes_job, if_pos hto]
      have hone : [p.env.issue].countP (fun t => T ≤ t.toInt ∧ t.toInt < T + 3600) ≤ 1 :=
        countP_le_length
      omega
    · have hnone : (issueTimes did [⟨s, act, s'⟩]).countP
          (fun t => T ≤ t.toInt ∧ t.toInt < T + 3600) = 0 := by
        cases act with
        | job p =>
          rw [issueTimes_job]
          split_ifs with hto
          · simp only [countP_cons, countP_nil]
            rw [if_neg]
            intro hin
            exact hissues ⟨p, rfl, hto, by simpa using hin⟩
          · rfl
        | rotate => rfl
        | restart => rfl
      omega

/-! ## Two key updates within a second -/

namespace Sample

def moveBody (old new : Bytes) (nonce : String) : KeyUpdateBody where
  typ := "rdc-keyupdate"
  v := version
  rid := "123456789"
  did := did
  oldKey := b64 (firstBytes 32 old)
  newKey := b64 (firstBytes 32 new)
  newAlg := "ed25519"
  prot := "dpapi"
  ts := 1000
  nonce := nonce

def moveSigned (old new : Bytes) (nonce : String) : SignedJob :=
  ⟨"123456789", did, signKeyUpdate prefixCrypto old new (moveBody old new nonce), 7⟩

def moveJob (old new : Bytes) (nonce : String) : Job :=
  ⟨1, "keyupdate", (moveSigned old new nonce).payload (b64 (firstBytes 32 new)) "dpapi"⟩

theorem decode_moveJob (old new : Bytes) (nonce : String) :
    decodeSignedJob (moveJob old new nonce).payload = some (moveSigned old new nonce) :=
  decodeSignedJob_payload _ _ _

theorem move_short (old new : Bytes) {nonce : String} (hplain : Plain nonce)
    (hlen : nonce.length ≤ 100) : byteLen (moveSigned old new nonce).request ≤ maxTokenLen := by
  refine byteLen_signKeyUpdate_le ?_ ?_
  · simp only [forall_mem_cons, moveBody]
    exact ⟨by decide, by decide, by decide, plain_b64 _, plain_b64 _, by decide, by decide, hplain,
      by simp⟩
  · have hrest : "rdc-keyupdate".length + "123456789".length + did.length + "ed25519".length +
        "dpapi".length ≤ 1000 := by decide
    simp only [moveBody, length_b64, length_firstBytes]
    omega

theorem move_verified (old new : Bytes) {nonce : String} (hplain : Plain nonce)
    (hlen : nonce.length ≤ 100) :
    verifyKeyUpdate prefixCrypto (moveSigned old new nonce).request (prefixCrypto.verifyingKey old)
      1000 requestMaxAge = .ok (moveBody old new nonce, prefixCrypto.verifyingKey new) :=
  verifyKeyUpdate_signKeyUpdate prefixCrypto_correct (move_short old new hplain hlen) ⟨rfl, rfl, rfl⟩
    rfl rfl (by change (1000 - 1000 : Int64).abs ≤ requestMaxAge; decide)

theorem move_accepted {s : Signer} {env : Env} {d : Device} {old new : Bytes} {nonce : String}
    (days : Int64) (hplain : Plain nonce) (hlen : nonce.length ≤ 100) (hfresh : env.fresh = 1000)
    (hd : s.state.devices did = some d) (hrid : d.rid = "123456789") (hstatus : d.status = .approved)
    (hkey : d.idk = b64 (prefixCrypto.verifyingKey old).bytes)
    (hunseen : (s.state.nonceSeen did nonce env.nonce).1 = false) :
    KeyUpdateAccepted prefixCrypto { moveSigned old new nonce with lifetimeDays := days } env s d
      (prefixCrypto.verifyingKey old) (prefixCrypto.verifyingKey new) (moveBody old new nonce) where
  known := ⟨hd, hrid, hstatus⟩
  idk := hkey
  verified := by
    rw [hfresh]
    exact move_verified old new hplain hlen
  names := ⟨rfl, rfl⟩
  prot := show "dpapi" ∈ keyUpdateProts by decide
  unseen := hunseen

theorem move_succeeds {s : Signer} {d : Device} {old new : Bytes} {nonce : String}
    (h : KeyUpdateAccepted prefixCrypto (moveSigned old new nonce) (envAt 1000) s d
      (prefixCrypto.verifyingKey old) (prefixCrypto.verifyingKey new) (moveBody old new nonce))
    (hdays : ¬ s.cfg.maxLifetimeDays < 1) :
    Succeeds (handle prefixCrypto (moveJob old new nonce) (envAt 1000)) s
      (issuedFor prefixCrypto s (envAt 1000) (d.rekey (b64 (prefixCrypto.verifyingKey new).bytes)
        (moveBody old new nonce).prot) (moveSigned old new nonce).lifetimeDays)
      ((s.noted did nonce 1000).modify did (Device.issuedAt 1000 ∘
        Device.rekey (b64 (prefixCrypto.verifyingKey new).bytes) (moveBody old new nonce).prot)) :=
  handle_keyUpdate_succeeds rfl (decode_moveJob old new nonce)
    (handleKeyUpdate_succeeds h ⟨hdays, rfl, rfl⟩)

def strictSigner : Signer := { signer with cfg := ⟨7, 30, 1⟩ }

def firstMove : Event Signer Act :=
  jobEvent prefixCrypto (moveJob [3] [4] "n1") (envAt 1000) strictSigner

def secondMove : Event Signer Act :=
  jobEvent prefixCrypto (moveJob [4] [5] "n2") (envAt 1000) firstMove.after

theorem run_moves : Run (ActStep prefixCrypto [1]) strictSigner [firstMove, secondMove]
    secondMove.after :=
  run_jobEvent (run_jobEvent .nil (moveJob [3] [4] "n1") (envAt 1000)) (moveJob [4] [5] "n2")
    (envAt 1000)

def moved : Device :=
  (device.rekey (b64 (prefixCrypto.verifyingKey [4]).bytes) (moveBody [3] [4] "n1").prot).issuedAt
    1000

theorem firstMove_succeeds : ∃ d st,
    Succeeds (handle prefixCrypto (moveJob [3] [4] "n1") (envAt 1000)) strictSigner
      (issuedFor prefixCrypto strictSigner (envAt 1000) d 7) st ∧
    st.devices did = some moved ∧ st.nonces = [(did, "n1", 1000)] := by
  refine ⟨_, _, move_succeeds (move_accepted 7 (by decide) (by decide) rfl
    (State.insert_devices_same _ _ _) rfl rfl rfl rfl) (by decide), ?_, rfl⟩
  simp [Signer.noted, strictSigner, signer, moved]

theorem issueTimes_of_succeeds {s : Signer} {old new : Bytes} {nonce : String} {d : Device}
    {st : State} {days : Int64}
    (h : Succeeds (handle prefixCrypto (moveJob old new nonce) (envAt 1000)) s
      (issuedFor prefixCrypto s (envAt 1000) d days) st) :
    issueTimes did [jobEvent prefixCrypto (moveJob old new nonce) (envAt 1000) s] = [1000] := by
  have hdevice : (moveJob old new nonce).device = some did := by
    rw [Job.device, if_neg (by change ¬ "keyupdate" = "issue"; decide), decode_moveJob]
    rfl
  rw [jobEvent, issueTimes_job, if_pos]
  · rfl
  · rw [Processed.issuedTo, (process_of_succeeds h).1]
    exact hdevice

theorem moved_idk : moved.idk = b64 (firstBytes 32 [4]) := rfl

theorem unseen_second {st : State} (h : st.nonces = [(did, "n1", 1000)]) :
    (st.nonceSeen did "n2" 1000).1 = false := by
  simp only [State.nonceSeen, State.pruneNonces, h]
  rw [if_neg (by decide)]

theorem secondMove_succeeds : ∃ d st,
    Succeeds (handle prefixCrypto (moveJob [4] [5] "n2") (envAt 1000)) firstMove.after
      (issuedFor prefixCrypto firstMove.after (envAt 1000) d 7) st := by
  obtain ⟨d, st, hfirst, hd, hnonces⟩ := firstMove_succeeds
  obtain ⟨hsetup, hstate, -⟩ := jobEvent_of_succeeds hfirst
  have hd' : firstMove.after.state.devices did = some moved := by
    rw [firstMove, hstate, hd]
  have hnonces' : firstMove.after.state.nonces = [(did, "n1", 1000)] := by
    rw [firstMove, hstate, hnonces]
  have hdays : ¬ firstMove.after.cfg.maxLifetimeDays < 1 := by
    rw [firstMove, hsetup.cfg]
    decide
  generalize firstMove.after = s at hd' hnonces' hdays
  exact ⟨_, _, move_succeeds (move_accepted 7 (by decide) (by decide) rfl hd' rfl rfl moved_idk
    (unseen_second hnonces')) hdays⟩

end Sample

open Sample in
/-- One key update within the limit of one passport an hour. -/
theorem sample_within_rate :
    issueTimes did [firstMove] = [1000] ∧
    (issueTimes did [firstMove]).countP
      (fun t => 1000 ≤ t.toInt ∧ t.toInt < 1000 + 3600) ≤ 1 := by
  obtain ⟨d, st, hfirst, -⟩ := firstMove_succeeds
  refine ⟨issueTimes_of_succeeds hfirst, ?_⟩
  have hrun : Run (ActStep prefixCrypto [1]) strictSigner [firstMove]
      firstMove.after :=
    run_jobEvent .nil (moveJob [3] [4] "n1") (envAt 1000)
  refine issues_within_rate hrun (by decide) (by decide) ?_ did 1000
  intro e he p j _ old new bytes body hlabel _ _ _ d hd
  obtain rfl := mem_singleton.mp he
  -- no passport of any device is on file yet
  obtain ⟨-, rfl⟩ : did = j.did ∧ device = d := by
    by_cases hdid : j.did = did
    · rw [hdid] at hd
      exact ⟨hdid.symm, Option.some.inj hd⟩
    · cases (State.insert_devices_of_ne State.empty device hdid).symm.trans hd
  exact (by decide : 0 < 1)

open Sample in
/-- Two key updates at the same second give two passports where one an hour is allowed. -/
theorem updates_exceed_rate :
    Run (ActStep prefixCrypto [1]) strictSigner [firstMove, secondMove]
      secondMove.after ∧
    (readings [firstMove, secondMove]).Pairwise (· ≤ ·) ∧
    strictSigner.cfg.maxIssuesPerDeviceHour = 1 ∧
    (issueTimes did [firstMove, secondMove]).countP
      (fun t => 1000 ≤ t.toInt ∧ t.toInt < 1000 + 3600) = 2 := by
  obtain ⟨d, st, hfirst, -⟩ := firstMove_succeeds
  obtain ⟨d', st', hsecond⟩ := secondMove_succeeds
  refine ⟨run_moves, by decide, rfl, ?_⟩
  have hsplit : issueTimes did [firstMove, secondMove] =
      issueTimes did [firstMove] ++ issueTimes did [secondMove] :=
    issueTimes_snoc _ [firstMove] _
  rw [hsplit, firstMove, issueTimes_of_succeeds hfirst, secondMove, issueTimes_of_succeeds hsecond]
  decide

end ManagedDirectory.CaSigner
