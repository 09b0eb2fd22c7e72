import ManagedDirectory.Rds.Authorizations

/-!
# RDS: device credentials and poll tokens

`CredChange` is what a transaction does to the credentials of a record. Over a run it gives the
cut-off (`credential_cutoff`): a credential whose device has left `approved` is never accepted
again, and a device has an unrevoked credential only while it is approved, and then one.

`handed` lists the poll tokens that enrollments handed out. The row of a device always carries the
token and the key of one enrollment, so a poll token only ever gets a credential for the key it
came with (`poll_token_binding`).
-/

namespace ManagedDirectory.Rds

open Codec Lib List

/-! ## Credentials of a record -/

section Changes

variable {g : Outside} {t : Tx} {did : String} {r r' : Record} {startedAt : Int}

@[simp] theorem revoke_revoke (c : Credential) : c.revoke.revoke = c.revoke := rfl

inductive CredChange (r r' : Record) : Prop where
  | kept (hcs : r'.credentials = r.credentials)
      (hstatus : r'.status = r.status ∨ r.status ≠ some .approved)
  | revoked (hcs : r'.credentials = r.credentials.map Credential.revoke)
  | issued {c : Credential} (hcs : r'.credentials = r.credentials ++ [c])
      (hfresh : ∀ b ∈ r.credentials, b.serial ≠ c.serial)
      (hnone : ∀ b ∈ r.credentials, b.revoked = true) (hstatus : r'.status = some .approved)
  | dropped (hcs : r'.credentials = []) (hgone : r'.Gone)

theorem status_of_row {d : ManagedDevice} (h : r.row = some d) : r.status = some d.status := by
  rw [Record.status, h, Option.map_some]

theorem credentials_setRow (d d' : ManagedDevice) (h : d.status ≠ .approved) :
    (r.setRow startedAt d d').credentials = r.credentials := by
  unfold Record.setRow
  split_ifs <;> rfl

theorem credentials_setRow_of_revoked (d d' : ManagedDevice) (cs : List Credential)
    (h : r.credentials = cs.map Credential.revoke) :
    (r.setRow startedAt d d').credentials = cs.map Credential.revoke := by
  unfold Record.setRow
  split_ifs <;> simp [h]

theorem credChange_of_credentialed {r₁ : Record} (h : Credentialed startedAt r₁ r')
    (hcs : r₁.credentials = r.credentials) (happroved : r₁.status = some .approved)
    (hstatus : r₁.status = r.status ∨ r.status ≠ some .approved) : CredChange r r' := by
  cases h with
  | has _ _ => exact .kept hcs hstatus
  | new hfresh _ hnone => exact .issued (by rw [hcs]) (hcs ▸ hfresh) (hcs ▸ hnone) happroved

theorem credChange_of_change (h : RecordChange g t did r r') : CredChange r r' := by
  cases h with
  | enrolled hreq hrow hfresh hid => exact .kept rfl (.inr (by simp [Record.status, hrow]))
  | readmitted hreq hrow hopen ha => exact .revoked (credentials_setRow_of_revoked _ _ _ rfl)
  | authorized hreq hrow hopen hfresh hd' =>
    refine .kept rfl (.inr ?_)
    rw [status_of_row hrow]
    simpa using hopen.1
  | @approved _ _ _ _ d _ hreq hrow hopen hcredential =>
    have hne : d.status ≠ .approved := by
      intro happroved
      simp [happroved] at hopen
    refine credChange_of_credentialed hcredential (credentials_setRow _ _ hne) ?_ (.inr ?_)
    · rw [status_of_row (row_setRow _ _)]
      rfl
    · rw [status_of_row hrow]
      simpa using hne
  | renamed hreq hrow happroved hcredential =>
    refine credChange_of_credentialed hcredential rfl ?_ (.inl ?_)
    · rw [status_of_row rfl]
      exact congrArg some happroved
    · rw [status_of_row hrow]
      rfl
  | @changed account change cloudflare d hreq hrow hfrom hcheck =>
    by_cases hdenied : change = .denied
    · subst hdenied
      have hne : d.status ≠ .approved := by
        intro happroved
        rw [happroved] at hcheck
        cases hcheck
      refine .kept ?_ (.inr ?_)
      · rw [if_pos rfl]
        exact credentials_setRow _ _ hne
      · rw [status_of_row hrow]
        simpa using hne
    · rw [if_neg hdenied]
      exact .revoked (credentials_setRow_of_revoked _ _ _ rfl)
  | unchanged hreq hrow hsame => exact .kept rfl (.inl rfl)
  | deleted hreq hrow hclosed => exact .dropped rfl ⟨rfl, rfl⟩
  | touched hreq hrow => exact .kept rfl (.inl (by simp [Record.status, hrow]))
  | worked hreq hrow hdone => cases hdone <;> exact .kept rfl (.inl rfl)

/-- A device has an unrevoked credential only while it is approved, and then one. -/
structure CredInv (r : Record) : Prop where
  one : (r.credentials.filter fun c => !c.revoked).length ≤ 1
  closed : r.status ≠ some .approved → ∀ c ∈ r.credentials, c.revoked = true

theorem filter_active_eq_nil {cs : List Credential} (h : ∀ c ∈ cs, c.revoked = true) :
    (cs.filter fun c => !c.revoked) = [] := by
  rw [filter_eq_nil_iff]
  intro c hc
  simp [h c hc]

theorem revoked_of_mem_map {cs : List Credential} :
    ∀ c ∈ cs.map Credential.revoke, c.revoked = true := by
  intro c hc
  obtain ⟨b, -, rfl⟩ := mem_map.mp hc
  rfl

theorem credInv_of_change (hinv : CredInv r) (h : CredChange r r') : CredInv r' := by
  cases h with
  | kept hcs hstatus =>
    refine ⟨hcs ▸ hinv.one, fun hne => ?_⟩
    rw [hcs]
    rcases hstatus with hsame | hclosed
    · exact hinv.closed (hsame ▸ hne)
    · exact hinv.closed hclosed
  | revoked hcs =>
    have hall : ∀ c ∈ r'.credentials, c.revoked = true := hcs ▸ revoked_of_mem_map
    exact ⟨by simp [filter_active_eq_nil hall], fun _ => hall⟩
  | issued hcs hfresh hnone hstatus =>
    refine ⟨?_, fun hne => absurd hstatus hne⟩
    rw [hcs, filter_append, filter_active_eq_nil hnone, nil_append]
    exact length_filter_le _ _
  | dropped hcs hgone => exact ⟨by simp [hcs], by simp [hcs]⟩

/-- The credential with this serial was issued; its row is there unless the device was deleted. -/
def Issued (serial : String) (r : Record) : Prop :=
  r.Gone ∨ ∃ c ∈ r.credentials, c.serial = serial

structure Dead (serial : String) (r : Record) : Prop where
  issued : Issued serial r
  revoked : ∀ c ∈ r.credentials, c.serial = serial → c.revoked = true

variable {serial : String}

theorem issued_of_change (h : CredChange r r') (hnotGone : ¬ r.Gone) (hissued : Issued serial r) :
    Issued serial r' := by
  obtain ⟨c, hc, hserial⟩ := hissued.resolve_left hnotGone
  cases h with
  | kept hcs _ => exact .inr ⟨c, hcs ▸ hc, hserial⟩
  | revoked hcs => exact .inr ⟨c.revoke, hcs ▸ mem_map_of_mem hc, hserial⟩
  | issued hcs _ _ _ => exact .inr ⟨c, hcs ▸ mem_append_left _ hc, hserial⟩
  | dropped _ hgone => exact .inl hgone

theorem dead_of_change (h : CredChange r r') (hnotGone : ¬ r.Gone) (hdead : Dead serial r) :
    Dead serial r' := by
  refine ⟨issued_of_change h hnotGone hdead.issued, ?_⟩
  cases h with
  | kept hcs _ => exact hcs ▸ hdead.revoked
  | revoked hcs => exact fun c hc _ => (hcs ▸ revoked_of_mem_map) c hc
  | issued hcs hfresh _ _ =>
    rw [hcs]
    intro b hb hserial
    obtain ⟨c, hc, hserial'⟩ := hdead.issued.resolve_left hnotGone
    rcases mem_append.mp hb with hb | hb
    · exact hdead.revoked b hb hserial
    · obtain rfl := mem_singleton.mp hb
      exact absurd (hserial'.trans hserial.symm) (hfresh c hc)
  | dropped hcs _ => simp [hcs]

end Changes

/-! ## Rows of a record -/

/-- Where a row `d'` that a transaction leaves behind has its id, its key and its poll token from:
the row that was there, or an enrollment. -/
inductive RowChange (t : Tx) (did : String) (r : Record) (d' : ManagedDevice) : Prop where
  | kept {d : ManagedDevice} (hreq : t.request.enrollment = none) (hrow : r.row = some d)
      (hid : d'.id = d.id) (hkey : d'.devicePublicKey = d.devicePublicKey) (htoken : d'.pollTokenHash = d.pollTokenHash)
  | enrolled {n : Enrollment} (hreq : t.request.enrollment = some n)
      (hid : d'.id = did ∨ ∃ d, r.row = some d ∧ d'.id = d.id)
      (hkey : d'.devicePublicKey = n.devicePublicKey)
      (htoken : d'.pollTokenHash = n.newPollTokenHash)

section Rows

variable {g : Outside} {t : Tx} {did : String} {r r' : Record}

theorem rowChange_touch {d : ManagedDevice} (hreq : t.request.enrollment = none)
    (hrow : r.row = some d) (u : Touch) : RowChange t did r (u.row d) := by
  unfold Touch.row
  split <;> exact .kept hreq hrow rfl rfl rfl

theorem rowChange_of_change (h : RecordChange g t did r r') {d' : ManagedDevice}
    (hd' : r'.row = some d') : RowChange t did r d' := by
  cases h with
  | enrolled hreq hrow hfresh hid =>
    cases hd'
    exact .enrolled (congrArg Request.enrollment hreq) (.inl hid.symm) rfl rfl
  | readmitted hreq hrow hopen ha =>
    rw [row_setRow] at hd'
    cases hd'
    exact .enrolled hreq (.inr ⟨_, hrow, rfl⟩) rfl rfl
  | authorized hreq hrow hopen hfresh hmoved =>
    cases hd'
    have hnone := congrArg Request.enrollment hreq
    rcases hmoved with rfl | rfl <;> exact .kept hnone hrow rfl rfl rfl
  | approved hreq hrow hopen hcredential =>
    rw [row_credentialed hcredential, row_setRow] at hd'
    cases hd'
    exact .kept (congrArg Request.enrollment hreq) hrow rfl rfl rfl
  | renamed hreq hrow happroved hcredential =>
    rw [row_credentialed hcredential] at hd'
    cases hd'
    exact .kept (congrArg Request.enrollment hreq) hrow rfl rfl rfl
  | changed hreq hrow hfrom hcheck =>
    rw [row_setRow] at hd'
    cases hd'
    exact .kept (congrArg Request.enrollment hreq) hrow rfl rfl rfl
  | unchanged hreq hrow hsame => exact .kept (congrArg Request.enrollment hreq) hd' rfl rfl rfl
  | deleted hreq hrow hclosed => cases hd'
  | @touched u d hreq hrow =>
    cases hd'
    exact rowChange_touch (congrArg Request.enrollment hreq) hrow u
  | worked hreq hrow hdone =>
    have hnone := congrArg Request.enrollment hreq
    cases hdone <;> exact .kept hnone hd' rfl rfl rfl

theorem id_of_change (hid : ∀ d, r.row = some d → d.id = did) (h : RecordChange g t did r r') :
    ∀ d, r'.row = some d → d.id = did := by
  intro d' hd'
  cases rowChange_of_change h hd' with
  | kept hreq hrow hid' hkey htoken => exact hid'.trans (hid _ hrow)
  | enrolled hreq hid' hkey htoken =>
    rcases hid' with hid' | ⟨d, hrow, hid'⟩
    · exact hid'
    · exact hid'.trans (hid _ hrow)

end Rows

/-! ## The cut-off -/

section CutOff

variable {P : Platform} {I : Issuer} {g : Outside} {s m : State} {es : List Ev} {did serial : String}

theorem credInv_of_run (h : Run (TxStep P I) (noDevices g) es s) (did : String) :
    CredInv (s.cells did) :=
  record_invariant h (fun _ => CredInv) (fun _ => ⟨by simp [Record.empty], by simp [Record.empty]⟩)
    (fun hinv hchange => credInv_of_change hinv (credChange_of_change hchange)) did

theorem id_of_run (h : Run (TxStep P I) (noDevices g) es s) {d : ManagedDevice}
    (hd : (s.cells did).row = some d) : d.id = did :=
  record_invariant h (fun did r => ∀ d, r.row = some d → d.id = did)
    (fun _ d hd => by cases hd) id_of_change did d hd

theorem issued_since (hm : Locks.Valid (rules P I) m) (h : Run (TxStep P I) m es s)
    (hissued : Issued serial (m.cells did)) : Issued serial (s.cells did) := by
  refine record_history hm h (fun _ => Issued serial) hissued ?_
  intro es e hinv hstep
  rcases hstep.same_or_commit with hsame | ⟨g, t, -, hchange⟩
  · rwa [hsame]
  · exact issued_of_change (credChange_of_change hchange)
      (fun hgone => gone_unchanged hgone hchange) hinv

theorem dead_since (hm : Locks.Valid (rules P I) m) (h : Run (TxStep P I) m es s)
    (hdead : Dead serial (m.cells did)) : Dead serial (s.cells did) := by
  refine record_history hm h (fun _ => Dead serial) hdead ?_
  intro es e hinv hstep
  rcases hstep.same_or_commit with hsame | ⟨g, t, -, hchange⟩
  · rwa [hsame]
  · exact dead_of_change (credChange_of_change hchange)
      (fun hgone => gone_unchanged hgone hchange) hinv

theorem dead_of_left {pre post : List Ev} {y z : Ev}
    (h : Run (TxStep P I) (noDevices g) (pre ++ y :: post) s)
    (hissued : ∃ c ∈ (y.after.cells did).credentials, c.serial = serial) (hz : z ∈ y :: post)
    (hleft : (z.after.cells did).status ≠ some .approved) : Dead serial (s.cells did) := by
  obtain ⟨hpre, hstep, hpost⟩ := h.split
  have hy := Run.snoc hpre hstep
  suffices hdead : ∃ post', Run (TxStep P I) z.after post' s ∧
      Locks.Valid (rules P I) z.after ∧ Dead serial (z.after.cells did) by
    obtain ⟨post', hrun, hvalid, hdead⟩ := hdead
    exact dead_since hvalid hrun hdead
  rcases mem_cons.mp hz with rfl | hz
  · exact ⟨post, hpost, valid_noDevices hy, .inr hissued,
      fun c hc _ => (credInv_of_run hy did).closed hleft c hc⟩
  · obtain ⟨mid, post', rfl⟩ := append_of_mem hz
    obtain ⟨hmid, hstep', hpost'⟩ := hpost.split
    have hz' := hy.trans (.snoc hmid hstep')
    exact ⟨post', hpost', valid_noDevices hz',
      issued_since (valid_noDevices hy) (.snoc hmid hstep') (.inr hissued),
      fun c hc _ => (credInv_of_run hz' did).closed hleft c hc⟩

/-- A credential that `approve_device` answers with when it commits in `e`. -/
def SignedByApproval (I : Issuer) (e : Ev) (did : String) (claims : CredentialClaims) : Prop :=
  ∃ t account name serial d c, e.label = .commit did t ∧
    t.request = .approve did account name serial ∧ (e.after.cells did).row = some d ∧
    (e.after.cells did).activeCredential t.startedAt = some c ∧
    claims = signDeviceCredential I d c

/-- A credential that `enrollment_status` answers with in state `s`. -/
def SignedByStatus (I : Issuer) (s : State) (did : String) (claims : CredentialClaims) : Prop :=
  ∃ pollTokenHash now answer, enrollmentStatus I (s.cells did) pollTokenHash now = .ok answer ∧
    answer.credential = some claims

theorem sub_of_signed {x : Ev} (hrun : Run (TxStep P I) (noDevices g) es x.after)
    {claims : CredentialClaims}
    (h : SignedByApproval I x did claims ∨ SignedByStatus I x.after did claims) :
    claims.sub = did := by
  rcases h with ⟨t, account, name, serial, d, c, -, -, hrow, -, rfl⟩ |
    ⟨token, now, answer, hanswer, hclaims⟩
  · exact id_of_run hrun hrow
  · simp only [enrollmentStatus, bind_ok_iff, orRefuse_eq_ok, pure_ok_iff] at hanswer
    obtain ⟨d, hd, rfl⟩ := hanswer
    obtain ⟨hrow, -⟩ := Option.filter_eq_some_iff.mp hd
    simp only [Option.ite_none_right_eq_some, Option.map_eq_some_iff] at hclaims
    obtain ⟨-, c, -, rfl⟩ := hclaims
    exact id_of_run hrun hrow

theorem validate_of_dead {records : String → Record} {claims : CredentialClaims}
    (h : Dead claims.serial (records claims.sub)) (now : Int) :
    validateDeviceCredential I records now (I.encode claims) = .error unauthorized := by
  have hfind : ((records claims.sub).credentials.find? fun c =>
      c.serial == claims.serial && !c.revoked && c.expiresAt.all (now < ·)) = none := by
    rw [List.find?_eq_none]
    intro c hc
    simp only [Bool.and_eq_true, beq_iff_eq, Bool.not_eq_true', not_and, and_imp]
    intro hserial hactive
    simp [h.revoked c hc hserial] at hactive
  unfold validateDeviceCredential
  cases hdecode : I.decode now (I.encode claims) with
  | none => rfl
  | some claims' =>
    obtain rfl := I.decode_encode hdecode
    simp only [orRefuse, bind, Except.bind, hfind]
    cases Option.filter _ (records claims'.sub).row <;> rfl

/-- **Credential cut-off**: a credential is refused once its device has left `approved` after the
credential was issued, and at most one credential of a device is unrevoked, while it is approved. -/
theorem credential_cutoff (h : Run (TxStep P I) (noDevices g) es s) (did : String) :
    (∀ x ∈ es, ∀ claims,
      SignedByApproval I x did claims ∨ SignedByStatus I x.after did claims →
      ∀ pre y post, es = pre ++ y :: post →
        (∃ c ∈ (y.after.cells did).credentials, c.serial = claims.serial) →
        (∃ z ∈ y :: post, (z.after.cells did).status ≠ some .approved) →
        ∀ now, validateDeviceCredential I s.cells now (I.encode claims) = .error unauthorized) ∧
    ((s.cells did).credentials.filter fun c => !c.revoked).length ≤ 1 ∧
    (∀ c ∈ (s.cells did).credentials, c.revoked = false → (s.cells did).status = some .approved) := by
  refine ⟨?_, (credInv_of_run h did).one, ?_⟩
  · rintro x hx claims hsigned pre y post hes hissued ⟨z, hz, hleft⟩ now
    apply validate_of_dead
    obtain ⟨pre', post', hes'⟩ := append_of_mem hx
    obtain ⟨hpre', hstep', -⟩ := (hes' ▸ h).split
    rw [sub_of_signed (.snoc hpre' hstep') hsigned]
    exact dead_of_left (hes ▸ h) hissued hz hleft
  · intro c hc hactive
    by_contra hne
    simp [(credInv_of_run h did).closed hne c hc] at hactive

end CutOff

/-- The first credential of the sample device is refused after the second approval. -/
theorem sample_credential_cutoff : ∃ es x claims, x ∈ es ∧
    Run (TxStep plainPlatform plainIssuer) (noDevices sampleOutside) es
      (sampleAt 6 sampleReapproved) ∧
    SignedByApproval plainIssuer x "d" claims ∧
    validateDeviceCredential plainIssuer (sampleAt 6 sampleReapproved).cells 7
      (plainIssuer.encode claims) = .error unauthorized := by
  obtain ⟨es, hrun, hcommits⟩ := (sample_return (P := plainPlatform) (I := plainIssuer)).trans
    sample_reapproved
  obtain ⟨pre, x, post, rfl, -, hpost, hx⟩ := committed_split
    (show committed es = [_] ++ sampleCommit _ sampleEnrolled 2 sampleApproved :: _ from hcommits)
  have hblock : sampleCommit sampleBlock sampleApproved 3 sampleBlocked ∈ committed post := by
    simp [hpost]
  obtain ⟨z, hz, hzcommit⟩ := mem_filterMap.mp hblock
  obtain ⟨hlabel, -, hafter⟩ := commitOf_eq_some hx
  obtain ⟨-, -, hzafter⟩ := commitOf_eq_some hzcommit
  have hsigned : SignedByApproval plainIssuer x "d" (signDeviceCredential plainIssuer
      ((newDevice ⟨sampleEnrollment 1 "t1" 1, none, "d"⟩).approve none) ⟨"c1", 2, none, false⟩) :=
    ⟨_, _, _, _, _, _, hlabel, rfl, by rw [hafter]; rfl, by rw [hafter]; rfl, rfl⟩
  refine ⟨_, x, _, by simp, hrun, hsigned, ?_⟩
  refine (credential_cutoff hrun "d").1 x (by simp) _ (.inl hsigned) pre x post rfl ?_
    ⟨z, mem_cons_of_mem _ hz, by rw [hzafter]; decide⟩ 7
  rw [hafter]
  exact ⟨⟨"c1", 2, none, false⟩, by simp [sampleApproved], rfl⟩

/-! ## Poll tokens -/

/-- A poll token that an enrollment handed out, by its hash, for a device and the key it sent. -/
structure Handed where
  did : String
  token : String
  key : Bytes

def handedBy (c : Commit) : Option Handed :=
  c.tx.request.enrollment.map fun n => ⟨c.did, n.newPollTokenHash, n.devicePublicKey⟩

def handed (es : List Ev) : List Handed := (committed es).filterMap handedBy

def ManagedDevice.handed (did : String) (d : ManagedDevice) : Handed :=
  ⟨did, d.pollTokenHash, d.devicePublicKey⟩

section Tokens

variable {P : Platform} {I : Issuer} {g : Outside} {s m : State} {es : List Ev} {did : String}

theorem handed_append (es es' : List Ev) : handed (es ++ es') = handed es ++ handed es' := by
  simp only [handed, committed, filterMap_append]

theorem mem_handed {e : Ev} {t : Tx} {n : Enrollment} (he : e ∈ es)
    (hlabel : e.label = .commit did t) (hn : t.request.enrollment = some n) :
    ⟨did, n.newPollTokenHash, n.devicePublicKey⟩ ∈ handed es :=
  mem_filterMap.mpr ⟨_, mem_committed he hlabel, by simp [handedBy, hn]⟩

/-- A row has its token and its key from one enrollment: one since `m`, or the one that the row in
`m` has them from. -/
theorem handed_since {q : List Handed} (hm : Locks.Valid (rules P I) m)
    (h : Run (TxStep P I) m es s) (h0 : ∀ d, (m.cells did).row = some d → d.handed did ∈ q) :
    ∀ d, (s.cells did).row = some d → d.handed did ∈ q ++ handed es := by
  refine record_history hm h (fun es r => ∀ d, r.row = some d → d.handed did ∈ q ++ handed es)
    (by simpa [handed, committed] using h0) ?_
  intro es e hinv hstep d' hd'
  have hkeep : ∀ d, (e.before.cells did).row = some d → d.handed did ∈ q ++ handed (es ++ [e]) := by
    intro d hd
    rw [handed_append, ← append_assoc]
    exact mem_append_left _ (hinv d hd)
  rcases hstep.same_or_commit with hsame | ⟨g, t, hlabel, hchange⟩
  · exact hkeep d' (hsame ▸ hd')
  · cases rowChange_of_change hchange hd' with
    | @kept d hreq hrow hid hkey htoken =>
      have heq : d'.handed did = d.handed did := by
        rw [ManagedDevice.handed, hkey, htoken]
        rfl
      exact heq ▸ hkeep d hrow
    | enrolled hreq hid hkey htoken =>
      rw [ManagedDevice.handed, hkey, htoken]
      exact mem_append_right _ (mem_handed (by simp) hlabel hreq)

theorem handed_of_run (h : Run (TxStep P I) (noDevices g) es s) {d : ManagedDevice}
    (hd : (s.cells did).row = some d) : d.handed did ∈ handed es := by
  refine handed_since (q := []) (valid_noDevices .nil) h ?_ d hd
  intro d hd
  cases hd

theorem handed_of_enrollment {pre post : List Ev} {e : Ev} {t : Tx} {n : Enrollment}
    (h : Run (TxStep P I) (noDevices g) (pre ++ e :: post) s) (hlabel : e.label = .commit did t)
    (hn : t.request.enrollment = some n) :
    ∀ d, (e.after.cells did).row = some d → d.handed did ∈ handed [e] := by
  intro d hd
  obtain ⟨_, _, _, -, -, hplan, -⟩ := Locks.locked_of_run rfl h hlabel
  cases rowChange_of_change (run_ok (toOption_eq_some hplan)) hd with
  | kept hreq hrow hid hkey htoken => simp [hn] at hreq
  | enrolled hreq hid hkey htoken =>
    rw [ManagedDevice.handed, hkey, htoken]
    exact mem_handed (mem_singleton_self e) hlabel hreq

theorem enrollmentStatus_ok {r : Record} {token : String} {now : Int} {answer : StatusAnswer}
    (h : enrollmentStatus I r token now = .ok answer) :
    ∃ d, r.row = some d ∧ d.pollTokenHash = token ∧
      ∀ claims, answer.credential = some claims → claims.pkh = keyHash I d.devicePublicKey := by
  simp only [enrollmentStatus, bind_ok_iff, orRefuse_eq_ok, pure_ok_iff] at h
  obtain ⟨d, hd, rfl⟩ := h
  obtain ⟨hrow, hok⟩ := Option.filter_eq_some_iff.mp hd
  simp only [Bool.and_eq_true, beq_iff_eq] at hok
  refine ⟨d, hrow, hok.1, fun claims hclaims => ?_⟩
  simp only [Option.ite_none_right_eq_some, Option.map_eq_some_iff] at hclaims
  obtain ⟨-, c, -, rfl⟩ := hclaims
  rfl

theorem enrollmentStatus_eq_error {r : Record} {token : String} {now : Int}
    (h : ∀ d, r.row = some d → d.pollTokenHash ≠ token) :
    enrollmentStatus I r token now = .error unauthorized := by
  have hnone : (r.row.filter fun d => d.pollTokenHash == token && now < d.pollExpiresAt) = none := by
    rw [Option.filter_eq_none_iff]
    intro d hd
    simp [h d hd]
  rw [enrollmentStatus, hnone]
  rfl

/-- **A poll token is bound to the key it came with**: where the tokens handed out are distinct, a
credential that answers a token is for the key of the request that got the token, and a token that
an enrollment replaced is not answered again. -/
theorem poll_token_binding (h : Run (TxStep P I) (noDevices g) es s)
    (hdistinct : ((handed es).map Handed.token).Nodup) :
    (∀ did token now answer claims, enrollmentStatus I (s.cells did) token now = .ok answer →
      answer.credential = some claims →
      ∃ p ∈ handed es, p.token = token ∧ p.did = did ∧ claims.pkh = keyHash I p.key ∧
        ∀ q ∈ handed es, q.token = token → q = p) ∧
    (∀ pre e post did t n d, es = pre ++ e :: post → e.label = .commit did t →
      t.request.enrollment = some n → (e.before.cells did).row = some d →
      ∀ did' now, enrollmentStatus I (s.cells did') d.pollTokenHash now = .error unauthorized) := by
  have hone : ∀ p ∈ handed es, ∀ q ∈ handed es, q.token = p.token → q = p :=
    fun p hp q hq htoken => inj_on_of_nodup_map hdistinct hq hp htoken
  constructor
  · intro did token now answer claims hanswer hclaims
    obtain ⟨d, hrow, rfl, hpkh⟩ := enrollmentStatus_ok hanswer
    exact ⟨_, handed_of_run h hrow, rfl, rfl, hpkh claims hclaims, hone _ (handed_of_run h hrow)⟩
  · rintro pre e post did t n d rfl hlabel hn hd did' now
    obtain ⟨hpre, hstep, hpost⟩ := h.split
    have hold : d.handed did ∈ handed pre := handed_of_run hpre hd
    apply enrollmentStatus_eq_error
    intro d' hd' htoken
    have hsame : d'.handed did' = d.handed did := by
      refine hone _ ?_ _ (handed_of_run h hd') htoken
      rw [handed_append]
      exact mem_append_left _ hold
    obtain rfl : did' = did := congrArg Handed.did hsame
    have hnew := handed_since (valid_noDevices (.snoc hpre hstep)) hpost
      (handed_of_enrollment h hlabel hn) d' hd'
    rw [show pre ++ e :: post = pre ++ ([e] ++ post) from rfl, handed_append, handed_append,
      map_append, nodup_append'] at hdistinct
    refine hdistinct.2.2 (mem_map_of_mem hold) ?_
    exact mem_map.mpr ⟨_, hnew, htoken⟩

end Tokens

/-- The second token of the sample device is answered for its second key, the first one not at
all. -/
theorem sample_poll_token_binding : ∃ es claims,
    Run (TxStep plainPlatform plainIssuer) (noDevices sampleOutside) es
      (sampleAt 6 sampleReapproved) ∧
    enrollmentStatus plainIssuer sampleReapproved "t2" 7 = .ok ⟨.approved, some claims⟩ ∧
    claims.pkh = keyHash plainIssuer (List.replicate 32 2) ∧
    enrollmentStatus plainIssuer sampleReapproved "t1" 7 = .error unauthorized := by
  obtain ⟨es, hrun, hcommits⟩ := (sample_return (P := plainPlatform) (I := plainIssuer)).trans
    sample_reapproved
  have hhanded : handed es =
      [⟨"d", "t1", List.replicate 32 1⟩, ⟨"d", "t2", List.replicate 32 2⟩] := by
    rw [handed, hcommits]
    rfl
  have hdistinct : ((handed es).map Handed.token).Nodup := by
    rw [hhanded]
    decide
  have hbinding := poll_token_binding hrun hdistinct
  obtain ⟨pre, e, post, rfl, -, -, he⟩ := committed_split
    (show committed es = [_, _, _, _] ++ sampleCommit _ _ 5 sampleReturned :: _ from hcommits)
  obtain ⟨hlabel, hbefore, -⟩ := commitOf_eq_some he
  have hcell : (sampleAt 6 sampleReapproved).cells "d" = sampleReapproved := cells_oneDevice
  obtain ⟨claims, hanswer⟩ : ∃ claims, enrollmentStatus plainIssuer sampleReapproved "t2" 7 =
      .ok ⟨.approved, some claims⟩ := ⟨_, rfl⟩
  obtain ⟨p, hp, htoken, -, hpkh, -⟩ :=
    hbinding.1 "d" "t2" 7 _ claims (by rw [hcell]; exact hanswer) rfl
  have hkey : p.key = List.replicate 32 2 := by
    rw [hhanded] at hp
    simp only [mem_cons, not_mem_nil, or_false] at hp
    rcases hp with rfl | rfl
    · simp at htoken
    · rfl
  refine ⟨_, claims, hrun, hanswer, hkey ▸ hpkh, ?_⟩
  have hold := hbinding.2 pre e post "d" _ _ _ rfl hlabel rfl (by rw [hbefore]; rfl) "d" 7
  rwa [hcell] at hold

end ManagedDirectory.Rds
