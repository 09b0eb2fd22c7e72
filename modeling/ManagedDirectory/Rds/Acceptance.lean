import ManagedDirectory.Rds.Credentials

/-!
# RDS: a credential that is accepted later

A credential is issued to an approved device and revoked when the device leaves that status; its row
and the identity it stands for do not change in between (`live_since`). So a token that RDS has
signed and that it accepts at some time, it has accepted at every time since it was signed
(`accepted_before`).
-/

namespace ManagedDirectory.Rds

open Codec Lib List

/-! ## A live credential -/

/-- The device has a row and an unrevoked credential with this serial. -/
structure Live (serial : String) (r : Record) (d : ManagedDevice) (c : Credential) : Prop where
  row : r.row = some d
  mem : c ∈ r.credentials
  serial : c.serial = serial
  active : c.revoked = false

structure SameIdentity (d d' : ManagedDevice) (c c' : Credential) : Prop where
  rustdeskId : d'.rustdeskId = d.rustdeskId
  devicePublicKey : d'.devicePublicKey = d.devicePublicKey
  expiresAt : c'.expiresAt = c.expiresAt

section Changes

variable {g : Outside} {t : Tx} {did serial : String} {r r' : Record} {d' : ManagedDevice}
  {c' : Credential}

theorem identity_touch (u : Touch) (d : ManagedDevice) :
    (u.row d).rustdeskId = d.rustdeskId ∧ (u.row d).devicePublicKey = d.devicePublicKey := by
  unfold Touch.row
  split <;> exact ⟨rfl, rfl⟩

theorem identity_of_change (h : RecordChange g t did r r') (happroved : r.status = some .approved)
    (happroved' : r'.status = some .approved) (hd' : r'.row = some d') :
    ∃ d, r.row = some d ∧ d'.rustdeskId = d.rustdeskId ∧ d'.devicePublicKey = d.devicePublicKey := by
  have hrow' : ∀ {d}, r.row = some d → d.status = .approved := by
    intro d hd
    rw [status_of_row hd] at happroved
    exact Option.some.inj happroved
  cases h with
  | enrolled hreq hrow hfresh hid => simp [Record.status, hrow] at happroved
  | readmitted hreq hrow hopen ha => exact absurd (hrow' hrow) hopen.1
  | authorized hreq hrow hopen hfresh hmoved => exact absurd (hrow' hrow) hopen.1
  | approved hreq hrow hopen hcredential =>
    rw [hrow' hrow] at hopen
    simp at hopen
  | renamed hreq hrow _ hcredential =>
    rw [row_credentialed hcredential] at hd'
    cases hd'
    exact ⟨_, hrow, rfl, rfl⟩
  | changed hreq hrow hfrom hcheck =>
    rw [row_setRow] at hd'
    cases hd'
    exact ⟨_, hrow, rfl, rfl⟩
  | unchanged hreq hrow hsame => exact ⟨d', hd', rfl, rfl⟩
  | deleted hreq hrow hclosed => cases hd'
  | @touched u d hreq hrow =>
    cases hd'
    exact ⟨d, hrow, identity_touch u d⟩
  | worked hreq hrow hdone => cases hdone <;> exact ⟨d', hd', rfl, rfl⟩

theorem live_of_change (hinv : CredInv r) (hinv' : CredInv r')
    (hissued : ∃ c ∈ r.credentials, c.serial = serial) (h : RecordChange g t did r r')
    (hlive : Live serial r' d' c') : ∃ d c, Live serial r d c ∧ SameIdentity d d' c c' := by
  have hmem : c' ∈ r.credentials := by
    cases credChange_of_change h with
    | kept hcs _ => exact hcs ▸ hlive.mem
    | revoked hcs =>
      have hrevoked := (hcs ▸ revoked_of_mem_map) c' hlive.mem
      rw [hlive.active] at hrevoked
      cases hrevoked
    | issued hcs hfresh _ _ =>
      have hc' := hlive.mem
      rw [hcs] at hc'
      rcases mem_append.mp hc' with hc' | hc'
      · exact hc'
      · obtain rfl := mem_singleton.mp hc'
        obtain ⟨b, hb, hserial⟩ := hissued
        exact absurd (hserial.trans hlive.serial.symm) (hfresh b hb)
    | dropped hcs _ =>
      have hc' := hlive.mem
      rw [hcs] at hc'
      cases hc'
  have hopen : ∀ {x : Record}, CredInv x → c' ∈ x.credentials → x.status = some .approved := by
    intro x hx hc'
    by_contra hne
    have hrevoked := hx.closed hne c' hc'
    rw [hlive.active] at hrevoked
    cases hrevoked
  obtain ⟨d, hd, hid, hkey⟩ := identity_of_change h (hopen hinv hmem) (hopen hinv' hlive.mem) hlive.row
  exact ⟨d, c', ⟨hd, hmem, hlive.serial, hlive.active⟩, hid, hkey, rfl⟩

/-- The credentials of `x` have the times of credentials of `r`. -/
def OldTimes (r x : Record) : Prop :=
  ∀ c' ∈ x.credentials, ∃ c ∈ r.credentials, c.issuedAt = c'.issuedAt

theorem oldTimes_revoked {x : Record} (h : x.credentials = r.credentials.map Credential.revoke) :
    OldTimes r x := by
  intro c' hc'
  rw [h] at hc'
  obtain ⟨c, hc, rfl⟩ := mem_map.mp hc'
  exact ⟨c, hc, rfl⟩

theorem oldTimes_same {x : Record} (h : x.credentials = r.credentials) : OldTimes r x :=
  fun c' hc' => ⟨c', h ▸ hc', rfl⟩

theorem oldTimes_setRow {startedAt : Int} {x : Record} (d d' : ManagedDevice) (h : OldTimes r x) :
    OldTimes r (x.setRow startedAt d d') := by
  intro c' hc'
  unfold Record.setRow at hc'
  split_ifs at hc'
  · exact h c' hc'
  · obtain ⟨b, hb, rfl⟩ := mem_map.mp hc'
    exact h b hb
  · exact h c' hc'

theorem issuedAt_credentialed {startedAt : Int} {x : Record}
    (hcredential : Credentialed startedAt x r') (h : OldTimes r x) :
    ∀ c' ∈ r'.credentials, (∃ c ∈ r.credentials, c.issuedAt = c'.issuedAt) ∨
      c'.issuedAt = startedAt := by
  intro c' hc'
  cases hcredential with
  | has _ _ => exact .inl (h c' hc')
  | new _ _ _ =>
    rcases mem_append.mp hc' with hc' | hc'
    · exact .inl (h c' hc')
    · rw [mem_singleton.mp hc']
      exact .inr rfl

theorem issuedAt_of_change (h : RecordChange g t did r r') :
    ∀ c' ∈ r'.credentials, (∃ c ∈ r.credentials, c.issuedAt = c'.issuedAt) ∨
      c'.issuedAt = t.startedAt := by
  cases h with
  | approved hreq hrow hopen hcredential =>
    exact issuedAt_credentialed hcredential (oldTimes_setRow _ _ (oldTimes_same rfl))
  | renamed hreq hrow happroved hcredential =>
    exact issuedAt_credentialed hcredential (oldTimes_same rfl)
  | readmitted hreq hrow hopen ha =>
    exact fun c' hc' => .inl (oldTimes_setRow _ _ (oldTimes_revoked rfl) c' hc')
  | changed hreq hrow hfrom hcheck =>
    refine fun c' hc' => .inl (oldTimes_setRow _ _ ?_ c' hc')
    split_ifs
    · exact oldTimes_same rfl
    · exact oldTimes_revoked rfl
  | worked hreq hrow hdone => cases hdone <;> exact fun c' hc' => .inl ⟨c', hc', rfl⟩
  | deleted hreq hrow hclosed => exact fun c' hc' => by cases hc'
  | enrolled | authorized | unchanged | touched => exact fun c' hc' => .inl ⟨c', hc', rfl⟩

end Changes

/-! ## Over a run -/

section Runs

variable {P : Platform} {I : Issuer} {g : Outside} {s m : State} {es : List Ev} {did serial : String}

theorem clock_step {l : Locks.Label String Tx} (h : TxStep P I m l s) :
    m.outside.clock ≤ s.outside.clock := by
  cases h with
  | outside hmoves => exact hmoves
  | _ => exact le_rfl

theorem clock_run (h : Run (TxStep P I) m es s) : m.outside.clock ≤ s.outside.clock :=
  h.invariant (fun s => m.outside.clock ≤ s.outside.clock) le_rfl
    fun hle hstep => hle.trans (clock_step hstep)

theorem startedAt_of_commit {t : Tx} (h : Run (TxStep P I) (noDevices g) es m)
    (hstep : TxStep P I m (.commit did t) s) : t.startedAt ≤ m.outside.clock := by
  obtain ⟨x, hx, -, hop⟩ := Locks.held_of_commit hstep
  obtain ⟨e, he, -, hstarts⟩ := Locks.started_of_run rfl rfl h t (.inr ⟨x, hx, hop⟩)
  obtain ⟨pre, post, rfl⟩ := append_of_mem he
  obtain ⟨-, hfirst, hrest⟩ := h.split
  rw [hstarts.clock]
  exact (clock_step hfirst).trans (clock_run hrest)

theorem issuedAt_of_run (h : Run (TxStep P I) (noDevices g) es s) :
    ∀ did, ∀ c ∈ (s.cells did).credentials, c.issuedAt ≤ s.outside.clock := by
  induction h with
  | nil => exact fun did c hc => by cases hc
  | @snoc es m s l hrun hstep ih =>
    intro did c hc
    refine le_trans ?_ (clock_step hstep)
    have hchange := recordStep_of_change (Locks.step_change (valid_noDevices hrun) hstep did)
    rcases hchange.same_or_commit with hsame | ⟨g, t, rfl, hcommit⟩
    · exact ih did c (hsame ▸ hc)
    · rcases issuedAt_of_change hcommit c hc with ⟨b, hb, heq⟩ | heq
      · exact heq ▸ ih did b hb
      · exact heq ▸ startedAt_of_commit hrun hstep

/-- **A credential that is live was live at every time since it was issued**, with the same
identity. -/
theorem live_since {pre : List Ev} (hm : Run (TxStep P I) (noDevices g) pre m)
    (h : Run (TxStep P I) m es s) (hissued : Issued serial (m.cells did)) {d' : ManagedDevice}
    {c' : Credential} (hlive : Live serial (s.cells did) d' c') :
    ∃ d c, Live serial (m.cells did) d c ∧ SameIdentity d d' c c' := by
  suffices hall : CredInv (s.cells did) ∧ Issued serial (s.cells did) ∧
      ∀ d' c', Live serial (s.cells did) d' c' →
        ∃ d c, Live serial (m.cells did) d c ∧ SameIdentity d d' c c' from hall.2.2 d' c' hlive
  refine record_history (valid_noDevices hm) h (fun _ r => CredInv r ∧ Issued serial r ∧
    ∀ d' c', Live serial r d' c' →
      ∃ d c, Live serial (m.cells did) d c ∧ SameIdentity d d' c c')
    ⟨credInv_of_run hm did, hissued, fun d c hlive => ⟨d, c, hlive, rfl, rfl, rfl⟩⟩ ?_
  rintro es e ⟨hinv, hissued, hback⟩ hstep
  rcases hstep.same_or_commit with hsame | ⟨g, t, -, hchange⟩
  · rw [hsame]
    exact ⟨hinv, hissued, hback⟩
  · have hnotGone : ¬ (e.before.cells did).Gone := fun hgone => gone_unchanged hgone hchange
    have hcred := credChange_of_change hchange
    have hinv' := credInv_of_change hinv hcred
    refine ⟨hinv', issued_of_change hcred hnotGone hissued, fun d'' c'' hlive => ?_⟩
    obtain ⟨d', c', hlive', hsame'⟩ :=
      live_of_change hinv hinv' (hissued.resolve_left hnotGone) hchange hlive
    obtain ⟨d, c, hfirst, hsame⟩ := hback d' c' hlive'
    exact ⟨d, c, hfirst, hsame'.rustdeskId.trans hsame.rustdeskId,
      hsame'.devicePublicKey.trans hsame.devicePublicKey, hsame'.expiresAt.trans hsame.expiresAt⟩

end Runs

/-! ## Tokens -/

/-- PyJWT refuses a token for its times only if it has expired or was issued in the future. -/
def Timely (I : Issuer) : Prop :=
  ∀ {now now' text claims}, I.decode now' text = some claims → now ≤ now' →
    claims.issuedAt ≤ now → I.decode now text = some claims

def SignedIn (I : Issuer) (es : List Ev) (claims : CredentialClaims) : Prop :=
  ∃ x ∈ es, SignedByApproval I x claims.sub claims ∨ SignedByStatus I x.after claims.sub claims

section Tokens

variable {P : Platform} {I : Issuer} {g : Outside} {s m : State} {pre es : List Ev}

theorem credential_of_signed {x : Ev} {did : String} {claims : CredentialClaims}
    (h : SignedByApproval I x did claims ∨ SignedByStatus I x.after did claims) :
    ∃ c ∈ (x.after.cells did).credentials, c.serial = claims.serial ∧
      c.issuedAt = claims.issuedAt := by
  have hactive : ∀ {r : Record} {now c}, r.activeCredential now = some c → c ∈ r.credentials :=
    fun hc => mem_reverse.mp (List.mem_of_find?_eq_some hc)
  rcases h with ⟨t, account, name, serial, d, c, -, -, -, hc, rfl⟩ |
    ⟨token, now, answer, hanswer, hclaims⟩
  · exact ⟨c, hactive hc, rfl, rfl⟩
  · simp only [enrollmentStatus, bind_ok_iff, orRefuse_eq_ok, pure_ok_iff] at hanswer
    obtain ⟨d, -, rfl⟩ := hanswer
    simp only [Option.ite_none_right_eq_some, Option.map_eq_some_iff] at hclaims
    obtain ⟨-, c, hc, rfl⟩ := hclaims
    exact ⟨c, hactive hc, rfl, rfl⟩

theorem issued_of_signed (h : Run (TxStep P I) (noDevices g) es s) {claims : CredentialClaims}
    (hsigned : SignedIn I es claims) :
    Issued claims.serial (s.cells claims.sub) ∧ claims.issuedAt ≤ s.outside.clock := by
  obtain ⟨x, hx, hsigned⟩ := hsigned
  obtain ⟨pre, post, rfl⟩ := append_of_mem hx
  obtain ⟨hpre, hstep, hpost⟩ := h.split
  have hrun := Run.snoc hpre hstep
  obtain ⟨c, hc, hserial, hissuedAt⟩ := credential_of_signed hsigned
  refine ⟨issued_since (valid_noDevices hrun) hpost (.inr ⟨c, hc, hserial⟩), ?_⟩
  rw [← hissuedAt]
  exact (issuedAt_of_run hrun _ c hc).trans (clock_run hpost)

theorem validate_ok_iff {records : String → Record} {now : Int} {text : String}
    {d : ManagedDevice} {c : Credential} :
    validateDeviceCredential I records now text = .ok (d, c) ↔
      ∃ claims, I.decode now text = some claims ∧
        (records claims.sub).row = some d ∧ d.rustdeskId = claims.rustdeskId ∧ d.status = .approved ∧
        ((records claims.sub).credentials.find? fun c =>
          c.serial == claims.serial && !c.revoked && c.expiresAt.all (now < ·)) = some c ∧
        claims.instanceId = I.instanceId ∧ keyHash I d.devicePublicKey = claims.pkh := by
  simp only [validateDeviceCredential, bind_ok_iff, orRefuse_eq_ok, refuseIf_eq_ok, exists_unit,
    pure_ok_iff, Prod.mk.injEq, Option.filter_eq_some_iff, Bool.and_eq_true, beq_iff_eq, not_not]
  constructor
  · rintro ⟨claims, hdecode, d, ⟨hrow, hid, hstatus⟩, c, hc, hinstance, hkey, rfl, rfl⟩
    exact ⟨claims, hdecode, hrow, hid, hstatus, hc, hinstance, hkey⟩
  · rintro ⟨claims, hdecode, hrow, hid, hstatus, hc, hinstance, hkey⟩
    exact ⟨claims, hdecode, d, ⟨hrow, hid, hstatus⟩, c, hc, hinstance, hkey, rfl, rfl⟩

/-- **A token that is accepted was accepted at every time since RDS signed it**, as the same
device. -/
theorem accepted_before (htimely : Timely I) (hm : Run (TxStep P I) (noDevices g) pre m)
    (h : Run (TxStep P I) m es s) {text : String} {d : ManagedDevice} {c : Credential}
    (hvalid : validateDeviceCredential I s.cells s.outside.clock text = .ok (d, c))
    (hsigned : ∀ claims, I.decode s.outside.clock text = some claims → SignedIn I pre claims) :
    ∃ d₁ c₁, validateDeviceCredential I m.cells m.outside.clock text = .ok (d₁, c₁) ∧
      d₁.id = d.id := by
  obtain ⟨claims, hdecode, hrow, hid, hstatus, hc, hinstance, hkey⟩ := validate_ok_iff.mp hvalid
  obtain ⟨hissued, hissuedAt⟩ := issued_of_signed hm (hsigned claims hdecode)
  have hactive := List.find?_some hc
  simp only [Bool.and_eq_true, beq_iff_eq, Bool.not_eq_true'] at hactive
  obtain ⟨d₁, c₁, hlive, hsame⟩ := live_since hm h hissued
    ⟨hrow, List.mem_of_find?_eq_some hc, hactive.1.1, hactive.1.2⟩
  have happroved : d₁.status = .approved := by
    by_contra hne
    have hrevoked := (credInv_of_run hm _).closed (by simpa [status_of_row hlive.row] using hne) c₁
      hlive.mem
    rw [hlive.active] at hrevoked
    cases hrevoked
  obtain ⟨c₂, hc₂⟩ : ∃ c₂, ((m.cells claims.sub).credentials.find? fun c =>
      c.serial == claims.serial && !c.revoked && c.expiresAt.all (m.outside.clock < ·)) = some c₂ := by
    refine Option.isSome_iff_exists.mp (List.find?_isSome.mpr ⟨c₁, hlive.mem, ?_⟩)
    simp only [hlive.serial, hlive.active, beq_self_eq_true, Bool.not_false, Bool.true_and]
    rw [← hsame.expiresAt, Option.all_eq_true]
    intro x hx
    have hlater := (Option.all_eq_true _ _).mp hactive.2 x hx
    simp only [decide_eq_true_eq] at hlater ⊢
    exact (clock_run h).trans_lt hlater
  refine ⟨d₁, c₂, validate_ok_iff.mpr ⟨claims, htimely hdecode (clock_run h) hissuedAt, hlive.row,
    hsame.rustdeskId ▸ hid, happroved, hc₂, hinstance, hsame.devicePublicKey ▸ hkey⟩, ?_⟩
  rw [id_of_run hm hlive.row, id_of_run (hm.trans h) hrow]

end Tokens

end ManagedDirectory.Rds
