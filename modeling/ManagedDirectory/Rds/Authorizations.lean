import ManagedDirectory.Rds.Lifecycle

/-!
# RDS: authorizations to enroll a device again

A record goes back to pending only with an Owner's authorization. `AuthChange` is what a
transaction does to the authorizations of a record, and `AuthInv` what is true of them after any
interleaving. One transaction does not clear them away: a denial leaves an open authorization
open, and it then counts for the status that was entered after it was given
(`stale_authorization_consumed`). Where a device is denied only without one, every return to
pending has an authorization of its own (`reenrollment_authorized`).
-/

namespace ManagedDirectory.Rds

open Codec Lib List

/-! ## Rows -/

def NoneOpen (as : List Authorization) : Prop := ∀ a ∈ as, a.isOpen = false

/-- Every row of `as` is still in `as'`, and consumed if it was. -/
def Outlive (as as' : List Authorization) : Prop :=
  ∀ a ∈ as, ∃ a' ∈ as', a'.id = a.id ∧ (a.consumed = true → a'.consumed = true)

section Rows

variable {a : Authorization} {as as' : List Authorization}

theorem Outlive.refl (as : List Authorization) : Outlive as as :=
  fun a ha => ⟨a, ha, rfl, id⟩

theorem Outlive.trans {as'' : List Authorization} (h : Outlive as as') (h' : Outlive as' as'') :
    Outlive as as'' := by
  intro a ha
  obtain ⟨b, hb, hid, hconsumed⟩ := h a ha
  obtain ⟨c, hc, hid', hconsumed'⟩ := h' b hb
  exact ⟨c, hc, hid'.trans hid, fun hyes => hconsumed' (hconsumed hyes)⟩

theorem Outlive.map {f : Authorization → Authorization} (hid : ∀ a, (f a).id = a.id)
    (hconsumed : ∀ a, a.consumed = true → (f a).consumed = true) : Outlive as (as.map f) :=
  fun a ha => ⟨f a, mem_map_of_mem ha, hid a, hconsumed a⟩

theorem outlive_revokeOpen : Outlive as (revokeOpen as) := by
  apply Outlive.map
  · intro a
    split_ifs <;> rfl
  · intro a ha
    simp [Authorization.isOpen, ha]

theorem outlive_consume {id : String} : Outlive as (consume id as) := by
  apply Outlive.map
  · intro a
    split_ifs <;> rfl
  · intro a ha
    split_ifs
    · rfl
    · exact ha

theorem noneOpen_revokeOpen : NoneOpen (revokeOpen as) := by
  intro a ha
  obtain ⟨b, -, rfl⟩ := mem_map.mp ha
  split_ifs with hopen
  · simp [Authorization.isOpen, Authorization.revoke]
  · simpa using hopen

theorem noneOpen_consume (hone : ∀ b ∈ as, b.isOpen = true → b.id = a.id) :
    NoneOpen (consume a.id as) := by
  intro c hc
  obtain ⟨b, hb, rfl⟩ := mem_map.mp hc
  split_ifs with hid
  · simp [Authorization.isOpen, Authorization.consume]
  · rw [beq_iff_eq] at hid
    exact Bool.eq_false_iff.mpr fun hopen => hid (hone b hb hopen)

@[simp] theorem map_id_revokeOpen :
    (revokeOpen as).map Authorization.id = as.map Authorization.id := by
  simp only [revokeOpen, map_map, Function.comp_def]
  congr 1
  funext a
  split_ifs <;> rfl

@[simp] theorem map_id_consume (id : String) :
    (consume id as).map Authorization.id = as.map Authorization.id := by
  simp only [consume, map_map, Function.comp_def]
  congr 1
  funext a
  split_ifs <;> rfl

theorem consume_of_notMem {id : String} (h : ∀ b ∈ as, b.id ≠ id) : consume id as = as := by
  refine (map_congr_left fun b hb => ?_).trans (map_id as)
  simp [h b hb]

theorem consume_split (hids : (as.map Authorization.id).Nodup) (ha : a ∈ as) :
    ∃ l₁ l₂, as = l₁ ++ a :: l₂ ∧ consume a.id as = l₁ ++ a.consume :: l₂ := by
  obtain ⟨l₁, l₂, rfl⟩ := append_of_mem ha
  have hother : ∀ b ∈ l₁ ++ l₂, b.id ≠ a.id := by
    rw [map_append, map_cons, nodup_middle, nodup_cons, ← map_append] at hids
    exact fun b hb hid => hids.1 (hid ▸ mem_map_of_mem hb)
  have hleft := consume_of_notMem fun b hb => hother b (mem_append_left _ hb)
  have hright := consume_of_notMem fun b hb => hother b (mem_append_right _ hb)
  refine ⟨l₁, l₂, rfl, ?_⟩
  calc consume a.id (l₁ ++ a :: l₂)
      = consume a.id l₁ ++ consume a.id (a :: l₂) := map_append
    _ = consume a.id l₁ ++ a.consume :: consume a.id l₂ := by simp [consume]
    _ = l₁ ++ a.consume :: l₂ := by rw [hleft, hright]

theorem usable_iff {owners : List String} {did : String} {now : Int} :
    a.usable owners did now = true ↔
      a.deviceId = did ∧ a.isOpen = true ∧ now < a.expiresAt ∧ a.requestedBy ∈ owners := by
  simp [Authorization.usable, Authorization.isOpen]
  tauto

end Rows

/-! ## What a transaction does to them -/

inductive AuthChange (t : Tx) (did : String) (r r' : Record) : Prop where
  | kept (has : r'.authorizations = r.authorizations)
      (hstatus : r'.status = r.status ∨ r'.status = some .approved ∨ r.row = none)
  | granted {a : Authorization} (has : r'.authorizations = revokeOpen r.authorizations ++ [a])
      (hfresh : ∀ b ∈ r.authorizations, b.id ≠ a.id) (hdid : a.deviceId = did)
      (hstatus : r'.status = r.status)
  | used {a : Authorization} (ha : a ∈ r.authorizations) (hopen : a.isOpen = true)
      (has : r'.authorizations = consume a.id r.authorizations)
  | denied {account : String} {cloudflare : EdgeCert → Bool}
      (hreq : t.request = .changeStatus did account .denied cloudflare)
      (hstatus : r.status ≠ some .denied) (has : r'.authorizations = r.authorizations)
  | withdrawn (has : r'.authorizations = revokeOpen r.authorizations)
  | dropped (has : r'.authorizations = []) (hgone : r'.Gone)

section Changes

variable {g : Outside} {t : Tx} {did : String} {r r' : Record}

@[simp] theorem authorizations_setRow (startedAt : Int) (d d' : ManagedDevice) :
    (r.setRow startedAt d d').authorizations = r.authorizations := by
  unfold Record.setRow
  split_ifs <;> rfl

theorem authorizations_credentialed {startedAt : Int} (h : Credentialed startedAt r r') :
    r'.authorizations = r.authorizations := by
  cases h <;> rfl

theorem mem_of_usableAuthorization {now : Int} {a : Authorization}
    (h : r.usableAuthorization g did now = some a) :
    a ∈ r.authorizations ∧ a.deviceId = did ∧ a.isOpen = true ∧ now < a.expiresAt ∧
      a.requestedBy ∈ g.owners :=
  ⟨mem_reverse.mp (List.mem_of_find?_eq_some h), usable_iff.mp (List.find?_some h)⟩

theorem authChange_of_change (h : RecordChange g t did r r') : AuthChange t did r r' := by
  cases h with
  | enrolled hreq hrow hfresh hid => exact .kept rfl (.inr (.inr hrow))
  | readmitted hreq hrow hopen ha =>
    obtain ⟨hmem, -, hisOpen, -⟩ := mem_of_usableAuthorization ha
    exact .used hmem hisOpen (authorizations_setRow _ _ _)
  | authorized hreq hrow hopen hfresh hd' =>
    refine .granted rfl hfresh rfl ?_
    rcases hd' with rfl | rfl <;> simp [Record.status, hrow, ManagedDevice.extendPoll]
  | approved hreq hrow hopen hcredential =>
    refine .kept ?_ (.inr (.inl ?_))
    · rw [authorizations_credentialed hcredential, authorizations_setRow]
    · simp only [Record.status, row_credentialed hcredential, row_setRow]
      rfl
  | renamed hreq hrow happroved hcredential =>
    refine .kept (authorizations_credentialed hcredential :) (.inl ?_)
    simp only [Record.status, row_credentialed hcredential, hrow]
    rfl
  | @changed account change cloudflare d hreq hrow hfrom hcheck =>
    by_cases hdenied : change = .denied
    · subst hdenied
      refine .denied hreq ?_ (authorizations_setRow _ _ _)
      simpa [Record.status, hrow, StatusChange.status] using hfrom
    · refine .withdrawn ?_
      rw [authorizations_setRow, if_neg hdenied]
      rfl
  | unchanged hreq hrow hsame => exact .kept rfl (.inl rfl)
  | deleted hreq hrow hclosed => exact .dropped rfl ⟨rfl, rfl⟩
  | touched hreq hrow => exact .kept rfl (.inl (by simp [Record.status, hrow]))
  | worked hreq hrow hdone => cases hdone <;> exact .kept rfl (.inl rfl)

theorem AuthChange.outlive (h : AuthChange t did r r') :
    r'.Gone ∨ Outlive r.authorizations r'.authorizations := by
  cases h with
  | kept has _ => exact .inr (has ▸ .refl _)
  | @granted a has _ _ _ =>
    rw [has]
    refine .inr (outlive_revokeOpen.trans fun b hb => ?_)
    exact ⟨b, mem_append_left _ hb, rfl, id⟩
  | used _ _ has => exact .inr (has ▸ outlive_consume)
  | denied _ _ has => exact .inr (has ▸ .refl _)
  | withdrawn has => exact .inr (has ▸ outlive_revokeOpen)
  | dropped _ hgone => exact .inl hgone

theorem used_of_return {x : DeviceStatus} (h : RecordChange g t did r r')
    (hx : r.status = some x) (hpending : r'.status = some .pending)
    (hback : x ≠ .pending ∨ ∃ n, t.request.enrollment = some n) :
    x ≠ .approved ∧ ∃ n a, t.request.enrollment = some n ∧
      r.usableAuthorization g did n.now = some a ∧
      r'.authorizations = consume a.id r.authorizations := by
  have hstatus : ∀ {d : ManagedDevice}, r.row = some d → d.status = x := by
    intro d hd
    simpa [Record.status, hd] using hx
  cases h with
  | enrolled hreq hrow hfresh hid => simp [Record.status, hrow] at hx
  | readmitted hreq hrow hopen ha =>
    exact ⟨hstatus hrow ▸ hopen.1, _, _, hreq, ha, authorizations_setRow _ _ _⟩
  | authorized hreq hrow hopen hfresh hd' =>
    obtain rfl := hstatus hrow
    rcases hd' with rfl | rfl <;> simp_all [Record.status, Request.enrollment, ManagedDevice.extendPoll]
  | approved hreq hrow hopen hcredential =>
    simp [Record.status, row_credentialed hcredential, ManagedDevice.approve] at hpending
  | renamed hreq hrow happroved hcredential =>
    simp [Record.status, row_credentialed hcredential, ManagedDevice.rename, happroved] at hpending
  | @changed account change cloudflare d hreq hrow hfrom hcheck =>
    cases change <;> simp [Record.status, ManagedDevice.setStatus, StatusChange.status] at hpending
  | unchanged hreq hrow hsame => simp_all [Request.enrollment]
  | deleted hreq hrow hclosed => simp [Record.status, Record.empty] at hpending
  | touched hreq hrow => simp_all [Record.status, Request.enrollment]
  | worked hreq hrow hdone => cases hdone <;> simp_all [Record.status, Request.enrollment]

theorem AuthChange.ids (h : AuthChange t did r r')
    (hids : (r.authorizations.map Authorization.id).Nodup) :
    (r'.authorizations.map Authorization.id).Nodup := by
  cases h with
  | kept has _ => rwa [has]
  | @granted a has hfresh _ _ =>
    rw [has, map_append, map_id_revokeOpen, map_singleton]
    refine nodup_append'.mpr ⟨hids, nodup_singleton _, ?_⟩
    simp only [disjoint_singleton, mem_map, not_exists, not_and]
    exact hfresh
  | used _ _ has => rwa [has, map_id_consume]
  | denied _ _ has => rwa [has]
  | withdrawn has => rwa [has, map_id_revokeOpen]
  | dropped has _ => simp [has]

theorem noRow_of_change (hnone : r.row = none → r.authorizations = [])
    (h : RecordChange g t did r r') (hrow' : r'.row = none) : r'.authorizations = [] := by
  cases h with
  | readmitted hreq hrow hopen ha => simp at hrow'
  | approved hreq hrow hopen hcredential => simp [row_credentialed hcredential] at hrow'
  | renamed hreq hrow happroved hcredential => simp [row_credentialed hcredential] at hrow'
  | changed hreq hrow hfrom hcheck => simp at hrow'
  | unchanged hreq hrow hsame => exact hnone hrow'
  | deleted hreq hrow hclosed => rfl
  | worked hreq hrow hdone => cases hdone <;> simp [hrow] at hrow'
  | _ => cases hrow'

end Changes

/-! ## Over a run -/

/-- If `e` denies device `did`, then no authorization for it is open. -/
def DeniesUnauthorized (did : String) (e : Ev) : Prop :=
  ∀ t account cloudflare, e.label = .commit did t →
    t.request = .changeStatus did account .denied cloudflare →
    (e.before.cells did).status ≠ some .denied → NoneOpen (e.before.cells did).authorizations

def StatusChanged (did : String) (e : Ev) : Prop :=
  (e.after.cells did).status ≠ (e.before.cells did).status

/-- The open authorization is the only one, and younger than the status it is open in. While the
device is approved it may be older. -/
structure OpenFresh (did : String) (es : List Ev) (r : Record) : Prop where
  one : ∀ a ∈ r.authorizations, ∀ b ∈ r.authorizations, a.isOpen = true → b.isOpen = true →
    b.id = a.id
  fresh : r.status ≠ some .approved → ∀ a ∈ r.authorizations, a.isOpen = true → ∀ x ∈ es,
    StatusChanged did x → ∀ b ∈ (x.after.cells did).authorizations, b.id ≠ a.id

structure AuthInv (did : String) (es : List Ev) (r : Record) : Prop extends OpenFresh did es r where
  noRow : r.row = none → r.authorizations = []
  ids : (r.authorizations.map Authorization.id).Nodup
  past : r.Gone ∨ ∀ x ∈ es, Outlive (x.after.cells did).authorizations r.authorizations

section Runs

variable {P : Platform} {I : Issuer} {g : Outside} {s : State} {pre es post : List Ev} {e : Ev}
  {did : String} {r : Record}

theorem openFresh_of_noneOpen (h : NoneOpen r.authorizations) : OpenFresh did es r := by
  constructor
  · intro a ha b hb hopen
    simp [h a ha] at hopen
  · intro _ a ha hopen
    simp [h a ha] at hopen

theorem OpenFresh.same (h : OpenFresh did es (e.before.cells did))
    (has : (e.after.cells did).authorizations = (e.before.cells did).authorizations)
    (hstatus : (e.after.cells did).status = (e.before.cells did).status) :
    OpenFresh did (es ++ [e]) (e.after.cells did) := by
  constructor
  · rw [has]
    exact h.one
  · rw [has, hstatus]
    intro hne a ha hopen x hx hchanged
    rcases mem_append.mp hx with hx | hx
    · exact h.fresh hne a ha hopen x hx hchanged
    · obtain rfl := mem_singleton.mp hx
      exact absurd hstatus hchanged

theorem AuthInv.openFresh {t : Tx} (h : AuthInv did es (e.before.cells did))
    (hnotGone : ¬ (e.before.cells did).Gone) (hlabel : e.label = .commit did t)
    (hdeny : DeniesUnauthorized did e)
    (hchange : AuthChange t did (e.before.cells did) (e.after.cells did)) :
    OpenFresh did (es ++ [e]) (e.after.cells did) := by
  cases hchange with
  | kept has hstatus =>
    rcases hstatus with hstatus | happroved | hrow
    · exact h.toOpenFresh.same has hstatus
    · refine ⟨has ▸ h.one, fun hne => absurd happroved hne⟩
    · apply openFresh_of_noneOpen
      rw [has, h.noRow hrow]
      intro a ha
      cases ha
  | @granted a has hfresh hdid hstatus =>
    have honly : ∀ b ∈ (e.after.cells did).authorizations, b.isOpen = true → b = a := by
      intro b hb hopen
      rw [has] at hb
      rcases mem_append.mp hb with hb | hb
      · simp [noneOpen_revokeOpen b hb] at hopen
      · exact mem_singleton.mp hb
    constructor
    · intro b hb c hc hb' hc'
      rw [honly b hb hb', honly c hc hc']
    · intro _ b hb hopen x hx hchanged c hc
      rw [honly b hb hopen]
      rcases mem_append.mp hx with hx | hx
      · obtain ⟨c', hc', hid, -⟩ := h.past.resolve_left hnotGone x hx c hc
        exact hid ▸ hfresh c' hc'
      · obtain rfl := mem_singleton.mp hx
        exact absurd hstatus hchanged
  | used ha hopen has =>
    apply openFresh_of_noneOpen
    rw [has]
    exact noneOpen_consume fun b hb hb' => h.one _ ha b hb hopen hb'
  | denied hreq hstatus has =>
    apply openFresh_of_noneOpen
    rw [has]
    exact hdeny _ _ _ hlabel hreq hstatus
  | withdrawn has =>
    apply openFresh_of_noneOpen
    rw [has]
    exact noneOpen_revokeOpen
  | dropped has hgone =>
    apply openFresh_of_noneOpen
    rw [has]
    intro a ha
    cases ha

theorem authInv_step (h : AuthInv did es (e.before.cells did)) (hdeny : DeniesUnauthorized did e)
    (hstep : RecordStep did (e.before.cells did) e.label (e.after.cells did)) :
    AuthInv did (es ++ [e]) (e.after.cells did) := by
  have hpast : Outlive (e.before.cells did).authorizations (e.after.cells did).authorizations →
      (∀ x ∈ es, Outlive (x.after.cells did).authorizations (e.before.cells did).authorizations) →
      ∀ x ∈ es ++ [e], Outlive (x.after.cells did).authorizations
        (e.after.cells did).authorizations := by
    intro hlast hall x hx
    rcases mem_append.mp hx with hx | hx
    · exact (hall x hx).trans hlast
    · rw [mem_singleton.mp hx]
      exact .refl _
  rcases hstep.same_or_commit with hsame | ⟨g, t, hlabel, hchange⟩
  · refine ⟨h.toOpenFresh.same (by rw [hsame]) (by rw [hsame]), hsame ▸ h.noRow, hsame ▸ h.ids, ?_⟩
    exact h.past.imp (fun hgone => hsame ▸ hgone) (hpast (hsame ▸ .refl _))
  · have hnotGone : ¬ (e.before.cells did).Gone := fun hgone => gone_unchanged hgone hchange
    have hauth := authChange_of_change hchange
    refine ⟨h.openFresh hnotGone hlabel hdeny hauth, noRow_of_change h.noRow hchange,
      hauth.ids h.ids, hauth.outlive.imp_right fun hlast => ?_⟩
    exact hpast hlast (h.past.resolve_left hnotGone)

theorem authInv_of_run (h : Run (TxStep P I) (noDevices g) es s)
    (hdeny : ∀ x ∈ es, DeniesUnauthorized did x) : AuthInv did es (s.cells did) := by
  refine record_history (valid_noDevices .nil) h
    (fun es r => (∀ x ∈ es, DeniesUnauthorized did x) → AuthInv did es r) ?_ ?_ hdeny
  · intro _
    refine ⟨⟨?_, ?_⟩, fun _ => rfl, nodup_nil, .inr ?_⟩ <;> simp [noDevices, Record.empty]
  · intro es e hinv hstep hall
    exact authInv_step (hinv fun x hx => hall x (mem_append_left _ hx)) (hall e (by simp)) hstep

/-- An enrollment takes an existing record back to pending. A pending record is one, too: it gets
another key. -/
def ReturnsToPending (did : String) (e : Ev) : Prop :=
  ∃ x, (e.before.cells did).status = some x ∧ (e.after.cells did).status = some .pending ∧
    (x ≠ .pending ∨ ∃ t n, e.label = .commit did t ∧ t.request.enrollment = some n)

/-- Transaction `t` with enrollment `n` commits in `e`, after the events `pre`, and authorization
`a` lets it. -/
structure ReadmittedBy (did : String) (pre : List Ev) (e : Ev) (t : Tx) (n : Enrollment)
    (a : Authorization) : Prop where
  commit : e.label = .commit did t
  request : t.request.enrollment = some n
  one : ∃ l₁ l₂, (e.before.cells did).authorizations = l₁ ++ a :: l₂ ∧
    (e.after.cells did).authorizations = l₁ ++ a.consume :: l₂
  device : a.deviceId = did
  unexpired : n.now < a.expiresAt
  unrevoked : a.revoked = false
  unused : a.consumed = false ∧ ∀ x ∈ pre, ∀ b ∈ (x.after.cells did).authorizations,
    b.id = a.id → b.consumed = false
  /-- Its author is an active Owner when the transaction takes the lock of the record. -/
  owner : ∃ pre₁ x mid, pre = pre₁ ++ x :: mid ∧ x.label = .lock did t ∧
    a.requestedBy ∈ x.before.outside.owners ∧ ∀ y ∈ x :: mid, y.after.cells did = e.before.cells did
  fresh : ∀ x ∈ pre, StatusChanged did x → ∀ b ∈ (x.after.cells did).authorizations, b.id ≠ a.id

theorem commit_of_return (h : Run (TxStep P I) (noDevices g) (pre ++ e :: post) s)
    (hback : ReturnsToPending did e) : ∃ t, e.label = .commit did t := by
  obtain ⟨x, hx, hpending, hne | ⟨t, n, hlabel, -⟩⟩ := hback
  · have he : e ∈ pre ++ e :: post := mem_append_right _ mem_cons_self
    rcases (recordStep_of_run rfl h he did).same_or_commit with hsame | ⟨g, t, hlabel, -⟩
    · rw [hsame, hx] at hpending
      exact absurd (Option.some.inj hpending) hne
    · exact ⟨t, hlabel⟩
  · exact ⟨t, hlabel⟩

/-- **Re-enrollment authorization**: where a device is denied only without an open authorization,
each return to pending consumes one that was made for it. -/
theorem reenrollment_authorized (h : Run (TxStep P I) (noDevices g) (pre ++ e :: post) s)
    (hdeny : ∀ x ∈ pre, DeniesUnauthorized did x) (hback : ReturnsToPending did e) :
    ∃ t n a, ReadmittedBy did pre e t n a := by
  obtain ⟨t, hlabel⟩ := commit_of_return h hback
  obtain ⟨pre₁, x, mid, hpre, hlock, hplan, hsince⟩ := Locks.locked_of_run rfl h hlabel
  obtain ⟨y, hy, hpending, hwhy⟩ := hback
  have hback' : y ≠ .pending ∨ ∃ n, t.request.enrollment = some n := by
    refine hwhy.imp_right ?_
    rintro ⟨t', n, hlabel', hn⟩
    cases hlabel.symm.trans hlabel'
    exact ⟨n, hn⟩
  obtain ⟨hnotApproved, n, a, hreq, ha, has⟩ :=
    used_of_return (run_ok (toOption_eq_some hplan)) hy hpending hback'
  obtain ⟨hmem, hdevice, hopen, hexpires, howner⟩ := mem_of_usableAuthorization ha
  have hinv := authInv_of_run h.split.1 hdeny
  obtain ⟨l₁, l₂, hbefore, hafter⟩ := consume_split hinv.ids hmem
  have hflags : a.consumed = false ∧ a.revoked = false := by
    simpa [Authorization.isOpen] using hopen
  refine ⟨t, n, a, hlabel, hreq, ⟨l₁, l₂, hbefore, has.trans hafter⟩, hdevice, hexpires, hflags.2,
    ⟨hflags.1, ?_⟩, ⟨pre₁, x, mid, hpre, hlock, howner, hsince⟩, ?_⟩
  · intro z hz b hb hid
    have hnotGone : ¬ (e.before.cells did).Gone := fun hgone => by
      simp [Record.status, hgone.1] at hy
    obtain ⟨b', hb', hid', hconsumed⟩ := hinv.past.resolve_left hnotGone z hz b hb
    obtain rfl := inj_on_of_nodup_map hinv.ids hb' hmem (hid'.trans hid)
    exact Bool.eq_false_iff.mpr fun hyes => by simp [hconsumed hyes] at hflags
  · exact hinv.fresh (by rw [hy]; simpa using hnotApproved) a hmem hopen

theorem deniesUnauthorized_of_committed
    (h : ∀ c ∈ committed es, ∀ account cloudflare,
      c.tx.request ≠ .changeStatus did account .denied cloudflare) :
    ∀ x ∈ es, DeniesUnauthorized did x := by
  intro x hx t account cloudflare hlabel hreq
  exact absurd hreq (h _ (mem_committed hx hlabel) account cloudflare)

end Runs

theorem sample_reenrollment_authorized : ∃ pre e post s t n a,
    Run (TxStep plainPlatform plainIssuer) (noDevices sampleOutside) (pre ++ e :: post) s ∧
      ReturnsToPending "d" e ∧ ReadmittedBy "d" pre e t n a := by
  obtain ⟨es, hrun, hcommits⟩ := sample_return (P := plainPlatform) (I := plainIssuer)
  obtain ⟨pre, e, post, rfl, hpre, -, he⟩ := committed_split hcommits
  obtain ⟨hlabel, hbefore, hafter⟩ := commitOf_eq_some he
  have hback : ReturnsToPending "d" e :=
    ⟨.blocked, by rw [hbefore]; rfl, by rw [hafter]; rfl, .inl (by simp)⟩
  have hdeny : ∀ x ∈ pre, DeniesUnauthorized "d" x := by
    apply deniesUnauthorized_of_committed
    rw [hpre]
    simp [sampleEnroll, sampleBlock]
  obtain ⟨t, n, a, hby⟩ := reenrollment_authorized hrun hdeny hback
  exact ⟨pre, e, post, _, t, n, a, hrun, hback, hby⟩

/-! ## An authorization that a denial leaves open -/

def sampleEarly : Record :=
  { sampleEnrolled with
    authorizations := [⟨"a1", "d", "owner", 2 + 30 * 60 * 1000000, false, false⟩] }

def sampleDenied : Record :=
  { sampleEarly with
    row := sampleEarly.row.map (ManagedDevice.setStatus .denied)
    history := sampleEarly.history ++ [⟨some .pending, .denied, 3⟩] }

def sampleUndenied : Record :=
  { sampleDenied with
    row := sampleDenied.row.map (ManagedDevice.reenroll (sampleEnrollment 2 "t2" 5))
    authorizations := [⟨"a1", "d", "owner", 2 + 30 * 60 * 1000000, true, false⟩]
    history := sampleDenied.history ++ [⟨some .denied, .pending, 5⟩] }

def sampleDeny : Request := .changeStatus "d" "owner" .denied fun _ => true

theorem sample_undenied {P : Platform} {I : Issuer} : Serves P I (noDevices sampleOutside)
    (([sampleCommit sampleEnroll .empty 1 sampleEnrolled] ++
      [sampleCommit (.authorize "d" "owner" "a1" 30 2) sampleEnrolled 2 sampleEarly] ++
      [sampleCommit sampleDeny sampleEarly 3 sampleDenied]) ++
      [sampleCommit sampleReenroll sampleDenied 5 sampleUndenied])
    (sampleAt 5 sampleUndenied) :=
  ((sample_enrolled.trans (run_request rfl (by decide) rfl)).trans
    (run_request rfl (by decide) rfl)).trans (run_request rfl (by decide) rfl)

theorem stale_authorization_consumed : ∃ pre e post s,
    Run (TxStep plainPlatform plainIssuer) (noDevices sampleOutside) (pre ++ e :: post) s ∧
      ReturnsToPending "d" e ∧ ¬ ∃ t n a, ReadmittedBy "d" pre e t n a := by
  obtain ⟨es, hrun, hcommits⟩ := sample_undenied (P := plainPlatform) (I := plainIssuer)
  obtain ⟨pre, e, post, rfl, hpre, -, he⟩ := committed_split hcommits
  obtain ⟨hlabel, hbefore, hafter⟩ := commitOf_eq_some he
  refine ⟨pre, e, post, _, hrun, ⟨.denied, by rw [hbefore]; rfl, by rw [hafter]; rfl,
    .inl (by simp)⟩, ?_⟩
  rintro ⟨t, n, a, hby⟩
  -- The only row there is the one that the denial left open.
  have hdeny : sampleCommit sampleDeny sampleEarly 3 sampleDenied ∈ committed pre := by simp [hpre]
  obtain ⟨x, hx, hcommit⟩ := mem_filterMap.mp hdeny
  obtain ⟨-, hxbefore, hxafter⟩ := commitOf_eq_some hcommit
  obtain ⟨l₁, l₂, hrows, -⟩ := hby.one
  have ha : a ∈ sampleDenied.authorizations := by
    rw [show sampleDenied = e.before.cells "d" from hbefore.symm, hrows]
    simp
  refine hby.fresh x hx ?_ a ?_ rfl
  · rw [StatusChanged, hxbefore, hxafter]
    decide
  · rw [hxafter]
    exact ha

end ManagedDirectory.Rds
