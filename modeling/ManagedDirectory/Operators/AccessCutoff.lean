import ManagedDirectory.Operators.SessionTokens

/-!
# An Owner's reset closes an account

`create_reset` holds the account while it revokes the links and sessions it finds, and whoever gives
the account a new link or session holds the account as well; so when it commits nothing is left open
(`cut_of_reset`). From then on the account stays closed (`Cut`) until a link that is not older is
accepted: a login needs the password that nobody knows or the authenticator that is gone
(`reset_cutoff`).
-/

namespace ManagedDirectory.Operators

open Lib Lib.Txn Lib.Txn.Prog List

variable {S : Services} {q : Request} {ans : Answer} {h : Holding}

/-! ## While somebody holds an account -/

theorem session_since {ks : List Key} {st st' : Store} {accountId id : String}
    (hsince : Since (operatorRules S) ks st st') (hkey : Key.account accountId ∈ ks)
    {s' : Session} (hs' : st'.session id = some s') (haccount : s'.accountId = accountId) :
    ∃ s, st.session id = some s ∧ SessionKept s s' := by
  refine hsince.induct (fun m => ∀ s' : Session, Store.session m id = some s' →
    s'.accountId = accountId → ∃ s, st.session id = some s ∧ SessionKept s s')
    (fun s' hs' _ => ⟨s', hs', rfl, rfl, rfl, fun _ => rfl⟩) ?_ s' hs' haccount
  intro m q ans h ih hexec hbased hoff s' hs' haccount
  rcases AList.lookup_union_eq_some.mp hs' with hown | ⟨-, hold⟩
  · have hchange := (rows_of_exec hexec).rows (Key.session id) s' hown
    rw [← hbased _ (AList.lookup_isSome.mp (Option.isSome_of_eq_some hown))] at hchange
    cases hm : AList.lookup (Key.session id) m with
    | some s₁ =>
      rw [hm] at hchange
      have hkept := session_kept hchange
      obtain ⟨s, hs, hkept₁⟩ := ih s₁ hm (hkept.account ▸ haccount)
      exact ⟨s, hs, hkept₁.trans hkept⟩
    | none =>
      rw [hm] at hchange
      exact absurd (haccount ▸ (login_of_change hchange).locked) (hoff _ hkey)
  · exact ih s' hold haccount

theorem reset_of_change {id : String} {r' : AccessReset}
    (hchange : Change S q ans h (.reset id) none r') :
    Key.account r'.accountId ∈ h.own := by
  generalize hb : (none : Option AccessReset) = b at hchange
  cases hchange with
  | reset _ hlocked => exact hlocked
  | selfReset _ _ _ hlocked => exact hlocked
  | _ => cases hb

theorem reset_since {ks : List Key} {st st' : Store} {accountId id : String}
    (hsince : Since (operatorRules S) ks st st') (hkey : Key.account accountId ∈ ks)
    {r' : AccessReset} (hr' : st'.reset id = some r') (haccount : r'.accountId = accountId) :
    ∃ r, st.reset id = some r ∧ ResetKept r r' := by
  refine hsince.induct (fun m => ∀ r' : AccessReset, Store.reset m id = some r' →
    r'.accountId = accountId → ∃ r, st.reset id = some r ∧ ResetKept r r')
    (fun r' hr' _ => ⟨r', hr', rfl, rfl, rfl, rfl, fun hclosed => hclosed⟩) ?_ r' hr' haccount
  intro m q ans h ih hexec hbased hoff r' hr' haccount
  rcases AList.lookup_union_eq_some.mp hr' with hown | ⟨-, hold⟩
  · have hchange := (rows_of_exec hexec).rows (Key.reset id) r' hown
    rw [← hbased _ (AList.lookup_isSome.mp (Option.isSome_of_eq_some hown))] at hchange
    cases hm : AList.lookup (Key.reset id) m with
    | some r₁ =>
      rw [hm] at hchange
      have hkept := reset_kept hchange
      obtain ⟨r, hr, hkept₁⟩ := ih r₁ hm (hkept.account ▸ haccount)
      exact ⟨r, hr, hkept₁.trans hkept⟩
    | none =>
      rw [hm] at hchange
      exact absurd (haccount ▸ reset_of_change hchange) (hoff _ hkey)
  · exact ih r' hold haccount

/-! ## The commit of a reset -/

/-- What `create_reset` leaves: the account is closed, and every link and session of a snapshot that
it took while it held the account is revoked. -/
structure ResetDone (h : Holding) (now : Int) (accountId : String) (mode : ResetMode)
    (replacementHash : String) : Prop where
  closed : ∃ a : Account, h.own.lookup (Key.account accountId) =
    some (a.close mode replacementHash)
  resets : ∃ sn ∈ h.snapshots, Key.account accountId ∈ sn.keys ∧
    ∀ id (r : AccessReset), sn.store.lookup (Key.reset id) = some r →
      r.accountId = accountId → r.usedAt = none → r.revokedAt = none →
      RowUpdated Key.reset
        (fun _ (r : AccessReset) =>
          r.accountId == accountId && r.usedAt.isNone && r.revokedAt.isNone)
        (fun _ (r : AccessReset) => { r with revokedAt := some now }) h id
  sessions : ∃ sn ∈ h.snapshots, Key.account accountId ∈ sn.keys ∧
    ∀ id (s : Session), sn.store.lookup (Key.session id) = some s →
      s.accountId = accountId → s.revokedAt = none →
      RowUpdated Key.session
        (fun _ (s : Session) => s.accountId == accountId && s.revokedAt.isNone)
        (fun _ (s : Session) => s.revoke now) h id

/-- The link was accepted, or revoked. -/
def AccessReset.Closed (r : AccessReset) : Prop := r.usedAt.isSome = true ∨ r.revokedAt.isSome = true

/-- Every link of the account that a snapshot shows, taken while the account was held, is revoked. -/
def LinksRevoked (h : Holding) (now : Int) (accountId : String) : Prop :=
  ∃ sn ∈ h.snapshots, Key.account accountId ∈ sn.keys ∧
    ∀ id (r : AccessReset), sn.store.lookup (Key.reset id) = some r →
      r.accountId = accountId → r.usedAt = none → r.revokedAt = none →
      RowUpdated Key.reset
        (fun _ (r : AccessReset) =>
          r.accountId == accountId && r.usedAt.isNone && r.revokedAt.isNone)
        (fun _ (r : AccessReset) => { r with revokedAt := some now }) h id

theorem resetDone_of_exec {operator accountId : String} {mode : ResetMode}
    {password code resetId token hash : String} {now : Int}
    (hexec : Exec (createReset S now operator accountId mode password code resetId token hash)
      .empty ans h) : ResetDone h now accountId mode hash := by
  simp only [createReset, exec_bind, exec_orFail, exec_failIf, exec_write, exec_create,
    exec_pure] at hexec
  obtain ⟨_, _, hlock, a, _, ⟨rfl, rfl⟩, _, _, ⟨hother, rfl⟩, _, h₁, hverify, _, h₂, hresets, _, _,
    rfl, _, h₃, hsessions, _, _, ⟨hnew, rfl⟩, -, rfl⟩ := hexec
  obtain ⟨-, rfl⟩ := exec_live (AList.notMem_empty _) hlock
  obtain ⟨_, _, o, _, _, _, -, -, -, rfl⟩ := exec_verifyOwner (by simp [Ne.symm hother]) hverify
  have hu₂ : ResetsRevoked _ _ _ h₂ := exec_updateWhere Key.resetId_eq (by simp) hresets
  have hu₃ : SessionsRevoked _ _ _ h₃ :=
    exec_updateWhere Key.sessionId_eq (by simp [hu₂.mem_own]) hsessions
  obtain ⟨sn₂, hsn₂, hkeys₂, hcovered₂⟩ := hu₂.covered
  obtain ⟨sn₃, hsn₃, hkeys₃, hcovered₃⟩ := hu₃.covered
  refine ⟨⟨a, ?_⟩, ⟨sn₂, ?_, ?_, fun id r hr haccount hused hrevoked => ?_⟩,
    ⟨sn₃, ?_, ?_, fun id s hs haccount hrevoked => ?_⟩⟩
  · rw [Held.own_put, AList.lookup_insert_ne (by simp), (hu₃.other _ (by simp)).1, Held.own_put,
      AList.lookup_insert]
  · exact hu₃.snapshots sn₂ hsn₂
  · rw [hkeys₂]
    exact Held.mem_keys.mpr (.inl (by simp))
  · have hrow := hcovered₂ id r hr (by simp [haccount, hused, hrevoked])
    have hput : Same h₂ (h₂.put (Key.account accountId) (a.close mode hash)) (Key.reset id) :=
      ⟨by rw [Held.own_put, AList.lookup_insert_ne (by simp)], rfl⟩
    obtain ⟨v, hbase, hown⟩ := (hput.trans (hu₃.other (Key.reset id) (by simp))).rowUpdated hrow
    refine ⟨v, hbase, ?_⟩
    rw [Held.own_put, AList.lookup_insert_ne, hown]
    rintro heq
    exact hnew (heq ▸ AList.lookup_isSome.mp (Option.isSome_of_eq_some hown))
  · exact hsn₃
  · rw [hkeys₃]
    exact Held.mem_keys.mpr (.inl (by simp))
  · obtain ⟨v, hbase, hown⟩ := hcovered₃ id s hs (by simp [haccount, hrevoked])
    exact ⟨v, hbase, by rw [Held.own_put, AList.lookup_insert_ne (by simp), hown]⟩

/-! ## A closed account -/

/-- `create_reset` commits for the account in `e`, with this hash for the password. -/
def ResetsAccess (accountId replacementHash : String) (e : OperatorEv) : Prop :=
  ∃ q ans operator mode password code resetId token, e.label = .commit q ans ∧
    q.op = .createReset operator accountId mode password code resetId token replacementHash

/-- A link of the account is accepted in `e`. -/
def AcceptsLink (accountId id : String) (e : OperatorEv) : Prop :=
  ∃ r r', Store.reset e.before.store id = some r ∧ Store.reset e.after.store id = some r' ∧
    r.accountId = accountId ∧ r.usedAt = none ∧ r'.usedAt.isSome = true

/-- A login that commits in `e` presents the password. -/
def Presents (password : String) (e : OperatorEv) : Prop :=
  ∃ q ans payload scope id draw, e.label = .commit q ans ∧
    q.op = .login payload scope id draw ∧ payload.password = password

/-- The account cannot be logged in to: its authenticator is gone, or its password is one of these
hashes. -/
def Account.Shut (hashes : String → Prop) (a : Account) : Prop :=
  a.totpEnabled = false ∨ hashes a.passwordHash

/-- What holds of an account after a reset at `old`, until a later link is accepted. -/
structure Cut (hashes : String → Prop) (old : Store) (accountId : String) (st : Store) : Prop where
  kept : ∀ k : Key, k ∈ old → k ∈ st
  account : ∃ a, st.account accountId = some a ∧ a.Shut hashes
  sessions : ∀ id sess, st.session id = some sess → sess.accountId = accountId →
    sess.revokedAt.isSome = true
  resets : ∀ id r, st.reset id = some r → r.accountId = accountId → Key.reset id ∈ old →
    r.usedAt.isSome = true ∨ r.revokedAt.isSome = true

theorem Account.shut_close {hashes : String → Prop} {mode : ResetMode} {replacementHash : String}
    (hhash : hashes replacementHash) (a : Account) : (a.close mode replacementHash).Shut hashes := by
  cases mode with
  | passwordTotp => exact .inl rfl
  | passwordOnly => exact .inr hhash
  | totpOnly => exact .inl rfl

section Steps

variable {s s' : World} {es : List OperatorEv} {l : Label Answer Request} {g : Outside}
  {hashes : String → Prop} {accountId replacementHash : String}

theorem session_before (hs : Valid (operatorRules S) es s) (hstep : Step (operatorRules S) s l s')
    {id : String} {sess' : Session} (hsess' : Store.session s'.store id = some sess') :
    (∃ sess, Store.session s.store id = some sess ∧ SessionKept sess sess') ∨
      ∃ q ans h, CommitsIn S es s l s' q ans h ∧ LoggedIn S q ans h id sess' := by
  rcases change_of_step hs hstep hsess' with hold | ⟨q, ans, h, hc, hown⟩
  · exact .inl ⟨sess', hold, rfl, rfl, rfl, fun _ => rfl⟩
  have hchange := hc.change hown
  cases hsess : s.store.lookup (Key.session id) with
  | none =>
    rw [hsess] at hchange
    exact .inr ⟨q, ans, h, hc, login_of_change hchange⟩
  | some sess =>
    rw [hsess] at hchange
    exact .inl ⟨sess, hsess, session_kept hchange⟩

theorem reset_before (hs : Valid (operatorRules S) es s) (hstep : Step (operatorRules S) s l s')
    {id : String} {r r' : AccessReset} (hr : Store.reset s.store id = some r)
    (hr' : Store.reset s'.store id = some r') : ResetKept r r' := by
  rcases change_of_step hs hstep hr' with hold | ⟨q, ans, h, hc, hown⟩
  · obtain rfl := Option.some.inj (hold.symm.trans hr)
    exact ⟨rfl, rfl, rfl, rfl, fun hclosed => hclosed⟩
  · have hchange := hc.change hown
    rw [show s.store.lookup (Key.reset id) = some r from hr] at hchange
    exact reset_kept hchange

theorem reset_of_mem {st : Store} {id : String} (hmem : Key.reset id ∈ st) :
    ∃ r, st.reset id = some r :=
  Option.isSome_iff_exists.mp (AList.lookup_isSome.mpr hmem)

theorem closed_of_revoked (hs : Valid (operatorRules S) es s) (hstep : Step (operatorRules S) s l s')
    (hc : CommitsIn S es s l s' q ans h) {now : Int} (hrevoked : LinksRevoked h now accountId)
    {id : String} {r r' : AccessReset} (hr : Store.reset s.store id = some r)
    (hr' : Store.reset s'.store id = some r') (haccount : r'.accountId = accountId) : r'.Closed := by
  obtain ⟨sn, hsn, hkey, hresets⟩ := hrevoked
  by_contra hopen
  have hkept := reset_before hs hstep hr hr'
  have hopen₁ : ¬ r.Closed := fun hclosed => hopen (hkept.closed hclosed)
  have haccount₁ := hkept.account ▸ haccount
  obtain ⟨r₀, hr₀, hkept₀⟩ := reset_since (hc.commits.recent sn hsn).since hkey hr haccount₁
  have hopen₀ : ¬ r₀.Closed := fun hclosed => hopen₁ (hkept₀.closed hclosed)
  simp only [AccessReset.Closed, not_or, Option.not_isSome_iff_eq_none] at hopen₁ hopen₀
  obtain ⟨v, hbase, hown⟩ :=
    hresets id r₀ hr₀ (hkept₀.account ▸ haccount₁) hopen₀.1 hopen₀.2
  obtain rfl := Option.some.inj ((hc.found hbase).symm.trans hr)
  rw [if_pos (by simp [haccount₁, hopen₁])] at hown
  obtain rfl := Option.some.inj ((hc.lookup hown).symm.trans hr')
  exact hopen (.inr rfl)

/-- **Nothing of the account is open when a reset commits.** -/
theorem cut_of_reset (hs : Valid (operatorRules S) es s) (hstep : Step (operatorRules S) s l s')
    (hreset : ResetsAccess accountId replacementHash ⟨s, l, s'⟩) (hhash : hashes replacementHash) :
    Cut hashes s.store accountId s'.store := by
  obtain ⟨⟨op, now⟩, ans, operator, mode, password, code, resetId, token, rfl, rfl⟩ := hreset
  obtain ⟨h, hcommits, hstore⟩ := commits_of_step hs hstep
  have hc : CommitsIn S es s _ s' _ ans h := ⟨rfl, hcommits, hstore⟩
  obtain ⟨⟨a, ha⟩, hresets, ⟨sn', hsn', hkey', hsessions⟩⟩ := resetDone_of_exec hcommits.exec
  refine ⟨fun k hk => mem_of_step hs hstep hk, ⟨_, hc.lookup ha, a.shut_close hhash⟩,
    fun id sess' hsess' haccount => ?_, fun id r' hr' haccount hold => ?_⟩
  · by_contra hopen
    rcases session_before hs hstep hsess' with ⟨sess, hsess, hkept⟩ | ⟨q, ans', h', hc', hlogin⟩
    · have hopen₁ : sess.revokedAt = none := by
        by_contra hrevoked
        have hsome := Option.isSome_iff_ne_none.mpr hrevoked
        exact hopen (hkept.revoked hsome ▸ hsome)
      have haccount₁ := hkept.account ▸ haccount
      obtain ⟨sess₀, hsess₀, hkept₀⟩ :=
        session_since (hcommits.recent sn' hsn').since hkey' hsess haccount₁
      have hopen₀ : sess₀.revokedAt = none := by
        by_contra hrevoked
        rw [hkept₀.revoked (Option.isSome_iff_ne_none.mpr hrevoked)] at hopen₁
        exact hrevoked hopen₁
      obtain ⟨v, hbase, hown⟩ :=
        hsessions id sess₀ hsess₀ (hkept₀.account ▸ haccount₁) hopen₀
      obtain rfl := Option.some.inj ((hc.found hbase).symm.trans hsess)
      rw [if_pos (by simp [haccount₁, hopen₁])] at hown
      obtain rfl := Option.some.inj ((hc.lookup hown).symm.trans hsess')
      exact hopen rfl
    · obtain ⟨_, _, _, _, hop, -⟩ := hlogin.checked
      have hlabel := hc'.label
      cases hlabel
      cases hop
  · obtain ⟨r, hr⟩ := reset_of_mem hold
    exact closed_of_revoked hs hstep hc hresets hr hr' haccount

theorem Account.Shut.not_valid {a : Account} (hshut : a.Shut hashes) {payload : LoginRequest}
    {time : Int} (hunknown : ∀ hash, hashes hash → S.passwordOk payload.password hash = false) :
    credentialsValid S payload time a = false := by
  rcases hshut with htotp | hhash
  · simp [credentialsValid, htotp]
  · simp [credentialsValid, hunknown _ hhash]

theorem shut_of_change {a a' : Account} (hchange : Change S q ans h (.account accountId) (some a) a')
    (hshut : a.Shut hashes)
    (hreset : ∀ operator mode password code resetId token replacementHash, q.op =
      .createReset operator accountId mode password code resetId token replacementHash →
        hashes replacementHash) :
    a'.Shut hashes ∨ ∃ resetId r token password totpCode salt,
      Accepted S q h resetId r a token password totpCode salt ∧ r.accountId = accountId := by
  generalize hb : some a = b at hchange
  cases hchange with
  | created => cases hb
  | closed hop => exact .inl (Account.shut_close (hreset _ _ _ _ _ _ _ hop) _)
  | recovered haccepted =>
    obtain rfl := Option.some.inj hb
    exact .inr ⟨_, _, _, _, _, _, haccepted, rfl⟩
  | same | counted | readdressed | switched | deleted | promoted =>
    obtain rfl := Option.some.inj hb
    exact .inl hshut

/-- **It stays closed** in a step that accepts no later link. -/
theorem cut_of_step {old : Store} (hcut : Cut hashes old accountId s.store)
    (hs : Valid (operatorRules S) es s) (hstep : Step (operatorRules S) s l s')
    (hhashes : ∀ hash, ResetsAccess accountId hash ⟨s, l, s'⟩ → hashes hash)
    (hunknown : ∀ password, Presents password ⟨s, l, s'⟩ →
      ∀ hash, hashes hash → S.passwordOk password hash = false)
    (hnone : ∀ id, Key.reset id ∉ old → ¬ AcceptsLink accountId id ⟨s, l, s'⟩) :
    Cut hashes old accountId s'.store := by
  obtain ⟨a, ha, hshut⟩ := hcut.account
  obtain ⟨a', ha'⟩ := row_stays hs hstep ha
  refine ⟨fun k hk => mem_of_step hs hstep (hcut.kept k hk), ⟨a', ha', ?_⟩,
    fun id sess' hsess' haccount => ?_, fun id r' hr' haccount hold => ?_⟩
  · rcases change_of_step hs hstep ha' with hsame | ⟨q, ans, h, hc, hown⟩
    · obtain rfl := Option.some.inj (hsame.symm.trans ha)
      exact hshut
    have hchange := hc.change hown
    rw [show s.store.lookup (Key.account accountId) = some a from ha] at hchange
    rcases shut_of_change hchange hshut (fun _ _ _ _ _ _ _ hop =>
      hhashes _ ⟨q, ans, _, _, _, _, _, _, hc.label, hop⟩) with hshut' | ⟨id, r, _, _, _, _, hacc, hr⟩
    · exact hshut'
    · -- the link is open, so it is not one of the old ones
      have hfound := hc.found hacc.link
      by_cases hold : Key.reset id ∈ old
      · rcases hcut.resets id r hfound hr hold with hused | hrevoked
        · rw [hacc.unused] at hused
          cases hused
        · rw [hacc.unrevoked] at hrevoked
          cases hrevoked
      · obtain ⟨time, hused⟩ := hacc.used
        exact absurd ⟨r, _, hfound, hc.lookup hused, hr, hacc.unused, rfl⟩ (hnone id hold)
  · rcases session_before hs hstep hsess' with ⟨sess, hsess, hkept⟩ | ⟨q, ans, h, hc, hlogin⟩
    · have hrevoked := hcut.sessions id sess hsess (hkept.account ▸ haccount)
      exact hkept.revoked hrevoked ▸ hrevoked
    · obtain ⟨payload, draw, a₁, time, hop, ha₁, hvalid⟩ := hlogin.checked
      rw [haccount] at ha₁
      obtain rfl := Option.some.inj ((hc.found ha₁).symm.trans ha)
      rw [hshut.not_valid (hunknown _ ⟨q, ans, payload, _, _, _, hc.label, hop, rfl⟩)] at hvalid
      cases hvalid
  · obtain ⟨r, hr⟩ := reset_of_mem (hcut.kept _ hold)
    have hkept := reset_before hs hstep hr hr'
    exact hkept.closed (hcut.resets id r hr (hkept.account ▸ haccount) hold)

theorem cut_of_run {pre post : List OperatorEv} {e : OperatorEv}
    (h : Run (Step (operatorRules S)) (fresh g) (pre ++ e :: post) s)
    (hreset : ResetsAccess accountId replacementHash e)
    (hhashes : ∀ x ∈ e :: post, ∀ hash, ResetsAccess accountId hash x → hashes hash)
    (hunknown : ∀ x ∈ post, ∀ password, Presents password x →
      ∀ hash, hashes hash → S.passwordOk password hash = false)
    (hnone : ∀ x ∈ post, ∀ id, Key.reset id ∉ e.before.store → ¬ AcceptsLink accountId id x) :
    Cut hashes e.before.store accountId s.store := by
  induction post using List.reverseRecOn generalizing s with
  | nil =>
    obtain ⟨hpre, hstep, -⟩ := h.split
    rw [← h.after_last]
    exact cut_of_reset (valid_of_run rfl hpre) hstep hreset
      (hhashes e mem_cons_self _ hreset)
  | append_singleton post x ih =>
    rw [← cons_append, ← append_assoc] at h
    obtain ⟨hbefore, hstep, -⟩ := h.split
    rw [← h.after_last]
    have hx : x ∈ post ++ [x] := mem_append_right _ mem_cons_self
    have hcut := ih hbefore
      (fun y hy => hhashes y (by rw [← cons_append]; exact mem_append_left _ hy))
      (fun y hy => hunknown y (mem_append_left _ hy))
      (fun y hy => hnone y (mem_append_left _ hy))
    exact cut_of_step hcut (valid_of_run rfl hbefore) hstep
      (hhashes x (mem_cons_of_mem _ hx)) (hunknown x hx) (hnone x hx)

theorem not_issues_of_cut {old : Store} (hcut : Cut hashes old accountId s.store)
    (hcut' : Cut hashes old accountId s'.store) (hs : Valid (operatorRules S) es s)
    (hstep : Step (operatorRules S) s l s') {id access refresh : String} {sess : Session}
    (hsess : Store.session s'.store id = some sess) (haccount : sess.accountId = accountId) :
    ¬ Issues id access refresh ⟨s, l, s'⟩ := by
  rcases session_before hs hstep hsess with ⟨sess₀, hsess₀, hkept⟩ | ⟨q, ans, h, -, hlogin⟩
  · exact not_issues_of_revoked hs hstep hsess₀
      (hcut.sessions id sess₀ hsess₀ (hkept.account ▸ haccount)) access refresh
  · have hrevoked := hcut'.sessions id sess hsess haccount
    rw [hlogin.unrevoked] at hrevoked
    cases hrevoked

/-- **The cut-off of an access reset**, in any interleaving: from the commit of an Owner's reset on,
while no link of the account that did not exist before is accepted and nobody knows the random
passwords, no access token of the account passes, and no login to it and no refresh of a session of
it succeeds. -/
theorem reset_cutoff {pre post : List OperatorEv} {e : OperatorEv}
    (h : Run (Step (operatorRules S)) (fresh g) (pre ++ e :: post) s)
    (hreset : ResetsAccess accountId replacementHash e)
    (hunknown : ∀ x ∈ post, ∀ password, Presents password x → ∀ y ∈ e :: post,
      ∀ hash, ResetsAccess accountId hash y → S.passwordOk password hash = false)
    (hnone : ∀ x ∈ post, ∀ id, Store.reset e.before.store id = none →
      ¬ AcceptsLink accountId id x) :
    (∀ now idle token o, selectOperator S s.store now idle token = some o →
      o.accountId ≠ accountId) ∧
    ∀ x ∈ post, ∀ id access refresh sess, Issues id access refresh x →
      Store.session x.after.store id = some sess → sess.accountId ≠ accountId := by
  -- the passwords that nobody knows are those of all resets of the account from `e` on
  have hcut : ∀ mid rest s', post = mid ++ rest →
      Run (Step (operatorRules S)) (fresh g) (pre ++ e :: mid) s' →
      Cut (fun hash => ∃ y ∈ e :: post, ResetsAccess accountId hash y) e.before.store accountId
        s'.store := by
    rintro mid rest s' rfl hrun
    refine cut_of_run hrun hreset (fun x hx hash hresets => ⟨x, ?_, hresets⟩)
      (fun x hx password hpresents hash ⟨y, hy, hresets⟩ =>
        hunknown x (mem_append_left _ hx) password hpresents y hy hash hresets)
      (fun x hx id hid => hnone x (mem_append_left _ hx) id (AList.lookup_eq_none.mpr hid))
    rw [← cons_append]
    exact mem_append_left _ hx
  constructor
  · rintro now idle token o hselect rfl
    obtain ⟨sess, hsess, -, hlive, -, haccount⟩ := session_of_select hselect
    have hrevoked := (hcut post [] s (by simp) h).sessions _ sess hsess haccount.symm
    rw [unrevoked_of_live hlive] at hrevoked
    cases hrevoked
  · intro x hx id access refresh sess hissues hsess haccount
    obtain ⟨mid, rest, rfl⟩ := append_of_mem hx
    rw [← cons_append, ← append_assoc] at h
    obtain ⟨hbefore, hstep, -⟩ := h.split
    have hafter := hbefore.snoc hstep
    rw [append_assoc, cons_append] at hafter
    exact not_issues_of_cut (hcut mid (x :: rest) _ rfl hbefore)
      (hcut (mid ++ [x]) rest _ (by simp) hafter) (valid_of_run rfl hbefore) hstep hsess haccount
      hissues

theorem acceptReset_of_acceptsLink (hs : Valid (operatorRules S) es s)
    (hstep : Step (operatorRules S) s l s') {id : String}
    (haccepts : AcceptsLink accountId id ⟨s, l, s'⟩) :
    ∃ q ans token password totpCode salt, l = .commit q ans ∧
      q.op = .acceptReset token password totpCode salt := by
  obtain ⟨r, r', hr, hr', -, hunused, hused⟩ := haccepts
  rcases change_of_step hs hstep hr' with hold | ⟨q, ans, h, hc, hown⟩
  · obtain rfl := Option.some.inj (hold.symm.trans hr)
    rw [hunused] at hused
    cases hused
  have hchange := hc.change hown
  rw [show s.store.lookup (Key.reset id) = some r from hr] at hchange
  generalize hb : some r = b at hchange
  cases hchange with
  | reset => cases hb
  | selfReset => cases hb
  | resetUsed haccepted => exact ⟨q, ans, _, _, _, _, hc.label, haccepted.op⟩
  | same | resetRevoked =>
    obtain rfl := Option.some.inj hb
    rw [hunused] at hused
    cases hused

end Steps

def sampleReset : List Op :=
  sampleAccounts ++ [.login ⟨"ben", "password of m", some "it1"⟩ .full "s1" ⟨"j1", "f1"⟩]

def sampleResetOp : Op :=
  .createReset "o" "m" .passwordTotp "password of o" "code of o" "r1" "t2" "replacement"

def sampleLockedOut : Op :=
  .login ⟨"ben", "password of m", some "it1"⟩ .full "s2" ⟨"j2", "f2"⟩

/-- After the reset `m` presents the old password and code, and gets no tokens. -/
theorem sample_reset_cutoff : ∃ pre e post x s,
    Run (Step (operatorRules plainServices)) (fresh plainOutside) (pre ++ e :: (post ++ [x])) s ∧
      ResetsAccess "m" "replacement" e ∧ Presents "password of m" x ∧
      (Store.session e.before.store "s1").any (·.revokedAt.isNone) = true ∧
      ∀ now idle token o, selectOperator plainServices s.store now idle token = some o →
        o.accountId ≠ "m" := by
  obtain ⟨pre, hpre⟩ := run_plays (show
    allPlay plainServices ((fresh plainOutside).store, plainOutside) sampleReset = true by
      decide +kernel)
  obtain ⟨ans, mid, e, hmid, helabel, hebefore, -⟩ := run_play (show
    sampleResetOp.plays plainServices (sampleStore sampleReset) = true by decide +kernel)
  obtain ⟨ans', post, x, hpost, hxlabel, -, hquiet⟩ := run_play (show
    sampleLockedOut.plays plainServices
      (playAll plainServices (sampleStore sampleReset) [sampleResetOp]) = true by decide +kernel)
  have hrun := (hpre.trans hmid).trans hpost
  rw [show pre ++ (mid ++ [e]) ++ (post ++ [x]) = (pre ++ mid) ++ e :: (post ++ [x]) by simp] at hrun
  have hreset : ResetsAccess "m" "replacement" e :=
    ⟨_, _, _, _, _, _, _, _, helabel, rfl⟩
  have honly : ∀ y ∈ post ++ [x], ∀ q b, y.label = .commit q b →
      q.op = sampleLockedOut := by
    intro y hy q b hlabel
    rcases mem_append.mp hy with hy | hy
    · exact absurd hlabel (hquiet y hy q b)
    · rw [List.mem_singleton.mp hy, hxlabel] at hlabel
      cases hlabel
      rfl
  refine ⟨_, e, post, x, _, hrun, hreset, ⟨_, _, _, _, _, _, hxlabel, rfl, rfl⟩, ?_, ?_⟩
  · rw [hebefore]
    decide +kernel
  refine (reset_cutoff hrun hreset ?_ ?_).1
  · rintro y hy password ⟨q, b, payload, scope, id, draw, hlabel, hop, rfl⟩ z hz hash
      ⟨q', b', _, _, _, _, _, _, hlabel', hop'⟩
    have hpayload := (honly y hy q b hlabel).symm.trans hop
    cases hpayload
    rcases mem_cons.mp hz with rfl | hz
    · rw [helabel] at hlabel'
      cases hlabel'
      cases hop'
      decide
    · have hmismatch := (honly z hz q' b' hlabel').symm.trans hop'
      cases hmismatch
  · intro y hy id _ haccepts
    obtain ⟨before, after, hes⟩ := append_of_mem hy
    rw [hes, ← cons_append, ← append_assoc] at hrun
    obtain ⟨hbefore, hstep, -⟩ := hrun.split
    obtain ⟨q, b, _, _, _, _, hlabel, hop⟩ :=
      acceptReset_of_acceptsLink (valid_of_run rfl hbefore) hstep haccepts
    have hmismatch := (honly y hy q b hlabel).symm.trans hop
    cases hmismatch

end ManagedDirectory.Operators
