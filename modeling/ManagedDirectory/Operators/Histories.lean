import ManagedDirectory.Operators.Changes

/-!
# How operator rows develop

What every change of a row keeps (`SessionKept`, `ResetKept`, `RequestKept`), along a run and along
what happens while a transaction holds an account: as long as somebody has locked an account, nobody
else gives it a new session, reset link or role-change request.
-/

namespace ManagedDirectory.Operators

open Lib Lib.Txn Lib.Txn.Prog

variable {S : Services} {q : Request} {ans : Answer} {h : Holding}

/-! ## What a change keeps -/

structure SessionKept (s s' : Session) : Prop where
  account : s'.accountId = s.accountId
  scope : s'.scope = s.scope
  mfa : s'.mfaVerifiedAt = s.mfaVerifiedAt
  revoked : s.revokedAt.isSome = true → s'.revokedAt = s.revokedAt

structure ResetKept (r r' : AccessReset) : Prop where
  account : r'.accountId = r.accountId
  token : r'.tokenHash = r.tokenHash
  mode : r'.resetMode = r.resetMode
  expires : r'.expiresAt = r.expiresAt
  closed : r.usedAt.isSome = true ∨ r.revokedAt.isSome = true →
    r'.usedAt.isSome = true ∨ r'.revokedAt.isSome = true

structure RequestKept (r r' : RoleChangeRequest) : Prop where
  target : r'.targetAccountId = r.targetAccountId
  role : r'.requestedRole = r.requestedRole
  author : r'.requestedBy = r.requestedBy
  password : r'.ownerPasswordVerifiedAt = r.ownerPasswordVerifiedAt
  totp : r'.ownerTotpVerifiedAt = r.ownerTotpVerifiedAt
  settled : r'.status = .pending → r.status = .pending

theorem SessionKept.trans {s s' s'' : Session} (h : SessionKept s s') (h' : SessionKept s' s'') :
    SessionKept s s'' :=
  ⟨h'.account.trans h.account, h'.scope.trans h.scope, h'.mfa.trans h.mfa, fun hrevoked =>
    have hkept := h.revoked hrevoked
    (h'.revoked (hkept ▸ hrevoked)).trans hkept⟩

theorem ResetKept.trans {r r' r'' : AccessReset} (h : ResetKept r r') (h' : ResetKept r' r'') :
    ResetKept r r'' :=
  ⟨h'.account.trans h.account, h'.token.trans h.token, h'.mode.trans h.mode,
    h'.expires.trans h.expires, fun hclosed => h'.closed (h.closed hclosed)⟩

theorem session_kept {id : String} {s s' : Session}
    (hchange : Change S q ans h (.session id) (some s) s') : SessionKept s s' := by
  generalize hb : some s = b at hchange
  cases hchange with
  | same =>
    obtain rfl := Option.some.inj hb
    exact ⟨rfl, rfl, rfl, fun _ => rfl⟩
  | loggedIn => cases hb
  | refreshed hrefresh =>
    obtain rfl := Option.some.inj hb
    obtain ⟨_, _, _, _, rfl⟩ := hrefresh.kept
    exact ⟨rfl, rfl, rfl, fun _ => rfl⟩
  | touched =>
    obtain rfl := Option.some.inj hb
    exact ⟨rfl, rfl, rfl, fun _ => rfl⟩
  | sessionRevoked =>
    obtain rfl := Option.some.inj hb
    exact ⟨rfl, rfl, rfl, fun hsome => Option.or_of_isSome hsome⟩

theorem reset_kept {id : String} {r r' : AccessReset}
    (hchange : Change S q ans h (.reset id) (some r) r') : ResetKept r r' := by
  generalize hb : some r = b at hchange
  cases hchange with
  | same =>
    obtain rfl := Option.some.inj hb
    exact ⟨rfl, rfl, rfl, rfl, fun hclosed => hclosed⟩
  | reset => cases hb
  | selfReset => cases hb
  | resetRevoked =>
    obtain rfl := Option.some.inj hb
    exact ⟨rfl, rfl, rfl, rfl, fun _ => .inr rfl⟩
  | resetUsed =>
    obtain rfl := Option.some.inj hb
    exact ⟨rfl, rfl, rfl, rfl, fun _ => .inl rfl⟩

theorem request_kept {id : String} {r r' : RoleChangeRequest}
    (hchange : Change S q ans h (.request id) (some r) r') : RequestKept r r' := by
  generalize hb : some r = b at hchange
  cases hchange with
  | same =>
    obtain rfl := Option.some.inj hb
    exact ⟨rfl, rfl, rfl, rfl, rfl, fun hpending => hpending⟩
  | requested => cases hb
  | settled hpending =>
    obtain rfl := Option.some.inj hb
    exact ⟨rfl, rfl, rfl, rfl, rfl, fun _ => hpending⟩
  | completed hcompleted =>
    obtain rfl := Option.some.inj hb
    exact ⟨rfl, rfl, rfl, rfl, rfl, fun _ => hcompleted.pending⟩

/-! ## Rows along a run -/

section Steps

variable {s s' : World} {es : List OperatorEv} {l : Label Answer Request}

structure CommitsIn (S : Services) (es : List OperatorEv) (s : World) (l : Label Answer Request)
    (s' : World) (q : Request) (ans : Answer) (h : Holding) : Prop where
  label : l = .commit q ans
  commits : Commits (operatorRules S) es q ans h s.store
  store : s'.store = h.own ∪ s.store

theorem CommitsIn.change (hc : CommitsIn S es s l s' q ans h) {k : Key} {v' : Row k}
    (hv' : h.own.lookup k = some v') : Change S q ans h k (s.store.lookup k) v' := by
  rw [hc.commits.based k (AList.lookup_isSome.mp (by simp [hv']))]
  exact (rows_of_exec hc.commits.exec).rows k v' hv'

theorem CommitsIn.lookup (hc : CommitsIn S es s l s' q ans h) {k : Key} {v' : Row k}
    (hv' : h.own.lookup k = some v') : s'.store.lookup k = some v' := by
  rw [hc.store, AList.lookup_union_left (AList.lookup_isSome.mp (by simp [hv']))]
  exact hv'

theorem CommitsIn.found (hc : CommitsIn S es s l s' q ans h) {k : Key} {v : Row k}
    (hv : h.base.lookup k = some v) : s.store.lookup k = some v := by
  have hown := (rows_of_exec hc.commits.exec).found k (AList.lookup_isSome.mp (by simp [hv]))
  rw [hc.commits.based k hown]
  exact hv

theorem CommitsIn.seen (hc : CommitsIn S es s l s' q ans h) {sn : Snapshot Key Row} {k : Key}
    (hsn : sn ∈ h.snapshots) (hk : k ∈ sn.keys) : s.store.lookup k = sn.store.lookup k :=
  (hc.commits.recent sn hsn).since.lookup_eq hk

theorem store_or_commits (hs : Valid (operatorRules S) es s)
    (hstep : Step (operatorRules S) s l s') :
    s'.store = s.store ∨ ∃ q ans h, CommitsIn S es s l s' q ans h := by
  by_cases hl : ∃ q ans, l = .commit q ans
  · obtain ⟨q, ans, rfl⟩ := hl
    obtain ⟨h, hcommits, hstore⟩ := commits_of_step hs hstep
    exact .inr ⟨q, ans, h, rfl, hcommits, hstore⟩
  · exact .inl (store_eq_of_step hstep fun q ans heq => hl ⟨q, ans, heq⟩)

theorem change_of_step (hs : Valid (operatorRules S) es s) (hstep : Step (operatorRules S) s l s')
    {k : Key} {v' : Row k} (hv' : s'.store.lookup k = some v') :
    s.store.lookup k = some v' ∨ ∃ q ans h, CommitsIn S es s l s' q ans h ∧
      h.own.lookup k = some v' := by
  rcases store_or_commits hs hstep with hsame | ⟨q, ans, h, hc⟩
  · rw [hsame] at hv'
    exact .inl hv'
  · rw [hc.store] at hv'
    rcases AList.lookup_union_eq_some.mp hv' with hown | ⟨-, hold⟩
    · exact .inr ⟨q, ans, h, hc, hown⟩
    · exact .inl hold

theorem row_stays (hs : Valid (operatorRules S) es s) (hstep : Step (operatorRules S) s l s')
    {k : Key} {v : Row k} (hv : s.store.lookup k = some v) : ∃ v', s'.store.lookup k = some v' := by
  have hmem := mem_of_step hs hstep (AList.lookup_isSome.mp (Option.isSome_of_eq_some hv))
  exact Option.isSome_iff_exists.mp (AList.lookup_isSome.mpr hmem)

end Steps

end ManagedDirectory.Operators
