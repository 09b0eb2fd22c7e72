import ManagedDirectory.Operators.Histories

/-!
# Owners and role changes

An account loses the Owner role only when a role change is completed, and whoever completes it is an
active Owner and another account, held until the commit; so once there is an Owner there is always an
active one (`owner_remains`). Every role change is the completion of a request that an Owner made
(`role_change_authorized`): the role of the target does not change while its request is pending, so
what was verified at the request is what the completion needs.
-/

namespace ManagedDirectory.Operators

open Lib Lib.Txn Lib.Txn.Prog List

variable {S : Services} {q : Request} {ans : Answer} {h : Holding}

/-! ## There is always an Owner -/

def Account.IsOwner (a : Account) : Prop :=
  a.role = .owner ∧ a.isActive = true ∧ a.deletedAt = none

def HasOwner (st : Store) : Prop := ∃ id a, st.account id = some a ∧ a.IsOwner

def DeletedInactive (st : Store) : Prop :=
  ∀ id a, st.account id = some a → a.isActive = true → a.deletedAt = none

theorem activeOwner_iff {a : Account} :
    a.activeOwner = true ↔ a.role = .owner ∧ a.isActive = true := by
  simp [Account.activeOwner]

theorem Account.close_eq (a : Account) (mode : ResetMode) (hash : String) :
    ∃ passwordHash totpSecret totpEnabled mustChangePassword failedLoginCount lockedUntil,
      a.close mode hash = { a with
        passwordHash := passwordHash, totpSecret := totpSecret, totpEnabled := totpEnabled
        mustChangePassword := mustChangePassword, failedLoginCount := failedLoginCount
        lockedUntil := lockedUntil } := by
  cases mode <;> exact ⟨_, _, _, _, _, _, rfl⟩

theorem Account.recover_eq (a : Account) (mode : ResetMode) (hash secret : String) :
    ∃ passwordHash totpSecret totpEnabled mustChangePassword failedLoginCount lockedUntil,
      a.recover mode hash secret = { a with
        passwordHash := passwordHash, totpSecret := totpSecret, totpEnabled := totpEnabled
        mustChangePassword := mustChangePassword, failedLoginCount := failedLoginCount
        lockedUntil := lockedUntil } := by
  cases mode <;> exact ⟨_, _, _, _, _, _, rfl⟩

/-- What a change does to the role and the standing of an account. -/
inductive Standing (q : Request) (h : Holding) (id : String) (a a' : Account) : Prop where
  | kept (hrole : a'.role = a.role) (hactive : a'.isActive = a.isActive)
      (hdeleted : a'.deletedAt = a.deletedAt)
  | moved (hrole : a'.role = a.role) (hother : a.role ≠ .owner)
      (hlive : a'.isActive = true → a'.deletedAt = none)
  | promoted (requestId operator : String) (r : RoleChangeRequest)
      (hcompleted : Completed q h requestId r a operator) (hid : r.targetAccountId = id)
      (ha' : a' = { a with role := r.requestedRole })

theorem standing_of_change {id : String} {a a' : Account}
    (hchange : Change S q ans h (.account id) (some a) a') : Standing q h id a a' := by
  generalize hb : some a = b at hchange
  cases hchange with
  | same | counted | readdressed =>
    obtain rfl := Option.some.inj hb
    exact .kept rfl rfl rfl
  | created => cases hb
  | switched hrole hlive =>
    obtain rfl := Option.some.inj hb
    exact .moved rfl hrole fun _ => hlive
  | deleted hrole =>
    obtain rfl := Option.some.inj hb
    exact .moved rfl hrole fun hactive => (by cases hactive)
  | @closed _ _ mode _ _ _ _ _ hash hop =>
    obtain rfl := Option.some.inj hb
    obtain ⟨_, _, _, _, _, _, heq⟩ := a.close_eq mode hash
    rw [heq]
    exact .kept rfl rfl rfl
  | @recovered _ r _ token password _ salt haccepted =>
    obtain rfl := Option.some.inj hb
    obtain ⟨_, _, _, _, _, _, heq⟩ :=
      a.recover_eq r.resetMode (S.hashPassword (password.getD "") salt) (S.resetSecret token)
    rw [heq]
    exact .kept rfl rfl rfl
  | @promoted requestId operator r _ hcompleted =>
    obtain rfl := Option.some.inj hb
    exact .promoted requestId operator r hcompleted rfl rfl

theorem Completed.unique {requestId requestId' operator operator' : String}
    {r r' : RoleChangeRequest} {a a' : Account} (hc : Completed q h requestId r a operator)
    (hc' : Completed q h requestId' r' a' operator') :
    requestId' = requestId ∧ operator' = operator ∧ r' = r := by
  have hop := hc.op.symm.trans hc'.op
  cases hop
  exact ⟨rfl, rfl, Option.some.inj (hc'.request.symm.trans hc.request)⟩

section Steps

variable {s s' : World} {es : List OperatorEv} {l : Label Answer Request} {g : Outside}

variable {r r' : RoleChangeRequest} {id requestId : String}

theorem deletedInactive_of_step (hinv : DeletedInactive s.store)
    (hs : Valid (operatorRules S) es s) (hstep : Step (operatorRules S) s l s') :
    DeletedInactive s'.store := by
  intro id a' ha' hactive
  rcases change_of_step hs hstep ha' with hold | ⟨q, ans, h, hc, hown⟩
  · exact hinv id a' hold hactive
  have hchange := hc.change hown
  cases ha : s.store.lookup (Key.account id) with
  | none =>
    rw [ha] at hchange
    generalize hb : (none : Option Account) = b at hchange
    cases hchange with
    | created => rfl
    | _ => cases hb
  | some a =>
    rw [ha] at hchange
    cases standing_of_change hchange with
    | kept _ hactive' hdeleted =>
      rw [hdeleted]
      exact hinv id a ha (hactive' ▸ hactive)
    | moved _ _ hlive => exact hlive hactive
    | promoted requestId operator r hcompleted hid ha' =>
      subst ha'
      exact hinv id a ha hcompleted.active

theorem CommitsIn.completer (hc : CommitsIn S es s l s' q ans h) {operator : String} {a : Account}
    (hcompleted : Completed q h requestId r a operator) :
    ∃ o, Store.account s.store operator = some o ∧ o.activeOwner = true := by
  obtain ⟨sn, hsn, hkey, howner⟩ := hcompleted.completer
  have hseen : Store.account s.store operator = Store.account sn.store operator := hc.seen hsn hkey
  rw [← hseen] at howner
  obtain ⟨o, ho, hactive⟩ := (Option.any_eq_true _ _).mp howner
  exact ⟨o, ho, hactive⟩

theorem CommitsIn.owner_kept (hc : CommitsIn S es s l s' q ans h) {o : Account}
    (ho : Store.account s.store id = some o) (howner : o.IsOwner)
    (hnot : ∀ requestId r operator, Completed q h requestId r o operator → r.targetAccountId ≠ id) :
    HasOwner s'.store := by
  cases hown : h.own.lookup (Key.account id) with
  | none =>
    refine ⟨id, o, ?_, howner⟩
    rw [hc.store, Store.account, AList.lookup_union_right (AList.lookup_eq_none.mp hown)]
    exact ho
  | some o' =>
    have hchange := hc.change hown
    rw [show s.store.lookup (Key.account id) = some o from ho] at hchange
    refine ⟨id, o', hc.lookup hown, ?_⟩
    cases standing_of_change hchange with
    | kept hrole hactive hdeleted =>
      exact ⟨hrole.trans howner.1, hactive.trans howner.2.1, hdeleted.trans howner.2.2⟩
    | moved hrole hother _ => exact absurd howner.1 hother
    | promoted requestId operator r hcompleted hid _ =>
      exact absurd hid (hnot requestId r operator hcompleted)

theorem hasOwner_of_commit (hinv : DeletedInactive s.store) (hc : CommitsIn S es s l s' q ans h)
    (howner : HasOwner s.store) : HasOwner s'.store := by
  obtain ⟨id, o, ho, howner⟩ := howner
  by_cases hdemoted : ∃ requestId r operator, Completed q h requestId r o operator ∧
      r.targetAccountId = id
  · obtain ⟨requestId, r, operator, hcompleted, -⟩ := hdemoted
    obtain ⟨c, hcompleter, hactive⟩ := hc.completer hcompleted
    obtain ⟨hrole, hactive⟩ := activeOwner_iff.mp hactive
    refine hc.owner_kept hcompleter ⟨hrole, hactive, hinv operator c hcompleter hactive⟩ ?_
    -- the one role that is changed is not the completer's
    intro requestId' r' operator' hcompleted' htarget
    obtain ⟨-, -, rfl⟩ := hcompleted.unique hcompleted'
    exact hcompleted.other htarget.symm
  · exact hc.owner_kept ho howner fun requestId r operator hcompleted hid =>
      hdemoted ⟨requestId, r, operator, hcompleted, hid⟩

/-- If some account has the role, then one that is active has it. -/
def Owned (st : Store) : Prop :=
  (∃ id a, st.account id = some a ∧ a.role = .owner) → HasOwner st

theorem owned_of_step (hinv : DeletedInactive s.store) (howned : Owned s.store)
    (hs : Valid (operatorRules S) es s) (hstep : Step (operatorRules S) s l s') :
    Owned s'.store := by
  rintro ⟨id, a', ha', hrole⟩
  rcases store_or_commits hs hstep with hsame | ⟨q, ans, h, hc⟩
  · rw [hsame] at ha' ⊢
    exact howned ⟨id, a', ha', hrole⟩
  suffices hcases : a'.IsOwner ∨ HasOwner s.store by
    rcases hcases with howner | howner
    · exact ⟨id, a', ha', howner⟩
    · exact hasOwner_of_commit hinv hc howner
  cases hown : h.own.lookup (Key.account id) with
  | none =>
    rw [hc.store, Store.account, AList.lookup_union_right (AList.lookup_eq_none.mp hown)] at ha'
    exact .inr (howned ⟨id, a', ha', hrole⟩)
  | some b =>
    obtain rfl : a' = b := Option.some.inj (ha'.symm.trans (hc.lookup hown))
    have hchange := hc.change hown
    cases ha : s.store.lookup (Key.account id) with
    | none =>
      rw [ha] at hchange
      generalize hb : (none : Option Account) = b at hchange
      cases hchange with
      | created => exact .inl ⟨hrole, rfl, rfl⟩
      | _ => cases hb
    | some a =>
      rw [ha] at hchange
      cases standing_of_change hchange with
      | kept hrole' => exact .inr (howned ⟨id, a, ha, hrole' ▸ hrole⟩)
      | moved hrole' hother _ => exact absurd (hrole'.symm.trans hrole) hother
      | promoted requestId operator r hcompleted _ _ =>
        obtain ⟨c, hcompleter, hactive⟩ := hc.completer hcompleted
        exact .inr (howned ⟨operator, c, hcompleter, (activeOwner_iff.mp hactive).1⟩)

theorem hasOwner_of_step (hinv : DeletedInactive s.store) (howner : HasOwner s.store)
    (hs : Valid (operatorRules S) es s) (hstep : Step (operatorRules S) s l s') :
    HasOwner s'.store := by
  rcases store_or_commits hs hstep with hsame | ⟨q, ans, h, hc⟩
  · rwa [hsame]
  · exact hasOwner_of_commit hinv hc howner

theorem account_fresh : Store.account (fresh g).store id = none := by
  rw [Store.account, AList.lookup_eq_none]
  simp [fresh]

/-- **There is always an Owner**: once an account has the Owner role, there is an account that has it,
is active and not deleted, after every interleaving of requests. -/
theorem owner_remains (h : Run (Step (operatorRules S)) (fresh g) es s) {e : OperatorEv} (he : e ∈ es)
    {id : String} {a : Account} (ha : Store.account e.after.store id = some a)
    (hrole : a.role = .owner) : HasOwner s.store := by
  have hinv := history_of_run rfl h (fun es s => DeletedInactive s.store ∧ Owned s.store ∧
    ∀ e ∈ es, ∀ id a, Store.account e.after.store id = some a → a.role = .owner →
      HasOwner s.store) ?_ ?_
  · exact hinv.2.2 e he id a ha hrole
  · refine ⟨fun id a ha => ?_, fun ⟨id, a, ha, _⟩ => ?_, by simp⟩
    · rw [account_fresh] at ha
      cases ha
    · rw [account_fresh] at ha
      cases ha
  · rintro es s l s' hs ⟨hinactive, howned, hpast⟩ hstep
    have howned' := owned_of_step hinactive howned hs hstep
    refine ⟨deletedInactive_of_step hinactive hs hstep, howned', fun e he id a ha hrole => ?_⟩
    rcases mem_append.mp he with he | he
    · exact hasOwner_of_step hinactive (hpast e he id a ha hrole) hs hstep
    · rw [List.mem_singleton.mp he] at ha
      exact howned' ⟨id, a, ha, hrole⟩

/-- The second account is disabled, and the first Owner is still there. -/
theorem sample_owner_remains : ∃ es e s,
    Run (Step (operatorRules plainServices)) (fresh plainOutside) (es ++ [e]) s ∧
      HasOwner s.store := by
  obtain ⟨pre, e, s, hrun, -, -, hafter, hstore⟩ :=
    sample_run sampleAccounts (.disable "m") (by decide +kernel) (by decide +kernel)
  have hfirst : Store.account e.after.store "o" =
      some (newAccount "anna" "password of o" "code of o" .owner) := by
    rw [hafter, hstore]
    decide +kernel
  exact ⟨pre, e, s, hrun,
    owner_remains hrun (mem_append_right _ mem_cons_self) hfirst rfl⟩

/-! ## Role changes -/

/-- Event `e` commits the request for a role change, made by `q` while the target has `role`. -/
structure CreatedIn (S : Services) (es : List OperatorEv) (requestId : String)
    (r : RoleChangeRequest) (role : Role) (e : OperatorEv) (q : Request) : Prop where
  commit : ∃ ans, e.label = .commit q ans
  op : ∃ mins password code, q.op = .createRoleChange r.requestedBy r.targetAccountId
    r.requestedRole mins password code requestId
  new : Store.request e.before.store requestId = none ∧
    (Store.request e.after.store requestId).isSome = true
  other : r.requestedBy ≠ r.targetAccountId
  author : ∃ x ∈ es, x.label = .read q ∧
    ∃ o, Store.account x.before.store r.requestedBy = some o ∧ o.activeOwner = true
  target : ∃ t, Store.account e.before.store r.targetAccountId = some t ∧ t.role = role
  verified : sensitiveOwnerChange role r.requestedRole = true →
    ∃ o mins password code time, q.op = .createRoleChange r.requestedBy r.targetAccountId
        r.requestedRole mins (some password) (some code) requestId ∧
      Store.account e.before.store r.requestedBy = some o ∧
      ownerVerified S password code time o = true

theorem CreatedIn.kept {role : Role} {e : OperatorEv} {es' : List OperatorEv}
    (hc : CreatedIn S es requestId r role e q) (hkept : RequestKept r r') (hsub : es ⊆ es') :
    CreatedIn S es' requestId r' role e q := by
  obtain ⟨hcommit, hop, hnew, hother, ⟨x, hx, hauthor⟩, htarget, hverified⟩ := hc
  refine ⟨hcommit, ?_, hnew, ?_, ⟨x, hsub hx, ?_⟩, ?_, ?_⟩
  all_goals simpa only [hkept.target, hkept.role, hkept.author] using ‹_›

/-- Where the requests come from, and what is true of those that are pending. -/
structure Traced (S : Services) (es : List OperatorEv) (st : Store) : Prop where
  created : ∀ requestId r, st.request requestId = some r → ∃ role,
    (∃ e ∈ es, ∃ q, CreatedIn S es requestId r role e q) ∧
    (r.status = .pending → ∃ a, st.account r.targetAccountId = some a ∧ a.role = role)
  single : ∀ {id id' r r'}, st.request id = some r → st.request id' = some r' →
    r.status = .pending → r'.status = .pending → r'.targetAccountId = r.targetAccountId → id' = id

theorem completed_of_role_ne {a a' : Account} (hs : Valid (operatorRules S) es s)
    (hstep : Step (operatorRules S) s l s') (ha : Store.account s.store id = some a)
    (ha' : Store.account s'.store id = some a') (hne : a'.role ≠ a.role) :
    ∃ q ans h requestId operator r, CommitsIn S es s l s' q ans h ∧
      Completed q h requestId r a operator ∧ r.targetAccountId = id ∧
      a' = { a with role := r.requestedRole } := by
  rcases change_of_step hs hstep ha' with hold | ⟨q, ans, h, hc, hown⟩
  · obtain rfl := Option.some.inj (hold.symm.trans ha)
    exact absurd rfl hne
  have hchange := hc.change hown
  rw [show s.store.lookup (Key.account id) = some a from ha] at hchange
  cases standing_of_change hchange with
  | kept hrole => exact absurd hrole hne
  | moved hrole => exact absurd hrole hne
  | promoted requestId operator r hcompleted hid heq =>
    exact ⟨q, ans, h, requestId, operator, r, hc, hcompleted, hid, heq⟩

theorem role_of_pending {role : Role} (htraced : Traced S es s.store)
    (hs : Valid (operatorRules S) es s) (hstep : Step (operatorRules S) s l s')
    (hr : Store.request s.store requestId = some r) (hpending : r.status = .pending)
    (hrole : ∃ a, Store.account s.store r.targetAccountId = some a ∧ a.role = role)
    (hr' : Store.request s'.store requestId = some r') (hpending' : r'.status = .pending) :
    ∃ a, Store.account s'.store r.targetAccountId = some a ∧ a.role = role := by
  obtain ⟨a, ha, hrole⟩ := hrole
  obtain ⟨a', ha'⟩ := row_stays hs hstep ha
  refine ⟨a', ha', ?_⟩
  by_contra hne
  obtain ⟨q, ans, h, requestId', operator, r₁, hc, hcompleted, htarget, -⟩ :=
    completed_of_role_ne hs hstep ha ha' (by rwa [hrole])
  have hfound : Store.request s.store requestId' = some r₁ := hc.found hcompleted.request
  obtain rfl := htraced.single hr hfound hpending hcompleted.pending htarget
  -- the request itself is completed, so it is not pending any more
  have hwritten := hc.lookup hcompleted.written
  rw [show s'.store.lookup (Key.request requestId') = some r' from hr'] at hwritten
  rw [Option.some.inj hwritten] at hpending'
  cases hpending'

theorem created_of_requested (hc : CommitsIn S es s l s' q ans h) {t : Account}
    (hown : h.own.lookup (Key.request requestId) = some r)
    (hnone : Store.request s.store requestId = none) (hrequested : Requested S q h requestId r t) :
    CreatedIn S (es ++ [⟨s, l, s'⟩]) requestId r t.role ⟨s, l, s'⟩ q := by
  refine ⟨⟨ans, hc.label⟩, hrequested.op, ⟨hnone, ?_⟩, hrequested.other, ?_,
    ⟨t, hc.found hrequested.target, rfl⟩, fun hsensitive => ?_⟩
  · rw [Store.request, hc.lookup hown]
    rfl
  · obtain ⟨sn, hsn, hauthor⟩ := hrequested.author
    obtain ⟨x, hx, hread, hstore⟩ := (hc.commits.recent sn hsn).taken
    have hany : (Store.account sn.store r.requestedBy).any Account.activeOwner = true := by
      rcases hauthor with hauthor | ⟨hkey, hbase⟩
      · exact hauthor
      · obtain ⟨o, ho, howner⟩ := (Option.any_eq_true _ _).mp hbase
        have hseen : Store.account s.store r.requestedBy = Store.account sn.store r.requestedBy :=
          hc.seen hsn hkey
        rw [← hseen, show Store.account s.store r.requestedBy = some o from hc.found ho]
        exact howner
    obtain ⟨o, ho, howner⟩ := (Option.any_eq_true _ _).mp hany
    exact ⟨x, mem_append_left _ hx, hread, o, by rw [hstore]; exact ho, howner⟩
  · obtain ⟨-, -, o, mins, password, code, time, hop, ho, hverified⟩ := hrequested.verified hsensitive
    exact ⟨o, mins, password, code, time, hop, hc.found ho, hverified⟩

theorem request_of_change (hchange : Change S q ans h (.request requestId) none r') :
    ∃ t, Requested S q h requestId r' t := by
  generalize hb : (none : Option RoleChangeRequest) = b at hchange
  cases hchange with
  | requested hrequested => exact ⟨_, hrequested⟩
  | _ => cases hb

theorem created_of_step (htraced : Traced S es s.store) (hs : Valid (operatorRules S) es s)
    (hstep : Step (operatorRules S) s l s') (hr' : Store.request s'.store requestId = some r') :
    ∃ role,
      (∃ e ∈ es ++ [⟨s, l, s'⟩], ∃ q, CreatedIn S (es ++ [⟨s, l, s'⟩]) requestId r' role e q) ∧
      (r'.status = .pending →
        ∃ a, Store.account s'.store r'.targetAccountId = some a ∧ a.role = role) := by
  have hsub : es ⊆ es ++ [⟨s, l, s'⟩] := subset_append_left _ _
  -- a request that was there
  have hold : ∀ r, Store.request s.store requestId = some r → RequestKept r r' → ∃ role,
      (∃ e ∈ es ++ [⟨s, l, s'⟩], ∃ q, CreatedIn S (es ++ [⟨s, l, s'⟩]) requestId r' role e q) ∧
      (r'.status = .pending →
        ∃ a, Store.account s'.store r'.targetAccountId = some a ∧ a.role = role) := by
    intro r hr hkept
    obtain ⟨role, ⟨e, he, q, hcreated⟩, hrole⟩ := htraced.created requestId r hr
    refine ⟨role, ⟨e, hsub he, q, hcreated.kept hkept hsub⟩, fun hpending' => ?_⟩
    have hpending := hkept.settled hpending'
    rw [hkept.target]
    exact role_of_pending htraced hs hstep hr hpending (hrole hpending) hr' hpending'
  rcases change_of_step hs hstep hr' with hsame | ⟨q, ans, h, hc, hown⟩
  · exact hold r' hsame ⟨rfl, rfl, rfl, rfl, rfl, id⟩
  have hchange := hc.change hown
  cases hr : s.store.lookup (Key.request requestId) with
  | some r =>
    rw [hr] at hchange
    exact hold r hr (request_kept hchange)
  | none =>
    rw [hr] at hchange
    obtain ⟨t, hrequested⟩ := request_of_change hchange
    refine ⟨t.role, ⟨_, mem_append_right _ mem_cons_self, q,
      created_of_requested hc hown hr hrequested⟩, fun _ => ?_⟩
    -- the request holds its target and does not change it
    have htarget : Store.account s.store r'.targetAccountId = some t := hc.found hrequested.target
    obtain ⟨a', ha'⟩ := row_stays hs hstep htarget
    refine ⟨a', ha', ?_⟩
    by_contra hne
    obtain ⟨q', ans', h', _, _, _, hc', hcompleted, -, -⟩ :=
      completed_of_role_ne hs hstep htarget ha' hne
    obtain ⟨_, _, _, hop⟩ := hrequested.op
    have hlabel := hc.label.symm.trans hc'.label
    cases hlabel
    rw [hcompleted.op] at hop
    cases hop

theorem pending_since {ks : List Key} {st st' : Store} {target : String}
    (hsince : Since (operatorRules S) ks st st') (htarget : Key.account target ∈ ks)
    (hr' : st'.request requestId = some r') (hpending : r'.status = .pending)
    (hid : r'.targetAccountId = target) :
    ∃ r, st.request requestId = some r ∧ r.status = .pending ∧ r.targetAccountId = target := by
  refine hsince.induct (fun m => ∀ r' : RoleChangeRequest, Store.request m requestId = some r' →
    r'.status = .pending → r'.targetAccountId = target → ∃ r, st.request requestId = some r ∧
      r.status = .pending ∧ r.targetAccountId = target) (fun r' h1 h2 h3 => ⟨r', h1, h2, h3⟩) ?_ r' hr'
    hpending hid
  intro m q ans h ih hexec hbased hoff r' hr' hpending hid
  rcases AList.lookup_union_eq_some.mp hr' with hown | ⟨-, hold⟩
  · have hchange := (rows_of_exec hexec).rows (Key.request requestId) r' hown
    rw [← hbased _ (AList.lookup_isSome.mp (Option.isSome_of_eq_some hown))] at hchange
    cases hm : AList.lookup (Key.request requestId) m with
    | some r =>
      rw [hm] at hchange
      have hkept := request_kept hchange
      exact ih r hm (hkept.settled hpending) (hkept.target ▸ hid)
    | none =>
      rw [hm] at hchange
      obtain ⟨t, hrequested⟩ := request_of_change hchange
      exact absurd (hid ▸ hrequested.locked) (hoff _ htarget)
  · exact ih r' hold hpending hid

theorem pending_of_step (hs : Valid (operatorRules S) es s) (hstep : Step (operatorRules S) s l s')
    (hr' : Store.request s'.store requestId = some r') (hpending : r'.status = .pending) :
    (∃ r, Store.request s.store requestId = some r ∧ r.status = .pending ∧
      r.targetAccountId = r'.targetAccountId) ∨
    ∃ q ans h t, CommitsIn S es s l s' q ans h ∧ Requested S q h requestId r' t := by
  rcases change_of_step hs hstep hr' with hold | ⟨q, ans, h, hc, hown⟩
  · exact .inl ⟨r', hold, hpending, rfl⟩
  have hchange := hc.change hown
  cases hr : s.store.lookup (Key.request requestId) with
  | some r =>
    rw [hr] at hchange
    have hkept := request_kept hchange
    exact .inl ⟨r, hr, hkept.settled hpending, hkept.target.symm⟩
  | none =>
    rw [hr] at hchange
    obtain ⟨t, hrequested⟩ := request_of_change hchange
    exact .inr ⟨q, ans, h, t, hc, hrequested⟩

theorem single_of_requested (hc : CommitsIn S es s l s' q ans h) {id' : String} {t : Account}
    (hrequested : Requested S q h id r t) (hr' : Store.request s'.store id' = some r')
    (hpending : r'.status = .pending) (htarget : r'.targetAccountId = r.targetAccountId) :
    id' = id := by
  by_contra hne
  obtain ⟨sn, hsn, hkey, hnone⟩ := hrequested.single
  by_cases hown : Key.request id' ∈ h.own
  · refine hnone id' r' hne ?_ hpending htarget
    rw [hc.store, Store.request, AList.lookup_union_left hown] at hr'
    rw [Store.request, AList.lookup_union_left hown]
    exact hr'
  · rw [hc.store, Store.request, AList.lookup_union_right hown] at hr'
    obtain ⟨r₀, hr₀, hpending₀, htarget₀⟩ :=
      pending_since (hc.commits.recent sn hsn).since hkey hr' hpending htarget
    refine hnone id' r₀ hne ?_ hpending₀ htarget₀
    rw [Store.request, AList.lookup_union_right hown]
    exact hr₀

theorem traced_of_step (htraced : Traced S es s.store) (hs : Valid (operatorRules S) es s)
    (hstep : Step (operatorRules S) s l s') : Traced S (es ++ [⟨s, l, s'⟩]) s'.store := by
  refine ⟨fun requestId r' hr' => created_of_step htraced hs hstep hr', ?_⟩
  intro id id' r r' hr hr' hpending hpending' htarget
  rcases pending_of_step hs hstep hr hpending with ⟨r₀, hr₀, hp₀, ht₀⟩ | ⟨q, ans, h, t, hc, hrequested⟩
  · rcases pending_of_step hs hstep hr' hpending' with
      ⟨r₁, hr₁, hp₁, ht₁⟩ | ⟨q, ans, h, t, hc, hrequested⟩
    · exact htraced.single hr₀ hr₁ hp₀ hp₁ (by rw [ht₀, ht₁, htarget])
    · exact (single_of_requested hc hrequested hr hpending htarget.symm).symm
  · exact single_of_requested hc hrequested hr' hpending' htarget

theorem traced_of_run (h : Run (Step (operatorRules S)) (fresh g) es s) : Traced S es s.store := by
  have hnone : ∀ id, Store.request (fresh g).store id = none := by
    intro id
    rw [Store.request, AList.lookup_eq_none]
    simp [fresh]
  refine history_of_run rfl h (fun es s => Traced S es s.store) ⟨fun id r hr => ?_, ?_⟩
    fun hs htraced hstep => traced_of_step htraced hs hstep
  · rw [hnone] at hr
    cases hr
  · intro id id' r r' hr
    rw [hnone] at hr
    cases hr

/-- Event `e` completes request `r` for `id`. -/
structure CompletedIn (S : Services) (pre : List OperatorEv) (e : OperatorEv) (id : String)
    (old new : Role) (requestId operator : String) (r : RoleChangeRequest) (q : Request) :
    Prop where
  commit : ∃ ans, e.label = .commit q ans
  op : q.op = .completeRoleChange operator requestId
  found : Store.request e.before.store requestId = some r
  pending : r.status = .pending
  written : Store.request e.after.store requestId = some (r.complete q.now operator)
  unexpired : q.now < r.expiresAt
  target : r.targetAccountId = id
  role : r.requestedRole = new
  other : operator ≠ id
  completer : ∃ o, Store.account e.before.store operator = some o ∧ o.activeOwner = true
  created : ∃ e₀ ∈ pre, ∃ q₀, CreatedIn S pre requestId r old e₀ q₀

/-- **Every role change is authorized**: when the role of an account changes, in any interleaving,
then in a transaction that completes a pending, unexpired request for this account and role; the
completer is an active Owner and the author was one, both are other accounts, and if the Owner role
is granted or taken away, the author's password and code were verified at the request. -/
theorem role_change_authorized {pre post : List OperatorEv} {e : OperatorEv} {id : String}
    {a a' : Account} (h : Run (Step (operatorRules S)) (fresh g) (pre ++ e :: post) s)
    (ha : Store.account e.before.store id = some a) (ha' : Store.account e.after.store id = some a')
    (hchanged : a'.role ≠ a.role) :
    ∃ requestId operator r q, CompletedIn S pre e id a.role a'.role requestId operator r q := by
  obtain ⟨hpre, hstep, -⟩ := h.split
  obtain ⟨q, ans, h, requestId, operator, r, hc, hcompleted, htarget, rfl⟩ :=
    completed_of_role_ne (valid_of_run rfl hpre) hstep ha ha' hchanged
  have hfound : Store.request e.before.store requestId = some r := hc.found hcompleted.request
  obtain ⟨role, hcreated, hrole⟩ := (traced_of_run hpre).created requestId r hfound
  obtain ⟨b, hb, rfl⟩ := hrole hcompleted.pending
  rw [htarget] at hb
  obtain rfl := Option.some.inj (hb.symm.trans ha)
  exact ⟨requestId, operator, r, q, ⟨ans, hc.label⟩, hcompleted.op, hfound, hcompleted.pending,
    hc.lookup hcompleted.written, hcompleted.unexpired, htarget, rfl, htarget ▸ hcompleted.other,
    hc.completer hcompleted, hcreated⟩

def samplePromotion : Op :=
  .createRoleChange "o" "m" .owner 60 (some "password of o") (some "code of o") "r1"

theorem sample_role_change_authorized : ∃ pre e s requestId operator r q,
    Run (Step (operatorRules plainServices)) (fresh plainOutside) (pre ++ [e]) s ∧
      CompletedIn plainServices pre e "m" .manager .owner requestId operator r q := by
  obtain ⟨pre, e, s, hrun, -, hbefore, hafter, hstore⟩ :=
    sample_run (sampleAccounts ++ [samplePromotion]) (.completeRoleChange "o" "r1")
      (by decide +kernel) (by decide +kernel)
  have ha : Store.account e.before.store "m" =
      some (newAccount "ben" "password of m" "it1" .manager) := by
    rw [hbefore]
    decide +kernel
  have ha' : Store.account e.after.store "m" =
      some (newAccount "ben" "password of m" "it1" .owner) := by
    rw [hafter, hstore]
    decide +kernel
  obtain ⟨requestId, operator, r, q, hcompleted⟩ :=
    role_change_authorized hrun ha ha' (by decide)
  exact ⟨pre, e, s, requestId, operator, r, q, hrun, hcompleted⟩

/-- **An account has one pending role change at a time**, in any interleaving, and until it is
settled the account keeps the role for which the request was verified. -/
theorem one_pending_request (h : Run (Step (operatorRules S)) (fresh g) es s)
    (hr : Store.request s.store id = some r) (hpending : r.status = .pending) :
    (∀ id' r', Store.request s.store id' = some r' → r'.status = .pending →
      r'.targetAccountId = r.targetAccountId → id' = id) ∧
    ∃ e ∈ es, ∃ q a, CreatedIn S es id r a.role e q ∧
      Store.account s.store r.targetAccountId = some a := by
  have htraced := traced_of_run h
  obtain ⟨role, ⟨e, he, q, hcreated⟩, hrole⟩ := htraced.created id r hr
  obtain ⟨a, ha, rfl⟩ := hrole hpending
  exact ⟨fun id' r' hr' hpending' htarget =>
    htraced.single hr hr' hpending hpending' htarget, e, he, q, a, hcreated, ha⟩

theorem sample_one_pending_request : ∃ es s, ∃ r : RoleChangeRequest,
    Run (Step (operatorRules plainServices)) (fresh plainOutside) es s ∧
      Store.request s.store "r1" = some r ∧ ∃ a, Store.account s.store r.targetAccountId = some a := by
  obtain ⟨pre, e, s, hrun, -, -, -, hstore⟩ :=
    sample_run sampleAccounts samplePromotion (by decide +kernel) (by decide +kernel)
  have hasked : (Store.request s.store "r1").any (fun r => r.status == .pending) = true := by
    rw [hstore]
    decide +kernel
  obtain ⟨r, hr, hpending⟩ := (Option.any_eq_true _ _).mp hasked
  obtain ⟨-, _, _, _, a, -, ha⟩ := one_pending_request hrun hr (beq_iff_eq.mp hpending)
  exact ⟨_, s, r, hrun, hr, a, ha⟩

end Steps

end ManagedDirectory.Operators
