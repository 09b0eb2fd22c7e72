import ManagedDirectory.Operators.AccessCutoff

/-!
# Completing a reset link

A link resets one factor of an account or both, and relies on the rest being intact. What is left of
the rest is seen in the account's row: it has an authenticator secret unless a reset took it away, and
`must_change_password` is false only while the password is one its holder chose (`sound_of_run`). `link_completes_iff` tells which links their holder can complete.
-/

namespace ManagedDirectory.Operators

open Lib Lib.Txn Lib.Txn.Prog List

variable {S : Services} {q : Request} {ans : Answer} {h : Holding}

/-! ## Links and their tokens -/

def Op.link : Op → Option (String × String)
  | .createReset _ _ _ _ _ resetId token _ => some (resetId, token)
  | .createSelfReset _ _ _ _ resetId token => some (resetId, token)
  | _ => none

theorem mem_draws_of_link {op : Op} {id token : String} (hlink : op.link = some (id, token)) :
    token ∈ op.draws := by
  cases op with
  | createReset | createSelfReset =>
    cases hlink
    simp [Op.draws]
  | _ => cases hlink

theorem link_of_change {id : String} {r : AccessReset}
    (hchange : Change S q ans h (.reset id) none r) :
    ∃ token, q.op.link = some (id, token) ∧ r.tokenHash = S.tokenHash token := by
  generalize hb : (none : Option AccessReset) = b at hchange
  cases hchange with
  | reset hop => exact ⟨_, by rw [hop]; rfl, rfl⟩
  | selfReset hop => exact ⟨_, by rw [hop]; rfl, rfl⟩
  | _ => cases hb

section Runs

variable {s s' : World} {es : List OperatorEv} {l : Label Answer Request} {g : Outside}

def LinkCreated (S : Services) (es : List OperatorEv) (id : String) (r : AccessReset) : Prop :=
  ∃ e ∈ es, ∃ q ans token, e.label = .commit q ans ∧ q.op.link = some (id, token) ∧
    r.tokenHash = S.tokenHash token

variable {r : AccessReset} {a : Account} {id : String}

theorem LinkCreated.mono {es' : List OperatorEv} {r' : AccessReset}
    (hcreated : LinkCreated S es id r) (htoken : r'.tokenHash = r.tokenHash) :
    LinkCreated S (es ++ es') id r' := by
  obtain ⟨e, he, q, ans, token, hlabel, hlink, hhash⟩ := hcreated
  exact ⟨e, mem_append_left _ he, q, ans, token, hlabel, hlink, htoken.trans hhash⟩

theorem linkCreated_of_run (h : Run (Step (operatorRules S)) (fresh g) es s)
    (hr : Store.reset s.store id = some r) : LinkCreated S es id r := by
  refine history_of_run rfl h (fun es s => ∀ r, Store.reset s.store id = some r →
    LinkCreated S es id r) ?_ ?_ r hr
  · intro r hr
    have hnone : Store.reset (fresh g).store id = none := by
      rw [Store.reset, AList.lookup_eq_none]
      simp [fresh]
    rw [hnone] at hr
    cases hr
  intro es s l s' hs hinv hstep r' hr'
  rcases change_of_step hs hstep hr' with hold | ⟨q, ans, h, hc, hown⟩
  · exact (hinv r' hold).mono rfl
  have hchange := hc.change hown
  cases hr : s.store.lookup (Key.reset id) with
  | none =>
    rw [hr] at hchange
    obtain ⟨token, hlink, hhash⟩ := link_of_change hchange
    exact ⟨_, mem_append_right _ mem_cons_self, q, ans, token, hc.label, hlink, hhash⟩
  | some r =>
    rw [hr] at hchange
    exact (hinv r hr).mono (reset_kept hchange).token

theorem link_unique (h : Run (Step (operatorRules S)) (fresh g) es s) {id' : String}
    {r' : AccessReset} (hr : Store.reset s.store id = some r)
    (hr' : Store.reset s.store id' = some r') (hhash : r.tokenHash = r'.tokenHash) : id = id' := by
  obtain ⟨e, he, q, ans, token, hlabel, hlink, htoken⟩ := linkCreated_of_run h hr
  obtain ⟨e', he', q', ans', token', hlabel', hlink', htoken'⟩ := linkCreated_of_run h hr'
  obtain rfl := S.tokenHash_injective (htoken.symm.trans (hhash.trans htoken'))
  have hdrawn : token ∈ commitDraws e.label := by
    rw [hlabel]
    exact mem_draws_of_link hlink
  have hdrawn' : token ∈ commitDraws e'.label := by
    rw [hlabel']
    exact mem_draws_of_link hlink'
  obtain ⟨pre, post, rfl⟩ := append_of_mem he
  obtain ⟨pre', post', hes⟩ := append_of_mem he'
  obtain ⟨-, rfl, -⟩ := commit_unique (drawnOnce_of_run h).nodup.of_append_left hes hdrawn hdrawn'
  rw [hlabel] at hlabel'
  cases hlabel'
  rw [hlink] at hlink'
  cases hlink'
  rfl

theorem resetForToken_eq (h : Run (Step (operatorRules S)) (fresh g) es s) {token : String}
    (hr : Store.reset s.store id = some r) (hhash : r.tokenHash = S.tokenHash token)
    (ha : Store.account s.store r.accountId = some a) (hlive : a.deletedAt = none) :
    resetForToken S s.store token = some id := by
  have hmem : id ∈ (AList.keys s.store).filterMap Key.resetId := by
    refine mem_filterMap.mpr ⟨.reset id, ?_, rfl⟩
    exact AList.mem_keys.mp (AList.lookup_isSome.mp (Option.isSome_of_eq_some hr))
  unfold resetForToken
  cases hfind : ((AList.keys s.store).filterMap Key.resetId).find? fun id =>
      (Store.reset s.store id).any fun r => r.tokenHash == S.tokenHash token &&
        (Store.account s.store r.accountId).any fun a => a.deletedAt.isNone with
  | none =>
    have hnot := List.find?_eq_none.mp hfind id hmem
    simp [hr, hhash, ha, hlive] at hnot
  | some id' =>
    have hfound := List.find?_some hfind
    obtain ⟨r', hr', hsame⟩ := (Option.any_eq_true _ _).mp hfound
    simp only [Bool.and_eq_true, beq_iff_eq] at hsame
    rw [link_unique h hr hr' (hhash.trans hsame.1.symm)]

/-! ## What resets leave of an account -/

/-- The holder of the account chooses the password with this hash in `e`. -/
def Chooses (S : Services) (accountId hash : String) (e : OperatorEv) : Prop :=
  ∃ q ans password salt, e.label = .commit q ans ∧ q.op.chosen = some (password, salt) ∧
    hash = S.hashPassword password salt ∧
    ∃ a, Store.account e.after.store accountId = some a ∧ a.passwordHash = hash

structure Sound (S : Services) (es : List OperatorEv) (id : String) (a : Account) : Prop where
  enrolled : a.totpEnabled = a.totpSecret.isSome
  chosen : a.mustChangePassword = false → ∃ e ∈ es, Chooses S id a.passwordHash e

theorem Sound.mono {es' : List OperatorEv} {a' : Account} (h : Sound S es id a)
    (henabled : a'.totpEnabled = a.totpEnabled) (hsecret : a'.totpSecret = a.totpSecret)
    (hmust : a'.mustChangePassword = a.mustChangePassword)
    (hhash : a'.passwordHash = a.passwordHash) : Sound S (es ++ es') id a' := by
  refine ⟨by rw [henabled, hsecret, h.enrolled], fun hfalse => ?_⟩
  obtain ⟨e, he, hchooses⟩ := h.chosen (hmust ▸ hfalse)
  exact ⟨e, mem_append_left _ he, hhash ▸ hchooses⟩

theorem Account.enrolled_close {mode : ResetMode} {hash : String}
    (h : a.totpEnabled = a.totpSecret.isSome) :
    (a.close mode hash).totpEnabled = (a.close mode hash).totpSecret.isSome := by
  cases mode with
  | passwordOnly => exact h
  | totpOnly | passwordTotp => rfl

theorem Account.enrolled_recover {mode : ResetMode} {hash secret : String}
    (h : a.totpEnabled = a.totpSecret.isSome) :
    (a.recover mode hash secret).totpEnabled = (a.recover mode hash secret).totpSecret.isSome := by
  cases mode with
  | passwordOnly => exact h
  | totpOnly | passwordTotp => rfl

theorem sound_of_change {e : OperatorEv} {a' : Account} (hsound : Sound S es id a)
    (hchange : Change S q ans h (.account id) (some a) a') (hlabel : e.label = .commit q ans)
    (hafter : Store.account e.after.store id = some a') :
    Sound S (es ++ [e]) id a' := by
  generalize hb : some a = b at hchange
  cases hchange with
  | created => cases hb
  | same | counted | readdressed | switched | deleted | promoted =>
    obtain rfl := Option.some.inj hb
    exact hsound.mono rfl rfl rfl rfl
  | @closed _ _ mode =>
    obtain rfl := Option.some.inj hb
    refine ⟨Account.enrolled_close hsound.enrolled, fun hfalse => ?_⟩
    cases mode with
    | passwordOnly | passwordTotp => cases hfalse
    | totpOnly =>
      obtain ⟨x, hx, hchooses⟩ := hsound.chosen hfalse
      exact ⟨x, mem_append_left _ hx, hchooses⟩
  | @recovered _ r _ token password totpCode salt haccepted =>
    obtain rfl := Option.some.inj hb
    refine ⟨Account.enrolled_recover hsound.enrolled, fun hfalse => ?_⟩
    have hgiven := haccepted.given
    have hchooses : ∀ p, password = some p →
        (a.recover r.resetMode (S.hashPassword (password.getD "") salt)
          (S.resetSecret token)).passwordHash = S.hashPassword p salt →
        Chooses S r.accountId (S.hashPassword p salt) e := fun p hp hhash =>
      ⟨q, ans, p, salt, hlabel, by rw [haccepted.op, hp]; rfl, rfl, _, hafter, hhash⟩
    cases hmode : r.resetMode with
    | passwordOnly | passwordTotp =>
      rw [hmode] at hgiven hchooses
      obtain ⟨p, rfl⟩ := hgiven rfl
      exact ⟨e, mem_append_right _ mem_cons_self, hchooses p rfl rfl⟩
    | totpOnly =>
      rw [hmode] at hfalse
      obtain ⟨x, hx, hchooses⟩ := hsound.chosen hfalse
      exact ⟨x, mem_append_left _ hx, hchooses⟩

theorem sound_of_run (h : Run (Step (operatorRules S)) (fresh g) es s)
    (ha : Store.account s.store id = some a) : Sound S es id a := by
  refine history_of_run rfl h (fun es s => ∀ a, Store.account s.store id = some a →
    Sound S es id a) ?_ ?_ a ha
  · intro a ha
    have hnone : Store.account (fresh g).store id = none := by
      rw [Store.account, AList.lookup_eq_none]
      simp [fresh]
    rw [hnone] at ha
    cases ha
  intro es s l s' hs hinv hstep a' ha'
  rcases change_of_step hs hstep ha' with hold | ⟨q, ans, h, hc, hown⟩
  · exact (hinv a' hold).mono rfl rfl rfl rfl
  have hchange := hc.change hown
  cases ha : s.store.lookup (Key.account id) with
  | some a =>
    rw [ha] at hchange
    exact sound_of_change (hinv a ha) hchange hc.label ha'
  | none =>
    rw [ha] at hchange
    generalize hb : (none : Option Account) = b at hchange
    cases hchange with
    | created hop =>
      exact ⟨rfl, fun _ => ⟨_, mem_append_right _ mem_cons_self, q, ans, _, _, hc.label,
        hop, rfl, _, ha', rfl⟩⟩
    | _ => cases hb

end Runs

/-! ## Evaluating a completion -/

/-- An open link, its token and its account, among the committed rows. -/
structure OpenLink (S : Services) (st : Store) (now : Int) (token id : String) (r : AccessReset)
    (a : Account) : Prop where
  link : st.reset id = some r
  found : resetForToken S st token = some id
  hash : r.tokenHash = S.tokenHash token
  unused : r.usedAt = none
  unrevoked : r.revokedAt = none
  unexpired : now < r.expiresAt
  account : st.account r.accountId = some a
  live : a.deletedAt = none

/-- What `operator_access_reset_setup` shows. -/
def AccessReset.setup (S : Services) (token : String) (r : AccessReset) (a : Account) : ResetSetup :=
  ⟨a.username, r.resetMode, r.expiresAt,
    if r.resetMode.resetsTotp then some (S.resetSecret token) else none⟩

section Evaluate

variable {st : Store} {g : Outside} {now : Int} {token id : String} {r : AccessReset} {a : Account}

theorem OpenLink.setup_eq (hopen : OpenLink S st now token id r a) :
    (operatorAccessResetSetup S now token).result st g = some (r.setup S token a) := by
  have hunion : ((∅ : Store) ∪ st) = st := AList.empty_union
  have hpeek : (peekReset S now token).alone .empty st g =
      some (.ok (r, a), Held.empty.saw st) := by
    unfold peekReset
    rw [alone_bind_ok alone_snapshot, alone_bind_ok (alone_orFail (hunion ▸ hopen.found)),
      alone_bind_ok (alone_orFail (hunion ▸ hopen.link)),
      alone_bind_ok (alone_orFail (hunion ▸ hopen.account)),
      alone_bind_ok (alone_failIf (by simp [hopen.unused, hopen.unrevoked])),
      alone_bind_ok (alone_failIf (by simpa using hopen.unexpired))]
    rfl
  unfold Prog.result operatorAccessResetSetup
  rw [alone_bind_ok hpeek]
  rfl

variable {password code salt : String}

theorem OpenLink.getReset_eq (hopen : OpenLink S st now token id r a) :
    (getReset S now token).alone .empty st g = some (.ok (id, r, a),
      ((Held.empty.saw st).lock (Key.reset id) r).lock (Key.account r.accountId) a) := by
  have hunion : ((∅ : Store) ∪ st) = st := AList.empty_union
  unfold getReset
  rw [alone_bind_ok alone_snapshot, alone_bind_ok (alone_orFail (hunion ▸ hopen.found)),
    alone_bind_ok (alone_forUpdate (by simp) hopen.link (by simp [hopen.hash])),
    alone_bind_ok (alone_orFail rfl),
    alone_bind_ok (alone_forUpdate (by simp) hopen.account (by simp [hopen.live])),
    alone_bind_ok (alone_orFail rfl),
    alone_bind_ok (alone_failIf (by simp [hopen.unused, hopen.unrevoked])),
    alone_bind_ok (alone_failIf (by simpa using hopen.unexpired))]
  rfl

theorem OpenLink.accept_eq_none (hopen : OpenLink S st now token id r a)
    (hcode : acceptCode S r.resetMode token code g.clock a = false) (password : Option String)
    (salt : String) : (acceptReset S now token password code salt).result st g = none := by
  unfold Prog.result acceptReset
  rw [alone_bind_ok hopen.getReset_eq, alone_bind_ok alone_outside]
  by_cases hshort : r.resetMode.resetsPassword = true ∧ password.all (·.length < 12) = true
  · rw [alone_bind_error (alone_failIf_pos hshort)]
  · rw [alone_bind_ok (alone_failIf hshort), alone_bind_error (alone_failIf_pos hcode)]

theorem OpenLink.accept_eq (hopen : OpenLink S st now token id r a)
    (hlength : 12 ≤ password.length)
    (hcode : acceptCode S r.resetMode token code g.clock a = true) :
    (acceptReset S now token (some password) code salt).result st g = some (.ok .done) ∧
      Store.account ((acceptReset S now token (some password) code salt).storeAfter st g)
        r.accountId = some (a.recover r.resetMode (S.hashPassword password salt)
          (S.resetSecret token)) := by
  let h₀ : Holding := (((((Held.empty.saw st).lock (Key.reset id) r).lock (Key.account r.accountId)
    a).saw st).put (Key.account r.accountId) (a.recover r.resetMode (S.hashPassword password salt)
      (S.resetSecret token))).put (Key.reset id) { r with usedAt := some g.clock }
  obtain ⟨h, hupdate⟩ : ∃ h, (updateWhere Key.sessionId Key.session
      (fun _ (s : Session) => s.accountId == r.accountId)
      fun _ (s : Session) => { s with revokedAt := s.revokedAt.or (some g.clock) } :
        Tx Unit).alone h₀ st g = some (.ok (), h) := alone_updateWhere
  have halone : (acceptReset S now token (some password) code salt).alone .empty st g =
      some (.ok (.ok .done), h) := by
    unfold acceptReset
    rw [alone_bind_ok hopen.getReset_eq, alone_bind_ok alone_outside,
      alone_bind_ok (alone_failIf (by simp [hlength])),
      alone_bind_ok (alone_failIf (by simp [hcode])), alone_bind_ok (alone_write (by simp)),
      alone_bind_ok (alone_write (by simp)), Option.getD_some, alone_bind_ok hupdate]
    rfl
  have hu := exec_updateWhere Key.sessionId_eq (by simp [h₀]) (exec_of_alone (by simp [h₀]) hupdate)
  have haccount : h.own.lookup (Key.account r.accountId) = some (a.recover r.resetMode
      (S.hashPassword password salt) (S.resetSecret token)) := by
    rw [(hu.other _ (by simp)).1, Held.own_put, AList.lookup_insert_ne (by simp), Held.own_put,
      AList.lookup_insert]
  unfold Prog.result Prog.storeAfter
  rw [halone]
  exact ⟨rfl, AList.lookup_union_eq_some.mpr (.inl haccount)⟩

end Evaluate

/-! ## Completion by the holder -/

/-- The code that the holder's authenticator shows: with the secret of the setup answer, if there is
one, or else with the account's. -/
def ResetSetup.holderCode (S : Services) (setup : ResetSetup) (a : Account) (time : Int) : String :=
  S.totpNow (setup.totpSecret.getD (a.totpSecret.getD "")) time

/-- The holder of a link looks at its setup and accepts it with a password of their own, and the
account is whole then. -/
def Completes (S : Services) (es : List OperatorEv) (s : World) (token password salt : String)
    (accountId : String) (a : Account) : Prop :=
  ∃ setup op, (operatorAccessResetSetup S s.outside.clock token).result s.store s.outside =
      some setup ∧
    op = .acceptReset token (some password) (setup.holderCode S a s.outside.clock) salt ∧
    ((Op.request op s.outside).prog S).result s.store s.outside = some (.ok .done) ∧
    ∃ a', Store.account (((op.request s.outside).prog S).storeAfter s.store s.outside) accountId =
        some a' ∧
      a'.totpEnabled = true ∧ a'.totpSecret.isSome = true ∧ a'.mustChangePassword = false ∧
      (a'.passwordHash = S.hashPassword password salt ∨
        ∃ e ∈ es, Chooses S accountId a'.passwordHash e)

def AccessReset.completable (r : AccessReset) (a : Account) : Bool :=
  match r.resetMode with
  | .passwordTotp => true
  | .passwordOnly => a.totpSecret.any (· != "")
  | .totpOnly => !a.mustChangePassword

theorem acceptCode_holder {token : String} {r : AccessReset} {a : Account} {time : Int} :
    acceptCode S r.resetMode token ((r.setup S token a).holderCode S a time) time a =
      (r.resetMode.resetsTotp || a.totpSecret.any (· != "")) := by
  unfold acceptCode ResetSetup.holderCode AccessReset.setup
  cases hmode : r.resetMode.resetsTotp with
  | true => simp [S.totpVerify_now]
  | false =>
    cases a.totpSecret with
    | none => simp
    | some secret => simp [S.totpVerify_now]

section Holder

variable {s : World} {es : List OperatorEv} {g : Outside} {token id : String} {r : AccessReset}
  {a : Account} {password : String}

theorem openLink_of_run (h : Run (Step (operatorRules S)) (fresh g) es s)
    (hr : Store.reset s.store id = some r) (hhash : r.tokenHash = S.tokenHash token)
    (hunused : r.usedAt = none) (hunrevoked : r.revokedAt = none)
    (hunexpired : s.outside.clock < r.expiresAt)
    (ha : Store.account s.store r.accountId = some a) (hlive : a.deletedAt = none) :
    OpenLink S s.store s.outside.clock token id r a :=
  ⟨hr, resetForToken_eq h hr hhash ha hlive, hhash, hunused, hunrevoked, hunexpired, ha, hlive⟩

theorem recover_whole (hsound : Sound S es r.accountId a) {salt secret : String}
    (hcompletable : r.completable a = true) :
    let a' := a.recover r.resetMode (S.hashPassword password salt) secret
    a'.totpEnabled = true ∧ a'.totpSecret.isSome = true ∧ a'.mustChangePassword = false ∧
      (a'.passwordHash = S.hashPassword password salt ∨
        ∃ e ∈ es, Chooses S r.accountId a'.passwordHash e) := by
  unfold AccessReset.completable at hcompletable
  cases hmode : r.resetMode with
  | passwordTotp => exact ⟨rfl, rfl, rfl, .inl rfl⟩
  | passwordOnly =>
    rw [hmode] at hcompletable
    obtain ⟨secret', hsecret, -⟩ := (Option.any_eq_true _ _).mp hcompletable
    have hsome : a.totpSecret.isSome = true := Option.isSome_of_eq_some hsecret
    exact ⟨hsound.enrolled.trans hsome, hsome, rfl, .inl rfl⟩
  | totpOnly =>
    rw [hmode] at hcompletable
    have hfalse : a.mustChangePassword = false := by simpa using hcompletable
    exact ⟨rfl, rfl, hfalse, .inr (hsound.chosen hfalse)⟩

/-- **Which links can be completed**: an open link of an account that is not deleted is completed by
its holder, with the account whole afterwards, exactly if it resets both factors, or it resets the
password and there is an authenticator, or it resets the authenticator and the password need not be
changed. -/
theorem link_completes_iff (h : Run (Step (operatorRules S)) (fresh g) es s)
    (hr : Store.reset s.store id = some r) (hhash : r.tokenHash = S.tokenHash token)
    (hunused : r.usedAt = none) (hunrevoked : r.revokedAt = none)
    (hunexpired : s.outside.clock < r.expiresAt)
    (ha : Store.account s.store r.accountId = some a) (hlive : a.deletedAt = none)
    (hlength : 12 ≤ password.length) (salt : String) :
    Completes S es s token password salt r.accountId a ↔ r.completable a = true := by
  have hopen := openLink_of_run h hr hhash hunused hunrevoked hunexpired ha hlive
  constructor
  · rintro ⟨setup, _, hsetup, rfl, hresult, a', ha', -, -, hmust, -⟩
    rw [hopen.setup_eq] at hsetup
    obtain rfl := Option.some.inj hsetup
    have hcode : acceptCode S r.resetMode token ((r.setup S token a).holderCode S a
        s.outside.clock) s.outside.clock a = true := by
      by_contra hfalse
      have hnone := hopen.accept_eq_none (Bool.eq_false_iff.mpr hfalse) (some password) salt
      exact absurd (hnone.symm.trans hresult) (by simp)
    obtain rfl := Option.some.inj ((hopen.accept_eq hlength hcode).2.symm.trans ha')
    rw [acceptCode_holder] at hcode
    unfold AccessReset.completable
    cases hmode : r.resetMode with
    | passwordTotp => rfl
    | passwordOnly =>
      rw [hmode] at hcode
      exact hcode
    | totpOnly =>
      rw [hmode] at hmust
      exact (congrArg (!·) hmust : (!a.mustChangePassword) = true)
  · intro hcompletable
    have hcode : acceptCode S r.resetMode token ((r.setup S token a).holderCode S a
        s.outside.clock) s.outside.clock a = true := by
      rw [acceptCode_holder]
      unfold AccessReset.completable at hcompletable
      cases hmode : r.resetMode with
      | passwordTotp | totpOnly => rfl
      | passwordOnly =>
        rw [hmode] at hcompletable
        exact hcompletable
    obtain ⟨hresult, hafter⟩ := hopen.accept_eq hlength hcode
    exact ⟨_, _, hopen.setup_eq, rfl, hresult, _, hafter,
      recover_whole (sound_of_run h ha) hcompletable⟩

end Holder

def sampleResetBy (mode : ResetMode) (resetId token replacementHash : String) : Op :=
  .createReset "o" "m" mode "password of o" "code of o" resetId token replacementHash

def sampleResets (mode mode' : ResetMode) : List Op :=
  sampleAccounts ++ [sampleResetBy mode "r1" "t2" "x1", sampleResetBy mode' "r2" "t3" "x2"]

/-- A link that resets both factors is completed after one that was abandoned. -/
theorem sample_link_completes : ∃ es s a,
    Run (Step (operatorRules plainServices)) (fresh plainOutside) es s ∧
      Completes plainServices es s "t3" "new password of m" "salt" "m" a := by
  obtain ⟨es, hrun⟩ := run_plays (show allPlay plainServices ((fresh plainOutside).store,
    plainOutside) (sampleResets .totpOnly .passwordTotp) = true by decide +kernel)
  have hr : Store.reset (sampleStore (sampleResets .totpOnly .passwordTotp)).1 "r2" =
      some (newReset plainServices 0 "m" "t3" .passwordTotp "o") := by decide +kernel
  have ha : Store.account (sampleStore (sampleResets .totpOnly .passwordTotp)).1 "m" =
      some { newAccount "ben" "x2" "it1" .manager with
        totpSecret := none, totpEnabled := false, mustChangePassword := true } := by decide +kernel
  exact ⟨es, _, _, hrun, (link_completes_iff hrun hr rfl rfl rfl (by decide +kernel) ha rfl
    (by decide) "salt").mpr rfl⟩

/-- An Owner takes the authenticator of `m` away, the link is abandoned, and the Owner then resets
the password: nothing completes the new link. And the other way round, the completed link leaves `m`
with the password that nobody knows. -/
theorem abandoned_reset_stays :
    (∃ es s r, Run (Step (operatorRules plainServices)) (fresh plainOutside) es s ∧
      Store.reset s.store "r2" = some r ∧ r.usedAt = none ∧ r.revokedAt = none ∧
      s.outside.clock < r.expiresAt ∧
      ∀ password code salt, ((Op.request (.acceptReset "t3" password code salt) s.outside).prog
        plainServices).result s.store s.outside = none) ∧
    ∃ es s a, Run (Step (operatorRules plainServices)) (fresh plainOutside) es s ∧
      (Store.reset s.store "r2").any (·.usedAt.isSome) = true ∧
      Store.account s.store "m" = some a ∧ a.mustChangePassword = true ∧ a.passwordHash = "x1" := by
  constructor
  · obtain ⟨es, hrun⟩ := run_plays (show allPlay plainServices ((fresh plainOutside).store,
      plainOutside) (sampleResets .totpOnly .passwordOnly) = true by decide +kernel)
    have hr : Store.reset (sampleStore (sampleResets .totpOnly .passwordOnly)).1 "r2" =
        some (newReset plainServices 0 "m" "t3" .passwordOnly "o") := by decide +kernel
    have ha : Store.account (sampleStore (sampleResets .totpOnly .passwordOnly)).1 "m" =
        some { newAccount "ben" "x2" "it1" .manager with
          totpSecret := none, totpEnabled := false, mustChangePassword := true } := by
      decide +kernel
    refine ⟨es, _, _, hrun, hr, rfl, rfl, by decide +kernel, fun password code salt => ?_⟩
    exact (openLink_of_run hrun hr rfl rfl rfl (by decide +kernel) ha rfl).accept_eq_none rfl
      password salt
  · obtain ⟨es, hrun⟩ := run_plays (show allPlay plainServices ((fresh plainOutside).store,
      plainOutside) (sampleResets .passwordOnly .totpOnly ++
        [.acceptReset "t3" none "st3" "salt"]) = true by decide +kernel)
    have ha : Store.account (sampleStore (sampleResets .passwordOnly .totpOnly ++
        [.acceptReset "t3" none "st3" "salt"])).1 "m" =
        some { newAccount "ben" "x1" "st3" .manager with mustChangePassword := true } := by
      decide +kernel
    exact ⟨es, _, _, hrun, by decide +kernel, ha, rfl, rfl⟩

/-! ## The links of an account -/

section Links

variable {s s' : World} {es : List OperatorEv} {l : Label Answer Request} {g : Outside}
  {r r' : AccessReset} {id id' : String}

theorem usedAt_of_closed (hclosed : r.Closed)
    (hchange : Change S q ans h (.reset id) (some r) r') : r'.usedAt = r.usedAt := by
  generalize hb : some r = b at hchange
  cases hchange with
  | same | resetRevoked =>
    obtain rfl := Option.some.inj hb
    rfl
  | reset | selfReset => cases hb
  | resetUsed haccepted =>
    obtain rfl := Option.some.inj hb
    simp [AccessReset.Closed, haccepted.unused, haccepted.unrevoked] at hclosed

/-- **A reset link is used once, and never after it was revoked**, in any interleaving. -/
theorem reset_link_once (h : Run (Step (operatorRules S)) (fresh g) es s) {e : OperatorEv}
    (he : e ∈ es) (hr : Store.reset e.after.store id = some r) (hclosed : r.Closed) :
    ∃ r', Store.reset s.store id = some r' ∧ r'.Closed ∧ r'.usedAt = r.usedAt := by
  refine history_of_run rfl h (fun es s => ∀ e ∈ es, ∀ r, Store.reset e.after.store id = some r →
    r.Closed → ∃ r', Store.reset s.store id = some r' ∧ r'.Closed ∧ r'.usedAt = r.usedAt)
    (by simp) ?_ e he r hr hclosed
  intro es s l s' hs hinv hstep e he r hr hclosed
  rcases mem_append.mp he with he | he
  · obtain ⟨r', hr', hclosed', hused⟩ := hinv e he r hr hclosed
    obtain ⟨r'', hr''⟩ := row_stays hs hstep hr'
    rcases change_of_step hs hstep hr'' with hsame | ⟨q, ans, h, hc, hown⟩
    · obtain rfl := Option.some.inj (hr'.symm.trans hsame)
      exact ⟨r', hr'', hclosed', hused⟩
    · have hchange := hc.change hown
      rw [show s.store.lookup (.reset id) = some r' from hr'] at hchange
      exact ⟨r'', hr'', (reset_kept hchange).closed hclosed',
        (usedAt_of_closed hclosed' hchange).trans hused⟩
  · rw [List.mem_singleton.mp he] at hr
    exact ⟨r, hr, hclosed, rfl⟩

theorem sample_reset_link_once : ∃ es s, ∃ r : AccessReset,
    Run (Step (operatorRules plainServices)) (fresh plainOutside) es s ∧
      Store.reset s.store "r2" = some r ∧ r.Closed := by
  obtain ⟨pre, e, s, hrun, -, -, rfl, hstore⟩ := sample_run (sampleResets .passwordOnly .totpOnly)
    (.acceptReset "t3" none "st3" "salt") (by decide +kernel) (by decide +kernel)
  have hused : (Store.reset e.after.store "r2").any (·.usedAt.isSome) = true := by
    rw [hstore]
    decide +kernel
  obtain ⟨r, hr, hsome⟩ := (Option.any_eq_true _ _).mp hused
  obtain ⟨r', hr', hclosed, -⟩ := reset_link_once hrun (by simp) hr (.inl hsome)
  exact ⟨_, _, r', hrun, hr', hclosed⟩

theorem linksRevoked_of_self {accountId : String} {mode : ResetMode}
    {password code resetId token : String} {now : Int}
    (hexec : Exec (createSelfReset S now accountId mode password code resetId token) .empty ans h) :
    LinksRevoked h now accountId := by
  simp only [createSelfReset, exec_bind, exec_orFail, exec_outside, exec_failIf, exec_create,
    exec_pure] at hexec
  obtain ⟨_, _, hlock, a, _, ⟨rfl, rfl⟩, g, _, ⟨_, rfl⟩, _, _, ⟨-, rfl⟩, _, h₁, hresets, _, _,
    ⟨hnew, rfl⟩, -, rfl⟩ := hexec
  obtain ⟨-, rfl⟩ := exec_live (AList.notMem_empty _) hlock
  have hu : ResetsRevoked _ _ _ h₁ := exec_updateWhere Key.resetId_eq (by simp) hresets
  obtain ⟨sn, hsn, hkeys, hcovered⟩ := hu.covered
  refine ⟨sn, hsn, ?_, fun id r hr haccount hused hrevoked => ?_⟩
  · rw [hkeys]
    exact Held.mem_keys.mpr (.inl (by simp))
  · obtain ⟨v, hbase, hown⟩ := hcovered id r hr (by simp [haccount, hused, hrevoked])
    refine ⟨v, hbase, ?_⟩
    rw [Held.own_put, AList.lookup_insert_ne, hown]
    rintro heq
    exact hnew (heq ▸ AList.lookup_isSome.mp (Option.isSome_of_eq_some hown))

theorem linksRevoked_of_change (hexec : Exec (q.prog S) .empty ans h)
    (hchange : Change S q ans h (.reset id) none r) : LinksRevoked h q.now r.accountId := by
  obtain ⟨op, now⟩ := q
  generalize hb : (none : Option AccessReset) = b at hchange
  cases hchange with
  | reset hop =>
    obtain rfl := hop
    exact (resetDone_of_exec hexec).resets
  | selfReset hop =>
    obtain rfl := hop
    exact linksRevoked_of_self hexec
  | _ => cases hb

theorem link_before (hs : Valid (operatorRules S) es s) (hstep : Step (operatorRules S) s l s')
    (hr' : Store.reset s'.store id = some r') :
    (∃ r, Store.reset s.store id = some r ∧ ResetKept r r') ∨
      ∃ q ans h, CommitsIn S es s l s' q ans h ∧ Change S q ans h (.reset id) none r' := by
  cases hr : Store.reset s.store id with
  | some r => exact .inl ⟨r, rfl, reset_before hs hstep hr hr'⟩
  | none =>
    rcases change_of_step hs hstep hr' with hold | ⟨q, ans, h, hc, hown⟩
    · cases hr.symm.trans hold
    · have hchange := hc.change hown
      rw [show s.store.lookup (.reset id) = none from hr] at hchange
      exact .inr ⟨q, ans, h, hc, hchange⟩

/-- **An account has one open link at a time**, in any interleaving: whoever makes a link holds the
account and revokes the links that are there. -/
theorem one_open_link (h : Run (Step (operatorRules S)) (fresh g) es s)
    (hr : Store.reset s.store id = some r) (hr' : Store.reset s.store id' = some r')
    (haccount : r'.accountId = r.accountId) (hopen : ¬ r.Closed) (hne : id' ≠ id) : r'.Closed := by
  refine history_of_run rfl h (fun _ s => ∀ id id' r r', Store.reset s.store id = some r →
    Store.reset s.store id' = some r' → r'.accountId = r.accountId → ¬ r.Closed → id' ≠ id →
    r'.Closed) (fun _ _ _ _ hr => by cases hr) ?_ id id' r r' hr hr' haccount hopen hne
  intro es s l s' hs hinv hstep id id' r r' hr hr' haccount hopen hne
  rcases link_before hs hstep hr with ⟨r₀, hr₀, hkept⟩ | ⟨q, ans, h, hc, hchange⟩
  · rcases link_before hs hstep hr' with ⟨r₀', hr₀', hkept'⟩ | ⟨q, ans, h, hc, hchange'⟩
    · refine hkept'.closed (hinv id id' r₀ r₀' hr₀ hr₀' ?_ (fun hc => hopen (hkept.closed hc)) hne)
      rw [← hkept.account, ← hkept'.account, haccount]
    · exact absurd (closed_of_revoked hs hstep hc (linksRevoked_of_change hc.commits.exec hchange')
        hr₀ hr haccount.symm) hopen
  · rcases link_before hs hstep hr' with ⟨r₀', hr₀', -⟩ | ⟨q', ans', h', hc', hchange'⟩
    · exact closed_of_revoked hs hstep hc (linksRevoked_of_change hc.commits.exec hchange) hr₀' hr'
        haccount
    · -- both are new, and one request makes one link
      obtain ⟨rfl, rfl⟩ : q' = q ∧ ans' = ans := by simpa [hc.label] using hc'.label.symm
      obtain ⟨token, hlink, -⟩ := link_of_change hchange
      obtain ⟨token', hlink', -⟩ := link_of_change hchange'
      rw [hlink] at hlink'
      exact absurd (Prod.ext_iff.mp (Option.some.inj hlink')).1.symm hne

end Links

/-- The link that was abandoned is closed while the later one is open. -/
theorem sample_one_open_link : ∃ es s, ∃ r : AccessReset,
    Run (Step (operatorRules plainServices)) (fresh plainOutside) es s ∧
      Store.reset s.store "r1" = some r ∧ r.Closed := by
  obtain ⟨es, hrun⟩ := run_plays (show allPlay plainServices ((fresh plainOutside).store,
    plainOutside) (sampleResets .totpOnly .passwordTotp) = true by decide +kernel)
  have hr : Store.reset (sampleStore (sampleResets .totpOnly .passwordTotp)).1 "r2" =
      some (newReset plainServices 0 "m" "t3" .passwordTotp "o") := by decide +kernel
  have hr' : Store.reset (sampleStore (sampleResets .totpOnly .passwordTotp)).1 "r1" =
      some { newReset plainServices 0 "m" "t2" .totpOnly "o" with revokedAt := some 0 } := by
    decide +kernel
  exact ⟨es, _, _, hrun, hr', one_open_link hrun hr hr' rfl (by simp [AccessReset.Closed, newReset])
    (by decide)⟩

end ManagedDirectory.Operators
