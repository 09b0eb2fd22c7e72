import ManagedDirectory.Operators.Histories

/-!
# Tokens of operator sessions

Random values are drawn once (`DrawnOnce`), so a refresh token belongs to the one commit that issued
it. `Traced` follows the tokens of a session: they are those of the last commit that issued any for
it, and the session comes from a login that checked an authenticator code. `operator_sessions` says
what follows for refreshes and for the access tokens that pass.
-/

namespace ManagedDirectory.Operators

open Lib Lib.Txn Lib.Txn.Prog List

variable {S : Services} {q : Request} {ans : Answer} {h : Holding}

/-! ## Values are drawn once -/

def commitDraws : Label Answer Request → List String
  | .commit q _ => q.op.draws
  | _ => []

def committedDraws (es : List OperatorEv) : List String := es.flatMap fun e => commitDraws e.label

def inFlight (s : World) : List String := s.active.flatMap fun t => t.op.op.draws

structure DrawnOnce (es : List OperatorEv) (s : World) : Prop where
  nodup : (committedDraws es ++ inFlight s).Nodup
  drawn : ∀ d ∈ committedDraws es ++ inFlight s, d ∈ s.outside.drawn

section Draws

variable {s s' : World} {es : List OperatorEv} {l : Label Answer Request} {g : Outside}

theorem committedDraws_snoc (es : List OperatorEv) (e : OperatorEv) :
    committedDraws (es ++ [e]) = committedDraws es ++ commitDraws e.label := by
  simp [committedDraws]

theorem committedDraws_quiet {e : OperatorEv} (hl : commitDraws e.label = []) :
    committedDraws (es ++ [e]) = committedDraws es := by
  rw [committedDraws_snoc, hl, append_nil]

theorem DrawnOnce.turn {t t' : Lib.Txn.Tx Key Row Outside Rds.Failure Answer Request}
    {l₁ l₂ : List (Lib.Txn.Tx Key Row Outside Rds.Failure Answer Request)} (hd : DrawnOnce es s)
    (hactive : s.active = l₁ ++ t :: l₂) (hop : t'.op = t.op) (hl : commitDraws l = []) :
    DrawnOnce (es ++ [⟨s, l, { s with active := l₁ ++ t' :: l₂ }⟩])
      { s with active := l₁ ++ t' :: l₂ } := by
  have hsame : inFlight { s with active := l₁ ++ t' :: l₂ } = inFlight s := by
    simp only [inFlight, hactive, flatMap_append, flatMap_cons, hop]
  refine ⟨?_, ?_⟩ <;> rw [committedDraws_quiet hl, hsame]
  · exact hd.nodup
  · exact hd.drawn

theorem drawnOnce_of_step (hd : DrawnOnce es s) (hstep : Step (operatorRules S) s l s') :
    DrawnOnce (es ++ [⟨s, l, s'⟩]) s' := by
  cases hstep with
  | @start q g hstarts =>
    have hnew : inFlight ⟨s.store, g, ⟨q, .empty, (operatorRules S).prog q⟩ :: s.active⟩ =
        q.op.draws ++ inFlight s := rfl
    obtain ⟨-, hnodup, hfresh, rfl⟩ := hstarts
    refine ⟨?_, ?_⟩ <;> rw [committedDraws_quiet rfl, hnew]
    · refine (perm_append_comm_assoc _ _ _).nodup_iff.mpr (hnodup.append hd.nodup ?_)
      intro d hd₁ hd₂
      exact hfresh d hd₁ (hd.drawn d hd₂)
    · intro d hmem
      have hcases : d ∈ q.op.draws ∨ d ∈ committedDraws es ++ inFlight s := by
        simp only [mem_append] at hmem ⊢
        tauto
      exact mem_append.mpr (hcases.imp_right (hd.drawn d))
  | read hactive => exact hd.turn hactive rfl rfl
  | lock hactive => exact hd.turn hactive rfl rfl
  | share hactive => exact hd.turn hactive rfl rfl
  | put hactive => exact hd.turn hactive rfl rfl
  | insert hactive => exact hd.turn hactive rfl rfl
  | @commit l₁ l₂ q h a hactive =>
    have hperm : (committedDraws es ++ inFlight s).Perm
        (committedDraws es ++ q.op.draws ++
          inFlight { s with store := h.own ∪ s.store, active := l₁ ++ l₂ }) := by
      simp only [inFlight, hactive, flatMap_append, flatMap_cons, append_assoc]
      exact (perm_append_comm_assoc _ _ _).append_left _
    refine ⟨?_, ?_⟩ <;> rw [committedDraws_snoc]
    · exact hperm.nodup_iff.mp hd.nodup
    · exact fun d hmem => hd.drawn d (hperm.mem_iff.mpr hmem)
  | @stop l₁ l₂ t hactive =>
    have hsub : (committedDraws es ++ inFlight { s with active := l₁ ++ l₂ }).Sublist
        (committedDraws es ++ inFlight s) := by
      simp only [inFlight, hactive, flatMap_append, flatMap_cons]
      exact ((sublist_append_right _ _).append_left _).append_left _
    refine ⟨?_, ?_⟩ <;> rw [committedDraws_quiet rfl]
    · exact hd.nodup.sublist hsub
    · exact fun d hmem => hd.drawn d (hsub.subset hmem)
  | outside hmoves =>
    refine ⟨?_, ?_⟩ <;> rw [committedDraws_quiet rfl]
    · exact hd.nodup
    · exact fun d hmem => hmoves.2 ▸ hd.drawn d hmem

theorem drawnOnce_of_run (h : Run (Step (operatorRules S)) (fresh g) es s) : DrawnOnce es s :=
  h.history _ ⟨.nil, by simp [committedDraws, inFlight, fresh]⟩ drawnOnce_of_step

theorem commit_unique {pre pre' post post' : List OperatorEv} {e e' : OperatorEv} {d : String}
    (hnodup : (committedDraws (pre ++ e :: post)).Nodup)
    (heq : pre ++ e :: post = pre' ++ e' :: post') (hd : d ∈ commitDraws e.label)
    (hd' : d ∈ commitDraws e'.label) : pre = pre' ∧ e = e' ∧ post = post' := by
  have hlater : ∀ {a b : List OperatorEv} {x y : OperatorEv},
      (committedDraws (a ++ x :: b)).Nodup → d ∈ commitDraws x.label → d ∈ commitDraws y.label →
        y ∉ b := by
    intro a b x y hnodup hx hy hmem
    rw [committedDraws, flatMap_append, flatMap_cons] at hnodup
    exact disjoint_of_nodup_append hnodup.of_append_right hx
      (mem_flatMap.mpr ⟨y, hmem, hy⟩)
  rcases append_eq_append_iff.mp heq with ⟨c, hpre, hrest⟩ | ⟨c, hpre, hrest⟩
  · cases c with
    | nil =>
      obtain ⟨rfl, rfl⟩ := List.cons.inj hrest
      exact ⟨by simpa using hpre.symm, rfl, rfl⟩
    | cons x c =>
      obtain ⟨rfl, rfl⟩ := List.cons.inj hrest
      exact absurd (mem_append_right _ mem_cons_self) (hlater hnodup hd hd')
  · cases c with
    | nil =>
      obtain ⟨rfl, rfl⟩ := List.cons.inj hrest
      exact ⟨by simpa using hpre, rfl, rfl⟩
    | cons x c =>
      obtain ⟨rfl, rfl⟩ := List.cons.inj hrest
      rw [heq] at hnodup
      exact absurd (mem_append_right _ mem_cons_self) (hlater hnodup hd' hd)

end Draws

/-! ## The tokens of a session -/

/-- A login or a refresh commits in `e` and answers with these tokens. -/
def Issues (id access refresh : String) (e : OperatorEv) : Prop :=
  ∃ q, e.label = .commit q (.ok (.tokens id access refresh)) ∧ q.op.givesTokens = true

/-- A refresh with this token succeeds in `e`. -/
def Exchanges (token : String) (e : OperatorEv) : Prop :=
  ∃ q draw reply, e.label = .commit q (.ok reply) ∧ q.op = .refresh token draw

/-- `e` commits a login to the session, with password and authenticator code. -/
def LogsIn (S : Services) (id : String) (s : Session) (e : OperatorEv) : Prop :=
  ∃ q ans payload draw a time, e.label = .commit q ans ∧ q.op = .login payload s.scope id draw ∧
    Store.account e.before.store s.accountId = some a ∧ credentialsValid S payload time a = true

structure SessionTraced (S : Services) (es : List OperatorEv) (id : String) (s : Session) :
    Prop where
  issued : ∃ pre e post access refresh, es = pre ++ e :: post ∧ Issues id access refresh e ∧
    s.accessTokenHash = S.tokenHash access ∧ s.refreshTokenHash = S.tokenHash refresh ∧
    refresh ∈ commitDraws e.label ∧ ∀ x ∈ post, ∀ access refresh, ¬ Issues id access refresh x
  login : ∃ e ∈ es, LogsIn S id s e

theorem unrevoked_of_live {s : Session} {now idle : Int} (hlive : s.live now idle = true) :
    s.revokedAt = none := by
  simp only [Session.live, Bool.and_eq_true, Option.isNone_iff_eq_none] at hlive
  exact hlive.1.1.1

theorem issued_of_login {payload : LoginRequest} {scope : Scope} {sessionId : String} {draw : Draw}
    {id access refresh : String} (hop : q.op = .login payload scope sessionId draw)
    (hexec : Exec (performLogin S q.now payload scope sessionId draw) .empty
      (.ok (.tokens id access refresh)) h) :
    ∃ s, h.own.lookup (Key.session id) = some s ∧
      Issued S q (.ok (.tokens id access refresh)) id access refresh s ∧
      h.base.lookup (Key.session id) = none := by
  simp only [performLogin, exec_bind, exec_snapshot] at hexec
  obtain ⟨_, _, ⟨st, _, rfl, rfl⟩, hexec⟩ := hexec
  split at hexec
  · cases hexec.1
  simp only [exec_bind] at hexec
  obtain ⟨row, h₁, hlock, hexec⟩ := hexec
  cases row with
  | none => cases hexec.1
  | some a =>
    obtain ⟨-, rfl⟩ := exec_forUpdate_new (by simp) hlock
    simp only at hexec
    split at hexec
    · cases hexec.1
    simp only [exec_bind, exec_outside] at hexec
    obtain ⟨g, _, ⟨_, rfl⟩, hexec⟩ := hexec
    split at hexec
    · simp only [exec_bind, exec_write, exec_pure] at hexec
      obtain ⟨_, _, rfl, hans, -⟩ := hexec
      cases hans
    · simp only [exec_bind, exec_create, exec_write, exec_outside, exec_pure] at hexec
      obtain ⟨g', _, ⟨_, rfl⟩, _, _, ⟨hnew, rfl⟩, _, _, rfl, hans, rfl⟩ := hexec
      cases hans
      refine ⟨newSession S g' q.now scope _ sessionId a draw, ?_, ⟨by rw [hop]; rfl, rfl, rfl, rfl,
        by rw [hop]; simp [Op.draws]⟩, ?_⟩
      · rw [Held.own_put, AList.lookup_insert_ne (by simp), Held.own_put, AList.lookup_insert]
      · simp only [Held.base_put, Held.base_saw, Held.base_lock]
        rw [AList.lookup_insert_ne (by simp)]
        rfl

theorem issued_of_exec {id access refresh : String} (hgives : q.op.givesTokens = true)
    (hexec : Exec (q.prog S) .empty (.ok (.tokens id access refresh)) h) :
    ∃ s, h.own.lookup (Key.session id) = some s ∧
      Issued S q (.ok (.tokens id access refresh)) id access refresh s ∧
      ∀ s₀, h.base.lookup (Key.session id) = some s₀ → s₀.revokedAt = none := by
  obtain ⟨op, now⟩ := q
  cases op with
  | login =>
    obtain ⟨s, hown, hissued, hnone⟩ := issued_of_login rfl hexec
    refine ⟨s, hown, hissued, fun s₀ hs₀ => ?_⟩
    rw [hnone] at hs₀
    cases hs₀
  | refresh token draw =>
    obtain ⟨id', s, s', st, st₁, st₂, st₃, hrefreshed, rfl⟩ := exec_refresh rfl hexec
    obtain ⟨access', refresh', hissued⟩ := hrefreshed.issued
    have hans := hissued.answered
    cases hans
    obtain ⟨-, -, idle, -, -, hlive⟩ := hrefreshed.op
    refine ⟨s', by simp, hissued, fun s₀ hs₀ => ?_⟩
    simp only [Held.base_put, Held.base_saw, Held.base_lock] at hs₀
    rw [AList.lookup_insert] at hs₀
    obtain rfl := Option.some.inj hs₀
    exact unrevoked_of_live hlive
  | _ => cases hgives

theorem tokens_of_change {id : String} {s s' : Session}
    (hchange : Change S q ans h (.session id) (some s) s') :
    s'.accessTokenHash = s.accessTokenHash ∧ s'.refreshTokenHash = s.refreshTokenHash ∨
      ∃ access refresh, Issued S q ans id access refresh s' := by
  generalize hb : some s = b at hchange
  cases hchange with
  | loggedIn => cases hb
  | refreshed hrefreshed => exact .inr hrefreshed.issued
  | same | touched | sessionRevoked =>
    obtain rfl := Option.some.inj hb
    exact .inl ⟨rfl, rfl⟩

theorem login_of_change {id : String} {s' : Session}
    (hchange : Change S q ans h (.session id) none s') : LoggedIn S q ans h id s' := by
  generalize hb : (none : Option Session) = b at hchange
  cases hchange with
  | loggedIn hlogin => exact hlogin
  | _ => cases hb

section Traces

variable {s s' : World} {es : List OperatorEv} {l : Label Answer Request} {g : Outside}

variable {e : OperatorEv} {sess sess' : Session} {id token : String}

theorem SessionTraced.extend (ht : SessionTraced S es id sess) (hkept : SessionKept sess sess')
    (haccess : sess'.accessTokenHash = sess.accessTokenHash)
    (hrefresh : sess'.refreshTokenHash = sess.refreshTokenHash)
    (hnot : ¬ ∃ access refresh, Issues id access refresh e) :
    SessionTraced S (es ++ [e]) id sess' := by
  obtain ⟨⟨pre, x, post, access, refresh, rfl, hx, ha, hr, hdrawn, hlast⟩, y, hy, hlogin⟩ := ht
  refine ⟨⟨pre, x, post ++ [e], access, refresh, by simp, hx, haccess.trans ha, hrefresh.trans hr,
    hdrawn, fun z hz access refresh hissues => ?_⟩, y, mem_append_left _ hy, ?_⟩
  · rcases mem_append.mp hz with hz | hz
    · exact hlast z hz access refresh hissues
    · rw [List.mem_singleton.mp hz] at hissues
      exact hnot ⟨access, refresh, hissues⟩
  · simpa only [LogsIn, hkept.scope, hkept.account] using hlogin

theorem login_of_step
    (hinv : ∀ id sess, Store.session s.store id = some sess → SessionTraced S es id sess)
    (hc : CommitsIn S es s l s' q ans h) (hown : h.own.lookup (Key.session id) = some sess') :
    ∃ e ∈ es ++ [⟨s, l, s'⟩], LogsIn S id sess' e := by
  have hchange := hc.change hown
  cases hsess : s.store.lookup (Key.session id) with
  | none =>
    rw [hsess] at hchange
    obtain ⟨payload, draw, a, time, hop, ha, hvalid⟩ := (login_of_change hchange).checked
    exact ⟨_, mem_append_right _ mem_cons_self, q, ans, payload, draw, a, time, hc.label,
      hop, hc.found ha, hvalid⟩
  | some sess =>
    rw [hsess] at hchange
    have hkept := session_kept hchange
    obtain ⟨e, he, hlogin⟩ := (hinv id sess hsess).login
    refine ⟨e, mem_append_left _ he, ?_⟩
    simpa only [LogsIn, hkept.scope, hkept.account] using hlogin

theorem sessionTraced_of_step
    (hinv : ∀ id sess, Store.session s.store id = some sess → SessionTraced S es id sess)
    (hs : Valid (operatorRules S) es s) (hstep : Step (operatorRules S) s l s')
    (hsess' : Store.session s'.store id = some sess') :
    SessionTraced S (es ++ [⟨s, l, s'⟩]) id sess' := by
  by_cases hissues : ∃ access refresh, Issues id access refresh ⟨s, l, s'⟩
  · obtain ⟨access, refresh, q, rfl, hgives⟩ := hissues
    obtain ⟨h, hcommits, hstore⟩ := commits_of_step hs hstep
    have hc : CommitsIn S es s _ s' q (.ok (.tokens id access refresh)) h := ⟨rfl, hcommits, hstore⟩
    obtain ⟨sess, hown, hissued, -⟩ := issued_of_exec hgives hcommits.exec
    obtain rfl : sess' = sess := Option.some.inj (hsess'.symm.trans (hc.lookup hown))
    exact ⟨⟨es, _, [], access, refresh, rfl, ⟨q, rfl, hgives⟩, hissued.accessHash,
      hissued.refreshHash, hissued.drawn, by simp⟩, login_of_step hinv hc hown⟩
  rcases change_of_step hs hstep hsess' with hold | ⟨q, ans, h, hc, hown⟩
  · exact (hinv id sess' hold).extend ⟨rfl, rfl, rfl, fun _ => rfl⟩ rfl rfl hissues
  have hnone : ¬ ∃ access refresh, Issued S q ans id access refresh sess' := by
    rintro ⟨access, refresh, hissued⟩
    exact hissues ⟨access, refresh, q, by rw [← hissued.answered]; exact hc.label, hissued.gives⟩
  have hchange := hc.change hown
  cases hsess : s.store.lookup (Key.session id) with
  | none =>
    rw [hsess] at hchange
    exact absurd (login_of_change hchange).issued hnone
  | some sess =>
    rw [hsess] at hchange
    rcases tokens_of_change hchange with ⟨haccess, hrefresh⟩ | hissued
    · exact (hinv id sess hsess).extend (session_kept hchange) haccess hrefresh hissues
    · exact absurd hissued hnone

theorem sessionTraced_of_run (h : Run (Step (operatorRules S)) (fresh g) es s)
    (hsess : Store.session s.store id = some sess) : SessionTraced S es id sess := by
  refine history_of_run rfl h (fun es s => ∀ id sess, Store.session s.store id = some sess →
    SessionTraced S es id sess) ?_ (fun hs hinv hstep id sess hsess =>
      sessionTraced_of_step hinv hs hstep hsess) id sess hsess
  intro id sess hsess
  have hnone : Store.session (fresh g).store id = none := by
    rw [Store.session, AList.lookup_eq_none]
    simp [fresh]
  rw [hnone] at hsess
  cases hsess

/-! ## Refreshes and requests -/

theorem exchange_of_step (hs : Valid (operatorRules S) es s) (hstep : Step (operatorRules S) s l s')
    (hexchanges : Exchanges token ⟨s, l, s'⟩) :
    ∃ id sess access refresh, Store.session s.store id = some sess ∧
      sess.refreshTokenHash = S.tokenHash token ∧ Issues id access refresh ⟨s, l, s'⟩ := by
  obtain ⟨⟨op, now⟩, draw, reply, rfl, rfl⟩ := hexchanges
  obtain ⟨h, hcommits, hstore⟩ := commits_of_step hs hstep
  have hc : CommitsIn S es s _ s' _ _ h := ⟨rfl, hcommits, hstore⟩
  obtain ⟨id, sess, sess', _, _, _, _, hrefreshed, rfl⟩ := exec_refresh rfl hcommits.exec
  obtain ⟨_, _, _, hop, hhash, -⟩ := hrefreshed.op
  obtain ⟨access, refresh, hissued⟩ := hrefreshed.issued
  cases hop
  have hans := hissued.answered
  cases hans
  refine ⟨id, sess, access, refresh, hc.found ?_, hhash, _, rfl, rfl⟩
  simp

theorem issuer_of_hash (h : Run (Step (operatorRules S)) (fresh g) es s)
    (hsess : Store.session s.store id = some sess)
    (hhash : sess.refreshTokenHash = S.tokenHash token) :
    ∃ pre e post access, es = pre ++ e :: post ∧ Issues id access token e ∧
      token ∈ commitDraws e.label ∧ ∀ x ∈ post, ∀ access refresh, ¬ Issues id access refresh x := by
  obtain ⟨pre, e, post, access, refresh, hes, hissues, -, hrefresh, hdrawn, hlast⟩ :=
    (sessionTraced_of_run h hsess).issued
  obtain rfl := S.tokenHash_injective (hhash.symm.trans hrefresh)
  exact ⟨pre, e, post, access, hes, hissues, hdrawn, hlast⟩

theorem exchanged_once {pre mid post : List OperatorEv} {e' : OperatorEv}
    (h : Run (Step (operatorRules S)) (fresh g) (pre ++ e :: (mid ++ e' :: post)) s)
    (hexchanges : Exchanges token e) : ¬ Exchanges token e' := by
  intro hexchanges'
  obtain ⟨hpre, hstep, hrest⟩ := h.split
  obtain ⟨hmid, hstep', -⟩ := hrest.split
  obtain ⟨id, sess, access, refresh, hsess, hhash, hissues⟩ :=
    exchange_of_step (valid_of_run rfl hpre) hstep hexchanges
  have hrun : Run (Step (operatorRules S)) (fresh g) (pre ++ e :: mid) e'.before := by
    simpa using (hpre.snoc hstep).trans hmid
  obtain ⟨id', sess', -, -, hsess', hhash', -⟩ :=
    exchange_of_step (valid_of_run rfl hrun) hstep' hexchanges'
  obtain ⟨p, x, r, access₁, rfl, hx, hdrawn, -⟩ := issuer_of_hash hpre hsess hhash
  obtain ⟨p', x', r', access₂, hes, hx', hdrawn', hlast⟩ := issuer_of_hash hrun hsess' hhash'
  rw [append_assoc, cons_append] at hes hrun
  obtain ⟨-, rfl, rfl⟩ := commit_unique
    (drawnOnce_of_run hrun).nodup.of_append_left hes hdrawn hdrawn'
  -- the commit that issued the token for both is before the first exchange
  obtain ⟨q, hlabel, -⟩ := hx
  obtain ⟨q', hlabel', -⟩ := hx'
  have hans := hlabel.symm.trans hlabel'
  cases hans
  exact hlast e (mem_append_right _ mem_cons_self) access refresh hissues

theorem session_of_select {st : Store} {now idle : Int} {o : Operator}
    (hselect : selectOperator S st now idle token = some o) :
    ∃ sess, st.session o.sessionId = some sess ∧ sess.accessTokenHash = S.tokenHash token ∧
      sess.live now idle = true ∧ o.scope = sess.scope ∧ o.accountId = sess.accountId := by
  simp only [selectOperator, Option.bind_eq_bind, Option.bind_eq_some_iff] at hselect
  obtain ⟨claims, -, sess, hsess, a, -, hselect⟩ := hselect
  split_ifs at hselect with hall
  obtain rfl := Option.some.inj hselect
  exact ⟨sess, hsess, hall.2.2.2.1, hall.2.2.2.2.1, rfl, rfl⟩

theorem revoked_of_run (h : Run (Step (operatorRules S)) (fresh g) es s) (he : e ∈ es)
    (hsess : Store.session e.after.store id = some sess) (hrevoked : sess.revokedAt.isSome = true) :
    ∃ sess', Store.session s.store id = some sess' ∧ sess'.revokedAt.isSome = true := by
  refine history_of_run rfl h (fun es s => ∀ e ∈ es, ∀ sess,
    Store.session e.after.store id = some sess → sess.revokedAt.isSome = true →
      ∃ sess', Store.session s.store id = some sess' ∧ sess'.revokedAt.isSome = true) (by simp) ?_
    e he sess hsess hrevoked
  intro es s l s' hs hinv hstep e he sess hsess hrevoked
  rcases mem_append.mp he with he | he
  · obtain ⟨sess₁, hsess₁, hrevoked₁⟩ := hinv e he sess hsess hrevoked
    obtain ⟨sess₂, hsess₂⟩ := row_stays hs hstep hsess₁
    refine ⟨sess₂, hsess₂, ?_⟩
    rcases change_of_step hs hstep hsess₂ with hold | ⟨q, ans, h, hc, hown⟩
    · obtain rfl := Option.some.inj (hold.symm.trans hsess₁)
      exact hrevoked₁
    · have hchange := hc.change hown
      rw [show s.store.lookup (Key.session id) = some sess₁ from hsess₁] at hchange
      rw [(session_kept hchange).revoked hrevoked₁]
      exact hrevoked₁
  · rw [List.mem_singleton.mp he] at hsess
    exact ⟨sess, hsess, hrevoked⟩

theorem not_issues_of_revoked (hs : Valid (operatorRules S) es s)
    (hstep : Step (operatorRules S) s l s') (hsess : Store.session s.store id = some sess)
    (hrevoked : sess.revokedAt.isSome = true) (access refresh : String) :
    ¬ Issues id access refresh ⟨s, l, s'⟩ := by
  rintro ⟨q, rfl, hgives⟩
  obtain ⟨h, hcommits, -⟩ := commits_of_step hs hstep
  obtain ⟨sess', hown, -, hbase⟩ := issued_of_exec hgives hcommits.exec
  have hfound := hcommits.based (Key.session id) (AList.lookup_isSome.mp
    (Option.isSome_of_eq_some hown))
  rw [hbase sess (hfound.symm.trans hsess)] at hrevoked
  cases hrevoked

/-- **Operator sessions**, in any interleaving: a refresh token is exchanged at most once; an access
token that passes is the last one issued for its session; the scope of a session never changes; a
session that passes comes from a login with an authenticator code; and a revoked session neither
passes nor gets new tokens. -/
theorem operator_sessions (h : Run (Step (operatorRules S)) (fresh g) es s) :
    (∀ pre e mid e' post token, es = pre ++ e :: (mid ++ e' :: post) → Exchanges token e →
      ¬ Exchanges token e') ∧
    (∀ now idle token o, selectOperator S s.store now idle token = some o →
      ∃ pre e post refresh, es = pre ++ e :: post ∧ Issues o.sessionId token refresh e ∧
        ∀ x ∈ post, ∀ access refresh, ¬ Issues o.sessionId access refresh x) ∧
    (∀ e ∈ es, ∀ id sess, Store.session e.before.store id = some sess →
      ∃ sess', Store.session e.after.store id = some sess' ∧ sess'.scope = sess.scope) ∧
    (∀ now idle token o, selectOperator S s.store now idle token = some o →
      ∃ sess, Store.session s.store o.sessionId = some sess ∧ o.scope = sess.scope ∧
        ∃ e ∈ es, LogsIn S o.sessionId sess e) ∧
    ∀ pre e post id sess, es = pre ++ e :: post → Store.session e.after.store id = some sess →
      sess.revokedAt.isSome = true →
      (∀ now idle token o, selectOperator S s.store now idle token = some o → o.sessionId ≠ id) ∧
        ∀ x ∈ post, ∀ access refresh, ¬ Issues id access refresh x := by
  refine ⟨?_, ?_, ?_, ?_, ?_⟩
  · rintro pre e mid e' post token rfl
    exact exchanged_once h
  · intro now idle token o hselect
    obtain ⟨sess, hsess, hhash, -⟩ := session_of_select hselect
    obtain ⟨pre, e, post, access, refresh, hes, hissues, haccess, -, -, hlast⟩ :=
      (sessionTraced_of_run h hsess).issued
    obtain rfl := S.tokenHash_injective (hhash.symm.trans haccess)
    exact ⟨pre, e, post, refresh, hes, hissues, hlast⟩
  · intro e he id sess hsess
    obtain ⟨pre, post, rfl⟩ := append_of_mem he
    obtain ⟨hpre, hstep, -⟩ := h.split
    obtain ⟨sess', hsess'⟩ := row_stays (valid_of_run rfl hpre) hstep hsess
    refine ⟨sess', hsess', ?_⟩
    rcases change_of_step (valid_of_run rfl hpre) hstep hsess' with hold | ⟨q, ans, h, hc, hown⟩
    · obtain rfl := Option.some.inj (hold.symm.trans hsess)
      rfl
    · have hchange := hc.change hown
      rw [show e.before.store.lookup (Key.session id) = some sess from hsess] at hchange
      exact (session_kept hchange).scope
  · intro now idle token o hselect
    obtain ⟨sess, hsess, -, -, hscope, -⟩ := session_of_select hselect
    exact ⟨sess, hsess, hscope, (sessionTraced_of_run h hsess).login⟩
  · rintro pre e post id sess rfl hsess hrevoked
    constructor
    · rintro now idle token o hselect rfl
      obtain ⟨sess', hsess', -, hlive, -⟩ := session_of_select hselect
      obtain ⟨sess₁, hsess₁, hrevoked₁⟩ := revoked_of_run h (by simp) hsess hrevoked
      obtain rfl := Option.some.inj (hsess'.symm.trans hsess₁)
      rw [unrevoked_of_live hlive] at hrevoked₁
      cases hrevoked₁
    · intro x hx access refresh
      obtain ⟨mid, rest, rfl⟩ := append_of_mem hx
      rw [← cons_append, ← append_assoc] at h
      obtain ⟨hbefore, hstep, -⟩ := h.split
      obtain ⟨sess₁, hsess₁, hrevoked₁⟩ := revoked_of_run hbefore (by simp) hsess hrevoked
      exact not_issues_of_revoked (valid_of_run rfl hbefore) hstep hsess₁ hrevoked₁ access refresh

end Traces

def sampleLogin : List Op :=
  [.bootstrapOwner "o" "anna" "password of o" "salt" "code of o",
    .login ⟨"anna", "password of o", some "code of o"⟩ .full "s1" ⟨"j1", "f1"⟩]

/-- The session is refreshed, and its refresh token does not work again. -/
theorem sample_operator_sessions : ∃ pre e s,
    Run (Step (operatorRules plainServices)) (fresh plainOutside) (pre ++ [e]) s ∧
      Exchanges "f1" e ∧ ∀ x ∈ pre, ¬ Exchanges "f1" x := by
  obtain ⟨pre, e, s, hrun, ⟨ans, hlabel⟩, -⟩ :=
    sample_run sampleLogin (.refresh "f1" ⟨"j2", "f2"⟩) (by decide +kernel) (by decide +kernel)
  obtain ⟨hpre, hstep, -⟩ := hrun.split
  have hexchanges : Exchanges "f1" e := by
    rw [hlabel] at hstep
    obtain ⟨h, hcommits, -⟩ := commits_of_step (valid_of_run rfl hpre) hstep
    obtain ⟨_, _, _, _, _, _, _, hrefreshed, -⟩ := exec_refresh rfl hcommits.exec
    obtain ⟨access, refresh, hissued⟩ := hrefreshed.issued
    exact ⟨_, _, _, by rw [hlabel, hissued.answered], rfl⟩
  refine ⟨pre, e, s, hrun, hexchanges, fun x hx hexchanges' => ?_⟩
  obtain ⟨l₁, l₂, rfl⟩ := append_of_mem hx
  exact (operator_sessions hrun).1 l₁ x l₂ e [] "f1" (by simp) hexchanges' hexchanges

end ManagedDirectory.Operators
