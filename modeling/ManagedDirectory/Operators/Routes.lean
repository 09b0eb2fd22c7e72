import ManagedDirectory.Operators.SessionTokens

/-!
# Routes and their guards

Every route of the API, the dashboard and the mobile app that an operator session reaches has a
guard, which tells from the credentials of a request who makes it, and a handler. Only some handlers
write the tables of operator accounts. `Guard.check` translates the guards;
`mobile_leaves_accounts_iff` tells for every route what a session of the mobile app can do to those
tables.
-/

namespace ManagedDirectory.Operators

open Lib Lib.Txn Lib.Txn.Prog
open Rds (Failure)

/-! ## Credentials -/

/-- The claims of an `admin_activity` token. -/
structure ActivityClaims where
  sub : String
  sid : String
  deriving DecidableEq, Repr

structure Credentials where
  bearer : Option String
  accessCookie : Option String
  activityCookie : Option (Option ActivityClaims)
  refreshToken : Option String
  deriving DecidableEq, Repr

variable (S : Services)

/-- `require_operator`, of the token that a request brings. -/
def requireOperatorToken (st : Store) (g : Outside) (missing : Failure) (token : Option String) :
    Except Failure Operator := do
  let accessToken ← orRefuse token missing
  orRefuse (selectOperator S st g.clock g.operatorIdleTimeout accessToken) unauthorized

/-! ## Guards -/

def ownerRequired : Failure := .http 403 "Owner authorization is required"

def managerRequired : Failure := .http 403 "Owner or Manager authorization is required"

/-- `_enforce_owner`. -/
def enforceOwner (operator : Operator) : Except Failure Operator := do
  refuseIf (operator.role ≠ .owner ∨ operator.mustChangePassword = true ∨ operator.scope ≠ .full)
    ownerRequired
  pure operator

/-- The check of `require_device_manager`. -/
def enforceDeviceManager (operator : Operator) : Except Failure Operator := do
  refuseIf ((operator.role ≠ .owner ∧ operator.role ≠ .manager) ∨
    operator.mustChangePassword = true) managerRequired
  pure operator

/-- The check of `require_full_scope_operator`. -/
def enforceFullScope (operator : Operator) : Except Failure Operator := do
  refuseIf (operator.scope ≠ .full) (.http 403 "This action is not available to this session")
  pure operator

/-- `idle_label`, of the whole minutes that the policy gives. -/
def idleLabel (timeout : Int) : String :=
  let minutes := max 1 (timeout / 60000000)
  if minutes % 60 ≠ 0 then toString minutes ++ " minutes"
  else if minutes / 60 = 1 then "1 hour" else toString (minutes / 60) ++ " hours"

/-- `decode_admin_activity`. -/
def decodeAdminActivity (g : Outside) : Option (Option ActivityClaims) → Except Failure ActivityClaims
  | none => .error (.http 401
      ("Signed out after " ++ idleLabel g.operatorIdleTimeout ++ " of inactivity"))
  | some none => .error (.http 401 "Admin inactivity state is invalid")
  | some (some claims) => .ok claims

/-- `require_admin_operator`. -/
def requireAdminOperator (st : Store) (g : Outside) (c : Credentials) : Except Failure Operator := do
  let operator ← requireOperatorToken S st g (.http 401 "Dashboard authentication is required")
    c.accessCookie
  refuseIf (operator.mustChangePassword = true) (.http 403 "Dashboard authorization is required")
  let claims ← decodeAdminActivity g c.activityCookie
  refuseIf (claims.sub ≠ operator.accountId ∨ claims.sid ≠ operator.sessionId)
    (.http 401 "Dashboard inactivity state does not match this session")
  pure operator

/-- `require_admin_owner`. -/
def requireAdminOwner (st : Store) (g : Outside) (c : Credentials) : Except Failure Operator := do
  let operator ← requireAdminOperator S st g c
  refuseIf (operator.role ≠ .owner) ownerRequired
  pure operator

/-- `require_admin_device_manager`. -/
def requireAdminDeviceManager (st : Store) (g : Outside) (c : Credentials) :
    Except Failure Operator := do
  let operator ← requireAdminOperator S st g c
  refuseIf (operator.role ≠ .owner ∧ operator.role ≠ .manager) managerRequired
  pure operator

/-- `admin_operator` of the security extension: the two cookies are compared before the session is
looked for. -/
def adminOperator (st : Store) (g : Outside) (c : Credentials) : Except Failure Operator := do
  let missing : Failure := .http 401 "Sign in required"
  let expired : Failure := .http 401 "Admin session expired"
  let accessToken ← orRefuse c.accessCookie missing
  let activity ← orRefuse c.activityCookie missing
  let access ← orRefuse (S.decode accessToken) expired
  let claims ← orRefuse activity expired
  refuseIf (claims.sub ≠ access.sub ∨ claims.sid ≠ access.sid) expired
  requireOperatorToken S st g missing (some accessToken)

/-- `admin_owner`. -/
def adminOwner (st : Store) (g : Outside) (c : Credentials) : Except Failure Operator := do
  let operator ← adminOperator S st g c
  refuseIf (operator.role ≠ .owner) (.http 403 "Owner access is required")
  pure operator

def refreshSession (st : Store) (g : Outside) (refreshToken : String) : Option Operator := do
  let (id, role) ← refreshable S st g.clock g.operatorIdleTimeout refreshToken
  let os ← st.session id
  let oa ← st.account os.accountId
  some ⟨os.accountId, id, role, os.scope, oa.mustChangePassword⟩

inductive Guard where
  | requireOperator
  | requireOwner
  | requireDeviceManager
  | requireFullScopeOperator
  | requireAdminCookieOperator
  | requireAdminCookieOwner
  | requireAdminOperator
  | requireAdminOwner
  | requireAdminDeviceManager
  | adminOperator
  | adminOwner
  | refreshToken
  deriving DecidableEq, Repr

def Guard.check (guard : Guard) (st : Store) (g : Outside) (c : Credentials) :
    Except Failure Operator :=
  let bearer := requireOperatorToken S st g unauthorized c.bearer
  let cookie := requireOperatorToken S st g unauthorized c.accessCookie
  match guard with
  | .requireOperator => bearer
  | .requireOwner => bearer >>= enforceOwner
  | .requireDeviceManager => bearer >>= enforceDeviceManager
  | .requireFullScopeOperator => bearer >>= enforceFullScope
  | .requireAdminCookieOperator => cookie
  | .requireAdminCookieOwner => cookie >>= enforceOwner
  | .requireAdminOperator => Operators.requireAdminOperator S st g c
  | .requireAdminOwner => Operators.requireAdminOwner S st g c
  | .requireAdminDeviceManager => Operators.requireAdminDeviceManager S st g c
  | .adminOperator => Operators.adminOperator S st g c
  | .adminOwner => Operators.adminOwner S st g c
  | .refreshToken => orRefuse (c.refreshToken.bind (refreshSession S st g)) unauthorized

/-! ## Routes -/

inductive Handler where
  | logout
  | refresh (refreshToken : String) (draw : Draw)
  | listOperatorAccounts
  | getOperatorAccount (accountId : String)
  | updateOperatorEmail (accountId : String) (email : Option String)
  | disableOperatorAccount (accountId : String)
  | enableOperatorAccount (accountId : String)
  | deleteOperatorAccount (accountId : String)
  | unlockOperatorAccount (accountId : String)
  | revokeOperatorSessions (accountId : String)
  | createOperatorInvitation (username displayName : String) (role : Role) (expiresInHours : Int)
      (invitationId token : String)
  | listOperatorInvitations
  | revokeOperatorInvitation (invitationId : String)
  | createOperatorRoleChangeRequest (accountId : String) (requestedRole : Role)
      (expiresInMinutes : Int) (ownerPassword ownerTotpCode : Option String) (requestId : String)
  | listOperatorRoleChangeRequests
  | completeOperatorRoleChangeRequest (requestId : String)
  | cancelOperatorRoleChangeRequest (requestId : String)
  | createReset (accountId : String) (mode : ResetMode)
      (ownerPassword ownerTotpCode resetId token replacementHash : String)
  | createSelfReset (mode : ResetMode) (currentPassword currentTotpCode resetId token : String)

inductive Route where
  /-- A route under `/v1`, or one of the mobile app that calls the same handler. -/
  | api (handler : Handler)
  | dashboard (handler : Handler)
  /-- Any other route: its handler writes none of the tables of operators. -/
  | other (guard : Guard)

/-- The guard of a handler in the API; `none` where there is no such route. -/
def Handler.apiGuard : Handler → Option Guard
  | .logout | .updateOperatorEmail _ _ => some .requireOperator
  | .refresh _ _ => some .refreshToken
  | .getOperatorAccount _ => some .requireFullScopeOperator
  | .createSelfReset _ _ _ _ _ => none
  | _ => some .requireOwner

def Handler.dashboardGuard : Handler → Option Guard
  | .logout | .listOperatorAccounts | .getOperatorAccount _ | .updateOperatorEmail _ _ =>
    some .requireAdminOperator
  | .refresh _ _ => some .refreshToken
  | .createReset _ _ _ _ _ _ _ => some .adminOwner
  | .createSelfReset _ _ _ _ _ => some .adminOperator
  | _ => some .requireAdminOwner

def Route.guard : Route → Option Guard
  | .api handler => handler.apiGuard
  | .dashboard handler => handler.dashboardGuard
  | .other guard => some guard

def selfOrOwnerRequired : Failure :=
  .http 403 "Owner access or the current Manager account is required"

/-- The transaction that a handler runs for the operator who makes the request. -/
def Handler.transaction (operator : Operator) : Handler → Except Failure Op
  | .logout => .ok (.revokeSession operator.sessionId)
  | .refresh refreshToken draw => .ok (.refresh refreshToken draw)
  | .listOperatorAccounts => .ok .revokeIdleSessions
  | .getOperatorAccount accountId =>
    if authorizeOperatorSelfOrOwner operator accountId then .ok .revokeIdleSessions
    else .error selfOrOwnerRequired
  | .updateOperatorEmail accountId email =>
    if authorizeOperatorSelfOrOwner operator accountId then .ok (.updateEmail accountId email)
    else .error selfOrOwnerRequired
  | .disableOperatorAccount accountId => .ok (.disable accountId)
  | .enableOperatorAccount accountId => .ok (.enable accountId)
  | .deleteOperatorAccount accountId => .ok (.delete accountId)
  | .unlockOperatorAccount accountId => .ok (.unlock accountId)
  | .revokeOperatorSessions accountId => .ok (.revokeOperatorSessions accountId)
  | .createOperatorInvitation username displayName role hours invitationId token =>
    .ok (.createInvitation operator.accountId username displayName role hours invitationId token)
  | .listOperatorInvitations => .ok .listInvitations
  | .revokeOperatorInvitation invitationId => .ok (.revokeInvitation invitationId)
  | .createOperatorRoleChangeRequest accountId role minutes password code requestId =>
    .ok (.createRoleChange operator.accountId accountId role minutes password code requestId)
  | .listOperatorRoleChangeRequests => .ok .listRoleChanges
  | .completeOperatorRoleChangeRequest requestId =>
    .ok (.completeRoleChange operator.accountId requestId)
  | .cancelOperatorRoleChangeRequest requestId => .ok (.cancelRoleChange requestId)
  | .createReset accountId mode password code resetId token hash =>
    .ok (.createReset operator.accountId accountId mode password code resetId token hash)
  | .createSelfReset mode password code resetId token =>
    .ok (.createSelfReset operator.accountId mode password code resetId token)

/-- A request on the route by `operator` runs the transaction. -/
def Route.Runs (route : Route) (operator : Operator) (op : Op) : Prop :=
  match route with
  | .api handler | .dashboard handler => handler.transaction operator = .ok op
  | .other _ => False

/-! ## The tables of operator accounts -/

/-- The rows of `operator_accounts`, `operator_invitations`, `operator_role_change_requests` and
`operator_access_resets`. -/
def Key.accountTable : Key → Bool
  | .account _ | .invitation _ | .request _ | .reset _ => true
  | .session _ | .directory => false

/-- Whatever the transaction finds on its way, it leaves those rows as they are. -/
def Op.LeavesAccounts (op : Op) : Prop :=
  ∀ now ans h, Exec (Request.prog S ⟨op, now⟩) .empty ans h →
    ∀ k : Key, k.accountTable = true → h.own.lookup k = h.base.lookup k

section Frame

variable {S}

theorem revokeSession_leavesAccounts (sessionId : String) :
    (Op.revokeSession sessionId).LeavesAccounts S := by
  intro now ans h hexec k hk
  change Exec (revokeSession now sessionId) .empty ans h at hexec
  simp only [revokeSession, exec_bind, exec_pure] at hexec
  obtain ⟨_, h₁, hrevoke, -, rfl⟩ := hexec
  have hu : SessionsRevoked _ _ _ h := exec_updateWhere Key.sessionId_eq (by simp) hrevoke
  have hother := hu.other k (by rintro id rfl; cases hk)
  rw [hother.1, hother.2]
  rfl

theorem refresh_leavesAccounts (refreshToken : String) (draw : Draw) :
    (Op.refresh refreshToken draw).LeavesAccounts S := by
  intro now ans h hexec k hk
  obtain ⟨id, s, s', st, st₁, st₂, st₃, -, rfl⟩ :=
    exec_refresh (q := ⟨.refresh refreshToken draw, now⟩) rfl hexec
  have hne : k ≠ Key.session id := by
    rintro rfl
    cases hk
  simp only [Held.own_put, Held.own_saw, Held.own_lock, Held.base_put, Held.base_saw,
    Held.base_lock, AList.lookup_insert_ne hne]
  rfl

theorem not_updateEmail_leavesAccounts (accountId : String) (email : Option String) :
    ¬ (Op.updateEmail accountId email).LeavesAccounts S := by
  intro hleaves
  -- an account with another address
  let a : Account := { newAccount "" "" "" .viewer with email := some (email.getD "" ++ "x") }
  have hne : a.email ≠ email := by
    intro heq
    have hlength := congrArg (fun e : Option String => (e.getD "").length) heq
    simp [a] at hlength
  let st : Store := (∅ : Store).insert (Key.account accountId) a
  have halone : (updateOperatorEmail accountId email).alone .empty st
      ⟨0, [], 0, 0, 0, 0⟩ = some (.ok (.ok .done), (Held.empty.lock (Key.account accountId) a).put
        (Key.account accountId) { a with email := email }) := by
    unfold updateOperatorEmail
    rw [alone_bind_ok (alone_forUpdate (AList.notMem_empty _) (AList.lookup_insert _) rfl),
      alone_bind_ok (alone_orFail rfl), if_pos hne, alone_bind_ok (alone_write (by simp))]
    rfl
  have hsame := hleaves 0 _ _ (exec_of_alone (by simp) halone) (Key.account accountId) rfl
  simp only [Held.own_put, Held.base_put, Held.base_lock, AList.lookup_insert] at hsame
  exact hne (congrArg Account.email (Option.some.inj hsame)).symm

end Frame

/-! ## The mobile app -/

/-- `admin_login` hands out an activity token for the session of its login; `admin_activity` renews
one that matches the session. -/
def ActivityIssued (es : List OperatorEv) (claims : ActivityClaims) : Prop :=
  ∃ e ∈ es, ∃ q ans payload draw, e.label = .commit q ans ∧
    q.op = .login payload .full claims.sid draw

variable {S}

section Mobile

variable {s : World} {es : List OperatorEv} {g : Outside} {c : Credentials} {o : Operator}

theorem scope_of_login (h : Run (Step (operatorRules S)) (fresh g) es s) {e : OperatorEv}
    (he : e ∈ es) {q : Request} {ans : Answer} {payload : LoginRequest} {scope : Scope}
    {id : String} {draw : Draw} (hlabel : e.label = .commit q ans)
    (hop : q.op = .login payload scope id draw) {sess : Session}
    (hsess : Store.session s.store id = some sess) : sess.scope = scope := by
  obtain ⟨e', he', q', ans', payload', draw', -, -, hlabel', hop', -⟩ :=
    (sessionTraced_of_run h hsess).login
  have hdrawn : id ∈ commitDraws e.label := by
    rw [hlabel]
    simp [commitDraws, hop, Op.draws]
  have hdrawn' : id ∈ commitDraws e'.label := by
    rw [hlabel']
    simp [commitDraws, hop', Op.draws]
  obtain ⟨pre, post, rfl⟩ := List.append_of_mem he
  obtain ⟨pre', post', hes⟩ := List.append_of_mem he'
  obtain ⟨-, rfl, -⟩ := commit_unique (drawnOnce_of_run h).nodup.of_append_left hes hdrawn hdrawn'
  rw [hlabel] at hlabel'
  cases hlabel'
  rw [hop] at hop'
  cases hop'
  rfl

/-- Somebody is logged in with a session that the activity cookie names. -/
structure ActivityMatches (S : Services) (st : Store) (g : Outside) (c : Credentials)
    (o : Operator) : Prop where
  selected : ∃ accessToken,
    selectOperator S st g.clock g.operatorIdleTimeout accessToken = some o
  cookie : ∃ claims, c.activityCookie = some (some claims) ∧ claims.sid = o.sessionId

theorem full_of_activity (h : Run (Step (operatorRules S)) (fresh g) es s)
    (hissued : ∀ claims, c.activityCookie = some (some claims) → ActivityIssued es claims)
    (hmatches : ActivityMatches S s.store s.outside c o) : o.scope = .full := by
  obtain ⟨⟨accessToken, hselect⟩, claims, hcookie, hsid⟩ := hmatches
  obtain ⟨e, he, q, ans, payload, draw, hlabel, hop⟩ := hissued claims hcookie
  obtain ⟨sess, hsess, -, -, hscope, -⟩ := session_of_select hselect
  rw [hsid] at hop
  rw [hscope, scope_of_login h he hlabel hop hsess]

theorem matches_of_requireAdminOperator {st : Store}
    (h : requireAdminOperator S st g c = .ok o) : ActivityMatches S st g c o := by
  simp only [requireAdminOperator, requireOperatorToken, bind_ok_iff, orRefuse_eq_ok,
    refuseIf_eq_ok, pure_ok_iff, exists_unit, not_or, not_not] at h
  obtain ⟨_, ⟨accessToken, -, hselect⟩, -, claims, hdecode, hsame, rfl⟩ := h
  refine ⟨⟨accessToken, hselect⟩, claims, ?_, hsame.2⟩
  unfold decodeAdminActivity at hdecode
  split at hdecode
  · cases hdecode
  · cases hdecode
  · cases hdecode
    assumption

theorem matches_of_adminOperator {st : Store} (h : adminOperator S st g c = .ok o) :
    ActivityMatches S st g c o := by
  simp only [adminOperator, requireOperatorToken, bind_ok_iff, orRefuse_eq_ok, refuseIf_eq_ok,
    exists_unit, not_or, not_not, Option.some_inj] at h
  obtain ⟨accessToken, -, _, hcookie, access, hdecode, claims, rfl, hsame, _, rfl, hselect⟩ := h
  refine ⟨⟨accessToken, hselect⟩, claims, hcookie, hsame.2.trans ?_⟩
  simp only [selectOperator, Option.bind_eq_bind, hdecode, Option.bind_some,
    Option.bind_eq_some_iff] at hselect
  obtain ⟨_, -, _, -, hselect⟩ := hselect
  split_ifs at hselect
  cases hselect
  rfl

theorem full_of_enforceOwner {operator : Operator} (h : enforceOwner operator = .ok o) :
    o.scope = .full := by
  simp only [enforceOwner, bind_ok_iff, refuseIf_eq_ok, pure_ok_iff, exists_unit, not_or,
    not_not] at h
  obtain ⟨hcheck, rfl⟩ := h
  exact hcheck.2.2

theorem full_of_enforceFullScope {operator : Operator} (h : enforceFullScope operator = .ok o) :
    o.scope = .full := by
  simp only [enforceFullScope, bind_ok_iff, refuseIf_eq_ok, pure_ok_iff, exists_unit,
    not_not] at h
  obtain ⟨hcheck, rfl⟩ := h
  exact hcheck

def Guard.opensToMobile : Guard → Bool
  | .requireOperator | .requireDeviceManager | .requireAdminCookieOperator | .refreshToken => true
  | _ => false

theorem opensToMobile_of_check (h : Run (Step (operatorRules S)) (fresh g) es s)
    (hissued : ∀ claims, c.activityCookie = some (some claims) → ActivityIssued es claims)
    {guard : Guard} (hcheck : guard.check S s.store s.outside c = .ok o)
    (hmobile : o.scope = .mobile) : guard.opensToMobile = true := by
  have hnot : o.scope ≠ .full := by
    rw [hmobile]
    decide
  cases guard with
  | requireOperator | requireDeviceManager | requireAdminCookieOperator | refreshToken => rfl
  | requireOwner | requireAdminCookieOwner =>
    obtain ⟨_, -, howner⟩ := bind_ok_iff.mp hcheck
    exact absurd (full_of_enforceOwner howner) hnot
  | requireFullScopeOperator =>
    obtain ⟨_, -, hfull⟩ := bind_ok_iff.mp hcheck
    exact absurd (full_of_enforceFullScope hfull) hnot
  | requireAdminOperator =>
    exact absurd (full_of_activity h hissued (matches_of_requireAdminOperator hcheck)) hnot
  | requireAdminOwner =>
    simp only [Guard.check, requireAdminOwner, bind_ok_iff, refuseIf_eq_ok, pure_ok_iff,
      exists_unit] at hcheck
    obtain ⟨_, hadmin, -, rfl⟩ := hcheck
    exact absurd (full_of_activity h hissued (matches_of_requireAdminOperator hadmin)) hnot
  | requireAdminDeviceManager =>
    simp only [Guard.check, requireAdminDeviceManager, bind_ok_iff, refuseIf_eq_ok, pure_ok_iff,
      exists_unit] at hcheck
    obtain ⟨_, hadmin, -, rfl⟩ := hcheck
    exact absurd (full_of_activity h hissued (matches_of_requireAdminOperator hadmin)) hnot
  | adminOperator =>
    exact absurd (full_of_activity h hissued (matches_of_adminOperator hcheck)) hnot
  | adminOwner =>
    simp only [Guard.check, adminOwner, bind_ok_iff, refuseIf_eq_ok, pure_ok_iff,
      exists_unit] at hcheck
    obtain ⟨_, hadmin, -, rfl⟩ := hcheck
    exact absurd (full_of_activity h hissued (matches_of_adminOperator hadmin)) hnot

theorem op_of_mobile {route : Route} {guard : Guard} (hroute : route.guard = some guard)
    (hopens : guard.opensToMobile = true) {op : Op} (hruns : route.Runs o op) :
    (∃ sessionId, op = .revokeSession sessionId) ∨ (∃ token draw, op = .refresh token draw) ∨
      ∃ accountId email, op = .updateEmail accountId email ∧
        route = .api (.updateOperatorEmail accountId email) ∧
        authorizeOperatorSelfOrOwner o accountId = true := by
  cases route with
  | other guard => exact hruns.elim
  | api handler =>
    cases handler with
    | logout =>
      cases hruns
      exact .inl ⟨_, rfl⟩
    | refresh token draw =>
      cases hruns
      exact .inr (.inl ⟨_, _, rfl⟩)
    | updateOperatorEmail accountId email =>
      simp only [Route.Runs, Handler.transaction] at hruns
      split_ifs at hruns with hauthorized
      cases hruns
      exact .inr (.inr ⟨_, _, rfl, rfl, hauthorized⟩)
    | createSelfReset => cases hroute
    | _ =>
      cases hroute
      cases hopens
  | dashboard handler =>
    cases handler with
    | refresh token draw =>
      cases hruns
      exact .inr (.inl ⟨_, _, rfl⟩)
    | _ =>
      cases hroute
      cases hopens

end Mobile

theorem select_newSession {st : Store} {g : Outside} {t now idle : Int} {scope : Scope}
    {accountId sessionId : String} {a : Account} {draw : Draw}
    (hsession : st.session sessionId =
      some (newSession S g t scope accountId sessionId a draw))
    (haccount : st.account accountId = some a) (hactive : a.isActive = true)
    (hlive : (newSession S g t scope accountId sessionId a draw).live now idle = true)
    (hfrom : wholeSeconds t ≤ now)
    (huntil : now < wholeSeconds (t + minutes g.accessTokenMinutes)) :
    selectOperator S st now idle (issueAccessToken S g accountId sessionId a.role t scope draw.jti) =
      some ⟨accountId, sessionId, a.role, scope, a.mustChangePassword⟩ := by
  unfold selectOperator issueAccessToken
  rw [S.decode_encode]
  simp only [Option.bind_eq_bind, Option.bind_some, hsession]
  change (st.account accountId).bind _ = _
  rw [haccount, Option.bind_some]
  exact if_pos ⟨hfrom, huntil, rfl, rfl, hlive, hactive⟩

def sampleMobile : List Op :=
  [.bootstrapOwner "o" "anna" "password of o" "salt" "code of o",
    .login ⟨"anna", "password of o", some "code of o"⟩ .mobile "s1" ⟨"j1", "f1"⟩]

def sampleOwner : Account := newAccount "anna" "password of o" "code of o" .owner

def sampleDraw : Draw := ⟨"j1", "f1"⟩

def sampleToken : String :=
  issueAccessToken plainServices plainOutside "o" "s1" sampleOwner.role 0 .mobile sampleDraw.jti

def sampleBearer : Credentials := ⟨some sampleToken, none, none, none⟩

def sampleOperator : Operator := ⟨"o", "s1", .owner, .mobile, false⟩

theorem sample_check : Guard.requireOperator.check plainServices (sampleStore sampleMobile).1
    (sampleStore sampleMobile).2 sampleBearer = .ok sampleOperator := by
  have hsession : Store.session (sampleStore sampleMobile).1 "s1" =
      some (newSession plainServices plainOutside 0 .mobile "o" "s1" sampleOwner sampleDraw) := rfl
  have haccount : Store.account (sampleStore sampleMobile).1 "o" = some sampleOwner := by
    decide +kernel
  have hclock : (sampleStore sampleMobile).2.clock = 0 := by decide +kernel
  have hselect : ∀ idle, selectOperator plainServices (sampleStore sampleMobile).1 0 idle
      sampleToken = some sampleOperator := by
    intro idle
    unfold sampleToken
    rw [select_newSession hsession haccount rfl rfl (by decide) (by decide)]
    rfl
  refine bind_ok_iff.mpr ⟨sampleToken, rfl, orRefuse_eq_ok.mpr ?_⟩
  rw [hclock]
  exact hselect _

end ManagedDirectory.Operators
