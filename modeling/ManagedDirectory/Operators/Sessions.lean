import ManagedDirectory.Operators.Tables

/-!
# Operator sessions

`_perform_login`, `refresh`, `require_operator` and the ways a session is revoked. A login needs the
password and an authenticator code and runs under the lock of the account; a refresh looks for the
session of its token, locks it and looks again; `selectOperator` is the `SELECT` that decides whether
an access token passes.
-/

namespace ManagedDirectory.Operators

open Lib.Txn Lib.Txn.Prog
open Rds (Failure strip)

variable (S : Services)

/-! ## Login -/

def invalidLogin : Failure := .http 401 "Invalid username, password, or authenticator code"

def maxLoginFailures : Nat := 5

def lockoutMinutes : Int := 15

structure LoginRequest where
  username : String
  password : String
  totpCode : Option String

structure Draw where
  jti : String
  refreshToken : String

def credentialsValid (payload : LoginRequest) (time : Int) (a : Account) : Bool :=
  S.passwordOk payload.password a.passwordHash && a.totpEnabled &&
    a.totpSecret.any fun secret =>
      payload.totpCode.any fun code => code != "" && S.totpVerify secret code time

def Account.failLogin (now : Int) (a : Account) : Account :=
  { a with
    failedLoginCount := a.failedLoginCount + 1
    lockedUntil :=
      if maxLoginFailures ≤ a.failedLoginCount + 1 then some (now + minutes lockoutMinutes)
      else none }

def Account.resetFailures (a : Account) : Account :=
  { a with failedLoginCount := 0, lockedUntil := none }

def wholeSeconds (t : Int) : Int := t - t % 1000000

def issueAccessToken (g : Outside) (accountId sessionId : String) (role : Role) (now : Int)
    (scope : Scope) (jti : String) : String :=
  S.encode ⟨accountId, sessionId, role, scope, wholeSeconds now,
    wholeSeconds (now + minutes g.accessTokenMinutes), jti⟩

def newSession (g : Outside) (now : Int) (scope : Scope) (accountId sessionId : String) (a : Account)
    (draw : Draw) : Session where
  accountId := accountId
  accessTokenHash := S.tokenHash (issueAccessToken S g accountId sessionId a.role now scope draw.jti)
  refreshTokenHash := S.tokenHash draw.refreshToken
  mfaVerifiedAt := if a.totpEnabled then some now else none
  createdAt := now
  expiresAt := now + days (if scope = .mobile then g.mobileSessionDays else g.sessionDays)
  lastSeenAt := some now
  revokedAt := none
  scope := scope

/-- `_perform_login`. -/
def performLogin (now : Int) (payload : LoginRequest) (scope : Scope) (sessionId : String)
    (draw : Draw) : Tx Answer := do
  let username := strip payload.username
  let st ← read
  match accountNamed S st username with
  | none => pure (.error invalidLogin)
  | some id =>
    match ← lockAccount id fun a => S.lower a.username == S.lower username with
    | none => pure (.error invalidLogin)
    | some a =>
      if !a.isActive || a.lockedUntil.any (now < ·) then
        pure (.error invalidLogin)
      else
        let g ← outside
        if !credentialsValid S payload g.clock a then
          write (.account id) (a.failLogin now)
          pure (.error invalidLogin)
        else
          let g ← outside
          create (.session sessionId) (newSession S g now scope id sessionId a draw)
          write (.account id) a.resetFailures
          pure (.ok (.tokens sessionId (issueAccessToken S g id sessionId a.role now scope draw.jti)
            draw.refreshToken))

/-! ## Requests with a session -/

def unauthorized : Failure := .http 401 "Invalid or expired authentication"

/-- The conditions `require_operator` and `refresh` put on a session besides its tokens. -/
def Session.live (now idle : Int) (s : Session) : Bool :=
  s.revokedAt.isNone && decide (now < s.expiresAt) && s.mfaVerifiedAt.isSome &&
    (s.scope == .mobile || decide (now - idle < s.lastSeenAt.getD s.createdAt))

/-- What `require_operator` returns. -/
structure Operator where
  accountId : String
  sessionId : String
  role : Role
  scope : Scope
  mustChangePassword : Bool
  deriving DecidableEq, Repr

/-- The `SELECT` of `require_operator`: the operator, if the access token passes. -/
def selectOperator (st : Store) (now idle : Int) (accessToken : String) : Option Operator := do
  let claims ← S.decode accessToken
  let os ← st.session claims.sid
  let oa ← st.account os.accountId
  if claims.iat ≤ now ∧ now < claims.exp ∧ os.accountId = claims.sub ∧
      os.accessTokenHash = S.tokenHash accessToken ∧ os.live now idle ∧ oa.isActive then
    some ⟨os.accountId, claims.sid, oa.role, os.scope, oa.mustChangePassword⟩
  else none

/-- `UPDATE operator_sessions SET last_seen_at = now WHERE id = %s`. -/
def touchSession (now : Int) (id : String) : Tx Unit := do
  match ← lockSession id fun _ => true with
  | none => pure ()
  | some s => write (.session id) { s with lastSeenAt := some now }

def requireOperator (now : Int) (accessToken : String) : Tx Answer := do
  let g ← outside
  let st ← read
  let operator ← orFail (selectOperator S st now g.operatorIdleTimeout accessToken) unauthorized
  touchSession now operator.sessionId
  pure (.ok .done)

/-! ## Refresh -/

/-- The session a refresh token belongs to, and the role of its account. -/
def refreshable (st : Store) (now idle : Int) (refreshToken : String) : Option (String × Role) :=
  (st.keys.filterMap Key.sessionId).findSome? fun id =>
    match st.session id with
    | some os =>
      match st.account os.accountId with
      | some oa =>
        if os.refreshTokenHash = S.tokenHash refreshToken ∧ os.live now idle ∧ oa.isActive then
          some (id, oa.role)
        else none
      | none => none
    | none => none

def Session.renew (g : Outside) (now : Int) (accessToken refreshToken : String) (s : Session) :
    Session :=
  { s with
    accessTokenHash := S.tokenHash accessToken
    refreshTokenHash := S.tokenHash refreshToken
    lastSeenAt := some now
    expiresAt := if s.scope = .mobile then now + days g.mobileSessionDays else s.expiresAt }

/-- `refresh`: the session is found in a snapshot and looked at again when it is locked. -/
def refresh (now : Int) (refreshToken : String) (draw : Draw) : Tx Answer := do
  let g ← outside
  let idle := g.operatorIdleTimeout
  let st ← read
  let (id, role) ← orFail (refreshable S st now idle refreshToken) unauthorized
  let session ← lockSession id fun s =>
    decide (s.refreshTokenHash = S.tokenHash refreshToken) && s.live now idle
  let session ← orFail session unauthorized
  let g ← outside
  let accessToken := issueAccessToken S g session.accountId id role now session.scope draw.jti
  let g ← outside
  write (.session id) (session.renew S g now accessToken draw.refreshToken)
  pure (.ok (.tokens id accessToken draw.refreshToken))

/-! ## Revocations -/

/-- `logout` and `revoke_session_ids`. -/
def revokeSession (now : Int) (sessionId : String) : Tx Answer := do
  revokeSessions now fun id _ => id == sessionId
  pure (.ok .done)

/-- `revoke_idle_operator_sessions`. -/
def revokeIdleOperatorSessions (now : Int) : Tx Answer := do
  let g ← outside
  revokeSessions now fun _ s => decide (now < s.expiresAt) && s.scope != .mobile &&
    decide (s.lastSeenAt.getD s.createdAt ≤ now - g.operatorIdleTimeout)
  pure (.ok .done)

def accountNotFound : Failure := .http 404 "Operator account was not found"

/-- `revoke_operator_sessions`. The account is not locked. -/
def revokeOperatorSessions (now : Int) (accountId : String) : Tx Answer := do
  let st ← read
  let target := (st.account accountId).filter fun a => a.deletedAt.isNone
  let _ ← orFail target accountNotFound
  revokeSessions now fun _ s => s.accountId == accountId
  pure (.ok .done)

end ManagedDirectory.Operators
