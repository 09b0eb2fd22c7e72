import ManagedDirectory.Lib.Statements
import ManagedDirectory.Rds.Enrollment

/-!
# Operator accounts: tables

The rows of `operator_accounts`, `operator_sessions`, `operator_access_resets`,
`operator_role_change_requests` and `operator_invitations` (`Row`, by `Key`), what the handlers use
besides (`Services`, `Outside`), and the statements they share. A handler is a transaction program
(`Tx`); the rows it takes are those the source takes `FOR UPDATE`, in the source's order.
-/

namespace ManagedDirectory.Operators

open Lib.Txn Lib.Txn.Prog
open Rds (Failure strip)

/-! ## Rows -/

inductive Role where
  | owner
  | manager
  | viewer
  deriving DecidableEq, Repr

inductive Scope where
  | full
  | mobile
  deriving DecidableEq, Repr

inductive ResetMode where
  | passwordOnly
  | totpOnly
  | passwordTotp
  deriving DecidableEq, Repr

inductive RequestStatus where
  | pending
  | completed
  | rejected
  | cancelled
  | expired
  deriving DecidableEq, Repr

inductive InvitationStatus where
  | pending
  | accepted
  | revoked
  | expired
  deriving DecidableEq, Repr

/-- A row of `operator_accounts`. The authenticator secret is kept encrypted; `totpSecret` is what
`pgp_sym_decrypt` gives. -/
structure Account where
  username : String
  email : Option String
  passwordHash : String
  totpSecret : Option String
  totpEnabled : Bool
  role : Role
  isActive : Bool
  mustChangePassword : Bool
  failedLoginCount : Nat
  lockedUntil : Option Int
  deletedAt : Option Int
  deriving DecidableEq, Repr

structure Session where
  accountId : String
  accessTokenHash : String
  refreshTokenHash : String
  mfaVerifiedAt : Option Int
  createdAt : Int
  expiresAt : Int
  lastSeenAt : Option Int
  revokedAt : Option Int
  scope : Scope
  deriving DecidableEq, Repr

structure AccessReset where
  accountId : String
  tokenHash : String
  resetMode : ResetMode
  requestedBy : String
  createdAt : Int
  expiresAt : Int
  usedAt : Option Int
  revokedAt : Option Int
  deriving DecidableEq, Repr

structure RoleChangeRequest where
  targetAccountId : String
  requestedRole : Role
  requestedBy : String
  ownerPasswordVerifiedAt : Option Int
  ownerTotpVerifiedAt : Option Int
  status : RequestStatus
  createdAt : Int
  expiresAt : Int
  completedAt : Option Int
  completedBy : Option String
  deriving DecidableEq, Repr

structure Invitation where
  proposedUsername : String
  requestedRole : Role
  tokenHash : String
  createdBy : String
  expiresAt : Int
  status : InvitationStatus
  deriving DecidableEq, Repr

inductive Key where
  | account (id : String)
  | session (id : String)
  | reset (id : String)
  | request (id : String)
  | invitation (id : String)
  /-- The row of `directory_instance`. -/
  | directory
  deriving DecidableEq, Repr

/-- The row of `directory_instance` tells when the first Owner was created. -/
abbrev Row : Key → Type
  | .account _ => Account
  | .session _ => Session
  | .reset _ => AccessReset
  | .request _ => RoleChangeRequest
  | .invitation _ => Invitation
  | .directory => Option Int

abbrev Store := AList Row

abbrev Holding := Held Key Row

namespace Store

abbrev account (st : Store) (id : String) : Option Account := AList.lookup (Key.account id) st
abbrev session (st : Store) (id : String) : Option Session := AList.lookup (Key.session id) st
abbrev reset (st : Store) (id : String) : Option AccessReset := AList.lookup (Key.reset id) st
abbrev request (st : Store) (id : String) : Option RoleChangeRequest :=
  AList.lookup (Key.request id) st
abbrev invitation (st : Store) (id : String) : Option Invitation :=
  AList.lookup (Key.invitation id) st
abbrev directory (st : Store) : Option (Option Int) := AList.lookup Key.directory st

end Store

def Key.sessionId : Key → Option String
  | .session id => some id
  | _ => none

def Key.resetId : Key → Option String
  | .reset id => some id
  | _ => none

def Key.requestId : Key → Option String
  | .request id => some id
  | _ => none

def Key.accountId : Key → Option String
  | .account id => some id
  | _ => none

def Key.invitationId : Key → Option String
  | .invitation id => some id
  | _ => none

theorem Key.sessionId_eq (k : Key) (id : String) : k.sessionId = some id ↔ k = .session id := by
  cases k <;> simp [Key.sessionId]

theorem Key.resetId_eq (k : Key) (id : String) : k.resetId = some id ↔ k = .reset id := by
  cases k <;> simp [Key.resetId]

theorem Key.requestId_eq (k : Key) (id : String) : k.requestId = some id ↔ k = .request id := by
  cases k <;> simp [Key.requestId]

theorem Key.invitationId_eq (k : Key) (id : String) :
    k.invitationId = some id ↔ k = .invitation id := by
  cases k <;> simp [Key.invitationId]

/-! ## What handlers use -/

structure AccessClaims where
  sub : String
  sid : String
  role : Role
  scope : Scope
  iat : Int
  exp : Int
  jti : String
  deriving DecidableEq, Repr

/-- Passwords, authenticators and tokens. Hashes of tokens are taken to be without collisions. -/
structure Services where
  /-- `crypt(password, gen_salt('bf', 12))`, with the salt drawn. -/
  hashPassword : (password salt : String) → String
  /-- `crypt(password, hash) = hash`. -/
  passwordOk : (password hash : String) → Bool
  passwordOk_hash : ∀ password salt, passwordOk password (hashPassword password salt) = true
  totpNow : (secret : String) → Int → String
  /-- `pyotp.TOTP(secret).verify(code, valid_window=1)`. -/
  totpVerify : (secret code : String) → Int → Bool
  totpVerify_now : ∀ secret time, totpVerify secret (totpNow secret time) time = true
  /-- `token_hash`. -/
  tokenHash : String → String
  tokenHash_injective : Function.Injective tokenHash
  invitationTokenHash : String → String
  /-- `_b32_hmac_secret(totp_key, token)`. -/
  resetSecret : String → String
  resetSecret_ne : ∀ token, resetSecret token ≠ ""
  invitationTotpSecret : String → String
  /-- `jwt.encode` with `TOKEN_SECRET`. -/
  encode : AccessClaims → String
  /-- `jwt.decode`, without the check of the times. -/
  decode : String → Option AccessClaims
  decode_encode : ∀ claims, decode (encode claims) = some claims
  lower : String → String

/-- The time, the random values drawn so far, and the settings handlers read. -/
structure Outside where
  clock : Int
  drawn : List String
  sessionDays : Int
  mobileSessionDays : Int
  accessTokenMinutes : Int
  opsIdleMinutes : Int
  deriving DecidableEq

/-- Times are in microseconds, as a `datetime` and a `timestamptz` have them. -/
def minutes (n : Int) : Int := 60 * 1000000 * n

def days (n : Int) : Int := 86400 * 1000000 * n

/-- `operator_idle_timeout`. -/
def Outside.operatorIdleTimeout (g : Outside) : Int :=
  minutes (min (max g.opsIdleMinutes 15) (24 * 60))

inductive Reply where
  | done
  | tokens (sessionId accessToken refreshToken : String)
  deriving DecidableEq, Repr

abbrev Answer := Except Failure Reply

abbrev Tx := Prog Key Row Outside Failure

/-! ## Shared statements -/

def protectedBradAccountId : String := "00000000-0000-0000-0000-000000000000"

def protectedBradUsername : String := "brad"

def isProtectedBradAccount (S : Services) (id : String) (a : Account) : Bool :=
  id == protectedBradAccountId || S.lower (strip a.username) == protectedBradUsername

/-- `SELECT … FROM operator_accounts WHERE id = %s … FOR UPDATE`. -/
abbrev lockAccount (id : String) (p : Account → Bool) : Tx (Option Account) :=
  forUpdate (Key.account id) p

abbrev lockSession (id : String) (p : Session → Bool) : Tx (Option Session) :=
  forUpdate (Key.session id) p

abbrev lockReset (id : String) (p : AccessReset → Bool) : Tx (Option AccessReset) :=
  forUpdate (Key.reset id) p

abbrev lockRequest (id : String) : Tx (Option RoleChangeRequest) :=
  forUpdate (Key.request id) fun _ => true

abbrev lockInvitation (id : String) : Tx (Option Invitation) :=
  forUpdate (Key.invitation id) fun _ => true

/-- The account, if it is not deleted, `FOR UPDATE`. -/
abbrev liveAccount (id : String) : Tx (Option Account) :=
  lockAccount id fun a => a.deletedAt.isNone

abbrev read : Tx Store := snapshot

def Session.revoke (now : Int) (s : Session) : Session := { s with revokedAt := some now }

/-- `UPDATE operator_sessions SET revoked_at = now … WHERE … AND revoked_at IS NULL`. -/
def revokeSessions (now : Int) (p : String → Session → Bool) : Tx Unit :=
  updateWhere Key.sessionId Key.session (fun id (s : Session) => p id s && s.revokedAt.isNone)
    fun _ (s : Session) => s.revoke now

/-- `UPDATE operator_access_resets SET revoked_at = now WHERE account_id = %s AND used_at IS NULL AND
revoked_at IS NULL`. -/
def revokeResets (now : Int) (accountId : String) : Tx Unit :=
  updateWhere Key.resetId Key.reset
    (fun _ (r : AccessReset) => r.accountId == accountId && r.usedAt.isNone && r.revokedAt.isNone)
    fun _ (r : AccessReset) => { r with revokedAt := some now }

/-- `UPDATE operator_role_change_requests SET status = … WHERE status = 'pending' AND …`. -/
def settleRequests (status : RequestStatus) (p : RoleChangeRequest → Bool) : Tx Unit :=
  updateWhere Key.requestId Key.request
    (fun _ (r : RoleChangeRequest) => p r && r.status == .pending)
    fun _ (r : RoleChangeRequest) => { r with status := status }

/-- `UPDATE operator_invitations SET status = 'expired' WHERE status = 'pending' AND expires_at <= now`.
-/
def expireInvitations (now : Int) : Tx Unit :=
  updateWhere Key.invitationId Key.invitation
    (fun _ (i : Invitation) => i.status == .pending && decide (i.expiresAt ≤ now))
    fun _ (i : Invitation) => { i with status := .expired }

def accountNamed (S : Services) (st : Store) (username : String) : Option String :=
  (st.keys.filterMap Key.accountId).find? fun id =>
    (st.account id).any fun a => S.lower a.username == S.lower username

end ManagedDirectory.Operators
