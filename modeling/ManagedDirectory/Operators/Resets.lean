import ManagedDirectory.Operators.Accounts

/-!
# Access resets

`create_reset` of an Owner, `create_self_reset` of the account itself, and the acceptance of a reset
link. An Owner's reset closes the account at once: it replaces the password, takes the authenticator
away or both, and revokes all sessions and earlier links. A link is accepted under the locks of the
link and of the account, in that order.
-/

namespace ManagedDirectory.Operators

open Lib.Txn Lib.Txn.Prog
open Rds (Failure)

variable (S : Services)

def resetMinutes : Int := 30

def ResetMode.resetsPassword : ResetMode → Bool
  | .passwordOnly | .passwordTotp => true
  | .totpOnly => false

def ResetMode.resetsTotp : ResetMode → Bool
  | .totpOnly | .passwordTotp => true
  | .passwordOnly => false

/-! ## Re-authentication of an Owner -/

/-- What `verify_owner_reauthentication` asks of the Owner's row. -/
def ownerVerified (password code : String) (time : Int) (a : Account) : Bool :=
  a.isActive && a.role == .owner && !a.mustChangePassword && a.totpEnabled &&
    (a.totpSecret.any fun secret => S.totpVerify secret code time) &&
    S.passwordOk password a.passwordHash

def reauthenticationFailed : Failure := .http 401 "Owner password or authenticator code is invalid"

/-- `verify_owner_reauthentication`: the Owner's row is taken `FOR UPDATE`. -/
def verifyOwnerReauthentication (operator : String) (password code : Option String) : Tx Int := do
  let missing : Failure :=
    .http 422 "Owner password and authenticator code are required for this role change"
  let password ← orFail password missing
  let code ← orFail code missing
  let owner ← orFail (← lockAccount operator fun _ => true) reauthenticationFailed
  let g ← outside
  failIf (ownerVerified S password code g.clock owner = false) reauthenticationFailed
  let g ← outside
  pure g.clock

/-! ## New links -/

/-- What an Owner's reset does to the account: the replacement password is drawn and thrown away. -/
def Account.close (mode : ResetMode) (replacementHash : String) (a : Account) : Account :=
  let a := if mode.resetsPassword then
      { a.resetFailures with passwordHash := replacementHash, mustChangePassword := true }
    else a
  if mode.resetsTotp then { a.resetFailures with totpSecret := none, totpEnabled := false } else a

def newReset (now : Int) (accountId token : String) (mode : ResetMode) (requestedBy : String) :
    AccessReset where
  accountId := accountId
  tokenHash := S.tokenHash token
  resetMode := mode
  requestedBy := requestedBy
  createdAt := now
  expiresAt := now + minutes resetMinutes
  usedAt := none
  revokedAt := none

/-- `create_reset`. -/
def createReset (now : Int) (operator accountId : String) (mode : ResetMode)
    (ownerPassword ownerTotpCode resetId token replacementHash : String) : Tx Answer := do
  let target ← orFail (← liveAccount accountId) accountNotFound
  failIf (accountId = operator) (.http 409 "Use Manager self-service to change your own access")
  let _ ← verifyOwnerReauthentication S operator (some ownerPassword) (some ownerTotpCode)
  revokeResets now accountId
  write (.account accountId) (target.close mode replacementHash)
  revokeSessions now fun _ s => s.accountId == accountId
  create (.reset resetId) (newReset S now accountId token mode operator)
  pure (.ok .done)

/-- What `create_self_reset` asks of the account's row. -/
def selfVerified (password code : String) (time : Int) (a : Account) : Bool :=
  a.isActive && S.passwordOk password a.passwordHash &&
    a.totpSecret.any fun secret => secret != "" && S.totpVerify secret code time

/-- `create_self_reset`. -/
def createSelfReset (now : Int) (accountId : String) (mode : ResetMode)
    (currentPassword currentTotpCode resetId token : String) : Tx Answer := do
  let refused : Failure := .http 401 "Current password or authenticator code is invalid"
  let target ← orFail (← liveAccount accountId) refused
  let g ← outside
  failIf (selfVerified S currentPassword currentTotpCode g.clock target = false) refused
  revokeResets now accountId
  create (.reset resetId) (newReset S now accountId token mode accountId)
  pure (.ok .done)

/-! ## Acceptance -/

/-- `get_reset`: the link of a token and its account. -/
def resetForToken (st : Store) (token : String) : Option String :=
  (st.keys.filterMap Key.resetId).find? fun id =>
    (st.reset id).any fun r => r.tokenHash == S.tokenHash token &&
      (st.account r.accountId).any fun a => a.deletedAt.isNone

def linkInvalid : Failure := .http 404 "Recovery link is invalid"

/-- `get_reset(token, lock=True)`. -/
def getReset (now : Int) (token : String) : Tx (String × AccessReset × Account) := do
  let st ← read
  let id ← orFail (resetForToken S st token) linkInvalid
  let r ← orFail (← lockReset id fun r => r.tokenHash == S.tokenHash token) linkInvalid
  let a ← orFail (← liveAccount r.accountId) linkInvalid
  failIf (r.usedAt.isSome = true ∨ r.revokedAt.isSome = true)
    (.http 410 "Recovery link has already been used or revoked")
  failIf (r.expiresAt ≤ now) (.http 410 "Recovery link has expired")
  pure (id, r, a)

/-- `get_reset(token)`: the same checks on one snapshot. -/
def peekReset (now : Int) (token : String) : Tx (AccessReset × Account) := do
  let st ← read
  let id ← orFail (resetForToken S st token) linkInvalid
  let r ← orFail (st.reset id) linkInvalid
  let a ← orFail (st.account r.accountId) linkInvalid
  failIf (r.usedAt.isSome = true ∨ r.revokedAt.isSome = true)
    (.http 410 "Recovery link has already been used or revoked")
  failIf (r.expiresAt ≤ now) (.http 410 "Recovery link has expired")
  pure (r, a)

structure ResetSetup where
  username : String
  resetMode : ResetMode
  expiresAt : Int
  totpSecret : Option String
  deriving DecidableEq, Repr

/-- `operator_access_reset_setup`: the secret of the new authenticator, where there is to be one. -/
def operatorAccessResetSetup (now : Int) (token : String) : Tx ResetSetup := do
  let (r, a) ← peekReset S now token
  pure ⟨a.username, r.resetMode, r.expiresAt,
    if r.resetMode.resetsTotp then some (S.resetSecret token) else none⟩

def acceptCode (mode : ResetMode) (token code : String) (time : Int) (a : Account) : Bool :=
  if mode.resetsTotp then S.totpVerify (S.resetSecret token) code time
  else a.totpSecret.any fun existing => existing != "" && S.totpVerify existing code time

def Account.recover (mode : ResetMode) (passwordHash newSecret : String) (a : Account) : Account :=
  let a := if mode.resetsPassword then
      { a.resetFailures with passwordHash := passwordHash, mustChangePassword := false }
    else a.resetFailures
  if mode.resetsTotp then { a with totpSecret := some newSecret, totpEnabled := true } else a

/-- `operator_access_reset_accept`. -/
def acceptReset (now : Int) (token : String) (password : Option String) (totpCode salt : String) :
    Tx Answer := do
  let (id, r, a) ← getReset S now token
  let g ← outside
  failIf (r.resetMode.resetsPassword = true ∧ password.all (·.length < 12))
    (.http 422 "A new password of at least 12 characters is required")
  failIf (acceptCode S r.resetMode token totpCode g.clock a = false)
    (.http 401 "Authenticator code is invalid")
  write (.account r.accountId) (a.recover r.resetMode (S.hashPassword (password.getD "") salt)
    (S.resetSecret token))
  write (.reset id) { r with usedAt := some g.clock }
  updateWhere Key.sessionId Key.session (fun _ (s : Session) => s.accountId == r.accountId)
    fun _ (s : Session) => { s with revokedAt := s.revokedAt.or (some g.clock) }
  pure (.ok .done)

end ManagedDirectory.Operators
