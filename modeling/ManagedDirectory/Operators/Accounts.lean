import ManagedDirectory.Operators.Sessions

/-!
# Operator accounts: creation and lifecycle

How accounts come into being (the first Owner, invitations) and what Owners do to them: disable,
enable, delete, unlock, new email. Each handler locks the account first; those that change its
lifecycle leave Owners alone.
-/

namespace ManagedDirectory.Operators

open Lib.Txn Lib.Txn.Prog
open Rds (Failure strip)

variable (S : Services)

/-! ## The first Owner -/

/-- An account as it is created, with its own password and authenticator. -/
def newAccount (username passwordHash totpSecret : String) (role : Role) : Account where
  username := username
  email := none
  passwordHash := passwordHash
  totpSecret := some totpSecret
  totpEnabled := true
  role := role
  isActive := true
  mustChangePassword := false
  failedLoginCount := 0
  lockedUntil := none
  deletedAt := none

def Account.activeOwner (a : Account) : Bool := a.role == .owner && a.isActive

/-- `EXISTS (SELECT 1 FROM operator_accounts WHERE id <> … AND role = 'owner' AND is_active)`. -/
def ownerBesides (st : Store) (id : Option String) : Bool :=
  (st.keys.filterMap Key.accountId).any fun other =>
    some other != id && (st.account other).any Account.activeOwner

def notBootstrap : Failure :=
  .http 409 "Additional Owners must be promoted through an approved role-change request"

/-- The insert of `rustdesk-owner-bootstrap`, with the triggers `guard_direct_operator_role_mutation`
and `complete_creator_owner_bootstrap`. -/
def bootstrapOwner (now : Int) (id username password salt totpSecret : String) : Tx Answer := do
  let st ← read
  failIf (st.directory.any (·.isSome) || ownerBesides st none) notBootstrap
  failIf ((accountNamed S st username).isSome) .exception
  create (.account id) (newAccount username (S.hashPassword password salt) totpSecret .owner)
  match ← forUpdate Key.directory fun completedAt : Option Int => completedAt.isNone with
  | none => pure (.ok .done)
  | some _ =>
    write .directory (some now)
    pure (.ok .done)

/-! ## Invitations -/

def invitationUnavailable : Failure := .http 401 "Invalid or unavailable invitation"

def invitationExpired : Failure := .http 410 "Operator invitation has expired"

def usernameTaken : Failure := .http 409 "An operator account already uses that username"

/-- `create_operator_invitation`; the role is `manager` or `viewer`. -/
def createOperatorInvitation (now : Int) (operator : String) (username displayName : String)
    (role : Role) (expiresInHours : Int) (invitationId token : String) : Tx Answer := do
  let username := strip username
  failIf (username = "" ∨ strip displayName = "")
    (.http 422 "Username and display name cannot be blank")
  failIf (role = .owner) (.http 422 "String should match pattern '^(manager|viewer)$'")
  expireInvitations now
  let st ← read
  failIf ((accountNamed S st username).isSome) usernameTaken
  let st ← read
  let taken := (st.keys.filterMap Key.invitationId).any fun id =>
    (st.invitation id).any fun i =>
      i.status == .pending && S.lower i.proposedUsername == S.lower username
  failIf taken (.http 409 "A pending invitation already uses that username")
  create (.invitation invitationId)
    ⟨username, role, S.invitationTokenHash token, operator, now + minutes (60 * expiresInHours),
      .pending⟩
  references (.account operator)
  pure (.ok .done)

/-- `list_operator_invitations`. -/
def listOperatorInvitations (now : Int) : Tx Answer := do
  expireInvitations now
  pure (.ok .done)

/-- `revoke_operator_invitation`. -/
def revokeOperatorInvitation (now : Int) (invitationId : String) : Tx Answer := do
  let invitation ← orFail (← lockInvitation invitationId)
    (.http 404 "Operator invitation was not found")
  if invitation.status = .pending ∧ invitation.expiresAt ≤ now then
    write (.invitation invitationId) { invitation with status := .expired }
    pure (.error invitationExpired)
  else
    failIf (invitation.status ≠ .pending) (.http 409 "Only pending invitations can be revoked")
    write (.invitation invitationId) { invitation with status := .revoked }
    pure (.ok .done)

/-- `pending_invitation_for_token`: the invitation of a token, `FOR UPDATE`. -/
def pendingInvitationForToken (token : String) : Tx (String × Invitation) := do
  let st ← read
  let id ← orFail ((st.keys.filterMap Key.invitationId).find? fun id =>
    (st.invitation id).any fun i => i.tokenHash == S.invitationTokenHash token) invitationUnavailable
  let invitation ← orFail (← lockInvitation id) invitationUnavailable
  pure (id, invitation)

/-- `setup_operator_invitation`, where it writes. -/
def setupOperatorInvitation (now : Int) (token : String) : Tx Answer := do
  let (id, invitation) ← pendingInvitationForToken S token
  failIf (invitation.status ≠ .pending) (.http 409 "Invitation is no longer pending")
  if invitation.expiresAt ≤ now then
    write (.invitation id) { invitation with status := .expired }
    pure (.error invitationExpired)
  else
    pure (.ok .done)

/-- `accept_operator_invitation`. -/
def acceptOperatorInvitation (now : Int) (token password totpCode salt accountId : String) :
    Tx Answer := do
  let (id, invitation) ← pendingInvitationForToken S token
  failIf (invitation.status ≠ .pending) (.http 409 "Invitation is no longer pending")
  if invitation.expiresAt ≤ now then
    write (.invitation id) { invitation with status := .expired }
    pure (.error invitationExpired)
  else
    failIf (invitation.requestedRole = .owner)
      (.http 409 "This invitation requires the protected Owner promotion workflow")
    let secret := S.invitationTotpSecret token
    let g ← outside
    failIf (S.totpVerify secret totpCode g.clock = false) (.http 401 "Invalid authenticator code")
    let st ← read
    failIf ((accountNamed S st invitation.proposedUsername).isSome) usernameTaken
    create (.account accountId) (newAccount invitation.proposedUsername
      (S.hashPassword password salt) secret invitation.requestedRole)
    references (.account invitation.createdBy)
    write (.invitation id) { invitation with status := .accepted }
    pure (.ok .done)

/-! ## Lifecycle -/

/-- `authorize_operator_self_or_owner`. -/
def authorizeOperatorSelfOrOwner (operator : Operator) (accountId : String) : Bool :=
  operator.role == .owner || operator.accountId == accountId

/-- `update_operator_email`, after its authorization. -/
def updateOperatorEmail (accountId : String) (email : Option String) : Tx Answer := do
  let target ← orFail (← liveAccount accountId) accountNotFound
  if target.email ≠ email then
    write (.account accountId) { target with email := email }
    pure (.ok .done)
  else
    pure (.ok .done)

def protectedLifecycle : Failure :=
  .http 409 "Brad account status and lifecycle are permanently protected"

def ownerWorkflow : Failure := .http 409 "Owner accounts require the protected Owner workflow"

/-- `disable_operator_account`. -/
def disableOperatorAccount (now : Int) (accountId : String) : Tx Answer := do
  let target ← orFail (← liveAccount accountId) accountNotFound
  if isProtectedBradAccount S accountId target then
    pure (.error protectedLifecycle)
  else
    failIf (target.role = .owner) ownerWorkflow
    if target.isActive then
      write (.account accountId) { target with isActive := false }
      revokeSessions now fun _ s => s.accountId == accountId
      pure (.ok .done)
    else
      pure (.ok .done)

/-- `enable_operator_account`. -/
def enableOperatorAccount (accountId : String) : Tx Answer := do
  let target ← orFail (← liveAccount accountId) accountNotFound
  if isProtectedBradAccount S accountId target then
    pure (.error protectedLifecycle)
  else
    failIf (target.role = .owner) ownerWorkflow
    if target.isActive then
      pure (.ok .done)
    else
      write (.account accountId) { target with isActive := true }
      pure (.ok .done)

/-- `delete_operator_account`. No invitation names an account as its target. -/
def deleteOperatorAccount (now : Int) (accountId : String) : Tx Answer := do
  let target ← orFail (← liveAccount accountId) accountNotFound
  if isProtectedBradAccount S accountId target then
    pure (.error protectedLifecycle)
  else
    failIf (target.role = .owner)
      (.http 409 "Owner accounts cannot be deleted from Client Managers")
    failIf (target.isActive = true) (.http 409 "Disable the account before deleting it")
    revokeSessions now fun _ s => s.accountId == accountId
    revokeResets now accountId
    settleRequests .cancelled fun r => r.targetAccountId == accountId
    write (.account accountId) { target with deletedAt := some now, isActive := false }
    pure (.ok .done)

/-- `unlock_operator_account`. -/
def unlockOperatorAccount (accountId : String) : Tx Answer := do
  let target ← orFail (← liveAccount accountId) accountNotFound
  write (.account accountId) target.resetFailures
  pure (.ok .done)

end ManagedDirectory.Operators
