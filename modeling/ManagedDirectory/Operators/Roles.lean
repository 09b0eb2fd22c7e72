import ManagedDirectory.Operators.Resets

/-!
# Role changes

A role changes in two steps: an Owner requests it, an Owner (the same or another) completes it. The
database guards both with triggers; the completion takes the request, the target and, through the
foreign key of `completed_by`, a share of the completer before the triggers look at who is an Owner.
-/

namespace ManagedDirectory.Operators

open Lib.Txn Lib.Txn.Prog
open Rds (Failure)

variable (S : Services)

def requestNotFound : Failure := .http 404 "Operator role-change request was not found"

def requestExpired : Failure := .http 410 "Operator role-change request has expired"

def protectedRole : Failure := .http 409 "Brad account role is permanently protected as Owner"

def inactiveTarget : Failure :=
  .http 409 "Inactive operator accounts cannot receive a role change"

def sameRole : Failure := .http 409 "The operator already has the requested role"

/-! ## Requests -/

def sensitiveOwnerChange (current requested : Role) : Bool := current == .owner || requested == .owner

/-- The author's check of the trigger `validate_operator_role_change_request`. -/
def validateOperatorRoleChangeRequest (st : Store) (r : RoleChangeRequest) : Option Failure :=
  if !(st.account r.requestedBy).any Account.activeOwner then
    some (.http 409 "Only an active Owner may request an operator role change")
  else if r.requestedBy = r.targetAccountId then
    some (.http 409 "Self-promotion is not allowed")
  else if r.requestedRole = .owner ∧
      (r.ownerPasswordVerifiedAt = none ∨ r.ownerTotpVerifiedAt = none) then
    some (.http 409 "Owner password and TOTP verification are required for Owner promotion")
  else none

/-- `operator_role_change_requests_pending_target_uidx`. -/
def pendingFor (st : Store) (target : String) : Bool :=
  (st.keys.filterMap Key.requestId).any fun id =>
    (st.request id).any fun r => r.status == .pending && r.targetAccountId == target

def expireRequests (now : Int) : Tx Unit :=
  settleRequests .expired fun r => decide (r.expiresAt ≤ now)

def verifySensitive (current requested : Role) (operator : String) (password code : Option String) :
    Tx (Option Int) :=
  if sensitiveOwnerChange current requested then
    some <$> verifyOwnerReauthentication S operator password code
  else pure none

/-- The `INSERT` of a request: the trigger reads, then the row goes into the unique index, then the
foreign keys are checked. -/
def insertRequest (requestId : String) (request : RoleChangeRequest) : Tx Unit := do
  let st ← read
  failIf ((validateOperatorRoleChangeRequest st request).isSome)
    ((validateOperatorRoleChangeRequest st request).getD .exception)
  let st ← read
  failIf (pendingFor st request.targetAccountId)
    (.http 409 "A pending role-change request already exists for this operator")
  create (.request requestId) request
  references (.account request.targetAccountId)
  references (.account request.requestedBy)

/-- `create_operator_role_change_request`. -/
def createOperatorRoleChangeRequest (now : Int) (operator accountId : String) (requestedRole : Role)
    (expiresInMinutes : Int) (ownerPassword ownerTotpCode : Option String) (requestId : String) :
    Tx Answer := do
  expireRequests now
  let target ← orFail (← lockAccount accountId fun _ => true) accountNotFound
  if isProtectedBradAccount S accountId target then
    pure (.error protectedRole)
  else
    failIf (accountId = operator) (.http 409 "Owners cannot change their own role")
    failIf (target.isActive = false) inactiveTarget
    failIf (target.role = requestedRole) sameRole
    failIf (requestedRole = .owner ∧ (target.totpEnabled = false ∨ target.mustChangePassword = true))
      (.http 409
        "The target must have a confirmed authenticator and completed password setup before Owner promotion")
    let verifiedAt ← verifySensitive S target.role requestedRole operator ownerPassword ownerTotpCode
    insertRequest requestId ⟨accountId, requestedRole, operator, verifiedAt, verifiedAt, .pending, now,
      now + minutes expiresInMinutes, none, none⟩
    pure (.ok .done)

/-- `list_operator_role_change_requests`. -/
def listOperatorRoleChangeRequests (now : Int) : Tx Answer := do
  expireRequests now
  pure (.ok .done)

/-- `cancel_operator_role_change_request`. -/
def cancelOperatorRoleChangeRequest (now : Int) (requestId : String) : Tx Answer := do
  let r ← orFail (← lockRequest requestId) requestNotFound
  failIf (r.status ≠ .pending) (.http 409 "Only pending role-change requests can be cancelled")
  if r.expiresAt ≤ now then
    write (.request requestId) { r with status := .expired }
    pure (.error requestExpired)
  else
    write (.request requestId) { r with status := .cancelled }
    pure (.ok .done)

/-! ## Completion -/

/-- The triggers on `operator_accounts` when a role is updated: the last Owner and the protected
account keep theirs. -/
def updateRole (id : String) (a : Account) (role : Role) : Tx Unit := do
  if a.activeOwner ∧ role ≠ .owner then
    let st ← read
    failIf (ownerBesides st (some id) = false) (.http 409 "At least one active Owner must remain")
  failIf ((id = protectedBradAccountId ∨ S.lower a.username = protectedBradUsername) ∧ role ≠ a.role)
    (.http 409 "Brad account role, status and lifecycle are permanently protected")
  write (.account id) { a with role := role }

/-- The trigger `apply_completed_operator_role_change`. The check of the foreign key comes first. -/
def applyCompletedOperatorRoleChange (operator : String) (r : RoleChangeRequest) : Tx Unit := do
  references (.account operator)
  let st ← read
  failIf ((st.account operator).any Account.activeOwner = false)
    (.http 409 "Only an active Owner may complete a role change")
  failIf (operator = r.targetAccountId) (.http 409 "Self-promotion is not allowed")
  let st ← read
  let target ← orFail (st.account r.targetAccountId)
    (.http 409 "Target operator account does not exist")
  failIf (target.isActive = false) inactiveTarget
  failIf (r.requestedRole = .owner ∧
      (target.totpEnabled = false ∨ target.mustChangePassword = true))
    (.http 409 "The new Owner must set their own password and TOTP before promotion")
  updateRole S r.targetAccountId target r.requestedRole

def RoleChangeRequest.complete (now : Int) (operator : String) (r : RoleChangeRequest) :
    RoleChangeRequest :=
  { r with status := .completed, completedAt := some now, completedBy := some operator }

/-- `complete_operator_role_change_request`. -/
def completeOperatorRoleChangeRequest (now : Int) (operator requestId : String) : Tx Answer := do
  let r ← orFail (← lockRequest requestId) requestNotFound
  let target ← orFail (← lockAccount r.targetAccountId fun _ => true) requestNotFound
  failIf (r.status ≠ .pending) (.http 409 "Only pending role-change requests can be completed")
  if r.expiresAt ≤ now then
    write (.request requestId) { r with status := .expired }
    pure (.error requestExpired)
  else if isProtectedBradAccount S r.targetAccountId target then
    pure (.error protectedRole)
  else
    failIf (r.targetAccountId = operator)
      (.http 409 "Owners cannot complete a change to their own role")
    failIf (target.isActive = false) inactiveTarget
    failIf (target.role = r.requestedRole) sameRole
    failIf (r.requestedRole = .owner ∧
        (r.ownerPasswordVerifiedAt = none ∨ r.ownerTotpVerifiedAt = none ∨
          target.totpEnabled = false ∨ target.mustChangePassword = true))
      (.http 409 "Owner promotion prerequisites are no longer satisfied")
    write (.request requestId) (r.complete now operator)
    applyCompletedOperatorRoleChange S operator r
    revokeSessions now fun _ s => s.accountId == r.targetAccountId
    pure (.ok .done)

end ManagedDirectory.Operators
