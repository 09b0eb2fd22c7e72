import ManagedDirectory.Operators.System

/-!
# What operator requests do to rows

`Change` says what a transaction may do to one row, and what it has checked before it does it;
`rows_of_exec`: whatever a request finds on its way, that is all it does.
-/

namespace ManagedDirectory.Operators

open Lib.Txn Lib.Txn.Prog

variable (S : Services)

/-! ## What a transaction does to a row -/

def Op.givesTokens : Op → Bool
  | .login _ _ _ _ => true
  | .refresh _ _ => true
  | _ => false

/-- The password that the holder of an account chooses in a request, with the salt drawn for it. -/
def Op.chosen : Op → Option (String × String)
  | .bootstrapOwner _ _ password salt _ => some (password, salt)
  | .acceptInvitation _ password _ salt _ => some (password, salt)
  | .acceptReset _ password _ salt => password.map (·, salt)
  | _ => none

/-- The requests that write the login counter of an account, resets apart. -/
def Op.counts (id : String) : Op → Prop
  | .login _ _ _ _ => True
  | .unlock accountId => accountId = id
  | _ => False

structure Issued (q : Request) (ans : Answer) (sessionId access refresh : String) (s : Session) :
    Prop where
  gives : q.op.givesTokens = true
  answered : ans = .ok (.tokens sessionId access refresh)
  accessHash : s.accessTokenHash = S.tokenHash access
  refreshHash : s.refreshTokenHash = S.tokenHash refresh
  drawn : refresh ∈ q.op.draws

structure LoggedIn (q : Request) (ans : Answer) (h : Holding) (sessionId : String) (s : Session) :
    Prop where
  checked : ∃ payload draw a time, q.op = .login payload s.scope sessionId draw ∧
    h.base.lookup (.account s.accountId) = some a ∧ credentialsValid S payload time a = true
  locked : Key.account s.accountId ∈ h.own
  issued : ∃ access refresh, Issued S q ans sessionId access refresh s
  unrevoked : s.revokedAt = none

/-- What a refresh has checked on the session, and what it answers. -/
structure Refreshed (q : Request) (ans : Answer) (sessionId : String) (s s' : Session) : Prop where
  op : ∃ token draw idle, q.op = .refresh token draw ∧
    s.refreshTokenHash = S.tokenHash token ∧ s.live q.now idle = true
  issued : ∃ access refresh, Issued S q ans sessionId access refresh s'
  kept : ∃ access refresh seen expires,
    s' = { s with
      accessTokenHash := access, refreshTokenHash := refresh, lastSeenAt := seen, expiresAt := expires }

structure Accepted (q : Request) (h : Holding) (resetId : String) (r : AccessReset) (a : Account)
    (token : String) (password : Option String) (totpCode salt : String) : Prop where
  op : q.op = .acceptReset token password totpCode salt
  link : h.base.lookup (.reset resetId) = some r
  account : h.base.lookup (.account r.accountId) = some a
  hash : r.tokenHash = S.tokenHash token
  unused : r.usedAt = none
  unrevoked : r.revokedAt = none
  unexpired : q.now < r.expiresAt
  given : r.resetMode.resetsPassword = true → ∃ p, password = some p
  code : ∃ time, acceptCode S r.resetMode token totpCode time a = true
  used : ∃ time, h.own.lookup (.reset resetId) = some { r with usedAt := some time }

structure Requested (q : Request) (h : Holding) (requestId : String) (r : RoleChangeRequest)
    (t : Account) : Prop where
  op : ∃ minutes password code, q.op = .createRoleChange r.requestedBy r.targetAccountId
    r.requestedRole minutes password code requestId
  target : h.base.lookup (.account r.targetAccountId) = some t
  locked : Key.account r.targetAccountId ∈ h.own
  other : r.requestedBy ≠ r.targetAccountId
  pending : r.status = .pending
  /-- An Owner in a snapshot, or one that is locked when it is taken. -/
  author : ∃ sn ∈ h.snapshots,
    (Store.account sn.store r.requestedBy).any Account.activeOwner = true ∨
      Key.account r.requestedBy ∈ sn.keys ∧
        (h.base.lookup (Key.account r.requestedBy)).any Account.activeOwner = true
  verified : sensitiveOwnerChange t.role r.requestedRole = true →
    r.ownerPasswordVerifiedAt.isSome = true ∧ r.ownerTotpVerifiedAt.isSome = true ∧
      ∃ o minutes password code time, q.op = .createRoleChange r.requestedBy r.targetAccountId
          r.requestedRole minutes (some password) (some code) requestId ∧
        h.base.lookup (.account r.requestedBy) = some o ∧
        ownerVerified S password code time o = true
  single : ∃ sn ∈ h.snapshots, Key.account r.targetAccountId ∈ sn.keys ∧
    ∀ id r', id ≠ requestId → (h.own ∪ sn.store : Store).request id = some r' →
      r'.status = .pending → r'.targetAccountId ≠ r.targetAccountId

structure Completed (q : Request) (h : Holding) (requestId : String) (r : RoleChangeRequest)
    (a : Account) (operator : String) : Prop where
  op : q.op = .completeRoleChange operator requestId
  request : h.base.lookup (.request requestId) = some r
  target : h.base.lookup (.account r.targetAccountId) = some a
  written : h.own.lookup (.request requestId) = some (r.complete q.now operator)
  changed : h.own.lookup (.account r.targetAccountId) = some { a with role := r.requestedRole }
  pending : r.status = .pending
  unexpired : q.now < r.expiresAt
  active : a.isActive = true
  other : operator ≠ r.targetAccountId
  completer : ∃ sn ∈ h.snapshots, Key.account operator ∈ sn.keys ∧
    (Store.account sn.store operator).any Account.activeOwner = true

/-- What a transaction may do to a row, from the row it found to the row it writes. -/
inductive Change (q : Request) (ans : Answer) (h : Holding) :
    (k : Key) → Option (Row k) → Row k → Prop where
  | same {k : Key} {v : Row k} : Change q ans h k (some v) v
  | created {id username password salt secret : String} {role : Role}
      (hop : q.op.chosen = some (password, salt)) :
    Change q ans h (.account id) none
      (newAccount username (S.hashPassword password salt) secret role)
  | counted {id : String} {a : Account} {count : Nat} {lockedUntil : Option Int}
      (hop : q.op.counts id) :
    Change q ans h (.account id) (some a)
      { a with failedLoginCount := count, lockedUntil := lockedUntil }
  | readdressed {id : String} {a : Account} {email : Option String} :
    Change q ans h (.account id) (some a) { a with email := email }
  | switched {id : String} {a : Account} {active : Bool} (hrole : a.role ≠ .owner)
      (hlive : a.deletedAt = none) :
    Change q ans h (.account id) (some a) { a with isActive := active }
  | deleted {id : String} {a : Account} {time : Int} (hrole : a.role ≠ .owner) :
    Change q ans h (.account id) (some a) { a with deletedAt := some time, isActive := false }
  | closed {operator accountId : String} {mode : ResetMode} {a : Account}
      {password code resetId token replacementHash : String}
      (hop : q.op =
        .createReset operator accountId mode password code resetId token replacementHash) :
    Change q ans h (.account accountId) (some a) (a.close mode replacementHash)
  | recovered {resetId : String} {r : AccessReset} {a : Account} {token : String}
      {password : Option String} {totpCode salt : String}
      (haccepted : Accepted S q h resetId r a token password totpCode salt) :
    Change q ans h (.account r.accountId) (some a)
      (a.recover r.resetMode (S.hashPassword (password.getD "") salt) (S.resetSecret token))
  | promoted {requestId operator : String} {r : RoleChangeRequest} {a : Account}
      (hcompleted : Completed q h requestId r a operator) :
    Change q ans h (.account r.targetAccountId) (some a) { a with role := r.requestedRole }
  | loggedIn {id : String} {s : Session} (hlogin : LoggedIn S q ans h id s) :
    Change q ans h (.session id) none s
  | refreshed {id : String} {s s' : Session} (hrefresh : Refreshed S q ans id s s') :
    Change q ans h (.session id) (some s) s'
  | touched {id : String} {s : Session} {seen : Option Int} :
    Change q ans h (.session id) (some s) { s with lastSeenAt := seen }
  | sessionRevoked {id : String} {s : Session} {time : Int} :
    Change q ans h (.session id) (some s) { s with revokedAt := s.revokedAt.or (some time) }
  | reset {operator accountId : String} {mode : ResetMode}
      {password code resetId token replacementHash : String}
      (hop : q.op =
        .createReset operator accountId mode password code resetId token replacementHash)
      (hlocked : Key.account accountId ∈ h.own) :
    Change q ans h (.reset resetId) none (newReset S q.now accountId token mode operator)
  | selfReset {accountId : String} {mode : ResetMode} {password code resetId token : String}
      {a : Account} {time : Int}
      (hop : q.op = .createSelfReset accountId mode password code resetId token)
      (haccount : h.base.lookup (.account accountId) = some a)
      (hverified : selfVerified S password code time a = true)
      (hlocked : Key.account accountId ∈ h.own) :
    Change q ans h (.reset resetId) none (newReset S q.now accountId token mode accountId)
  | resetRevoked {id : String} {r : AccessReset} {time : Int} (hunused : r.usedAt = none) :
    Change q ans h (.reset id) (some r) { r with revokedAt := some time }
  | resetUsed {id : String} {r : AccessReset} {a : Account} {token : String}
      {password : Option String} {totpCode salt : String} {time : Int}
      (haccepted : Accepted S q h id r a token password totpCode salt) :
    Change q ans h (.reset id) (some r) { r with usedAt := some time }
  | requested {id : String} {r : RoleChangeRequest} {t : Account}
      (hrequested : Requested S q h id r t) :
    Change q ans h (.request id) none r
  | settled {id : String} {r : RoleChangeRequest} {status : RequestStatus}
      (hpending : r.status = .pending) (hstatus : status = .expired ∨ status = .cancelled) :
    Change q ans h (.request id) (some r) { r with status := status }
  | completed {id operator : String} {r : RoleChangeRequest} {a : Account}
      (hcompleted : Completed q h id r a operator) :
    Change q ans h (.request id) (some r) (r.complete q.now operator)
  | invitation {id : String} {i : Option Invitation} {i' : Invitation} :
    Change q ans h (.invitation id) i i'
  | directory {d : Option (Option Int)} {d' : Option Int} : Change q ans h .directory d d'

/-! ## Requests -/

section Exec

variable {S} {q : Request} {ans : Answer} {h : Holding}

variable {a : Account} {draw : Draw} {h₀ h₁ : Holding} {now : Int} {code : Option String}
  {role : Role} {r : RoleChangeRequest}
  {accountId id operator password requestId salt token : String} {u : Unit}

theorem exec_live (h0 : Key.account accountId ∉ h₀.own)
    (hexec : Exec (liveAccount accountId) h₀ (some a) h₁) :
    a.deletedAt = none ∧ h₁ = h₀.lock (Key.account accountId) a := by
  obtain ⟨hlive, hh⟩ := exec_forUpdate_new h0 hexec
  exact ⟨by simpa using hlive, hh⟩

theorem rows_unlock (hop : q.op = .unlock accountId)
    (hexec : Exec (unlockOperatorAccount accountId) .empty ans h) : Rows (Change S q ans h) h := by
  simp only [unlockOperatorAccount, exec_bind, exec_orFail, exec_write, exec_pure] at hexec
  obtain ⟨_, _, hlock, a, _, ⟨rfl, rfl⟩, -, _, rfl, -, rfl⟩ := hexec
  obtain ⟨-, rfl⟩ := exec_live (AList.notMem_empty _) hlock
  exact rows_empty.lock_put .same (.counted (by rw [hop]; rfl))

theorem rows_updateEmail {email : Option String}
    (hexec : Exec (updateOperatorEmail accountId email) .empty ans h) :
    Rows (Change S q ans h) h := by
  simp only [updateOperatorEmail, exec_bind, exec_orFail] at hexec
  obtain ⟨_, _, hlock, a, _, ⟨rfl, rfl⟩, hexec⟩ := hexec
  obtain ⟨-, rfl⟩ := exec_live (AList.notMem_empty _) hlock
  split_ifs at hexec
  · simp only [exec_bind, exec_write, exec_pure] at hexec
    obtain ⟨-, _, rfl, -, rfl⟩ := hexec
    exact rows_empty.lock_put .same .readdressed
  · obtain ⟨-, rfl⟩ := hexec
    exact rows_empty.lock .same

theorem rows_enable (hexec : Exec (enableOperatorAccount S accountId) .empty ans h) :
    Rows (Change S q ans h) h := by
  simp only [enableOperatorAccount, exec_bind, exec_orFail] at hexec
  obtain ⟨_, _, hlock, a, _, ⟨rfl, rfl⟩, hexec⟩ := hexec
  obtain ⟨hlive, rfl⟩ := exec_live (AList.notMem_empty _) hlock
  split at hexec
  · obtain ⟨-, rfl⟩ := hexec
    exact rows_empty.lock .same
  · simp only [exec_bind, exec_failIf] at hexec
    obtain ⟨-, _, ⟨hrole, rfl⟩, hexec⟩ := hexec
    split at hexec
    · obtain ⟨-, rfl⟩ := hexec
      exact rows_empty.lock .same
    · simp only [exec_bind, exec_write, exec_pure] at hexec
      obtain ⟨-, _, rfl, -, rfl⟩ := hexec
      exact rows_empty.lock_put .same (.switched hrole hlive)

abbrev SessionsRevoked (now : Int) (p : String → Session → Bool) : Holding → Holding → Prop :=
  Updated Key.session (fun id (s : Session) => p id s && s.revokedAt.isNone)
    fun _ (s : Session) => s.revoke now

abbrev ResetsRevoked (now : Int) (accountId : String) : Holding → Holding → Prop :=
  Updated Key.reset
    (fun _ (r : AccessReset) => r.accountId == accountId && r.usedAt.isNone && r.revokedAt.isNone)
    fun _ (r : AccessReset) => { r with revokedAt := some now }

abbrev RequestsSettled (status : RequestStatus) (p : RoleChangeRequest → Bool) :
    Holding → Holding → Prop :=
  Updated Key.request (fun _ (r : RoleChangeRequest) => p r && r.status == .pending)
    fun _ (r : RoleChangeRequest) => { r with status := status }

theorem rows_sessionsRevoked {p : String → Session → Bool} (hrows : Rows (Change S q ans h) h₀)
    (hupdated : SessionsRevoked now p h₀ h₁) :
    Rows (Change S q ans h) h₁ := by
  refine hrows.updated hupdated (fun _ _ => .same) fun id s hs => ?_
  have hnone : s.revokedAt = none := by simpa using (Bool.and_eq_true_iff.mp hs).2
  have hrevoke : s.revoke now = { s with revokedAt := s.revokedAt.or (some now) } := by
    rw [Session.revoke, hnone, Option.none_or]
  exact hrevoke ▸ .sessionRevoked

theorem rows_resetsRevoked (hrows : Rows (Change S q ans h) h₀)
    (hupdated : ResetsRevoked now accountId h₀ h₁) :
    Rows (Change S q ans h) h₁ := by
  refine hrows.updated hupdated (fun _ _ => .same) fun id r hr => .resetRevoked ?_
  simp only [Bool.and_eq_true, Option.isNone_iff_eq_none] at hr
  exact hr.1.2

theorem rows_requestsSettled {status : RequestStatus} {p : RoleChangeRequest → Bool}
    (hstatus : status = .expired ∨ status = .cancelled) (hrows : Rows (Change S q ans h) h₀)
    (hupdated : RequestsSettled status p h₀ h₁) :
    Rows (Change S q ans h) h₁ := by
  refine hrows.updated hupdated (fun _ _ => .same) fun id r hr => .settled ?_ hstatus
  simp only [Bool.and_eq_true, beq_iff_eq] at hr
  exact hr.2

theorem rows_disable (hexec : Exec (disableOperatorAccount S q.now accountId) .empty ans h) :
    Rows (Change S q ans h) h := by
  simp only [disableOperatorAccount, exec_bind, exec_orFail] at hexec
  obtain ⟨_, _, hlock, a, _, ⟨rfl, rfl⟩, hexec⟩ := hexec
  obtain ⟨hlive, rfl⟩ := exec_live (AList.notMem_empty _) hlock
  split at hexec
  · obtain ⟨-, rfl⟩ := hexec
    exact rows_empty.lock .same
  · simp only [exec_bind, exec_failIf] at hexec
    obtain ⟨-, _, ⟨hrole, rfl⟩, hexec⟩ := hexec
    split at hexec
    · simp only [exec_bind, exec_write, exec_pure] at hexec
      obtain ⟨_, _, rfl, _, _, hrevoke, -, rfl⟩ := hexec
      have hupdated : SessionsRevoked _ _ _ _ := exec_updateWhere Key.sessionId_eq (by simp) hrevoke
      exact rows_sessionsRevoked (rows_empty.lock_put .same (.switched hrole hlive)) hupdated
    · obtain ⟨-, rfl⟩ := hexec
      exact rows_empty.lock .same

theorem rows_delete (hexec : Exec (deleteOperatorAccount S q.now accountId) .empty ans h) :
    Rows (Change S q ans h) h := by
  simp only [deleteOperatorAccount, exec_bind, exec_orFail] at hexec
  obtain ⟨_, _, hlock, a, _, ⟨rfl, rfl⟩, hexec⟩ := hexec
  obtain ⟨hlive, rfl⟩ := exec_live (AList.notMem_empty _) hlock
  split at hexec
  · obtain ⟨-, rfl⟩ := hexec
    exact rows_empty.lock .same
  · simp only [exec_bind, exec_failIf, exec_write, exec_pure] at hexec
    obtain ⟨_, _, ⟨hrole, rfl⟩, _, _, ⟨hinactive, rfl⟩, _, h₁, hsessions, _, h₂, hresets, _, h₃,
      hrequests, _, _, rfl, -, rfl⟩ := hexec
    have hu₁ : SessionsRevoked _ _ _ h₁ := exec_updateWhere Key.sessionId_eq (by simp) hsessions
    have hu₂ : ResetsRevoked _ _ h₁ h₂ :=
      exec_updateWhere Key.resetId_eq (by simp [hu₁.mem_own]) hresets
    have hu₃ : RequestsSettled _ _ h₂ h₃ :=
      exec_updateWhere Key.requestId_eq (by simp [hu₂.mem_own, hu₁.mem_own]) hrequests
    refine Rows.put (rows_requestsSettled (.inr rfl) (rows_resetsRevoked (rows_sessionsRevoked
      (rows_empty.lock .same) hu₁) hu₂) hu₃) ?_
    rw [(hu₃.other _ (by simp)).2, (hu₂.other _ (by simp)).2, (hu₁.other _ (by simp)).2,
      Held.base_lock, AList.lookup_insert]
    exact .deleted hrole

/-! ### Sessions -/

theorem rows_revokeSession {sessionId : String}
    (hexec : Exec (revokeSession q.now sessionId) .empty ans h) : Rows (Change S q ans h) h := by
  simp only [revokeSession, exec_bind, exec_pure] at hexec
  obtain ⟨_, _, hrevoke, -, rfl⟩ := hexec
  have hupdated : SessionsRevoked _ _ _ _ := exec_updateWhere Key.sessionId_eq (by simp) hrevoke
  exact rows_sessionsRevoked rows_empty hupdated

theorem rows_revokeIdle (hexec : Exec (revokeIdleOperatorSessions q.now) .empty ans h) :
    Rows (Change S q ans h) h := by
  simp only [revokeIdleOperatorSessions, exec_bind, exec_outside, exec_pure] at hexec
  obtain ⟨_, _, ⟨_, rfl⟩, _, _, hrevoke, -, rfl⟩ := hexec
  have hupdated : SessionsRevoked _ _ _ _ := exec_updateWhere Key.sessionId_eq (by simp) hrevoke
  exact rows_sessionsRevoked rows_empty.saw hupdated

theorem rows_revokeOperatorSessions
    (hexec : Exec (revokeOperatorSessions q.now accountId) .empty ans h) :
    Rows (Change S q ans h) h := by
  simp only [revokeOperatorSessions, exec_bind, exec_snapshot, exec_orFail, exec_pure] at hexec
  obtain ⟨_, _, ⟨_, _, rfl, rfl⟩, _, _, ⟨-, rfl⟩, _, _, hrevoke, -, rfl⟩ := hexec
  have hupdated : SessionsRevoked _ _ _ _ := exec_updateWhere Key.sessionId_eq (by simp) hrevoke
  exact rows_sessionsRevoked rows_empty.saw hupdated

theorem rows_requireOperator {accessToken : String}
    (hexec : Exec (requireOperator S q.now accessToken) .empty ans h) :
    Rows (Change S q ans h) h := by
  simp only [requireOperator, touchSession, exec_bind, exec_outside, exec_snapshot, exec_orFail,
    exec_pure] at hexec
  obtain ⟨_, _, ⟨_, rfl⟩, _, _, ⟨_, _, rfl, rfl⟩, operator, _, ⟨-, rfl⟩, _, _,
    ⟨row, h₁, hlock, htouch⟩, -, rfl⟩ := hexec
  cases row with
  | none =>
    obtain ⟨-, rfl⟩ := htouch
    exact Rows.forUpdate rows_empty.saw.saw (fun _ => .same) hlock
  | some s =>
    obtain ⟨-, rfl⟩ := exec_forUpdate_new (by simp) hlock
    rw [exec_write] at htouch
    obtain rfl := htouch
    exact rows_empty.saw.saw.lock_put .same .touched

theorem rows_login {payload : LoginRequest} {scope : Scope} {sessionId : String}
    (hop : q.op = .login payload scope sessionId draw)
    (hexec : Exec (performLogin S q.now payload scope sessionId draw) .empty ans h) :
    Rows (Change S q ans h) h := by
  simp only [performLogin, exec_bind, exec_snapshot] at hexec
  obtain ⟨_, _, ⟨st, _, rfl, rfl⟩, hexec⟩ := hexec
  split at hexec
  · obtain ⟨-, rfl⟩ := hexec
    exact rows_empty.saw
  rename_i id _
  simp only [exec_bind] at hexec
  obtain ⟨row, h₁, hlock, hexec⟩ := hexec
  cases row with
  | none =>
    obtain ⟨-, rfl⟩ := hexec
    exact Rows.forUpdate rows_empty.saw (fun _ => .same) hlock
  | some a =>
    obtain ⟨-, rfl⟩ := exec_forUpdate_new (by simp) hlock
    have hrows : Rows (Change S q ans h) (Held.lock (.saw .empty st) (Key.account id) a) :=
      rows_empty.saw.lock .same
    simp only at hexec
    split at hexec
    · obtain ⟨-, rfl⟩ := hexec
      exact hrows
    simp only [exec_bind, exec_outside] at hexec
    obtain ⟨g, _, ⟨_, rfl⟩, hexec⟩ := hexec
    split at hexec
    · simp only [exec_bind, exec_write, exec_pure] at hexec
      obtain ⟨_, _, rfl, -, rfl⟩ := hexec
      refine hrows.saw.put ?_
      rw [Held.base_saw, Held.base_lock, AList.lookup_insert]
      exact .counted (by rw [hop]; trivial)
    · rename_i hvalid
      simp only [exec_bind, exec_create, exec_write, exec_outside, exec_pure] at hexec
      obtain ⟨g', _, ⟨_, rfl⟩, _, _, ⟨hnew, rfl⟩, _, _, rfl, rfl, rfl⟩ := hexec
      refine (hrows.saw.saw.insert hnew ?_).put ?_
      · refine .loggedIn ⟨⟨payload, draw, a, g.clock, hop, ?_, by simpa using hvalid⟩, ?_,
          ⟨_, _, by rw [hop]; rfl, rfl, rfl, rfl, by rw [hop]; simp [Op.draws]⟩, rfl⟩
        · simp [newSession]
        · simp [newSession]
      · rw [Held.base_put, Held.base_saw, Held.base_saw, Held.base_lock, AList.lookup_insert]
        exact .counted (by rw [hop]; trivial)

theorem exec_refresh {refreshToken : String} (hop : q.op = .refresh refreshToken draw)
    (hexec : Exec (refresh S q.now refreshToken draw) .empty ans h) : ∃ id s s' st st₁ st₂ st₃,
      Refreshed S q ans id s s' ∧ h = ((((((Held.empty.saw st).saw st₁).lock (Key.session id)
        s).saw st₂).saw st₃).put (Key.session id) s') := by
  simp only [refresh, exec_bind, exec_outside, exec_snapshot, exec_orFail, exec_write,
    exec_pure] at hexec
  obtain ⟨g, _, ⟨_, rfl⟩, _, _, ⟨st, _, rfl, rfl⟩, ⟨id, role⟩, _, ⟨-, rfl⟩, _, _, hlock, s, _,
    ⟨rfl, rfl⟩, g₁, _, ⟨_, rfl⟩, g₂, _, ⟨_, rfl⟩, _, _, rfl, rfl, rfl⟩ := hexec
  obtain ⟨hlive, rfl⟩ := exec_forUpdate_new (by simp) hlock
  simp only [Bool.and_eq_true, decide_eq_true_eq] at hlive
  exact ⟨id, s, _, _, _, _, _, ⟨⟨_, _, _, hop, hlive.1, hlive.2⟩,
    ⟨_, _, by rw [hop]; rfl, rfl, rfl, rfl, by rw [hop]; simp [Op.draws]⟩, _, _, _, _, rfl⟩, rfl⟩

theorem rows_refresh {refreshToken : String} (hop : q.op = .refresh refreshToken draw)
    (hexec : Exec (refresh S q.now refreshToken draw) .empty ans h) :
    Rows (Change S q ans h) h := by
  obtain ⟨id, s, s', st, st₁, st₂, st₃, hrefreshed, hh⟩ := exec_refresh hop hexec
  have hrows : Rows (Change S q ans h) ((((((Held.empty.saw st).saw st₁).lock (Key.session id)
      s).saw st₂).saw st₃).put (Key.session id) s') := by
    refine (rows_empty.saw.saw.lock .same).saw.saw.put ?_
    rw [Held.base_saw, Held.base_saw, Held.base_lock, AList.lookup_insert]
    exact .refreshed hrefreshed
  rwa [← hh] at hrows

/-! ### Accounts -/

theorem rows_bootstrap {username totpSecret : String}
    (hop : q.op = .bootstrapOwner id username password salt totpSecret)
    (hexec : Exec (bootstrapOwner S q.now id username password salt totpSecret) .empty ans h) :
    Rows (Change S q ans h) h := by
  simp only [bootstrapOwner, exec_bind, exec_snapshot, exec_failIf, exec_create] at hexec
  obtain ⟨_, _, ⟨st, _, rfl, rfl⟩, _, _, ⟨-, rfl⟩, _, _, ⟨-, rfl⟩, _, _, ⟨hnew, rfl⟩, row, h₁,
    hlock, hexec⟩ := hexec
  have hrows : Rows (Change S q ans h) h₁ :=
    Rows.forUpdate (rows_empty.saw.insert hnew (.created (by rw [hop]; rfl))) (fun _ => .same) hlock
  cases row with
  | none =>
    obtain ⟨-, rfl⟩ := hexec
    exact hrows
  | some completedAt =>
    simp only [exec_bind, exec_write, exec_pure] at hexec
    obtain ⟨_, _, rfl, -, rfl⟩ := hexec
    exact hrows.put .directory

theorem rows_expireInvitations (h0 : ∀ id, Key.invitation id ∉ h₀.own)
    (hrows : Rows (Change S q ans h) h₀) (hexec : Exec (expireInvitations now) h₀ u h₁) :
    Rows (Change S q ans h) h₁ :=
  hrows.updated (exec_updateWhere Key.invitationId_eq h0 hexec) (fun _ _ => .same)
    fun _ _ _ => .invitation

theorem rows_createInvitation {username displayName : String} {hours : Int} {invitationId : String}
    (hexec : Exec (createOperatorInvitation S q.now operator username displayName role hours
      invitationId token) .empty ans h) : Rows (Change S q ans h) h := by
  simp only [createOperatorInvitation, exec_bind, exec_snapshot, exec_failIf, exec_create,
    exec_references, exec_pure] at hexec
  obtain ⟨_, _, ⟨-, rfl⟩, _, _, ⟨-, rfl⟩, _, _, hexpire, _, _, ⟨_, _, rfl, rfl⟩, _, _, ⟨-, rfl⟩, _, _,
    ⟨_, _, rfl, rfl⟩, _, _, ⟨-, rfl⟩, _, _, ⟨hnew, rfl⟩, _, _, rfl, -, rfl⟩ := hexec
  exact ((rows_expireInvitations (by simp) rows_empty hexpire).saw.saw.insert hnew
    .invitation).share

theorem rows_listInvitations (hexec : Exec (listOperatorInvitations q.now) .empty ans h) :
    Rows (Change S q ans h) h := by
  simp only [listOperatorInvitations, exec_bind, exec_pure] at hexec
  obtain ⟨_, _, hexpire, -, rfl⟩ := hexec
  exact rows_expireInvitations (by simp) rows_empty hexpire

theorem rows_revokeInvitation {invitationId : String}
    (hexec : Exec (revokeOperatorInvitation q.now invitationId) .empty ans h) :
    Rows (Change S q ans h) h := by
  simp only [revokeOperatorInvitation, exec_bind, exec_orFail] at hexec
  obtain ⟨_, _, hlock, i, _, ⟨rfl, rfl⟩, hexec⟩ := hexec
  have hrows : Rows (Change S q ans h) _ := Rows.forUpdate rows_empty (fun _ => .same) hlock
  split at hexec
  · simp only [exec_bind, exec_write, exec_pure] at hexec
    obtain ⟨_, _, rfl, -, rfl⟩ := hexec
    exact hrows.put .invitation
  · simp only [exec_bind, exec_failIf, exec_write, exec_pure] at hexec
    obtain ⟨_, _, ⟨-, rfl⟩, _, _, rfl, -, rfl⟩ := hexec
    exact hrows.put .invitation

theorem rows_pendingInvitation {i : Invitation}
    (hexec : Exec (pendingInvitationForToken S token) .empty (id, i) h₁) :
    Rows (Change S q ans h) h₁ := by
  simp only [pendingInvitationForToken, exec_bind, exec_snapshot, exec_orFail, exec_pure] at hexec
  obtain ⟨_, _, ⟨_, _, rfl, rfl⟩, _, _, ⟨-, rfl⟩, _, _, hlock, _, _, ⟨rfl, rfl⟩, -, rfl⟩ := hexec
  exact Rows.forUpdate rows_empty.saw (fun _ => .same) hlock

theorem rows_setupInvitation (hexec : Exec (setupOperatorInvitation S q.now token) .empty ans h) :
    Rows (Change S q ans h) h := by
  simp only [setupOperatorInvitation, exec_bind, exec_failIf] at hexec
  obtain ⟨⟨id, i⟩, h₁, hpending, _, _, ⟨-, rfl⟩, hexec⟩ := hexec
  have hrows : Rows (Change S q ans h) _ := rows_pendingInvitation hpending
  split at hexec
  · simp only [exec_bind, exec_write, exec_pure] at hexec
    obtain ⟨_, _, rfl, -, rfl⟩ := hexec
    exact hrows.put .invitation
  · obtain ⟨-, rfl⟩ := hexec
    exact hrows

theorem rows_acceptInvitation {totpCode : String}
    (hop : q.op = .acceptInvitation token password totpCode salt accountId)
    (hexec : Exec (acceptOperatorInvitation S q.now token password totpCode salt accountId) .empty
      ans h) : Rows (Change S q ans h) h := by
  simp only [acceptOperatorInvitation, exec_bind, exec_failIf] at hexec
  obtain ⟨⟨id, i⟩, h₁, hpending, _, _, ⟨-, rfl⟩, hexec⟩ := hexec
  have hrows : Rows (Change S q ans h) _ := rows_pendingInvitation hpending
  split at hexec
  · simp only [exec_bind, exec_write, exec_pure] at hexec
    obtain ⟨_, _, rfl, -, rfl⟩ := hexec
    exact hrows.put .invitation
  · simp only [exec_bind, exec_failIf, exec_outside, exec_snapshot, exec_create, exec_write,
      exec_references, exec_pure] at hexec
    obtain ⟨_, _, ⟨-, rfl⟩, _, _, ⟨_, rfl⟩, _, _, ⟨-, rfl⟩, _, _, ⟨_, _, rfl, rfl⟩, _, _, ⟨-, rfl⟩,
      _, _, ⟨hnew, rfl⟩, _, _, rfl, _, _, rfl, -, rfl⟩ := hexec
    exact (hrows.saw.saw.insert hnew (.created (by rw [hop]; rfl))).share.put .invitation

/-! ### Resets -/

theorem exec_verifyOwner {password : Option String} {t : Int} (h0 : Key.account operator ∉ h₀.own)
    (hexec : Exec (verifyOwnerReauthentication S operator password code) h₀ t h₁) :
    ∃ p c o time st st', password = some p ∧ code = some c ∧
      ownerVerified S p c time o = true ∧
      h₁ = ((h₀.lock (Key.account operator) o).saw st).saw st' := by
  simp only [verifyOwnerReauthentication, exec_bind, exec_orFail, exec_outside, exec_failIf,
    exec_pure] at hexec
  obtain ⟨p, _, ⟨rfl, rfl⟩, c, _, ⟨rfl, rfl⟩, _, _, hlock, o, _, ⟨rfl, rfl⟩, g, _, ⟨st, rfl⟩, _, _,
    ⟨hverified, rfl⟩, _, _, ⟨st', rfl⟩, -, rfl⟩ := hexec
  obtain ⟨-, rfl⟩ := exec_forUpdate_new h0 hlock
  exact ⟨p, c, o, g.clock, st, st', rfl, rfl, by simpa using hverified, rfl⟩

theorem rows_createReset {mode : ResetMode} {code resetId hash : String}
    (hop : q.op = .createReset operator accountId mode password code resetId token hash)
    (hexec : Exec (createReset S q.now operator accountId mode password code resetId token hash)
      .empty ans h) : Rows (Change S q ans h) h := by
  simp only [createReset, exec_bind, exec_orFail, exec_failIf, exec_write, exec_create,
    exec_pure] at hexec
  obtain ⟨_, _, hlock, a, _, ⟨rfl, rfl⟩, _, _, ⟨hother, rfl⟩, _, h₁, hverify, _, h₂, hresets, _, _,
    rfl, _, h₃, hsessions, _, _, ⟨hnew, rfl⟩, -, rfl⟩ := hexec
  obtain ⟨-, rfl⟩ := exec_live (AList.notMem_empty _) hlock
  obtain ⟨_, _, o, _, _, _, -, -, -, rfl⟩ := exec_verifyOwner (by simp [Ne.symm hother]) hverify
  have hu₂ : ResetsRevoked _ _ _ h₂ := exec_updateWhere Key.resetId_eq (by simp) hresets
  have hu₃ : SessionsRevoked _ _ _ h₃ :=
    exec_updateWhere Key.sessionId_eq (by simp [hu₂.mem_own]) hsessions
  refine Rows.insert (rows_sessionsRevoked (Rows.put (rows_resetsRevoked
    ((rows_empty.lock .same).lock .same).saw.saw hu₂) ?_) hu₃) hnew ?_
  · rw [(hu₂.other _ (by simp)).2]
    simp only [Held.base_saw, Held.base_lock]
    rw [AList.lookup_insert_ne (by simpa using hother), AList.lookup_insert]
    exact .closed hop
  · exact .reset hop (by simp [hu₃.mem_own])

theorem rows_createSelfReset {mode : ResetMode} {code resetId : String}
    (hop : q.op = .createSelfReset accountId mode password code resetId token)
    (hexec : Exec (createSelfReset S q.now accountId mode password code resetId token) .empty ans h)
    : Rows (Change S q ans h) h := by
  simp only [createSelfReset, exec_bind, exec_orFail, exec_outside, exec_failIf, exec_create,
    exec_pure] at hexec
  obtain ⟨_, _, hlock, a, _, ⟨rfl, rfl⟩, g, _, ⟨_, rfl⟩, _, _, ⟨hverified, rfl⟩, _, h₁, hresets, _, _,
    ⟨hnew, rfl⟩, -, rfl⟩ := hexec
  obtain ⟨-, rfl⟩ := exec_live (AList.notMem_empty _) hlock
  have hu : ResetsRevoked _ _ _ h₁ := exec_updateWhere Key.resetId_eq (by simp) hresets
  refine (rows_resetsRevoked (rows_empty.lock .same).saw hu).insert hnew ?_
  refine .selfReset hop ?_ (by simpa using hverified) (by simp [hu.mem_own])
  rw [Held.base_put, (hu.other _ (by simp)).2]
  simp

theorem exec_getReset {r : AccessReset} (hexec : Exec (getReset S now token) .empty (id, r, a) h₁) :
    r.tokenHash = S.tokenHash token ∧ r.usedAt = none ∧ r.revokedAt = none ∧ now < r.expiresAt ∧
      ∃ st, h₁ = ((Held.empty.saw st).lock (Key.reset id) r).lock (Key.account r.accountId) a := by
  simp only [getReset, exec_bind, exec_snapshot, exec_orFail, exec_failIf, exec_pure] at hexec
  obtain ⟨_, _, ⟨st, _, rfl, rfl⟩, _, _, ⟨-, rfl⟩, _, _, hlink, _, _, ⟨rfl, rfl⟩, _, _, hlock, _, _,
    ⟨rfl, rfl⟩, _, _, ⟨hused, rfl⟩, _, _, ⟨hexpired, rfl⟩, heq, rfl⟩ := hexec
  obtain ⟨rfl, rfl, rfl⟩ : id = _ ∧ r = _ ∧ a = _ := by simpa using heq
  obtain ⟨hhash, rfl⟩ := exec_forUpdate_new (by simp) hlink
  obtain ⟨-, rfl⟩ := exec_live (by simp) hlock
  simp only [not_or, Bool.not_eq_true, Option.isSome_eq_false_iff, Option.isNone_iff_eq_none]
    at hused
  exact ⟨by simpa using hhash, hused.1, hused.2, by simpa using hexpired, st, rfl⟩

theorem rows_acceptReset {password : Option String} {totpCode : String}
    (hop : q.op = .acceptReset token password totpCode salt)
    (hexec : Exec (acceptReset S q.now token password totpCode salt) .empty ans h) :
    Rows (Change S q ans h) h := by
  simp only [acceptReset, exec_bind, exec_outside, exec_failIf, exec_write, exec_pure] at hexec
  obtain ⟨⟨id, r, a⟩, _, hget, g, _, ⟨_, rfl⟩, _, _, ⟨hgiven, rfl⟩, _, _, ⟨hcode, rfl⟩, _, _, rfl, _, _,
    rfl, _, h₁, hsessions, -, rfl⟩ := hexec
  obtain ⟨hhash, hunused, hunrevoked, hunexpired, st, rfl⟩ := exec_getReset hget
  have hu := exec_updateWhere Key.sessionId_eq (by simp) hsessions
  have hlink : h.base.lookup (Key.reset id) = some r := by
    rw [(hu.other _ (by simp)).2]
    simp only [Held.base_put, Held.base_saw, Held.base_lock]
    rw [AList.lookup_insert_ne (by simp), AList.lookup_insert]
  have haccount : h.base.lookup (Key.account r.accountId) = some a := by
    rw [(hu.other _ (by simp)).2]
    simp only [Held.base_put, Held.base_saw, Held.base_lock]
    rw [AList.lookup_insert]
  have hused : h.own.lookup (Key.reset id) = some { r with usedAt := some g.clock } := by
    rw [(hu.other _ (by simp)).1]
    simp only [Held.own_put]
    rw [AList.lookup_insert]
  have haccepted : Accepted S q h id r a token password totpCode salt := by
    refine ⟨hop, hlink, haccount, hhash, hunused, hunrevoked, hunexpired, fun hmode => ?_,
      ⟨g.clock, by simpa using hcode⟩, g.clock, hused⟩
    cases password with
    | none => exact absurd ⟨hmode, rfl⟩ hgiven
    | some p => exact ⟨p, rfl⟩
  have hlocked : Rows (Change S q ans h) (((Held.empty.saw st).lock (Key.reset id) r).lock
      (Key.account r.accountId) a) := (rows_empty.saw.lock .same).lock .same
  refine Rows.updated ((hlocked.saw.put ?_).put ?_) hu (fun _ _ => .same) fun _ _ _ =>
    .sessionRevoked
  · simp only [Held.base_saw, Held.base_lock]
    rw [AList.lookup_insert]
    exact .recovered haccepted
  · simp only [Held.base_put, Held.base_saw, Held.base_lock]
    rw [AList.lookup_insert_ne (by simp), AList.lookup_insert]
    exact .resetUsed haccepted

/-! ### Roles -/

theorem pendingFor_eq_false {st : Store} {target : String} (hnone : pendingFor st target = false)
    (hr : st.request id = some r) (hpending : r.status = .pending) :
    r.targetAccountId ≠ target := by
  intro htarget
  simp only [pendingFor, List.any_eq_false] at hnone
  refine hnone id ?_ ?_
  · refine List.mem_filterMap.mpr ⟨.request id, ?_, rfl⟩
    exact AList.mem_keys.mp (AList.lookup_isSome.mp (by simp [hr]))
  · simp [hr, hpending, htarget]

theorem rows_listRoleChanges (hexec : Exec (listOperatorRoleChangeRequests q.now) .empty ans h) :
    Rows (Change S q ans h) h := by
  simp only [listOperatorRoleChangeRequests, exec_bind, exec_pure] at hexec
  obtain ⟨_, _, hexpire, -, rfl⟩ := hexec
  have hu : RequestsSettled _ _ _ _ := exec_updateWhere Key.requestId_eq (by simp) hexpire
  exact rows_requestsSettled (.inl rfl) rows_empty hu

theorem rows_cancelRoleChange
    (hexec : Exec (cancelOperatorRoleChangeRequest q.now requestId) .empty ans h) :
    Rows (Change S q ans h) h := by
  simp only [cancelOperatorRoleChangeRequest, exec_bind, exec_orFail, exec_failIf] at hexec
  obtain ⟨_, _, hlock, r, _, ⟨rfl, rfl⟩, _, _, ⟨hpending, rfl⟩, hexec⟩ := hexec
  obtain ⟨-, rfl⟩ := exec_forUpdate_new (by simp) hlock
  rw [not_not] at hpending
  split at hexec
  · simp only [exec_bind, exec_write, exec_pure] at hexec
    obtain ⟨_, _, rfl, -, rfl⟩ := hexec
    exact rows_empty.lock_put .same (.settled hpending (.inl rfl))
  · simp only [exec_bind, exec_write, exec_pure] at hexec
    obtain ⟨_, _, rfl, -, rfl⟩ := hexec
    exact rows_empty.lock_put .same (.settled hpending (.inr rfl))

theorem exec_verifySensitive {password : Option String} {current requested : Role}
    {verifiedAt : Option Int} (h0 : Key.account operator ∉ h₀.own)
    (hexec : Exec (verifySensitive S current requested operator password code) h₀ verifiedAt h₁) :
    (sensitiveOwnerChange current requested = true → verifiedAt.isSome = true ∧
      ∃ p c o time, password = some p ∧ code = some c ∧ ownerVerified S p c time o = true ∧
        h₁.base.lookup (Key.account operator) = some o) ∧
    (∀ k, k ≠ Key.account operator → Same h₀ h₁ k) ∧
    (Key.account operator ∈ h₁.own →
      h₁.own.lookup (Key.account operator) = h₁.base.lookup (Key.account operator)) ∧
    ∀ {P : (k : Key) → Option (Row k) → Row k → Prop}, (∀ {k v}, P k (some v) v) → Rows P h₀ →
      Rows P h₁ := by
  unfold verifySensitive at hexec
  split at hexec
  · simp only [exec_map] at hexec
    obtain ⟨t, hverify, rfl⟩ := hexec
    obtain ⟨p, c, o, time, st, st', rfl, rfl, hverified, rfl⟩ := exec_verifyOwner h0 hverify
    refine ⟨fun _ => ⟨rfl, p, c, o, time, rfl, rfl, hverified, by simp⟩, fun k hk => ?_,
      fun _ => by simp, fun hsame hrows => (hrows.lock hsame).saw.saw⟩
    constructor
    · simp only [Held.own_saw, Held.own_lock]
      exact AList.lookup_insert_ne hk
    · simp only [Held.base_saw, Held.base_lock]
      exact AList.lookup_insert_ne hk
  · rename_i hplain
    obtain ⟨-, rfl⟩ := hexec
    exact ⟨fun hsensitive => absurd hsensitive hplain, fun k _ => ⟨rfl, rfl⟩,
      fun hmem => absurd hmem h0, fun _ hrows => hrows⟩

theorem author_of_validate {st : Store} (hvalid : validateOperatorRoleChangeRequest st r = none) :
    (st.account r.requestedBy).any Account.activeOwner = true := by
  unfold validateOperatorRoleChangeRequest at hvalid
  split at hvalid
  · cases hvalid
  · rename_i howner
    simpa using howner

theorem exec_insertRequest (hexec : Exec (insertRequest requestId r) h₀ u h₁) :
    Key.request requestId ∉ h₀.own ∧ h₁.own = h₀.own.insert (Key.request requestId) r ∧
    h₁.base = h₀.base ∧
    (∃ sn ∈ h₁.snapshots, sn.keys = h₀.keys ∧
      validateOperatorRoleChangeRequest (h₀.own ∪ sn.store) r = none) ∧
    (∃ sn ∈ h₁.snapshots, sn.keys = h₀.keys ∧
      pendingFor (h₀.own ∪ sn.store) r.targetAccountId = false) ∧
    ∀ {P : (k : Key) → Option (Row k) → Row k → Prop}, P (Key.request requestId) none r →
      Rows P h₀ → Rows P h₁ := by
  simp only [insertRequest, exec_bind, exec_failIf, exec_snapshot, exec_create,
    exec_references] at hexec
  obtain ⟨_, _, ⟨st, _, rfl, rfl⟩, _, _, ⟨hvalid, rfl⟩, _, _, ⟨st', _, rfl, rfl⟩, _, _, ⟨hsingle, rfl⟩,
    _, _, ⟨hnew, rfl⟩, _, _, rfl, rfl⟩ := hexec
  refine ⟨hnew, rfl, rfl, ⟨⟨h₀.keys, st⟩, by simp, rfl, by simpa using hvalid⟩,
    ⟨⟨h₀.keys, st'⟩, ?_, rfl, by simpa using hsingle⟩,
    fun hP hrows => (hrows.saw.saw.insert hnew hP).share.share⟩
  exact List.mem_cons_self

theorem rows_createRoleChange {mins : Int} {password : Option String}
    (hop : q.op = .createRoleChange operator accountId role mins password code requestId)
    (hexec : Exec (createOperatorRoleChangeRequest S q.now operator accountId role mins password
      code requestId) .empty ans h) : Rows (Change S q ans h) h := by
  simp only [createOperatorRoleChangeRequest, exec_bind, exec_orFail] at hexec
  obtain ⟨_, h₁, hexpire, _, _, hlock, t, _, ⟨rfl, rfl⟩, hexec⟩ := hexec
  have hu : RequestsSettled _ _ _ h₁ := exec_updateWhere Key.requestId_eq (by simp) hexpire
  have hfree : ∀ id, Key.account id ∉ h₁.own := fun id => by simp [hu.mem_own]
  obtain ⟨-, rfl⟩ := exec_forUpdate_new (hfree accountId) hlock
  have hrows : Rows (Change S q ans h) (h₁.lock (Key.account accountId) t) :=
    (rows_requestsSettled (.inl rfl) rows_empty hu).lock .same
  split at hexec
  · obtain ⟨-, rfl⟩ := hexec
    exact hrows
  simp only [exec_bind, exec_failIf, exec_pure] at hexec
  obtain ⟨_, _, ⟨hother, rfl⟩, _, _, ⟨hactive, rfl⟩, _, _, ⟨hrole, rfl⟩, _, _, ⟨hready, rfl⟩,
    verifiedAt, h₂, hverify, _, _, hinsert, -, rfl⟩ := hexec
  obtain ⟨hverified, hkept, hunchanged, hkeep⟩ := exec_verifySensitive
    (by simpa [hfree] using Ne.symm hother) hverify
  obtain ⟨hnew, hown, hbase, ⟨sn, hsn, hkeys₀, hvalid⟩, ⟨sn', hsn', hkeys, hsingle⟩, hinserted⟩ :=
    exec_insertRequest hinsert
  obtain ⟨htargetOwn, htargetBase⟩ := hkept (Key.account accountId) (by simpa using hother)
  rw [Held.own_lock, AList.lookup_insert] at htargetOwn
  rw [Held.base_lock, AList.lookup_insert] at htargetBase
  have hlocked : Key.account accountId ∈ h₂.own := AList.lookup_isSome.mp (by simp [htargetOwn])
  -- what a snapshot shows is the same with and without the new request
  have hview : ∀ {st : Store} {k : Key}, k ≠ Key.request requestId →
      AList.lookup k (h.own ∪ st) = AList.lookup k (h₂.own ∪ st) := by
    intro st k hk
    rw [hown, ← AList.insert_union, AList.lookup_insert_ne hk]
  refine hinserted (.requested (t := t) ⟨⟨mins, password, code, hop⟩, hbase ▸ htargetBase, ?_,
    Ne.symm hother, rfl, ⟨sn, hsn, ?_⟩, fun hsensitive => ?_, sn', hsn', ?_, ?_⟩) (hkeep .same hrows)
  · rw [hown]
    exact (AList.mem_insert _).mpr (.inr hlocked)
  · have hauthor := author_of_validate hvalid
    by_cases hmem : Key.account operator ∈ h₂.own
    · rw [Store.account, AList.lookup_union_left hmem, hunchanged hmem] at hauthor
      exact .inr ⟨by rw [hkeys₀]; exact Held.mem_keys.mpr (.inl hmem), hbase ▸ hauthor⟩
    · rw [Store.account, AList.lookup_union_right hmem] at hauthor
      exact .inl hauthor
  · obtain ⟨hsome, p, c, o, time, rfl, rfl, ho, hobase⟩ := hverified hsensitive
    exact ⟨hsome, hsome, o, mins, p, c, time, hop, hbase ▸ hobase, ho⟩
  · rw [hkeys]
    exact Held.mem_keys.mpr (.inl hlocked)
  · intro id r' hne hr' hpending
    rw [Store.request, hview (by simpa using hne)] at hr'
    exact pendingFor_eq_false hsingle hr' hpending

/-! ### Completion -/

theorem exec_updateRole (hexec : Exec (updateRole S id a role) h₀ u h₁) :
    ∃ h', (h' = h₀ ∨ ∃ st, h' = h₀.saw st) ∧ h₁ = h'.put (Key.account id) { a with role := role } := by
  unfold updateRole at hexec
  split at hexec
  · simp only [exec_bind, exec_failIf, exec_snapshot, exec_write] at hexec
    obtain ⟨_, _, ⟨st, _, rfl, rfl⟩, _, _, ⟨-, rfl⟩, _, _, ⟨-, rfl⟩, rfl⟩ := hexec
    exact ⟨_, .inr ⟨st, rfl⟩, rfl⟩
  · simp only [exec_bind, exec_failIf, exec_write] at hexec
    obtain ⟨_, _, ⟨-, rfl⟩, rfl⟩ := hexec
    exact ⟨_, .inl rfl, rfl⟩

theorem exec_applyCompleted (h0 : ∀ id, Key.account id ∈ h₀.own → id = r.targetAccountId)
    (htarget : h₀.own.lookup (Key.account r.targetAccountId) = some a)
    (hexec : Exec (applyCompletedOperatorRoleChange S operator r) h₀ u h₁) :
    operator ≠ r.targetAccountId ∧
    h₁.own = h₀.own.insert (Key.account r.targetAccountId) { a with role := r.requestedRole } ∧
    h₁.base = h₀.base ∧
    (∃ sn ∈ h₁.snapshots, Key.account operator ∈ sn.keys ∧
      (Store.account sn.store operator).any Account.activeOwner = true) ∧
    ∀ {P : (k : Key) → Option (Row k) → Row k → Prop},
      P (Key.account r.targetAccountId) (h₀.base.lookup (Key.account r.targetAccountId))
        { a with role := r.requestedRole } → Rows P h₀ → Rows P h₁ := by
  simp only [applyCompletedOperatorRoleChange, exec_bind, exec_failIf, exec_snapshot, exec_orFail,
    exec_references] at hexec
  obtain ⟨_, _, rfl, _, _, ⟨st, _, rfl, rfl⟩, _, _, ⟨hcompleter, rfl⟩, _, _, ⟨hother, rfl⟩, _, _,
    ⟨st', _, rfl, rfl⟩, target, _, ⟨hfound, rfl⟩, _, _, ⟨-, rfl⟩, _, _, ⟨-, rfl⟩, hrole⟩ := hexec
  obtain rfl : a = target := by
    have hmem : Key.account r.targetAccountId ∈ h₀.own := AList.lookup_isSome.mp (by simp [htarget])
    simp only [Store.account, Held.own_saw, Held.own_share] at hfound
    rw [AList.lookup_union_left hmem, htarget] at hfound
    exact Option.some.inj hfound
  have hoff : Key.account operator ∉ h₀.own := fun hmem => hother (h0 operator hmem)
  simp only [Store.account, Held.own_share, AList.lookup_union_right hoff, Bool.not_eq_false]
    at hcompleter
  have hseen : (⟨(h₀.share (Key.account operator)).keys, st⟩ : Snapshot Key Row) ∈
      (((h₀.share (Key.account operator)).saw st).saw st').snapshots := by simp
  have hkeys : Key.account operator ∈ (h₀.share (Key.account operator)).keys :=
    Held.mem_keys.mpr (.inr List.mem_cons_self)
  obtain ⟨h', rfl | ⟨st'', rfl⟩, rfl⟩ := exec_updateRole hrole
  · exact ⟨hother, rfl, rfl, ⟨_, hseen, hkeys, hcompleter⟩,
      fun hP hrows => hrows.share.saw.saw.put hP⟩
  · exact ⟨hother, rfl, rfl, ⟨_, List.mem_cons_of_mem _ hseen, hkeys, hcompleter⟩,
      fun hP hrows => hrows.share.saw.saw.saw.put hP⟩

theorem rows_completeRoleChange (hop : q.op = .completeRoleChange operator requestId)
    (hexec : Exec (completeOperatorRoleChangeRequest S q.now operator requestId) .empty ans h) :
    Rows (Change S q ans h) h := by
  simp only [completeOperatorRoleChangeRequest, exec_bind, exec_orFail, exec_failIf] at hexec
  obtain ⟨_, _, hrequest, r, _, ⟨rfl, rfl⟩, _, _, hlock, a, _, ⟨rfl, rfl⟩, _, _, ⟨hpending, rfl⟩,
    hexec⟩ := hexec
  obtain ⟨-, rfl⟩ := exec_forUpdate_new (by simp) hrequest
  obtain ⟨-, rfl⟩ := exec_forUpdate_new (by simp) hlock
  rw [not_not] at hpending
  have hrows : Rows (Change S q ans h) ((Held.empty.lock (Key.request requestId) r).lock
      (Key.account r.targetAccountId) a) := (rows_empty.lock .same).lock .same
  have hbase : AList.lookup (Key.request requestId) (((Held.empty : Holding).lock
      (Key.request requestId) r).lock (Key.account r.targetAccountId) a).base = some r := by
    simp only [Held.base_lock]
    rw [AList.lookup_insert_ne (by simp), AList.lookup_insert]
  split at hexec
  · simp only [exec_bind, exec_write, exec_pure] at hexec
    obtain ⟨_, _, rfl, -, rfl⟩ := hexec
    refine hrows.put ?_
    rw [hbase]
    exact .settled hpending (.inl rfl)
  rename_i hunexpired
  split at hexec
  · obtain ⟨-, rfl⟩ := hexec
    exact hrows
  simp only [exec_bind, exec_failIf, exec_write, exec_pure] at hexec
  obtain ⟨_, _, ⟨-, rfl⟩, _, _, ⟨hactive, rfl⟩, _, _, ⟨-, rfl⟩, _, _, ⟨-, rfl⟩, _, _, rfl, _, h₁, happly,
    _, h₂, hsessions, -, rfl⟩ := hexec
  obtain ⟨hother, hown, hbase₁, hcompleter, hput⟩ := exec_applyCompleted (a := a)
    (fun id hid => by simpa using hid)
    (by simp only [Held.own_put, Held.own_lock]
        rw [AList.lookup_insert_ne (by simp), AList.lookup_insert]) happly
  have hu : SessionsRevoked _ _ h₁ h :=
    exec_updateWhere Key.sessionId_eq (by simp [hown]) hsessions
  have hcompleted : Completed q h requestId r a operator := by
    refine ⟨hop, ?_, ?_, ?_, ?_, hpending, by simpa using hunexpired, by simpa using hactive, hother,
      ?_⟩
    · rw [(hu.other _ (by simp)).2, hbase₁, Held.base_put, hbase]
    · rw [(hu.other _ (by simp)).2, hbase₁, Held.base_put, Held.base_lock, AList.lookup_insert]
    · rw [(hu.other _ (by simp)).1, hown, AList.lookup_insert_ne (by simp), Held.own_put,
        AList.lookup_insert]
    · rw [(hu.other _ (by simp)).1, hown, AList.lookup_insert]
    · obtain ⟨sn, hsn, hkey, howner⟩ := hcompleter
      exact ⟨sn, hu.snapshots sn hsn, hkey, howner⟩
  refine rows_sessionsRevoked (hput ?_ (hrows.put ?_)) hu
  · rw [Held.base_put, Held.base_lock, AList.lookup_insert]
    exact .promoted hcompleted
  · rw [hbase]
    exact .completed hcompleted

/-- **Whatever a request finds, it only does to rows what `Change` allows.** -/
theorem rows_of_exec (hexec : Exec (q.prog S) .empty ans h) : Rows (Change S q ans h) h := by
  obtain ⟨op, now⟩ := q
  cases op with
  | bootstrapOwner => exact rows_bootstrap rfl hexec
  | login => exact rows_login rfl hexec
  | requireOperator => exact rows_requireOperator hexec
  | refresh => exact rows_refresh rfl hexec
  | revokeSession => exact rows_revokeSession hexec
  | revokeIdleSessions => exact rows_revokeIdle hexec
  | revokeOperatorSessions => exact rows_revokeOperatorSessions hexec
  | createInvitation => exact rows_createInvitation hexec
  | listInvitations => exact rows_listInvitations hexec
  | revokeInvitation => exact rows_revokeInvitation hexec
  | setupInvitation => exact rows_setupInvitation hexec
  | acceptInvitation => exact rows_acceptInvitation rfl hexec
  | updateEmail => exact rows_updateEmail hexec
  | disable => exact rows_disable hexec
  | enable => exact rows_enable hexec
  | delete => exact rows_delete hexec
  | unlock => exact rows_unlock rfl hexec
  | createReset => exact rows_createReset rfl hexec
  | createSelfReset => exact rows_createSelfReset rfl hexec
  | acceptReset => exact rows_acceptReset rfl hexec
  | createRoleChange => exact rows_createRoleChange rfl hexec
  | listRoleChanges => exact rows_listRoleChanges hexec
  | cancelRoleChange => exact rows_cancelRoleChange hexec
  | completeRoleChange => exact rows_completeRoleChange rfl hexec

end Exec

end ManagedDirectory.Operators
