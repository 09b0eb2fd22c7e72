import ManagedDirectory.Operators.Roles

/-!
# The operator accounts as a system

All requests that write the operator tables (`Op`), as transactions that run at the same time
(`operatorRules`). Random values are drawn when a request starts and are not drawn again.
-/

namespace ManagedDirectory.Operators

open Lib.Txn Lib.Txn.Prog
open Rds (Failure)

inductive Op where
  | bootstrapOwner (id username password salt totpSecret : String)
  | login (payload : LoginRequest) (scope : Scope) (sessionId : String) (draw : Draw)
  | requireOperator (accessToken : String)
  | refresh (refreshToken : String) (draw : Draw)
  | revokeSession (sessionId : String)
  | revokeIdleSessions
  | revokeOperatorSessions (accountId : String)
  | createInvitation (operator username displayName : String) (role : Role) (expiresInHours : Int)
      (invitationId token : String)
  | listInvitations
  | revokeInvitation (invitationId : String)
  | setupInvitation (token : String)
  | acceptInvitation (token password totpCode salt accountId : String)
  | updateEmail (accountId : String) (email : Option String)
  | disable (accountId : String)
  | enable (accountId : String)
  | delete (accountId : String)
  | unlock (accountId : String)
  | createReset (operator accountId : String) (mode : ResetMode)
      (ownerPassword ownerTotpCode resetId token replacementHash : String)
  | createSelfReset (accountId : String) (mode : ResetMode)
      (currentPassword currentTotpCode resetId token : String)
  | acceptReset (token : String) (password : Option String) (totpCode salt : String)
  | createRoleChange (operator accountId : String) (requestedRole : Role) (expiresInMinutes : Int)
      (ownerPassword ownerTotpCode : Option String) (requestId : String)
  | listRoleChanges
  | cancelRoleChange (requestId : String)
  | completeRoleChange (operator requestId : String)

def Op.draws : Op → List String
  | .bootstrapOwner id _ _ _ _ => [id]
  | .login _ _ sessionId draw => [sessionId, draw.jti, draw.refreshToken]
  | .refresh _ draw => [draw.jti, draw.refreshToken]
  | .createInvitation _ _ _ _ _ invitationId token => [invitationId, token]
  | .acceptInvitation _ _ _ _ accountId => [accountId]
  | .createReset _ _ _ _ _ resetId token _ => [resetId, token]
  | .createSelfReset _ _ _ _ resetId token => [resetId, token]
  | .createRoleChange _ _ _ _ _ _ requestId => [requestId]
  | _ => []

structure Request where
  op : Op
  now : Int

variable (S : Services)

def Request.prog (q : Request) : Tx Answer :=
  match q.op with
  | .bootstrapOwner id username password salt totpSecret =>
    bootstrapOwner S q.now id username password salt totpSecret
  | .login payload scope sessionId draw => performLogin S q.now payload scope sessionId draw
  | .requireOperator accessToken => requireOperator S q.now accessToken
  | .refresh refreshToken draw => refresh S q.now refreshToken draw
  | .revokeSession sessionId => revokeSession q.now sessionId
  | .revokeIdleSessions => revokeIdleOperatorSessions q.now
  | .revokeOperatorSessions accountId => revokeOperatorSessions q.now accountId
  | .createInvitation operator username displayName role hours invitationId token =>
    createOperatorInvitation S q.now operator username displayName role hours invitationId token
  | .listInvitations => listOperatorInvitations q.now
  | .revokeInvitation invitationId => revokeOperatorInvitation q.now invitationId
  | .setupInvitation token => setupOperatorInvitation S q.now token
  | .acceptInvitation token password totpCode salt accountId =>
    acceptOperatorInvitation S q.now token password totpCode salt accountId
  | .updateEmail accountId email => updateOperatorEmail accountId email
  | .disable accountId => disableOperatorAccount S q.now accountId
  | .enable accountId => enableOperatorAccount S accountId
  | .delete accountId => deleteOperatorAccount S q.now accountId
  | .unlock accountId => unlockOperatorAccount accountId
  | .createReset operator accountId mode ownerPassword ownerTotpCode resetId token hash =>
    createReset S q.now operator accountId mode ownerPassword ownerTotpCode resetId token hash
  | .createSelfReset accountId mode currentPassword currentTotpCode resetId token =>
    createSelfReset S q.now accountId mode currentPassword currentTotpCode resetId token
  | .acceptReset token password totpCode salt => acceptReset S q.now token password totpCode salt
  | .createRoleChange operator accountId role minutes ownerPassword ownerTotpCode requestId =>
    createOperatorRoleChangeRequest S q.now operator accountId role minutes ownerPassword
      ownerTotpCode requestId
  | .listRoleChanges => listOperatorRoleChangeRequests q.now
  | .cancelRoleChange requestId => cancelOperatorRoleChangeRequest q.now requestId
  | .completeRoleChange operator requestId =>
    completeOperatorRoleChangeRequest S q.now operator requestId

/-- A request takes the time when it starts, and draws values that nobody has drawn. -/
structure Starts (g : Outside) (q : Request) (g' : Outside) : Prop where
  clock : q.now = g.clock
  distinct : q.op.draws.Nodup
  fresh : ∀ d ∈ q.op.draws, d ∉ g.drawn
  drawn : g' = { g with drawn := q.op.draws ++ g.drawn }

def operatorRules : Rules Key Row Outside Failure Answer Request where
  prog := Request.prog S
  starts := Starts
  moves g g' := g.clock ≤ g'.clock ∧ g'.drawn = g.drawn

abbrev World := Sys Key Row Outside Failure Answer Request

abbrev OperatorEv := Ev Key Row Outside Failure Answer Request

def fresh (g : Outside) : World := ⟨AList.singleton Key.directory (none : Option Int), g, []⟩

/-! ## Requests one after another -/

/-- A request that has the rows to itself, at the time of `g`. -/
def Op.request (op : Op) (g : Outside) : Request := ⟨op, g.clock⟩

def Op.drawnAfter (op : Op) (g : Outside) : Outside := { g with drawn := op.draws ++ g.drawn }

def playAll (S : Services) (m : Store × Outside) (ops : List Op) : Store × Outside :=
  ops.foldl (fun m op => (((op.request m.2).prog S).storeAfter m.1 (op.drawnAfter m.2),
    op.drawnAfter m.2)) m

def Op.plays (S : Services) (m : Store × Outside) (op : Op) : Bool :=
  decide (op.draws.Nodup ∧ ∀ d ∈ op.draws, d ∉ m.2.drawn) &&
    (((op.request m.2).prog S).result m.1 (op.drawnAfter m.2)).isSome

def allPlay (S : Services) (m : Store × Outside) : List Op → Bool
  | [] => true
  | op :: ops => op.plays S m && allPlay S (playAll S m [op]) ops

section Play

variable {S : Services} {m : Store × Outside} {op : Op} {ops : List Op}

theorem run_play (hplays : op.plays S m = true) : ∃ ans,
    EndsWith (operatorRules S) (op.request m.2) ans ⟨m.1, m.2, []⟩
      ⟨(playAll S m [op]).1, (playAll S m [op]).2, []⟩ := by
  obtain ⟨hdraws, hresult⟩ := Bool.and_eq_true_iff.mp hplays
  obtain ⟨hnodup, hfresh⟩ := of_decide_eq_true hdraws
  obtain ⟨ans, hans⟩ := Option.isSome_iff_exists.mp hresult
  have hstarts : (operatorRules S).starts m.2 (op.request m.2) (op.drawnAfter m.2) :=
    ⟨rfl, hnodup, hfresh, rfl⟩
  exact ⟨ans, run_of_result hstarts hans⟩

theorem run_plays (hplay : allPlay S m ops = true) :
    ∃ es, Lib.Run (Step (operatorRules S)) ⟨m.1, m.2, []⟩ es
      ⟨(playAll S m ops).1, (playAll S m ops).2, []⟩ := by
  induction ops generalizing m with
  | nil => exact ⟨[], .nil⟩
  | cons op ops ih =>
    obtain ⟨hop, hops⟩ := Bool.and_eq_true_iff.mp hplay
    obtain ⟨ans, es, e, hrun, -⟩ := run_play hop
    obtain ⟨es', hrun'⟩ := ih hops
    exact ⟨es ++ [e] ++ es', hrun.trans hrun'⟩

end Play

/-! ## Services to evaluate the model with -/

def claimsCode (c : AccessClaims) : List Nat × List Nat × List Nat × Fin 3 × Bool × Int × Int :=
  (Codec.codePoints c.sub, Codec.codePoints c.sid, Codec.codePoints c.jti,
    match c.role with
    | .owner => 0
    | .manager => 1
    | .viewer => 2,
    decide (c.scope = .full), c.iat, c.exp)

def readClaims :
    List Nat × List Nat × List Nat × Fin 3 × Bool × Int × Int → Option AccessClaims
  | (sub, sid, jti, role, full, iat, exp) => do
    let role := match role with
      | 0 => Role.owner
      | 1 => Role.manager
      | 2 => Role.viewer
    pure ⟨← Codec.ofCodePoints sub, ← Codec.ofCodePoints sid, role,
      if full then .full else .mobile, iat, exp, ← Codec.ofCodePoints jti⟩

theorem readClaims_claimsCode (c : AccessClaims) : readClaims (claimsCode c) = some c := by
  obtain ⟨sub, sid, role, scope, iat, exp, jti⟩ := c
  cases role <;> cases scope <;> simp [readClaims, claimsCode]

def plainServices : Services where
  hashPassword password _ := password
  passwordOk password hash := hash == password
  passwordOk_hash := by simp
  totpNow secret _ := secret
  totpVerify secret code _ := code == secret
  totpVerify_now := by simp
  tokenHash := id
  tokenHash_injective := Function.injective_id
  invitationTokenHash := id
  resetSecret token := "s" ++ token
  resetSecret_ne token h := by
    have hlength := congrArg String.length h
    simp at hlength
  invitationTotpSecret token := "i" ++ token
  encode c := String.ofList (List.replicate (Encodable.encode (claimsCode c)) 'x')
  decode text := (Encodable.decode text.length).bind readClaims
  decode_encode c := by
    simp only [String.length_ofList, List.length_replicate, Encodable.encodek, Option.bind_some,
      readClaims_claimsCode]
  lower := id

def plainOutside : Outside := ⟨0, [], 30, 30, 15, 60⟩

def sampleStore (ops : List Op) : Store × Outside :=
  playAll plainServices ((fresh plainOutside).store, plainOutside) ops

theorem sample_run (ops : List Op) (op : Op)
    (hplay : allPlay plainServices ((fresh plainOutside).store, plainOutside) ops = true)
    (hlast : op.plays plainServices (sampleStore ops) = true) : ∃ pre e s,
    Lib.Run (Step (operatorRules plainServices)) (fresh plainOutside) (pre ++ [e]) s ∧
      (∃ ans, e.label = .commit (op.request (sampleStore ops).2) ans) ∧
      e.before.store = (sampleStore ops).1 ∧ e.after = s ∧
      s.store = (playAll plainServices (sampleStore ops) [op]).1 := by
  obtain ⟨es, hrun⟩ := run_plays hplay
  obtain ⟨ans, es', e, hrun', hlabel, hbefore, -⟩ := run_play hlast
  have hall := hrun.trans hrun'
  rw [← List.append_assoc] at hall
  exact ⟨es ++ es', e, _, hall, ⟨ans, hlabel⟩, hbefore, hrun'.after_last, rfl⟩

def sampleAccounts : List Op :=
  [.bootstrapOwner "o" "anna" "password of o" "salt" "code of o",
    .createInvitation "o" "ben" "Ben" .manager 24 "i1" "t1",
    .acceptInvitation "t1" "password of m" "it1" "salt" "m"]

end ManagedDirectory.Operators
