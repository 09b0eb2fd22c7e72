import ManagedDirectory.Lib.Lockout
import ManagedDirectory.Operators.Changes

/-!
# How often a password can be tried

An account counts its failed logins and is locked by the fifth and each later one. A login takes its
time when it starts and then waits for the row of the account, so the attempts on an account are
looked at in another order than they started in. `login_guesses_bounded`: however they interleave
with each other and with all other requests, between two events that clear the counter
(`Clears`) at most `MAX_LOGIN_FAILURES + T / LOCKOUT_MINUTES` attempts that started within a time
`T` have their password and code looked at.

The counter is the one of `Lib.Lockout` (`loginPolicy`): a commit that clears nothing leaves it, or
is an attempt that was let through and failed (`counter_of_step`).
-/

namespace ManagedDirectory.Operators

open Lib Lib.Txn Lib.Txn.Prog List
open Rds (strip)

variable {S : Services} {q : Request} {ans : Answer} {h : Holding} {id : String}

/-! ## The counter -/

def loginPolicy : Lockout.Policy where
  limit := maxLoginFailures
  period := minutes lockoutMinutes
  limit_pos := by decide
  period_pos := by decide

def Account.counter (a : Account) : Lockout.Counter := ⟨a.failedLoginCount, a.lockedUntil⟩

/-- The counter of an account; a new account starts with the same. -/
def counterOf (st : Store) (id : String) : Lockout.Counter :=
  ((st.account id).map Account.counter).getD ⟨0, none⟩

/-- A login that started at `now` finds the account: named by the request, active, and not locked.
Its password and code decide then. -/
structure Account.TriedBy (S : Services) (payload : LoginRequest) (now : Int) (a : Account) :
    Prop where
  named : S.lower a.username = S.lower (strip payload.username)
  active : a.isActive = true
  unlocked : a.lockedUntil.any (now < ·) = false

theorem Account.TriedBy.admits {payload : LoginRequest} {now : Int} {a : Account}
    (h : a.TriedBy S payload now) : a.counter.Admits now := by
  intro u hu
  have hunlocked := h.unlocked
  rw [show a.lockedUntil = some u from hu] at hunlocked
  simpa using hunlocked

theorem lookup_single {locked : String} {a b : Account}
    (h : ((∅ : Store).insert (Key.account locked) b).lookup (Key.account id) = some a) :
    id = locked ∧ a = b := by
  by_cases heq : id = locked
  · subst heq
    rw [AList.lookup_insert] at h
    exact ⟨rfl, (Option.some.inj h).symm⟩
  · rw [AList.lookup_insert_ne (by simpa using heq)] at h
    cases h

theorem exec_login {payload : LoginRequest} {now : Int} {scope : Scope} {sessionId : String}
    {draw : Draw} {a : Account}
    (hexec : Exec (performLogin S now payload scope sessionId draw) .empty ans h)
    (hbase : h.base.lookup (Key.account id) = some a) :
    (h.own.lookup (Key.account id) = some a ∧ ¬ a.TriedBy S payload now) ∨
      (h.own.lookup (Key.account id) = some (a.failLogin now) ∧ a.TriedBy S payload now) ∨
      ∃ sessionId access refresh, ans = .ok (.tokens sessionId access refresh) := by
  simp only [performLogin, exec_bind, exec_snapshot] at hexec
  obtain ⟨_, _, ⟨st, _, rfl, rfl⟩, hexec⟩ := hexec
  split at hexec
  · obtain ⟨-, rfl⟩ := hexec
    cases hbase
  rename_i locked _
  simp only [exec_bind] at hexec
  obtain ⟨row, h₁, hlock, hexec⟩ := hexec
  cases row with
  | none =>
    -- the row is locked, but it is not the account that the request names
    obtain ⟨-, rfl⟩ := hexec
    obtain ⟨st', -, hrow, rfl⟩ := hlock
    cases hst : st'.lookup (Key.account locked) with
    | none => simp [Held.take, hst] at hbase
    | some b =>
      have htake : (Held.empty.saw st).take (Key.account locked) st' =
          (some b, (Held.empty.saw st).lock (Key.account locked) b) := by simp [Held.take, hst]
      rw [htake] at hrow hbase ⊢
      obtain ⟨rfl, rfl⟩ := lookup_single hbase
      refine .inl ⟨AList.lookup_insert _, fun htried => ?_⟩
      exact Option.filter_eq_none_iff.mp hrow.symm a rfl (by simp [htried.named])
  | some b =>
    obtain ⟨hnamed, rfl⟩ := exec_forUpdate_new (by simp) hlock
    simp only at hexec
    split at hexec
    · rename_i hclosed
      obtain ⟨-, rfl⟩ := hexec
      obtain ⟨rfl, rfl⟩ := lookup_single hbase
      refine .inl ⟨AList.lookup_insert _, fun htried => ?_⟩
      simp [htried.active, htried.unlocked] at hclosed
    rename_i hopen
    simp only [exec_bind, exec_outside] at hexec
    obtain ⟨g, _, ⟨_, rfl⟩, hexec⟩ := hexec
    split at hexec
    · simp only [exec_bind, exec_write, exec_pure] at hexec
      obtain ⟨_, _, rfl, -, rfl⟩ := hexec
      obtain ⟨rfl, rfl⟩ := lookup_single hbase
      rw [Bool.or_eq_true, not_or, Bool.not_eq_true', Bool.not_eq_false, Bool.not_eq_true] at hopen
      exact .inr (.inl ⟨AList.lookup_insert _, by simpa using hnamed, hopen.1, hopen.2⟩)
    · simp only [exec_bind, exec_create, exec_write, exec_outside, exec_pure] at hexec
      obtain ⟨g', _, ⟨_, rfl⟩, _, _, -, _, _, rfl, rfl, -⟩ := hexec
      exact .inr (.inr ⟨_, _, _, rfl⟩)

/-! ## Attempts and clearing events -/

abbrev OperatorTx := Txn.Tx Key Row Outside Rds.Failure Answer Request

structure CommitOf (e : OperatorEv) (t : OperatorTx) (ans : Answer) : Prop where
  label : e.label = .commit t.op ans
  active : t ∈ e.before.active
  rest : t.rest = .done ans
  store : e.after.store = t.held.own ∪ e.before.store

/-- An attempt on the account that has its password and code looked at, by the request `q`: the login
commits with the row of the account locked, and the row lets it through. -/
def Evaluated (S : Services) (id : String) (e : OperatorEv) (q : Request) : Prop :=
  ∃ t ans payload scope sessionId draw a, CommitOf e t ans ∧ t.op = q ∧
    q.op = .login payload scope sessionId draw ∧ Key.account id ∈ t.held.own ∧
    Store.account e.before.store id = some a ∧ a.TriedBy S payload q.now

/-- The request clears the failure counter of the account: a login that succeeds, an unlock, an
access reset that is created or accepted. -/
def Op.Clears (id : String) (ans : Answer) (h : Holding) : Op → Prop
  | .login _ _ _ _ => Key.account id ∈ h.own ∧
      ∃ sessionId access refresh, ans = .ok (.tokens sessionId access refresh)
  | .unlock accountId => accountId = id
  | .createReset _ accountId _ _ _ _ _ _ => accountId = id
  | .acceptReset _ _ _ _ => Key.account id ∈ h.own
  | _ => False

def Clears (id : String) (e : OperatorEv) : Prop :=
  ∃ t ans, CommitOf e t ans ∧ t.op.op.Clears id ans t.held

/-! ## One commit -/

section Commit

variable {es : List OperatorEv} {e : OperatorEv} {t : OperatorTx}

theorem counter_of_change {a a' : Account}
    (hchange : Change S q ans h (.account id) (some a) a') (hown : Key.account id ∈ h.own)
    (hclears : ¬ q.op.Clears id ans h)
    (hlogin : ∀ payload scope sessionId draw, q.op ≠ .login payload scope sessionId draw) :
    a'.counter = a.counter := by
  generalize hb : some a = b at hchange
  cases hchange with
  | created => cases hb
  | same | readdressed | switched | deleted | promoted =>
    obtain rfl := Option.some.inj hb
    rfl
  | counted hop =>
    cases hq : q.op with
    | login => exact absurd hq (hlogin _ _ _ _)
    | unlock => exact absurd (by rw [hq] at hop ⊢; exact hop) hclears
    | _ =>
      rw [hq] at hop
      exact hop.elim
  | closed hop => exact absurd (by rw [hop]; rfl) hclears
  | recovered haccepted => exact absurd (by rw [haccepted.op]; exact hown) hclears

theorem CommitOf.exec (hcommit : CommitOf e t ans)
    (hs : Valid (operatorRules S) es e.before) :
    Exec (t.op.prog S) .empty ans t.held ∧ Based t.held e.before.store := by
  have hgood := hs.good t hcommit.active
  refine ⟨hgood.rest ans t.held ?_, hgood.based⟩
  rw [hcommit.rest]
  exact ⟨rfl, rfl⟩

theorem CommitOf.account_own (hcommit : CommitOf e t ans) (hown : Key.account id ∈ t.held.own) :
    Store.account e.after.store id = t.held.own.lookup (Key.account id) := by
  rw [hcommit.store]
  exact AList.lookup_union_left hown

theorem CommitOf.account_other (hcommit : CommitOf e t ans)
    (hown : Key.account id ∉ t.held.own) :
    Store.account e.after.store id = Store.account e.before.store id := by
  rw [hcommit.store]
  exact AList.lookup_union_right hown

theorem counterOf_some {st : Store} {a : Account} (h : st.account id = some a) :
    counterOf st id = a.counter := by
  simp [counterOf, h]

/-- A login that has an account and clears nothing was not let through and leaves the row, or was let
through and failed. -/
theorem login_of_commit {payload : LoginRequest} {scope : Scope} {sessionId : String} {draw : Draw}
    {a : Account} (hs : Valid (operatorRules S) es e.before) (hcommit : CommitOf e t ans)
    (hclears : ¬ Clears id e) (hop : t.op.op = .login payload scope sessionId draw)
    (hown : Key.account id ∈ t.held.own) (ha : Store.account e.before.store id = some a) :
    counterOf e.after.store id = a.counter ∧ ¬ a.TriedBy S payload t.op.now ∨
      counterOf e.after.store id = loginPolicy.fail t.op.now a.counter ∧
        a.TriedBy S payload t.op.now := by
  obtain ⟨hexec, hbased⟩ := hcommit.exec hs
  have hbase : t.held.base.lookup (Key.account id) = some a := (hbased _ hown).symm.trans ha
  have hprog : t.op.prog S = performLogin S t.op.now payload scope sessionId draw := by
    rw [Request.prog, hop]
  rw [hprog] at hexec
  rcases exec_login hexec hbase with ⟨hrow, hnot⟩ | ⟨hrow, htried⟩ | htokens
  · exact .inl ⟨counterOf_some ((hcommit.account_own hown).trans hrow), hnot⟩
  · exact .inr ⟨counterOf_some ((hcommit.account_own hown).trans hrow), htried⟩
  · exact absurd ⟨t, ans, hcommit, by rw [hop]; exact ⟨hown, htokens⟩⟩ hclears

theorem counter_of_evaluated (hs : Valid (operatorRules S) es e.before) (hev : Evaluated S id e q)
    (hclears : ¬ Clears id e) :
    (counterOf e.before.store id).Admits q.now ∧
      counterOf e.after.store id = loginPolicy.fail q.now (counterOf e.before.store id) := by
  obtain ⟨t, ans, payload, scope, sessionId, draw, a, hcommit, rfl, hop, hown, ha, htried⟩ := hev
  rw [counterOf_some ha]
  rcases login_of_commit hs hcommit hclears hop hown ha with ⟨-, hnot⟩ | ⟨hcounter, -⟩
  · exact absurd htried hnot
  · exact ⟨htried.admits, hcounter⟩

theorem counter_of_commit (hs : Valid (operatorRules S) es e.before) (hcommit : CommitOf e t ans)
    (hclears : ¬ Clears id e) (hev : ¬ ∃ q, Evaluated S id e q) :
    counterOf e.after.store id = counterOf e.before.store id := by
  by_cases hown : Key.account id ∈ t.held.own
  swap
  · rw [counterOf, hcommit.account_other hown, counterOf]
  obtain ⟨hexec, hbased⟩ := hcommit.exec hs
  obtain ⟨a', ha'⟩ := Option.isSome_iff_exists.mp (AList.lookup_isSome.mpr hown)
  have hchange := (rows_of_exec hexec).rows _ _ ha'
  rw [← hbased _ hown] at hchange
  have hafter : counterOf e.after.store id = a'.counter :=
    counterOf_some ((hcommit.account_own hown).trans ha')
  rw [hafter]
  cases ha : Store.account e.before.store id with
  | none =>
    have hbefore : counterOf e.before.store id = ⟨0, none⟩ := by simp [counterOf, ha]
    rw [hbefore]
    rw [show AList.lookup (Key.account id) e.before.store = none from ha] at hchange
    cases hchange
    rfl
  | some a =>
    rw [show AList.lookup (Key.account id) e.before.store = some a from ha] at hchange
    rw [counterOf_some ha]
    by_cases hlogin : ∃ payload scope sessionId draw, t.op.op = .login payload scope sessionId draw
    · obtain ⟨payload, scope, sessionId, draw, hop⟩ := hlogin
      rcases login_of_commit hs hcommit hclears hop hown ha with ⟨hcounter, -⟩ | ⟨-, htried⟩
      · exact hafter.symm.trans hcounter
      · exact absurd ⟨t.op, t, ans, payload, scope, sessionId, draw, a, hcommit, rfl, hop, hown, ha,
          htried⟩ hev
    · refine counter_of_change hchange hown (fun h => hclears ⟨t, ans, hcommit, h⟩) ?_
      intro payload scope sessionId draw hop
      exact hlogin ⟨payload, scope, sessionId, draw, hop⟩

end Commit

/-! ## Runs -/

section Runs

variable {es mid : List OperatorEv} {e : OperatorEv} {s s' : World}

theorem commitOf_of_step (hstep : Step (operatorRules S) e.before e.label e.after)
    (hlabel : e.label = .commit q ans) : ∃ t, CommitOf e t ans := by
  rw [hlabel] at hstep
  generalize hl : Label.commit q ans = l at hstep
  generalize hafter : e.after = s' at hstep
  cases hstep with
  | @commit l₁ l₂ op h a hactive =>
    cases hl
    exact ⟨⟨q, h, .done ans⟩, hlabel, by simp [hactive], rfl, by rw [hafter]⟩
  | _ => cases hl

theorem counter_of_step (hs : Valid (operatorRules S) es e.before)
    (hstep : Step (operatorRules S) e.before e.label e.after) (hclears : ¬ Clears id e)
    (hev : ¬ ∃ q, Evaluated S id e q) :
    counterOf e.after.store id = counterOf e.before.store id := by
  by_cases hlabel : ∃ q ans, e.label = .commit q ans
  · obtain ⟨q, ans, hlabel⟩ := hlabel
    obtain ⟨t, hcommit⟩ := commitOf_of_step hstep hlabel
    exact counter_of_commit hs hcommit hclears hev
  · rw [store_eq_of_step hstep fun q ans heq => hlabel ⟨q, ans, heq⟩]

def startOf (e : OperatorEv) : Int :=
  match e.label with
  | .commit q _ => q.now
  | _ => 0

theorem Evaluated.startOf_eq (h : Evaluated S id e q) : startOf e = q.now := by
  obtain ⟨t, ans, _, _, _, _, _, hcommit, rfl, -⟩ := h
  rw [startOf, hcommit.label]

/-- The attempts that are evaluated in a run without clearing events are let through by the counter,
one after another. -/
theorem admits_of_run (hs : Valid (operatorRules S) es s)
    (h : Run (Step (operatorRules S)) s mid s') (hclears : ∀ e ∈ mid, ¬ Clears id e) :
    ∃ xs, loginPolicy.Admits (counterOf s.store id) xs ∧ ∀ evs : List OperatorEv,
      evs.Sublist mid → (∀ e ∈ evs, ∃ q, Evaluated S id e q) → (evs.map startOf).Sublist xs := by
  induction mid generalizing es s with
  | nil =>
    refine ⟨[], trivial, fun evs hsub _ => ?_⟩
    rw [sublist_nil.mp hsub]
    exact .slnil
  | cons e mid ih =>
    obtain ⟨rfl, hstep, hrest⟩ := h.first
    have hclear := hclears e mem_cons_self
    obtain ⟨xs, hadmits, hxs⟩ := ih (step_valid hs hstep) hrest fun x hx =>
      hclears x (mem_cons_of_mem _ hx)
    by_cases hev : ∃ q, Evaluated S id e q
    · obtain ⟨q, hev⟩ := hev
      obtain ⟨hopen, hcounter⟩ := counter_of_evaluated hs hev hclear
      refine ⟨q.now :: xs, ⟨hopen, hcounter ▸ hadmits⟩, fun evs hsub hevs => ?_⟩
      rcases sublist_cons_iff.mp hsub with hsub | ⟨evs', rfl, htail⟩
      · exact (hxs evs hsub hevs).cons _
      · rw [map_cons, hev.startOf_eq]
        exact (hxs evs' htail fun x hx => hevs x (mem_cons_of_mem _ hx)).cons_cons _
    · rw [counter_of_step hs hstep hclear hev] at hadmits
      refine ⟨xs, hadmits, fun evs hsub hevs => ?_⟩
      rcases sublist_cons_iff.mp hsub with hsub | ⟨evs', rfl, -⟩
      · exact hxs evs hsub hevs
      · exact absurd (hevs e mem_cons_self) hev

/-- **The guessing bound.** In every run of all operator requests, over any part of it without an
event that clears the failure counter of the account: of the attempts whose password and code are
looked at, at most `MAX_LOGIN_FAILURES + T / LOCKOUT_MINUTES` started within a time `T`. -/
theorem login_guesses_bounded {g : Outside} {pre evs : List OperatorEv} {lo T : Int}
    (h : Run (Step (operatorRules S)) (fresh g) (pre ++ mid) s)
    (hclears : ∀ e ∈ mid, ¬ Clears id e) (hT : 0 ≤ T) (hsub : evs.Sublist mid)
    (hevs : ∀ e ∈ evs, ∃ q, Evaluated S id e q ∧ lo ≤ q.now ∧ q.now ≤ lo + T) :
    (evs.length : Int) ≤ maxLoginFailures + T / minutes lockoutMinutes := by
  obtain ⟨m, hpre, hmid⟩ := h.middle
  obtain ⟨xs, hadmits, hxs⟩ := admits_of_run (valid_of_run rfl hpre) hmid hclears
  have hstarts := hxs evs hsub fun e he => (hevs e he).imp fun q hq => hq.1
  have hwindow : Lockout.Policy.within lo (lo + T) (evs.map startOf) = evs.length := by
    rw [Lockout.Policy.within, countP_map, countP_eq_length]
    intro e he
    obtain ⟨q, hev, hlo, hhi⟩ := hevs e he
    simp [hev.startOf_eq, hlo, hhi]
  calc (evs.length : Int)
      = Lockout.Policy.within lo (lo + T) (evs.map startOf) := by rw [hwindow]
    _ ≤ Lockout.Policy.within lo (lo + T) xs := by
        exact_mod_cast hstarts.countP_le
    _ ≤ maxLoginFailures + T / minutes lockoutMinutes := Lockout.Policy.admits_bound hT hadmits

end Runs

def sampleAnna : List Op := [.bootstrapOwner "o" "anna" "password of o" "salt" "code of o"]

def sampleGuess : Op := .login ⟨"anna", "a guess", some "code of o"⟩ .full "s1" ⟨"j1", "f1"⟩

def sampleTry : Request := sampleGuess.request (sampleStore sampleAnna).2

def annaAccount : Account := newAccount "anna" "password of o" "code of o" .owner

theorem sample_login_guesses_bounded : ∃ pre mid s e,
    Run (Step (operatorRules plainServices)) (fresh plainOutside) (pre ++ mid) s ∧ e ∈ mid ∧
      Evaluated plainServices "o" e sampleTry ∧
      (([e] : List OperatorEv).length : Int) ≤ maxLoginFailures + 0 / minutes lockoutMinutes := by
  obtain ⟨pre, hpre⟩ := run_plays (show allPlay plainServices ((fresh plainOutside).store,
    plainOutside) sampleAnna = true by decide +kernel)
  have hresult : (sampleTry.prog plainServices).result (sampleStore sampleAnna).1
      (sampleGuess.drawnAfter (sampleStore sampleAnna).2) = some (.error invalidLogin) := by
    decide +kernel
  have hstarts : (operatorRules plainServices).starts (sampleStore sampleAnna).2 sampleTry
      (sampleGuess.drawnAfter (sampleStore sampleAnna).2) :=
    ⟨rfl, by decide, by decide +kernel, rfl⟩
  obtain ⟨es, e, hrun, hlabel, hbefore, hquiet⟩ := run_of_result hstarts hresult
  have hmem : e ∈ es ++ [e] := mem_append_right _ (List.mem_singleton.mpr rfl)
  obtain ⟨t, hcommit⟩ := commitOf_of_step (hrun.step_of_mem hmem) hlabel
  have hcommits : ∀ {t' ans'}, CommitOf e t' ans' → t'.op = sampleTry ∧
      ans' = .error invalidLogin := by
    intro t' ans' hcommit'
    have hsame := hcommit'.label.symm.trans hlabel
    simpa only [Label.commit.injEq] using hsame
  have haccount : Store.account e.before.store "o" = some annaAccount := by
    rw [hbefore]
    decide +kernel
  have hown : Key.account "o" ∈ t.held.own := by
    by_contra hnot
    have hsame := (hcommit.account_other hnot).trans haccount
    rw [hrun.after_last] at hsame
    exact absurd hsame (by decide +kernel)
  have hev : Evaluated plainServices "o" e sampleTry :=
    ⟨t, _, _, _, _, _, annaAccount, hcommit, (hcommits hcommit).1, rfl, hown, haccount,
      by decide, rfl, rfl⟩
  have hclears : ∀ x ∈ es ++ [e], ¬ Clears "o" x := by
    rintro x hx ⟨t', ans', hcommit', hcleared⟩
    rcases mem_append.mp hx with hx | hx
    · exact hquiet x hx _ _ hcommit'.label
    · obtain rfl := List.mem_singleton.mp hx
      obtain ⟨hop, rfl⟩ := hcommits hcommit'
      rw [hop] at hcleared
      obtain ⟨-, sessionId, access, refresh, htokens⟩ := hcleared
      cases htokens
  have hstarts : ∀ x ∈ [e], ∃ q, Evaluated plainServices "o" x q ∧ sampleTry.now ≤ q.now ∧
      q.now ≤ sampleTry.now + 0 := by
    intro x hx
    obtain rfl := List.mem_singleton.mp hx
    exact ⟨sampleTry, hev, le_rfl, by simp⟩
  exact ⟨pre, es ++ [e], _, e, hpre.trans hrun, hmem, hev,
    login_guesses_bounded (hpre.trans hrun) hclears le_rfl (singleton_sublist.mpr hmem) hstarts⟩

end ManagedDirectory.Operators
