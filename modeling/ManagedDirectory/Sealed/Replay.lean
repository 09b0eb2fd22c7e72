import ManagedDirectory.Lib.ReplayCache
import ManagedDirectory.Sealed.Call

/-!
# Sealed transport: replays

Calls that run at the same time, with the purge of old replay slots and one clock. A call has three
moments: its envelope is checked against the clock, its slot is claimed, and it is served.

`passed_once`: no envelope is passed on twice while timestamps are numbers and a slot is claimed
within `claimDelay` of the check. `Sealed.passed_again` is why the first is needed: NaN is close to
every time.
-/

namespace ManagedDirectory.Sealed

open Codec Lib List
open Rds (Issuer)

/-- `REPLAY_RETENTION`, in seconds. -/
def replayRetention : ℚ := 25 * 60

/-- `DELETE FROM sealed_replay WHERE seen_at < now() - REPLAY_RETENTION`. -/
def Database.purge (db : Database) (now : ℚ) : Database :=
  db.withSlots (db.replay.filter fun s => now - replayRetention ≤ s.seenAt)

/-- A call whose envelope was accepted at `checkedAt`. -/
structure Checked where
  outer : Outer
  blob : Bytes
  opened : Opened
  target : Target
  checkedAt : ℚ

structure Traffic where
  clock : ℚ
  db : Database
  checked : List Checked
  claimed : List Checked
  passed : List Bytes

inductive Act where
  | check (c : Checked)
  | claim (c : Checked) (now : ℚ)
  | serve (c : Checked)
  | purge
  | other

def serveClaimed (R : Runtime) (I : Issuer) (cfg : Config) (r : Readings) (c : Checked)
    (db : Database) : Answer × Database :=
  serve R I cfg r c.outer c.target (inspectionInfo R c.opened.metadata) c.opened.body db

def Outcome.isExecuted : Outcome → Bool
  | .executed _ => true
  | _ => false

/-- Accepts an envelope at time `now`. -/
structure Accepts (R : Runtime) (cfg : Config) (c : Checked) : Prop where
  keys : cfg.keys.isEmpty = false
  fits : fitsBody c.outer c.blob = true
  opens : openRequest R cfg.keys c.blob = .ok c.opened
  target : innerTarget R c.checkedAt c.opened.metadata = .ok c.target

inductive Step (R : Runtime) (I : Issuer) (cfg : Config) : Traffic → Act → Traffic → Prop where
  | check {s : Traffic} {c : Checked} (hclock : s.clock ≤ c.checkedAt)
      (haccepts : Accepts R cfg c) :
    Step R I cfg s (.check c) { s with clock := c.checkedAt, checked := c :: s.checked }
  | claim {s : Traffic} {c : Checked} {now : ℚ} {before after : List Checked}
      (hclock : s.clock ≤ now) (hchecked : s.checked = before ++ c :: after)
      (hfresh : s.db.isFresh (R.sha256 c.opened.ephPub) = true) :
    Step R I cfg s (.claim c now)
      { s with
        clock := now
        db := (s.db.claim (R.sha256 c.opened.ephPub) now).2
        checked := before ++ after
        claimed := c :: s.claimed }
  | serve {s : Traffic} {c : Checked} {r : Readings} {before after : List Checked}
      (hclaimed : s.claimed = before ++ c :: after) :
    Step R I cfg s (.serve c)
      { s with
        db := (serveClaimed R I cfg r c s.db).2
        claimed := before ++ after
        passed := if (serveClaimed R I cfg r c s.db).1.outcome.isExecuted then c.blob :: s.passed
          else s.passed }
  | purge {s : Traffic} {now : ℚ} (hclock : s.clock ≤ now) :
    Step R I cfg s .purge { s with clock := now, db := s.db.purge now }
  /-- Time passes, other requests change other tables, calls end: refused as a replay, or with the
  process. -/
  | other {s s' : Traffic} (hclock : s.clock ≤ s'.clock) (hreplay : s'.db.replay = s.db.replay)
      (hchecked : s'.checked.Sublist s.checked) (hclaimed : s'.claimed.Sublist s.claimed)
      (hpassed : s'.passed = s.passed) :
    Step R I cfg s .other s'

abbrev Ev := Event Traffic Act

/-! ## The slots as a cache -/

section Once

variable {R : Runtime} {I : Issuer} {cfg : Config} {s s' : Traffic} {es : List Ev} {c : Checked}
  {l : Act} {now : ℚ}

def Database.slots (db : Database) : ReplayCache.Slots Bytes ℚ :=
  db.replay.map fun s => (s.ephHash, s.seenAt)

def slotKey (R : Runtime) (cfg : Config) (blob : Bytes) : Bytes :=
  match openRequest R cfg.keys blob with
  | .ok e => R.sha256 e.ephPub
  | .error _ => []

def timestamp (R : Runtime) (e : Opened) : Option PyFloat :=
  R.unicode.float (dictGet "t" e.metadata)

/-- The first moment at which an envelope is close to its timestamp. -/
def firstMoment (R : Runtime) (cfg : Config) (blob : Bytes) : ℚ :=
  match openRequest R cfg.keys blob with
  | .ok e =>
    match timestamp R e with
    | some (.fin sent) => sent - clockSkewSeconds
    | _ => 0
  | .error _ => 0

variable {db : Database} {r : Readings}

theorem slots_purge (db : Database) (now : ℚ) :
    (db.purge now).slots = ReplayCache.purge replayRetention now db.slots := by
  simp [Database.slots, Database.purge, Database.withSlots, ReplayCache.purge, filter_map,
    Function.comp_def]

theorem slots_claim {hash : Bytes} (h : db.isFresh hash = true) :
    (db.claim hash now).2.slots = db.slots ++ [(hash, now)] := by
  simp [Database.claim, h, Database.slots, Database.withSlots]

theorem fresh_slots {hash : Bytes} (h : db.isFresh hash = true) :
    ∀ x ∈ db.slots, x.1 ≠ hash := by
  intro x hx
  obtain ⟨slot, hslot, rfl⟩ := mem_map.mp hx
  simpa using all_eq_true.mp h slot hslot

theorem slots_serveClaimed :
    (serveClaimed R I cfg r c db).2.slots = db.slots := by
  rw [Database.slots, serveClaimed, serve_replay]
  rfl

/-! ## Runs -/

/-- The most that may pass between the check of an envelope and the claim of its slot. -/
def claimDelay : ℚ := 300

def Timely (R : Runtime) : Act → Prop
  | .check c => timestamp R c.opened ≠ some .nan
  | .claim c now => now ≤ c.checkedAt + claimDelay
  | _ => True

structure Inv (R : Runtime) (cfg : Config) (s : Traffic) : Prop where
  checked : ∀ c ∈ s.checked, Accepts R cfg c ∧ timestamp R c.opened ≠ some .nan ∧
    c.checkedAt ≤ s.clock
  once : ReplayCache.Once (slotKey R cfg) (firstMoment R cfg) replayRetention s.clock s.db.slots
    (s.claimed.map Checked.blob ++ s.passed)

theorem firstMoment_of_accepts (h : Accepts R cfg c) (hnan : timestamp R c.opened ≠ some .nan) :
    firstMoment R cfg c.blob ≤ c.checkedAt ∧
      c.checkedAt ≤ firstMoment R cfg c.blob + 2 * clockSkewSeconds := by
  obtain ⟨sent, hsent, hnear⟩ := innerTarget_time h.target
  obtain ⟨q, rfl, hclose⟩ := PyFloat.near_of_not_far hnear fun hsent' => hnan (hsent' ▸ hsent)
  have hfirst : firstMoment R cfg c.blob = q - clockSkewSeconds := by
    simp only [firstMoment, h.opens, timestamp, hsent]
  rw [abs_le] at hclose
  constructor <;> linarith

theorem Inv.later {xs : List Checked} (h : Inv R cfg s) (hclock : s.clock ≤ now)
    (hsub : xs ⊆ s.checked) :
    ∀ c ∈ xs, Accepts R cfg c ∧ timestamp R c.opened ≠ some .nan ∧ c.checkedAt ≤ now := by
  intro c hc
  obtain ⟨haccepts, hnan, hle⟩ := h.checked c (hsub hc)
  exact ⟨haccepts, hnan, hle.trans hclock⟩

theorem subperm_served {before after : List Checked} {passed : List Bytes} (executed : Bool) :
    ((before ++ after).map Checked.blob ++ if executed then c.blob :: passed else passed).Subperm
      ((before ++ c :: after).map Checked.blob ++ passed) := by
  simp only [map_append, map_cons, append_assoc, cons_append]
  cases executed with
  | false => exact ((sublist_cons_self _ _).append_left _).subperm
  | true =>
    rw [if_pos rfl]
    exact (List.Perm.append_left _ perm_middle).subperm

theorem step_inv (h : Inv R cfg s) (hstep : Step R I cfg s l s') (htimely : Timely R l) :
    Inv R cfg s' := by
  cases hstep with
  | @check c hclock haccepts =>
    refine ⟨fun x hx => ?_, h.once.wait hclock⟩
    rcases mem_cons.mp hx with rfl | hx
    · exact ⟨haccepts, htimely, le_rfl⟩
    · exact h.later hclock (List.Subset.refl _) x hx
  | @claim c now before after hclock hchecked hfresh =>
    obtain ⟨haccepts, hnan, hle⟩ := h.checked c (by simp [hchecked])
    obtain ⟨hfirst, hlast⟩ := firstMoment_of_accepts haccepts hnan
    have hkey : slotKey R cfg c.blob = R.sha256 c.opened.ephPub := by
      simp only [slotKey, haccepts.opens]
    have hrest : before ++ after ⊆ s.checked := by
      rw [hchecked]
      exact ((sublist_cons_self _ _).append_left _).subset
    refine ⟨h.later hclock hrest, ?_⟩
    rw [slots_claim hfresh, ← hkey]
    refine (h.once.wait hclock).take (hkey ▸ fresh_slots hfresh)
      (hfirst.trans (hle.trans hclock)) ?_
    -- skew on both sides and the delay of the claim fit into the retention
    have hdelay : now ≤ c.checkedAt + claimDelay := htimely
    simp only [claimDelay, clockSkewSeconds, replayRetention] at hdelay hlast ⊢
    linarith
  | @serve c r before after hclaimed =>
    refine ⟨h.checked, ?_⟩
    have honce := h.once
    rw [hclaimed] at honce
    rw [slots_serveClaimed]
    exact honce.subperm (subperm_served _)
  | purge hclock =>
    refine ⟨h.later hclock (List.Subset.refl _), ?_⟩
    rw [slots_purge]
    exact (h.once.wait hclock).purge
  | other hclock hreplay hchecked hclaimed hpassed =>
    refine ⟨h.later hclock hchecked.subset, ?_⟩
    rw [Database.slots, hreplay, hpassed]
    exact (h.once.wait hclock).subperm ((hclaimed.map _).append_right _).subperm

def Traffic.start (clock : ℚ) (db : Database) : Traffic := ⟨clock, db, [], [], []⟩

theorem run_of_sealedCall {o : Outer} {blob : Bytes} {call : InnerCall} {clock : ℚ}
    (passed : List Bytes) (h : (sealedCall R I cfg r o blob db).1.outcome = .executed call)
    (hclock : clock ≤ r.checkedAt) (hlater : r.checkedAt ≤ r.claimedAt) :
    ∃ c es, openRequest R cfg.keys blob = .ok c.opened ∧ c.checkedAt = r.checkedAt ∧
      es.map Event.label = [.check c, .claim c r.claimedAt, .serve c] ∧
      Run (Step R I cfg) ⟨clock, db, [], [], passed⟩ es
        ⟨r.claimedAt, (sealedCall R I cfg r o blob db).2, [], [], blob :: passed⟩ := by
  obtain ⟨e, hopen, hkeys, hfits, hcall⟩ := sealedCall_executed h
  rw [hcall] at h ⊢
  obtain ⟨t, ht, hfresh⟩ := callOpened_executed h
  let c : Checked := ⟨o, blob, e, t, r.checkedAt⟩
  have hclaim : (db.claim (R.sha256 e.ephPub) r.claimedAt).2 =
      db.withSlots (db.replay ++ [⟨R.sha256 e.ephPub, r.claimedAt⟩]) := by
    rw [Database.claim, if_pos hfresh]
  have hserve : callOpened R I cfg r o e db =
      serveClaimed R I cfg r c (db.claim (R.sha256 e.ephPub) r.claimedAt).2 := by
    rw [callOpened_of_fresh ht hfresh, hclaim]
    rfl
  have hexecuted : (callOpened R I cfg r o e db).1.outcome.isExecuted = true := by
    rw [h]
    rfl
  have hcheck : Step R I cfg ⟨clock, db, [], [], passed⟩ (.check c)
      ⟨r.checkedAt, db, [c], [], passed⟩ := .check hclock ⟨hkeys, hfits, hopen, ht⟩
  have hclaimed : Step R I cfg ⟨r.checkedAt, db, [c], [], passed⟩ (.claim c r.claimedAt)
      ⟨r.claimedAt, (db.claim (R.sha256 e.ephPub) r.claimedAt).2, [], [c], passed⟩ :=
    @Step.claim R I cfg ⟨r.checkedAt, db, [c], [], passed⟩ c r.claimedAt [] [] hlater rfl hfresh
  have hserved := @Step.serve R I cfg
    ⟨r.claimedAt, (db.claim (R.sha256 e.ephPub) r.claimedAt).2, [], [c], passed⟩ c r [] [] rfl
  simp only [← hserve, hexecuted, if_true, append_nil] at hserved
  refine ⟨c, _, hopen, rfl, ?_, ((Run.nil.snoc hcheck).snoc hclaimed).snoc hserved⟩
  rfl

theorem run_of_two_calls {r' : Readings} {o : Outer} {blob : Bytes} {call call' : InnerCall}
    (h : (sealedCall R I cfg r o blob db).1.outcome = .executed call)
    (h' : (sealedCall R I cfg r' o blob ((sealedCall R I cfg r o blob db).2.purge
      r'.checkedAt)).1.outcome = .executed call') (hclaim : r.checkedAt ≤ r.claimedAt)
    (hpurge : r.claimedAt ≤ r'.checkedAt) (hclaim' : r'.checkedAt ≤ r'.claimedAt) :
    ∃ es s, Run (Step R I cfg) (.start r.checkedAt db) es s ∧ s.passed = [blob, blob] := by
  obtain ⟨-, es, -, -, -, hrun⟩ := run_of_sealedCall [] h le_rfl hclaim
  obtain ⟨-, es', -, -, -, hrun'⟩ := run_of_sealedCall [blob] h' le_rfl hclaim'
  exact ⟨_, _, (hrun.snoc (.purge hpurge)).trans hrun', rfl⟩

/-- **No envelope is passed on twice**, in any interleaving of calls and purges whose timestamps are
no NaN and whose slots are claimed soon after the check. -/
theorem passed_once {clock : ℚ} {db : Database} (h : Run (Step R I cfg) (.start clock db) es s)
    (htimely : ∀ e ∈ es, Timely R e.label) : s.passed.Nodup := by
  have hinv : (∀ e ∈ es, Timely R e.label) → Inv R cfg s := by
    refine h.history (fun es s => (∀ e ∈ es, Timely R e.label) → Inv R cfg s) ?_ ?_
    · intro _
      exact ⟨by simp [Traffic.start], ReplayCache.once_nil⟩
    · intro es s l s' ih hstep hall
      have hprefix : ∀ e ∈ es, Timely R e.label := fun e he => hall e (mem_append_left _ he)
      exact step_inv (ih hprefix) hstep (hall ⟨s, l, s'⟩ (by simp))
  exact ((hinv htimely).once.nodup.sublist (sublist_append_right _ _))

open CallSample in
theorem sample_passed_once : ∃ es s,
    Run (Step runtime issuer (config false)) (.start 0 database) es s ∧
    s.passed = [envelope "0"] ∧ s.passed.Nodup := by
  have hexecuted : (sealedCall runtime issuer (config false) readings (outer []) (envelope "0")
      database).1.outcome = .executed (innerCall (outer []) [] false) := by
    decide +kernel
  obtain ⟨c, es, hopen, hchecked, hlabels, hrun⟩ :=
    run_of_sealedCall [] hexecuted (le_refl 0) (le_refl 0)
  have htimestamp : (openRequest runtime (config false).keys (envelope "0")).toOption.all
      (fun e => timestamp runtime e != some .nan) = true := by
    decide +kernel
  have htimely : ∀ e ∈ es, Timely runtime e.label := by
    intro e he
    have hlabel : e.label ∈ es.map Event.label := mem_map_of_mem he
    rw [hlabels] at hlabel
    simp only [mem_cons, not_mem_nil, or_false] at hlabel
    rcases hlabel with hlabel | hlabel | hlabel <;> rw [hlabel]
    · rw [hopen] at htimestamp
      simpa [Except.toOption, Timely] using htimestamp
    · change readings.claimedAt ≤ c.checkedAt + claimDelay
      rw [hchecked]
      norm_num [readings, claimDelay]
    · trivial
  exact ⟨es, _, hrun, rfl, passed_once hrun htimely⟩

open CallSample in
/-- NaN is close to every time: once its slot is purged, the envelope is passed on again. -/
theorem passed_again : ∃ es s, Run (Step runtime issuer (config false))
    (.start readings.checkedAt database) es s ∧
    s.passed = [envelope "NaN", envelope "NaN"] := by
  have hfirst : (sealedCall runtime issuer (config false) readings (outer []) (envelope "NaN")
      database).1.outcome = .executed (innerCall (outer []) [] false) := by
    decide +kernel
  have hsecond : (sealedCall runtime issuer (config false) laterReadings (outer []) (envelope "NaN")
      ((sealedCall runtime issuer (config false) readings (outer []) (envelope "NaN")
        database).2.purge laterReadings.checkedAt)).1.outcome =
          .executed (innerCall (outer []) [] false) := by
    decide +kernel
  have hlater : readings.claimedAt ≤ laterReadings.checkedAt := by decide +kernel
  exact run_of_two_calls hfirst hsecond le_rfl hlater le_rfl

end Once

end ManagedDirectory.Sealed
