import ManagedDirectory.Updates.Manifests

/-!
# The long poll

`waitForChange` is `POST /v1/device/wait`: it answers when a version differs from the client's copy,
when the client has none, or at its deadline, and sleeps between two checks. `wait_seconds` is any
JSON value; it is converted to a `float` and clamped.

The loop is run for a number of rounds against the readings of a clock (`Clock`). `wait_ends_iff`
says for which payloads 26 rounds are always enough; NaN passes the clamp, and no reading is at or
after a deadline that is NaN (`nan_never_ends`).
-/

namespace ManagedDirectory.Updates

open Codec Lib

/-- `float(value)` of a value that `json.loads` returned. -/
def Python.float (py : Python) : Json → Except Raised PyFloat
  | .null => .error .type
  | .bool b => .ok (.fin (if b then 1 else 0))
  | .int neg n =>
    if floatLimit ≤ n then .error .overflow else .ok (.fin (if neg then -(n : ℚ) else n))
  | .float neg m e => .ok (py.literal neg m e)
  | .special .nan => .ok .nan
  | .special .inf => .ok .inf
  | .special .negInf => .ok .negInf
  | .str s => orRefuse (py.unicode.floatOfText s) .value
  | .arr _ => .error .type
  | .obj _ => .error .type

theorem Python.float_error {py : Python} {value : Json} {e : Raised}
    (h : py.float value = .error e) : e = .type ∨ e = .value ∨ e = .overflow := by
  cases value with
  | int neg n =>
    simp only [Python.float] at h
    split_ifs at h
    cases h
    exact .inr (.inr rfl)
  | str s =>
    obtain ⟨-, rfl⟩ := orRefuse_eq_error.mp h
    exact .inr (.inl rfl)
  | special k => cases k <;> cases h
  | null | arr xs | obj kvs =>
    cases h
    exact .inl rfl
  | bool b | float neg m e => cases h

end ManagedDirectory.Updates

namespace ManagedDirectory.Sync

open Codec Lib
open Updates (Python Raised)

/-! ## The handler -/

def waitMaxSeconds : ℚ := 50

def waitCheckSeconds : ℚ := 2

abbrev Payload := List (Text × Json)

/-- What `versions_for` returns. -/
structure Versions where
  directory : Text
  build : Int
  drops : Int
  log : Bool
  status : Text
  deriving DecidableEq

/-- `known[key] != versions[key]` if the key is one of the versions. -/
def Versions.differs (py : Python) (v : Versions) (key : Text) (value : Json) : Bool :=
  if key = codePoints "directory" then asStr (some value) ≠ some v.directory
  else if key = codePoints "build" then !py.equalsInt value v.build
  else if key = codePoints "drops" then !py.equalsInt value v.drops
  else if key = codePoints "log" then !py.equalsInt value (if v.log then 1 else 0)
  else if key = codePoints "status" then asStr (some value) ≠ some v.status
  else false

/-- `payload.get("known")` if it is a dictionary. -/
def known (payload : Payload) : Payload :=
  match dictGet "known" payload with
  | some (.obj kvs) => kvs
  | _ => []

def lastValue (key : Text) (kvs : Payload) : Option Json :=
  (kvs.reverse.find? fun kv => kv.1 == key).map Prod.snd

def changedKeys (py : Python) (v : Versions) (known : Payload) : List Text :=
  (known.map Prod.fst).eraseDups.filter fun key => (lastValue key known).any (v.differs py key)

/-- `payload.get("wait_seconds") or WAIT_MAX_SECONDS`. -/
def requestedWait (py : Python) (payload : Payload) : Json :=
  ((dictGet "wait_seconds" payload).filter py.truthy).getD (.int false 50)

def waitSeconds (py : Python) (payload : Payload) : Except Raised PyFloat :=
  match py.float (requestedWait py payload) with
  | .ok x => .ok ((x.max (.fin 0)).min (.fin waitMaxSeconds))
  | .error .type => .ok (.fin waitMaxSeconds)
  | .error .value => .ok (.fin waitMaxSeconds)
  | .error e => .error e

/-- The readings of `time.monotonic()`: before the loop, and in each round at the test of the
deadline and, if the round goes on, before the sleep. -/
structure Clock where
  start : ℚ
  tested : Nat → ℚ
  paused : Nat → ℚ

def Clock.deadline (c : Clock) (wait : PyFloat) : PyFloat := (PyFloat.fin c.start).add wait

/-- What is passed to `asyncio.sleep`. -/
def sleepSeconds (deadline : PyFloat) (now : ℚ) : PyFloat :=
  (PyFloat.fin waitCheckSeconds).min ((deadline.sub (.fin now)).max (.fin 0))

structure WaitAnswer where
  changed : List Text
  versions : Versions
  deriving DecidableEq

/-- The loop, for so many rounds from round `k` on; `none` if it goes on after them. -/
def waitLoop (py : Python) (v : Versions) (known : Payload) (deadline : PyFloat) (c : Clock) :
    (rounds k : Nat) → Option WaitAnswer
  | 0, _ => none
  | rounds + 1, k =>
    if changedKeys py v known ≠ [] ∨ known = [] ∨ (PyFloat.fin (c.tested k)).ge deadline = true then
      some ⟨changedKeys py v known, v⟩
    else waitLoop py v known deadline c rounds (k + 1)

/-- `wait_for_change` while the versions stay what they are. -/
def waitForChange (py : Python) (v : Versions) (payload : Payload) (c : Clock) (rounds : Nat) :
    Except Raised (Option WaitAnswer) := do
  let wait ← waitSeconds py payload
  pure (waitLoop py v (known payload) (c.deadline wait) c rounds 0)

/-! ## Rounds -/

/-- A clock that goes on by at least the requested sleep in each round. -/
structure Clock.Advances (c : Clock) (deadline : PyFloat) : Prop where
  started : c.start ≤ c.tested 0
  test : ∀ k, c.tested k ≤ c.paused k
  sleep : ∀ k, (PyFloat.fin (c.tested (k + 1) - c.paused k)).ge
    (sleepSeconds deadline (c.paused k)) = true

section Rounds

variable {py : Python} {v : Versions} {payload known : Payload} {deadline : PyFloat} {c : Clock}

theorem sleepSeconds_fin (d now : ℚ) :
    sleepSeconds (.fin d) now = .fin (min waitCheckSeconds (max (d - now) 0)) := by
  rw [sleepSeconds, PyFloat.sub, PyFloat.max_fin, PyFloat.min_fin]

theorem Clock.Advances.tested_ge {d : ℚ} (h : c.Advances (.fin d)) (k : Nat) :
    min d (c.start + waitCheckSeconds * k) ≤ c.tested k := by
  induction k with
  | zero => simpa using .inr h.started
  | succ k ih =>
    have hsleep := h.sleep k
    rw [sleepSeconds_fin, PyFloat.ge_fin] at hsleep
    have htest := h.test k
    have hnow : min d (c.start + waitCheckSeconds * k) ≤ c.paused k := ih.trans htest
    push_cast
    rcases le_total waitCheckSeconds (max (d - c.paused k) 0) with hlong | hshort
    · rw [min_eq_left hlong] at hsleep
      rcases min_le_iff.mp hnow with hd | hrounds
      · exact min_le_iff.mpr (.inl (by simp only [waitCheckSeconds] at hsleep; linarith))
      · exact min_le_iff.mpr (.inr (by simp only [waitCheckSeconds] at hsleep hrounds ⊢; linarith))
    · rw [min_eq_right hshort] at hsleep
      have hremaining := le_max_left (d - c.paused k) 0
      exact min_le_iff.mpr (.inl (by linarith))

theorem waitLoop_of_test {rounds k i : Nat} (hi : i < rounds)
    (htest : changedKeys py v known ≠ [] ∨ known = [] ∨
      (PyFloat.fin (c.tested (k + i))).ge deadline = true) :
    ∃ answer, waitLoop py v known deadline c rounds k = some answer := by
  induction rounds generalizing k i with
  | zero => exact absurd hi (Nat.not_lt_zero i)
  | succ rounds ih =>
    rw [waitLoop]
    split_ifs with hnow
    · exact ⟨_, rfl⟩
    · cases i with
      | zero => exact absurd htest hnow
      | succ i =>
        refine ih (Nat.lt_of_succ_lt_succ hi) ?_
        rwa [Nat.add_right_comm]

theorem waitLoop_none (h : ∀ k, ¬ (changedKeys py v known ≠ [] ∨ known = [] ∨
      (PyFloat.fin (c.tested k)).ge deadline = true)) (rounds k : Nat) :
    waitLoop py v known deadline c rounds k = none := by
  induction rounds generalizing k with
  | zero => rfl
  | succ rounds ih => rw [waitLoop, if_neg (h k), ih]

def steadyClock : Clock := ⟨0, fun k => 2 * k, fun k => 2 * k⟩

theorem steadyClock_advances (deadline : PyFloat) : steadyClock.Advances deadline := by
  refine ⟨by simp [steadyClock], fun _ => le_rfl, fun k => ?_⟩
  have hstep : steadyClock.tested (k + 1) - steadyClock.paused k = waitCheckSeconds := by
    simp only [steadyClock, waitCheckSeconds]
    push_cast
    ring
  rw [hstep]
  exact PyFloat.ge_min _

/-! ## Which payloads -/

theorem waitSeconds_of_number {x : PyFloat} (h : py.float (requestedWait py payload) = .ok x) :
    waitSeconds py payload = .ok ((x.max (.fin 0)).min (.fin waitMaxSeconds)) := by
  rw [waitSeconds, h]

theorem waitSeconds_of_nan (h : py.float (requestedWait py payload) = .ok .nan) :
    waitSeconds py payload = .ok .nan := by
  rw [waitSeconds_of_number h, PyFloat.clamp_nan]

theorem waitSeconds_within (hrange : py.float (requestedWait py payload) ≠ .error .overflow)
    (hnan : py.float (requestedWait py payload) ≠ .ok .nan) :
    ∃ q, waitSeconds py payload = .ok (.fin q) ∧ q ≤ waitMaxSeconds := by
  cases h : py.float (requestedWait py payload) with
  | ok x =>
    have hbounds : (0 : ℚ) ≤ waitMaxSeconds := by norm_num [waitMaxSeconds]
    obtain ⟨q, hq, -, hle⟩ := PyFloat.clamp_spec (fun hx => hnan (hx ▸ h)) hbounds
    exact ⟨q, hq ▸ waitSeconds_of_number h, hle⟩
  | error e =>
    refine ⟨waitMaxSeconds, ?_, le_rfl⟩
    rcases Python.float_error h with rfl | rfl | rfl
    · rw [waitSeconds, h]
    · rw [waitSeconds, h]
    · exact absurd h hrange

theorem waitSeconds_of_overflow (h : py.float (requestedWait py payload) = .error .overflow) :
    waitSeconds py payload = .error .overflow := by
  rw [waitSeconds, h]

theorem deadline_nan (c : Clock) : c.deadline .nan = .nan := rfl

theorem deadline_fin (c : Clock) (q : ℚ) : c.deadline (.fin q) = .fin (c.start + q) := by
  simp [Clock.deadline, PyFloat.add, PyFloat.neg, PyFloat.sub]

/-- **Which long polls end.** While the versions stay as they are, a poll returns within 26 rounds on
every clock that goes on by at least the requested sleeps exactly when `wait_seconds` is no integer
beyond the range of a `float`, and it is not NaN or the poll has its answer in the first round. -/
theorem wait_ends_iff (py : Python) (v : Versions) (payload : Payload) :
    (∀ c : Clock, (∀ wait, waitSeconds py payload = .ok wait → c.Advances (c.deadline wait)) →
      ∃ answer, waitForChange py v payload c 26 = .ok (some answer)) ↔
    py.float (requestedWait py payload) ≠ .error .overflow ∧
      (py.float (requestedWait py payload) ≠ .ok .nan ∨ Sync.known payload = [] ∨
        changedKeys py v (Sync.known payload) ≠ []) := by
  constructor
  · intro hends
    obtain ⟨answer, hanswer⟩ := hends steadyClock fun _ _ => steadyClock_advances _
    refine ⟨fun hover => ?_, ?_⟩
    · rw [waitForChange, waitSeconds_of_overflow hover] at hanswer
      cases hanswer
    · by_contra hstuck
      simp only [not_or, not_not] at hstuck
      obtain ⟨hnan, hknown, hchanged⟩ := hstuck
      have hnone : waitForChange py v payload steadyClock 26 = .ok none := by
        rw [waitForChange, waitSeconds_of_nan hnan]
        exact congrArg Except.ok (waitLoop_none (fun k => by
          simp [hknown, hchanged, deadline_nan]) 26 0)
      rw [hnone] at hanswer
      cases hanswer
  · rintro ⟨hrange, hend⟩ c hclock
    by_cases hnan : py.float (requestedWait py payload) = .ok .nan
    · obtain ⟨answer, hanswer⟩ := @waitLoop_of_test py v (Sync.known payload) (c.deadline .nan) c 26 0
        0 (by decide) (by tauto)
      refine ⟨answer, ?_⟩
      rw [waitForChange, waitSeconds_of_nan hnan]
      exact congrArg Except.ok hanswer
    · obtain ⟨q, hq, hle⟩ := waitSeconds_within hrange hnan
      have hadvances := hclock _ hq
      rw [deadline_fin] at hadvances
      have htested := hadvances.tested_ge 25
      have hlast : (PyFloat.fin (c.tested (0 + 25))).ge (c.deadline (.fin q)) = true := by
        rw [deadline_fin, PyFloat.ge_fin]
        refine le_trans (le_min le_rfl ?_) htested
        simp only [waitCheckSeconds, waitMaxSeconds] at hle ⊢
        push_cast
        linarith
      obtain ⟨answer, hanswer⟩ := @waitLoop_of_test py v (Sync.known payload) (c.deadline (.fin q)) c
        26 0 25 (by decide) (.inr (.inr hlast))
      refine ⟨answer, ?_⟩
      rw [waitForChange, hq]
      exact congrArg Except.ok hanswer

end Rounds

/-- A poll with a version to compare and `"wait_seconds": NaN`. -/
def nanPayload : Payload :=
  [(codePoints "known", .obj [(codePoints "other", .null)]),
    (codePoints "wait_seconds", .special .nan)]

/-- A client that asks for NaN seconds is never answered. -/
theorem nan_never_ends : ∃ payload c, ∀ (py : Python) (v : Versions) (rounds : Nat),
    (∀ wait, waitSeconds py payload = .ok wait → c.Advances (c.deadline wait)) ∧
      waitForChange py v payload c rounds = .ok none := by
  refine ⟨nanPayload, steadyClock, fun py v rounds => ⟨fun _ _ => steadyClock_advances _, ?_⟩⟩
  have hnan : py.float (requestedWait py nanPayload) = .ok .nan := rfl
  rw [waitForChange, waitSeconds_of_nan hnan]
  refine congrArg Except.ok (waitLoop_none (fun k => ?_) rounds 0)
  have hknown : known nanPayload = [(codePoints "other", .null)] := rfl
  have hchanged : changedKeys py v [(codePoints "other", .null)] = [] := rfl
  simp [hknown, hchanged, deadline_nan]

end ManagedDirectory.Sync
