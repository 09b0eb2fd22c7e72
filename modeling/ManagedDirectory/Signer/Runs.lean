import ManagedDirectory.Signer.Effects
import ManagedDirectory.Lib.Run

/-!
# Runs of the signer

What happens to the signer between two looks at it: a job, a check whether the issuing key is due
for rotation, or a restart, which reloads the last saved state file. A panic in a job ends the
process, so the next thing is a restart; runs that go on without one only add behaviour.
-/

namespace ManagedDirectory.CaSigner

open Codec Lib Passport

variable {C : Crypto} {s s' : Signer}

structure Processed where
  job : Job
  env : Env
  answer : Option JobResult

def JobStep (C : Crypto) (s : Signer) (p : Processed) (s' : Signer) : Prop :=
  process C p.job p.env s = (p.answer, s')

theorem jobStep_process (C : Crypto) (job : Job) (env : Env) (s : Signer) :
    JobStep C s ⟨job, env, (process C job env s).1⟩ (process C job env s).2 := rfl

theorem JobStep.effect {p : Processed} (h : JobStep C s p s') :
    Effect C p.job p.env s p.answer s' := by
  have := process_effect C p.job p.env s
  rwa [h] at this

inductive Act where
  | job (p : Processed)
  | rotate (env : RotateEnv)
  | restart (env : StartEnv)

def ActStep (C : Crypto) (root : Bytes) (s : Signer) : Act → Signer → Prop
  | .job p, s' => JobStep C s p s'
  | .rotate env, s' => s' = rotateIfNeeded C root env s
  | .restart env, s' => s' = CaSigner.restart C root env s

def jobEvent (C : Crypto) (job : Job) (env : Env) (s : Signer) : Event Signer Act :=
  ⟨s, .job ⟨job, env, (process C job env s).1⟩, (process C job env s).2⟩

theorem run_jobEvent {root : Bytes} {s₀ : Signer} {es : List (Event Signer Act)}
    (h : Run (ActStep C root) s₀ es s) (job : Job) (env : Env) :
    Run (ActStep C root) s₀ (es ++ [jobEvent C job env s]) (jobEvent C job env s).after :=
  .snoc h (jobStep_process C job env s)

/-! ## The clock -/

/-- The readings of one job, in the order the handlers make them. A handler that makes fewer
leaves the others to be filled in. -/
def Env.readings (env : Env) : List Int :=
  [env.fresh.toInt, env.nonce.toInt, env.rate.toInt, env.record.toInt, env.issue.toInt,
    env.logged.toInt, env.refused.toInt]

def Act.readings : Act → List Int
  | .job p => p.env.readings
  | .rotate env => [env.now.toInt, env.created.toInt, env.logged.toInt]
  | .restart env => [env.created.toInt, env.logged.toInt]

def readings (es : List (Event Signer Act)) : List Int := es.flatMap fun e => e.label.readings

theorem readings_snoc (es : List (Event Signer Act)) (e : Event Signer Act) :
    readings (es ++ [e]) = readings es ++ e.label.readings := by
  simp [readings]

/-- `now()` counts seconds since 1970 and never goes back. -/
structure SteadyClock (es : List (Event Signer Act)) : Prop where
  sorted : (readings es).Pairwise (· ≤ ·)
  range : ∀ t ∈ readings es, 0 ≤ t ∧ t < 2 ^ 62

theorem SteadyClock.before {es : List (Event Signer Act)} {e : Event Signer Act}
    (h : SteadyClock (es ++ [e])) : SteadyClock es := by
  obtain ⟨hsorted, hrange⟩ := h
  rw [readings_snoc] at hsorted hrange
  exact ⟨(List.pairwise_append.mp hsorted).1, fun t ht => hrange t (List.mem_append_left _ ht)⟩

theorem SteadyClock.le_last {es : List (Event Signer Act)} {e : Event Signer Act}
    (h : SteadyClock (es ++ [e])) {t u : Int} (ht : t ∈ readings es) (hu : u ∈ e.label.readings) :
    t ≤ u := by
  have hsorted := h.sorted
  rw [readings_snoc] at hsorted
  exact (List.pairwise_append.mp hsorted).2.2 t ht u hu

/-! ## One device -/

namespace Sample

def did : String := "6f1c2a3b-0000-4000-8000-000000000001"

def device : Device where
  rid := "123456789"
  did := did
  name := "workshop"
  idk := b64 (firstBytes 32 [3])
  idkAlg := "ed25519"
  rdk := b64 (firstBytes 32 [9])
  prot := "legacy"
  status := .approved
  approvedBy := "owner (owner, panel)"
  approvedSource := "panel"
  firstSeen := 1000
  lastIssued := 1000
  recentIssues := []

def config : Config := ⟨7, 30, 10⟩

def signer : Signer where
  cfg := config
  state := State.empty.insert did device
  saved := State.empty.insert did device
  log := []
  keys := Keys.new prefixCrypto [1] [2] 1000 30
  mails := []

def envAt (t : Int64) : Env where
  fresh := t
  nonce := t
  rate := t
  record := t
  issue := t
  logged := t
  refused := t
  serial := List.replicate 16 7
  serial_length := rfl
  append := none
  save := none
  appendRefused := true
  jsonError := ""

def revokeJob : Job where
  id := 1
  kind := "revoke"
  payload := .obj [(codePoints "rid", .str (codePoints "987654321")),
    (codePoints "did", .str (codePoints did)), (codePoints "reason", .str (codePoints "lost"))]

end Sample

end ManagedDirectory.CaSigner
