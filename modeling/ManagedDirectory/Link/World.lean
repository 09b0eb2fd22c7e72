import ManagedDirectory.Rds.Ops
import ManagedDirectory.Rds.Wire
import ManagedDirectory.Signer.Custody
import ManagedDirectory.Signer.Progress

/-!
# RDS and the signer

The two programs and the link between them as one system. The signer polls for a batch of jobs,
answers one after the other and posts the answers together; a poll's response and a post may be
lost, RDS may refuse a post, and the signer may panic or be restarted at any point. Meanwhile RDS
goes on by itself.

`worldStep_job` says once what a step does to a row of the queue. `origin_of_run`: every row, and
every job the signer has in its hands, was queued by an operation of RDS before, under an id that no
other job ever had.
-/

namespace ManagedDirectory.Link

open Codec Lib Passport
open Rds (Db Op CaJob Platform JobBody QueuedBy SameJob after afterOps opsOk step_after)
open CaSigner (Signer Env)

structure World where
  rds : Db
  ca : Signer
  inbox : List CaJob
  outbox : List CaSigner.JobResult

/-- A job as `get_jobs` sends it. -/
def wireJob (j : CaJob) : CaSigner.Job := ⟨Int64.ofNat j.id, j.body.kind, j.body.payload⟩

inductive Label where
  | rds (op : Op)
  | poll (now : Int) (arrived : Bool)
  | process (job : CaJob) (env : Env) (answer : Option CaSigner.JobResult)
  | post (now : Int) (stored : Bool)
  | rotate (env : CaSigner.RotateEnv)
  | restart (env : CaSigner.StartEnv)

def Own : Op → Prop
  | .poll _ => False
  | .result _ _ => False
  | _ => True

def World.Idle (w : World) : Prop := w.inbox = [] ∧ w.outbox = []

inductive WorldStep (P : Platform) (C : Crypto) (root : Bytes) (w : World) :
    Label → World → Prop where
  | rds {op : Op} {db : Db} (hop : Own op) (hstep : Rds.Step P w.rds op db) :
    WorldStep P C root w (.rds op) { w with rds := db }
  | poll {now : Int} {arrived : Bool} (hidle : w.Idle) :
    WorldStep P C root w (.poll now arrived)
      { w with
        rds := (Rds.getJobs now w.rds).2
        inbox := if arrived then (Rds.getJobs now w.rds).1 else [] }
  | process {j : CaJob} {rest : List CaJob} {env : Env} {r : CaSigner.JobResult} {ca : Signer}
      (hinbox : w.inbox = j :: rest)
      (hprocess : CaSigner.process C (wireJob j) env w.ca = (some r, ca)) :
    WorldStep P C root w (.process j env (some r))
      { w with ca := ca, inbox := rest, outbox := w.outbox ++ [r] }
  | panic {j : CaJob} {rest : List CaJob} {env : Env} {ca : Signer} (hinbox : w.inbox = j :: rest)
      (hprocess : CaSigner.process C (wireJob j) env w.ca = (none, ca)) :
    WorldStep P C root w (.process j env none)
      { w with ca := { ca with state := ca.saved }, inbox := [], outbox := [] }
  | post {now : Int} {db : Db} (hdone : w.inbox = []) (hsome : w.outbox ≠ [])
      (hstored : Rds.postResults P (w.outbox.map Rds.JobResult.ofSigner) now w.rds = .ok db) :
    WorldStep P C root w (.post now true) { w with rds := db, outbox := [] }
  | postLost {now : Int} (hdone : w.inbox = []) (hsome : w.outbox ≠ []) :
    WorldStep P C root w (.post now false) { w with outbox := [] }
  | rotate {env : CaSigner.RotateEnv} (hidle : w.Idle) :
    WorldStep P C root w (.rotate env) { w with ca := CaSigner.rotateIfNeeded C root env w.ca }
  | restart {env : CaSigner.StartEnv} :
    WorldStep P C root w (.restart env)
      { w with ca := CaSigner.restart C root env w.ca, inbox := [], outbox := [] }

abbrev WorldEv := Event World Label

def World.start (C : Crypto) (root : Bytes) (cfg : CaSigner.Config) (env : CaSigner.StartEnv)
    (settings : Rds.Settings) (owners : List String) : World where
  rds := ⟨Table.empty _, Rds.Queue.empty, Table.empty _, Table.empty _, owners, settings⟩
  ca := CaSigner.restart C root env ⟨cfg, .empty, .empty, [],
    CaSigner.Keys.new C root env.seed env.created cfg.issuingKeyDays, []⟩
  inbox := []
  outbox := []

/-! ## Rows of the queue -/

/-- What one step does to row `id` of the queue. -/
inductive RowChange (P : Platform) (l : Label) (db : Db) (id : Nat) :
    Option CaJob → Option CaJob → Prop where
  | absent : RowChange P l db id none none
  | same {j j' : CaJob} (h : SameJob j j') : RowChange P l db id (some j) (some j')
  | queued {op : Op} {did : String} {body : JobBody} (hl : l = .rds op) (hnew : db.queue.next ≤ id)
      (hby : QueuedBy P op db did body) :
    RowChange P l db id none (some ⟨id, did, body, none, none, none, none⟩)
  | removed {j : CaJob} (hl : l = .rds (.delete j.deviceId)) : RowChange P l db id (some j) none

section Rows

variable {P : Platform} {C : Crypto} {root : Bytes} {w w' w₀ : World} {l : Label}
  {es : List WorldEv} {id : Nat} {j : CaJob} {db db' : Db}

theorem rid_did_of_devicePayload {d : Rds.ManagedDevice} {p : CaSigner.DeviceIn}
    (h : Rds.devicePayload d = some p) : p.rid = d.rustdeskId ∧ p.did = d.id := by
  unfold Rds.devicePayload at h
  split_ifs at h
  cases h
  exact ⟨rfl, rfl⟩

theorem own_of_queuedBy {op : Op} {did : String} {body : JobBody} (h : QueuedBy P op db did body) :
    Own op := by
  cases h with
  | approval hop | revocation hop | bootstrap hop | request hop =>
    rw [hop]
    trivial

theorem RowChange.refl (o : Option CaJob) : RowChange P l db id o o := by
  cases o with
  | none => exact .absent
  | some j => exact .same (.refl j)

theorem rowChange_of_op {op : Op} (h : Rds.Step P db op db') (id : Nat) :
    RowChange P (.rds op) db id (db.job id) (db'.job id) := by
  have hchange := (Rds.step_effect h).job id
  generalize db.job id = a at hchange ⊢
  generalize db'.job id = b at hchange ⊢
  cases hchange with
  | absent => exact .absent
  | kept => exact .same (.refl _)
  | picked _ _ => exact .same (.pick _ _)
  | answered _ _ _ => exact .same (.answer _ _ _ _)
  | queued hnew hby => exact .queued rfl hnew hby
  | removed hop => exact .removed (by rw [hop])

theorem rowChange_of_results {rs : List Rds.JobResult} {now : Int}
    (h : rs.foldlM (Rds.applyResult P now) db = .ok db') (id : Nat) :
    (db'.job id = none ∧ db.job id = none ∨
      ∃ j j', db.job id = some j ∧ db'.job id = some j' ∧ SameJob j j') ∧
      db.queue.next ≤ db'.queue.next := by
  induction rs generalizing db with
  | nil =>
    obtain rfl := pure_ok_iff.mp h
    refine ⟨?_, Nat.le_refl _⟩
    cases hjob : db.job id with
    | none => exact .inl ⟨rfl, rfl⟩
    | some j => exact .inr ⟨j, j, rfl, rfl, .refl j⟩
  | cons r rs ih =>
    rw [List.foldlM_cons, bind_ok_iff] at h
    obtain ⟨mid, hr, hrest⟩ := h
    obtain ⟨hlast, hnext⟩ := ih hrest
    have heffect := Rds.step_effect (show Rds.Step P db (.result r now) mid from hr)
    refine ⟨?_, Nat.le_trans heffect.next_le hnext⟩
    have hfirst := rowChange_of_op (show Rds.Step P db (.result r now) mid from hr) id
    generalize hmid : mid.job id = b at hfirst hlast
    generalize db.job id = a at hfirst ⊢
    cases hfirst with
    | absent => exact hlast.imp (fun hn => ⟨hn.1, rfl⟩) (fun ⟨_, _, hc, _⟩ => by cases hc)
    | same hsame =>
      rcases hlast with ⟨-, hnone⟩ | ⟨j, j', hj, hj', hsame'⟩
      · cases hnone
      · cases hj
        exact .inr ⟨_, j', rfl, hj', hsame.trans hsame'⟩
    | queued hl _ hby =>
      cases hl
      exact (own_of_queuedBy hby).elim
    | removed hl => cases hl

/-- **What a step does to a row of the queue.** -/
theorem worldStep_job (h : WorldStep P C root w l w') (id : Nat) :
    RowChange P l w.rds id (w.rds.job id) (w'.rds.job id) := by
  cases h with
  | rds _ hstep => exact rowChange_of_op hstep id
  | @poll now arrived _ =>
    have hchange : Rds.JobChange P (.poll now) w.rds id (w.rds.job id)
        ((Rds.getJobs now w.rds).2.job id) := (Rds.poll_effect now).job id
    simp only
    generalize w.rds.job id = a at hchange ⊢
    generalize (Rds.getJobs now w.rds).2.job id = b at hchange ⊢
    cases hchange with
    | absent => exact .absent
    | kept => exact .same (.refl _)
    | picked _ _ => exact .same (.pick _ _)
    | answered hop _ _ => cases hop
    | queued _ hby => exact (own_of_queuedBy hby).elim
    | removed hop => cases hop
  | post _ _ hstored =>
    have hrows := (rowChange_of_results (Rds.postResults_ok hstored) id).1
    rcases hrows with ⟨hnone', hnone⟩ | ⟨j, j', hj, hj', hsame⟩
    · rw [hnone, hnone']
      exact .absent
    · rw [hj, hj']
      exact .same hsame
  | _ => exact .refl _

theorem next_le_of_step (h : WorldStep P C root w l w') :
    w.rds.queue.next ≤ w'.rds.queue.next := by
  cases h with
  | rds _ hstep => exact (Rds.step_effect hstep).next_le
  | poll _ => exact Nat.le_refl _
  | post _ _ hstored => exact (rowChange_of_results (Rds.postResults_ok hstored) 0).2
  | _ => exact Nat.le_refl _

theorem inbox_of_step (h : WorldStep P C root w l w') (hj : j ∈ w'.inbox) :
    j ∈ w.inbox ∨ w.rds.job j.id = some j := by
  cases h with
  | @poll now arrived hidle =>
    cases arrived with
    | false => simp at hj
    | true => exact .inr (Rds.mem_dueJobs (by simpa [Rds.getJobs] using hj)).1
  | process hinbox _ =>
    rw [hinbox]
    exact .inl (List.mem_cons_of_mem _ hj)
  | panic _ _ => simp at hj
  | restart => simp at hj
  | _ => exact .inl hj

theorem process_of_step {env : Env} {answer : Option CaSigner.JobResult}
    (h : WorldStep P C root w (.process j env answer) w') :
    j ∈ w.inbox ∧ (CaSigner.process C (wireJob j) env w.ca).1 = answer := by
  cases h with
  | process hinbox hprocess => exact ⟨by simp [hinbox], by rw [hprocess]⟩
  | panic hinbox hprocess => exact ⟨by simp [hinbox], by rw [hprocess]⟩

/-! ## Where a job comes from -/

def Origin (P : Platform) (es : List WorldEv) (j : CaJob) : Prop :=
  ∃ e ∈ es, ∃ op, e.label = .rds op ∧ QueuedBy P op e.before.rds j.deviceId j.body ∧
    e.before.rds.queue.next ≤ j.id ∧ j.id < e.after.rds.queue.next

theorem Origin.mono {es' : List WorldEv} (h : Origin P es j) (hsub : ∀ e ∈ es, e ∈ es') :
    Origin P es' j := by
  obtain ⟨e, he, hrest⟩ := h
  exact ⟨e, hsub e he, hrest⟩

theorem Origin.of_same {j' : CaJob} (h : Origin P es j) (hsame : SameJob j j') :
    Origin P es j' := by
  obtain ⟨e, he, op, hl, hby, hge, hlt⟩ := h
  refine ⟨e, he, op, hl, ?_, by rwa [hsame.id], by rwa [hsame.id]⟩
  rw [hsame.deviceId, hsame.body]
  exact hby

/-- **Every row and every job of the batch was queued by RDS before.** -/
theorem origin_of_run (h : Run (WorldStep P C root) w₀ es w) (hempty : ∀ id, w₀.rds.job id = none)
    (hidle : w₀.inbox = []) (hj : w.rds.job j.id = some j ∨ j ∈ w.inbox) : Origin P es j := by
  revert hj
  refine h.history (fun es w => ∀ {j : CaJob}, w.rds.job j.id = some j ∨ j ∈ w.inbox →
    Origin P es j) ?_ ?_
  · rintro j (hj | hj)
    · simp [hempty] at hj
    · simp [hidle] at hj
  · intro es w l w' ih hstep j hj
    have hkeep : w.rds.job j.id = some j ∨ j ∈ w.inbox → Origin P (es ++ [⟨w, l, w'⟩]) j :=
      fun hold => (ih hold).mono fun e he => List.mem_append_left _ he
    rcases hj with hj | hj
    · have hchange := worldStep_job hstep j.id
      rw [hj] at hchange
      generalize hold : w.rds.job j.id = o at hchange
      generalize hnew : some j = o' at hchange
      cases hchange with
      | absent => cases hnew
      | @same i j' hsame =>
        cases hnew
        have hi : w.rds.job i.id = some i := hsame.id ▸ hold
        exact ((ih (.inl hi)).of_same hsame).mono fun e he => List.mem_append_left _ he
      | queued hl hge hby =>
        rw [Option.some.injEq] at hnew
        refine ⟨⟨w, l, w'⟩, by simp, _, hl, ?_, hge, Rds.job_lt_next hj⟩
        rw [hnew]
        exact hby
      | removed _ => cases hnew
    · exact hkeep ((inbox_of_step hstep hj).symm.imp id id)

end Rows

/-! ## RDS alone -/

section Alone

variable {P : Platform}

theorem run_ops (C : Crypto) (root : Bytes) (w : World) {ops : List Op} (hown : ∀ op ∈ ops, Own op)
    (hok : opsOk P ops w.rds = true) :
    ∃ es, Run (WorldStep P C root) w es { w with rds := afterOps P ops w.rds } ∧
      es.map Event.label = ops.map Label.rds := by
  induction ops generalizing w with
  | nil => exact ⟨[], .nil, rfl⟩
  | cons op ops ih =>
    rw [opsOk, Bool.and_eq_true] at hok
    obtain ⟨es, hrun, hlabels⟩ := ih { w with rds := after P op w.rds }
      (fun x hx => hown x (List.mem_cons_of_mem _ hx)) hok.2
    have hfirst : WorldStep P C root w (.rds op) { w with rds := after P op w.rds } :=
      .rds (hown op List.mem_cons_self) (step_after op hok.1)
    exact ⟨_, (Run.snoc .nil hfirst).trans hrun, by simp [hlabels]⟩

end Alone

/-! ## The signer's turn -/

section Turn

variable {P : Platform} {C : Crypto} {root : Bytes} {w : World}

variable {j : CaJob} {rest : List CaJob}

theorem poll_step (now : Int) {js : List CaJob} (hidle : w.Idle)
    (hjobs : (Rds.getJobs now w.rds).1 = js) :
    WorldStep P C root w (.poll now true)
      { w with rds := (Rds.getJobs now w.rds).2, inbox := js } := by
  subst hjobs
  exact .poll hidle

theorem poll_lost_step (now : Int) (hidle : w.Idle) :
    WorldStep P C root w (.poll now false) { w with rds := (Rds.getJobs now w.rds).2 } := by
  have hstep : WorldStep P C root w (.poll now false)
      { w with rds := (Rds.getJobs now w.rds).2, inbox := [] } := .poll hidle
  rwa [← hidle.1] at hstep

theorem exists_process_step (env : Env) (hinbox : w.inbox = j :: rest) :
    ∃ answer w', WorldStep P C root w (.process j env answer) w' := by
  rcases hprocess : CaSigner.process C (wireJob j) env w.ca with ⟨_ | r, ca⟩
  · exact ⟨_, _, .panic hinbox hprocess⟩
  · exact ⟨_, _, .process hinbox hprocess⟩

theorem process_step {env : Env} {r : CaSigner.JobResult} {st : CaSigner.State}
    (hinbox : w.inbox = j :: rest)
    (h : CaSigner.Succeeds (CaSigner.handle C (wireJob j) env) w.ca r st) :
    ∃ ca, CaSigner.SameSetup w.ca ca ∧ ca.state = st ∧ ca.saved = st ∧
      WorldStep P C root w (.process j env (some { r with id := (wireJob j).id }))
        { w with
          ca := ca
          inbox := rest
          outbox := w.outbox ++ [{ r with id := (wireJob j).id }] } := by
  obtain ⟨hanswer, hsetup, hstate, hsaved⟩ := CaSigner.process_of_succeeds h
  exact ⟨_, hsetup, hstate, hsaved, .process hinbox (Prod.ext hanswer rfl)⟩

theorem exists_first_job (P : Platform) (C : Crypto) (root : Bytes) (now : Int) (env : Env)
    (hidle : w.Idle) (hjobs : (Rds.getJobs now w.rds).1 = j :: rest) :
    ∃ pre x answer, Run (WorldStep P C root) w (pre ++ [x]) x.after ∧
      x.label = .process j env answer ∧ x.before.ca = w.ca := by
  have hpoll : WorldStep P C root w (.poll now true) _ := poll_step now hidle hjobs
  obtain ⟨answer, w', hprocess⟩ : ∃ answer w', WorldStep P C root
      { w with rds := (Rds.getJobs now w.rds).2, inbox := j :: rest } (.process j env answer) w' :=
    exists_process_step env rfl
  exact ⟨[_], ⟨_, _, w'⟩, answer, .snoc (.snoc .nil hpoll) hprocess, rfl, rfl⟩

end Turn

end ManagedDirectory.Link
