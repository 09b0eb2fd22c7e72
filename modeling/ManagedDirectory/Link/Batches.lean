import ManagedDirectory.Link.World
import ManagedDirectory.Signer.Standing

/-!
# Batches

What the signer has in its hands and what RDS knows about it. A batch is sorted by id, every job in
it names its own device, and as long as RDS has a row of the device that is no younger, it has the
row of the job, marked as handed out (`HandedOut`). `tidy_of_run` shows this for every run.
-/

namespace ManagedDirectory.Link

open Codec Lib Passport
open Rds (Db Op CaJob Platform JobBody QueuedBy)
open CaSigner (Signer Env)

variable {P : Platform} {C : Crypto} {root : Bytes} {w w' w₀ : World} {l : Label}
  {es : List WorldEv} {db db' : Db} {op : Op} {id : Nat} {j : CaJob}

/-! ## The device of a job -/

def bodyDid : JobBody → String
  | .issue job => job.device.did
  | .renew job _ => job.did
  | .keyupdate job _ => job.did
  | .revoke job => job.did

theorem bodyDid_of_queuedBy {did : String} {body : JobBody} (h : QueuedBy P op db did body) :
    bodyDid body = did := by
  cases h with
  | approval _ _ _ _ _ hid hp => exact (rid_did_of_devicePayload hp).2.trans hid
  | revocation => rfl
  | bootstrap _ hrow hp => exact (rid_did_of_devicePayload hp).2.trans (Table.key_of_find hrow)
  | @request kind => cases kind <;> rfl

/-! ## Rows of RDS -/

theorem rds_of_step (h : WorldStep P C root w l w') :
    ∃ es, Run (Rds.Step P) w.rds es w'.rds := by
  cases h with
  | rds _ hstep => exact ⟨_, .snoc .nil hstep⟩
  | @poll now => exact ⟨_, .snoc .nil (show Rds.Step P w.rds (.poll now) _ from rfl)⟩
  | post _ _ hstored =>
    obtain ⟨es, hrun, -⟩ := Rds.postResults_run hstored
    exact ⟨es, hrun⟩
  | _ => exact ⟨_, .nil⟩

theorem row_before {a : CaJob} (h : Rds.Step P db op db') (hold : id < db.queue.next)
    (ha : db'.job id = some a) :
    ∃ a₀, db.job id = some a₀ ∧ a.deviceId = a₀.deviceId ∧ a.body = a₀.body ∧
      (a₀.pickedAt ≠ none → a.pickedAt ≠ none) ∧ (a.unanswered = true → a₀.unanswered = true) := by
  have hchange := (Rds.step_effect h).job id
  rw [ha] at hchange
  generalize hbefore : db.job id = before at hchange ⊢
  generalize hafter : some a = after at hchange
  cases hchange with
  | absent => cases hafter
  | kept =>
    cases hafter
    exact ⟨_, rfl, rfl, rfl, fun h => h, fun h => h⟩
  | picked _ _ =>
    cases hafter
    exact ⟨_, rfl, rfl, rfl, fun _ => by simp [CaJob.pick], fun h => h⟩
  | answered _ _ _ =>
    cases hafter
    exact ⟨_, rfl, rfl, rfl, fun h => h, fun h => by cases h⟩
  | queued hnew _ => exact absurd hold (Nat.not_lt.mpr hnew)
  | removed _ => cases hafter

theorem delete_rows {did : String} {a : CaJob} (h : Rds.Step P db (.delete did) db')
    (ha : db'.job id = some a) : a.deviceId ≠ did := by
  have hdelete : Rds.deleteDevice did db = .ok db' := h
  simp only [Rds.deleteDevice, bind_ok_iff, pure_ok_iff] at hdelete
  obtain ⟨d, -, -, -, rfl⟩ := hdelete
  simp only [Rds.Db.job, Rds.Queue.removeDevice] at ha
  rw [Table.find_delete, Option.filter_eq_some_iff] at ha
  simpa using ha.2

theorem row_after {a : CaJob} (h : Rds.Step P db op db') (ha : db.job id = some a)
    (hkeep : op ≠ .delete a.deviceId) : (db'.job id).isSome := by
  have hchange := (Rds.step_effect h).job id
  rw [ha] at hchange
  generalize hbefore : some a = before at hchange
  generalize db'.job id = after at hchange ⊢
  cases hchange with
  | absent => cases hbefore
  | kept | picked | answered => rfl
  | queued => cases hbefore
  | removed hop =>
    cases hbefore
    exact absurd hop hkeep

/-! ## Jobs that were handed out -/

/-- The job was handed out: its row says so, and it is there while an older row of the device
is. -/
structure HandedOut (db : Db) (j : CaJob) : Prop where
  below : j.id < db.queue.next
  row : ∀ {j'}, db.job j.id = some j' →
    j'.deviceId = j.deviceId ∧ j'.body = j.body ∧ j'.pickedAt ≠ none
  there : ∀ {a : CaJob}, db.job a.id = some a → a.deviceId = j.deviceId → a.id ≤ j.id →
    (db.job j.id).isSome

theorem HandedOut.step (h : HandedOut db j) (hstep : Rds.Step P db op db') : HandedOut db' j := by
  refine ⟨Nat.lt_of_lt_of_le h.below (Rds.step_effect hstep).next_le, fun hj' => ?_,
    fun {a} ha hdid hle => ?_⟩
  · obtain ⟨j₀, hj₀, hdid, hbody, hpicked, -⟩ := row_before hstep h.below hj'
    obtain ⟨hdid₀, hbody₀, hpicked₀⟩ := h.row hj₀
    exact ⟨hdid.trans hdid₀, hbody.trans hbody₀, hpicked hpicked₀⟩
  · obtain ⟨a₀, ha₀, hdid₀, -⟩ := row_before hstep (Nat.lt_of_le_of_lt hle h.below) ha
    have hid₀ : a₀.id = a.id := Table.key_of_find ha₀
    have hthere := h.there (a := a₀) (hid₀ ▸ ha₀) (hdid₀.symm.trans hdid) (hid₀ ▸ hle)
    obtain ⟨j₀, hj₀⟩ := Option.isSome_iff_exists.mp hthere
    refine row_after hstep hj₀ ?_
    rintro rfl
    exact delete_rows hstep ha (hdid.trans (h.row hj₀).1.symm)

theorem HandedOut.worldStep (h : HandedOut w.rds j) (hstep : WorldStep P C root w l w') :
    HandedOut w'.rds j := by
  obtain ⟨es, hrun⟩ := rds_of_step hstep
  exact hrun.invariant (fun db => HandedOut db j) h fun hinv hs => hinv.step hs

theorem job_of_due {now : Int} (h : j ∈ db.dueJobs now) :
    (Rds.getJobs now db).2.job j.id = some (j.pick now) := by
  have hany : (db.dueJobs now).any (fun d => d.id == j.id) = true :=
    List.any_eq_true.mpr ⟨j, h, beq_self_eq_true _⟩
  unfold Rds.getJobs
  simp only
  rw [Rds.job_update, (Rds.mem_dueJobs h).1, Option.map_some, if_pos hany]

theorem handedOut_of_due {now : Int} (h : j ∈ db.dueJobs now) :
    HandedOut (Rds.getJobs now db).2 j := by
  have hjob := job_of_due h
  refine ⟨Rds.job_lt_next hjob, fun hj' => ?_, fun _ _ _ => by simp [hjob]⟩
  obtain rfl := Option.some.inj (hjob.symm.trans hj')
  exact ⟨rfl, rfl, by simp [CaJob.pick]⟩

/-! ## Whole runs -/

structure Tidy (w : World) : Prop where
  sorted : w.inbox.Pairwise fun a b => a.id < b.id
  handed : ∀ j ∈ w.inbox, HandedOut w.rds j
  rows : ∀ {id j}, w.rds.job id = some j → bodyDid j.body = j.deviceId
  jobs : ∀ j ∈ w.inbox, bodyDid j.body = j.deviceId
  answers : ∀ a ∈ w.outbox, ∃ n < w.rds.queue.next, a.id = Int64.ofNat n

theorem id_of_process {job : CaSigner.Job} {env : Env} {s s' : Signer} {r : CaSigner.JobResult}
    (h : CaSigner.process C job env s = (some r, s')) : r.id = job.id := by
  have heffect := CaSigner.process_effect C job env s
  rw [h] at heffect
  generalize hres : some r = res at heffect
  cases heffect with
  | quiet hrefused | issueHalf hrefused | keyUpdateHalf hrefused | revokeHalf hrefused =>
    cases hrefused with
    | answered =>
      cases hres
      rfl
    | panicked => cases hres
  | issued | renewed | keyUpdated | revoked =>
    cases hres
    rfl

theorem Tidy.rows_step (h : Tidy w) (hstep : WorldStep P C root w l w') {a : CaJob}
    (ha : w'.rds.job id = some a) : bodyDid a.body = a.deviceId := by
  have hchange := worldStep_job hstep id
  rw [ha] at hchange
  generalize hbefore : w.rds.job id = before at hchange
  generalize hafter : some a = after at hchange
  cases hchange with
  | absent => cases hafter
  | same hsame =>
    cases hafter
    rw [hsame.body, hsame.deviceId]
    exact h.rows hbefore
  | queued _ _ hby =>
    cases hafter
    exact bodyDid_of_queuedBy hby
  | removed _ => cases hafter

theorem Tidy.step (h : Tidy w) (hstep : WorldStep P C root w l w') : Tidy w' := by
  have hrows : ∀ {id a}, w'.rds.job id = some a → bodyDid a.body = a.deviceId :=
    fun ha => h.rows_step hstep ha
  have hnext := next_le_of_step hstep
  have hanswers : ∀ a ∈ w.outbox, ∃ n < w'.rds.queue.next, a.id = Int64.ofNat n := by
    intro a ha
    obtain ⟨n, hn, heq⟩ := h.answers a ha
    exact ⟨n, Nat.lt_of_lt_of_le hn hnext, heq⟩
  have hhanded : ∀ j ∈ w.inbox, HandedOut w'.rds j := fun j hj => (h.handed j hj).worldStep hstep
  cases hstep with
  | rds => exact ⟨h.sorted, hhanded, hrows, h.jobs, hanswers⟩
  | @poll now arrived hidle =>
    cases arrived with
    | false => exact ⟨.nil, by simp, hrows, by simp, hanswers⟩
    | true =>
      refine ⟨Rds.sorted_dueJobs, fun j hj => handedOut_of_due hj, hrows, fun j hj => ?_, hanswers⟩
      exact h.rows (Rds.mem_dueJobs hj).1
  | @process j rest env r ca hinbox hprocess =>
    have hsub : ∀ i ∈ rest, i ∈ w.inbox := fun i hi => hinbox ▸ List.mem_cons_of_mem _ hi
    have hsorted := h.sorted
    rw [hinbox, List.pairwise_cons] at hsorted
    refine ⟨hsorted.2, fun i hi => hhanded i (hsub i hi), hrows, fun i hi => h.jobs i (hsub i hi),
      fun a ha => ?_⟩
    rcases List.mem_append.mp ha with ha | ha
    · exact hanswers a ha
    · obtain rfl := List.mem_singleton.mp ha
      exact ⟨j.id, (h.handed j (hinbox ▸ List.mem_cons_self)).below, id_of_process hprocess⟩
  | panic | restart => exact ⟨.nil, by simp, hrows, by simp, by simp⟩
  | post | postLost => exact ⟨h.sorted, hhanded, hrows, h.jobs, by simp⟩
  | rotate => exact ⟨h.sorted, hhanded, hrows, h.jobs, hanswers⟩

theorem Tidy.start (C : Crypto) (root : Bytes) (cfg : CaSigner.Config) (env : CaSigner.StartEnv)
    (settings : Rds.Settings) (owners : List String) :
    Tidy (.start C root cfg env settings owners) := by
  refine ⟨.nil, by simp [World.start], fun h => ?_, by simp [World.start], by simp [World.start]⟩
  cases h

theorem tidy_of_run (h : Run (WorldStep P C root) w₀ es w) (h0 : Tidy w₀) : Tidy w :=
  h.invariant Tidy h0 fun hinv hstep => hinv.step hstep

end ManagedDirectory.Link
