import ManagedDirectory.Rds.Devices
import ManagedDirectory.Rds.Results
import ManagedDirectory.Lib.Run

/-!
# RDS: one operation

`Op` is everything that changes the tables, one committed transaction each; a posted batch of
results is taken apart into its results (`postResults_run`). `Op.apply` runs one.

`step_effect` says once what an operation can do to the row of a device (`DeviceChange`) and to a
row of the queue (`JobChange`). Every invariant of RDS is shown from these two, never from the
operations themselves.
-/

namespace ManagedDirectory.Rds

open Codec Lib List

inductive Op where
  | enroll (req : EnrollRequest)
  | reenroll (req : ReenrollRequest)
  | authorize (did account authorizationId : String) (minutes now : Int)
  | slidePoll (did : String) (now : Int)
  | approve (did : String) (friendlyName : Option String) (approver : CaSigner.Approver)
      (fails : Bool)
  | changeStatus (did : String) (change : StatusChange) (fails : Bool)
  | delete (did : String)
  | rename (did name : String)
  | request (did : String) (kind : RequestKind) (text : String) (now : Int)
  | issueAll (approver : CaSigner.Approver) (now : Int)
  | poll (now : Int)
  | result (r : JobResult) (now : Int)
  | configure (settings : Settings)
  | accounts (owners : List String)

def Op.apply (P : Platform) (db : Db) : Op → Except Failure Db
  | .enroll req => enrollDevice P req db
  | .reenroll req => completeDeviceReenrollment P req db
  | .authorize did account authorizationId minutes now =>
    authorizeDeviceReenrollment did account authorizationId minutes now db
  | .slidePoll did now =>
    .ok (db.updateDevice did (ManagedDevice.extendPoll now) (ManagedDevice.id_extendPoll now))
  | .approve did friendlyName approver fails => approveDevice P did friendlyName approver fails db
  | .changeStatus did change fails => changeDeviceStatus did change fails db
  | .delete did => deleteDevice did db
  | .rename did name => renameDevice P did name db
  | .request did kind text now => requestPassport P did kind text now db
  | .issueAll approver now => caIssueAll approver now db
  | .poll now => .ok (getJobs now db).2
  | .result r now => applyResult P now db r
  | .configure settings => .ok { db with settings := settings }
  | .accounts owners => .ok { db with owners := owners }

def Step (P : Platform) (db : Db) (op : Op) (db' : Db) : Prop := op.apply P db = .ok db'

def Op.enrollment : Op → Option Enrollment
  | .enroll req => some req.toEnrollment
  | .reenroll req => some req.toEnrollment
  | _ => none

/-! ## Rows of devices -/

structure SameKeys (d d' : ManagedDevice) : Prop where
  rustdeskId : d'.rustdeskId = d.rustdeskId
  devicePublicKey : d'.devicePublicKey = d.devicePublicKey
  identityPublicKey : d'.identityPublicKey = d.identityPublicKey

/-- What an operation may do to a device's status when it keeps the keys. -/
inductive StatusMove (op : Op) (did : String) (d : ManagedDevice) : DeviceStatus → Prop where
  | same : StatusMove op did d d.status
  | approved {name : Option String} {approver : CaSigner.Approver} {fails : Bool}
      (hop : op = .approve did name approver fails) (hfrom : d.status ≠ .approved)
      (hopen : d.status ≠ .blocked ∧ d.status ≠ .revoked) : StatusMove op did d .approved
  | changed {change : StatusChange} {fails : Bool} (hop : op = .changeStatus did change fails)
      (hfrom : d.status ≠ change.status) : StatusMove op did d change.status

/-- What an operation does to the row of device `did`. -/
inductive DeviceChange (op : Op) (db : Db) (did : String) :
    Option ManagedDevice → Option ManagedDevice → Prop where
  | absent : DeviceChange op db did none none
  | kept {d d' : ManagedDevice} (hkeys : SameKeys d d') (hstatus : StatusMove op did d d'.status) :
    DeviceChange op db did (some d) (some d')
  | enrolled {req : EnrollRequest} (hop : op = .enroll req) (hid : req.newId = did) :
    DeviceChange op db did none (some (newDevice req))
  | reenrolled {d : ManagedDevice} {e : Enrollment} (hop : op.enrollment = some e)
      (hopen : d.status ≠ .approved ∧ d.status ≠ .revoked)
      (howner : ∃ a, db.usableAuthorization did e.now = some a) :
    DeviceChange op db did (some d) (some (d.reenroll e))
  | certified {d : ManagedDevice} {r : JobResult} {now : Int} {job : CaJob} {serial : String}
      {expiresAt : Int} (hop : op = .result r now) (hok : r.ok = true) (hid : r.id = job.id)
      (hjob : db.job job.id = some job) (hwait : job.unanswered = true)
      (hdid : job.deviceId = did) :
    DeviceChange op db did (some d) (some (d.certify serial expiresAt job.body.verified))
  | deleted {d : ManagedDevice} (hop : op = .delete did)
      (hclosed : d.status = .blocked ∨ d.status = .revoked) : DeviceChange op db did (some d) none

/-! ## Rows of the queue -/

/-- Why a job was queued for device `did`. -/
inductive QueuedBy (P : Platform) (op : Op) (db : Db) (did : String) : JobBody → Prop where
  | approval {name : Option String} {approver : CaSigner.Approver} {fails : Bool}
      {d d' : ManagedDevice} {p : CaSigner.DeviceIn} (hop : op = .approve did name approver fails)
      (hrow : db.device did = some d) (hfrom : d.status ≠ .approved)
      (hopen : d.status ≠ .blocked ∧ d.status ≠ .revoked) (hkeys : SameKeys d d')
      (hid : d'.id = did) (hp : devicePayload d' = some p) :
    QueuedBy P op db did (.issue (approvalJob db.settings approver p))
  | revocation {change : StatusChange} {fails : Bool} {d : ManagedDevice}
      (hop : op = .changeStatus did change fails) (hrow : db.device did = some d)
      (hchange : change ≠ .denied) :
    QueuedBy P op db did (.revoke ⟨d.rustdeskId, did, change.text⟩)
  | bootstrap {approver : CaSigner.Approver} {now : Int} {d : ManagedDevice}
      {p : CaSigner.DeviceIn} (hop : op = .issueAll approver now) (hrow : db.device did = some d)
      (hp : devicePayload d = some p) (happroved : d.status = .approved) :
    QueuedBy P op db did (.issue ⟨p, approver, db.settings.lifetimeDays, "bootstrap"⟩)
  | request {kind : RequestKind} {text : String} {now : Int} {d : ManagedDevice}
      {onFile : CaSigner.DeviceIn} {expected : Expected} (hop : op = .request did kind text now)
      (hqueued : Queued P db did kind text now d onFile expected) :
    QueuedBy P op db did
      (kind.body ⟨d.rustdeskId, did, text, db.settings.lifetimeDays⟩ expected)

/-- What an operation does to row `id` of the queue. -/
inductive JobChange (P : Platform) (op : Op) (db : Db) (id : Nat) :
    Option CaJob → Option CaJob → Prop where
  | absent : JobChange P op db id none none
  | kept {j : CaJob} : JobChange P op db id (some j) (some j)
  | picked {j : CaJob} {now : Int} (hop : op = .poll now) (hdue : j ∈ db.dueJobs now) :
    JobChange P op db id (some j) (some (j.pick now))
  | answered {j : CaJob} {r : JobResult} {now : Int} {ok : Bool} {error : Option String}
      (hop : op = .result r now) (hid : r.id = j.id) (hwait : j.unanswered = true) :
    JobChange P op db id (some j) (some (j.answer now ok error))
  | queued {did : String} {body : JobBody} (hnew : db.queue.next ≤ id)
      (hby : QueuedBy P op db did body) :
    JobChange P op db id none (some ⟨id, did, body, none, none, none, none⟩)
  | removed {j : CaJob} (hop : op = .delete j.deviceId) : JobChange P op db id (some j) none

structure SameJob (j j' : CaJob) : Prop where
  id : j'.id = j.id
  deviceId : j'.deviceId = j.deviceId
  body : j'.body = j.body
  answered : j.unanswered = false → j'.unanswered = false

theorem SameJob.refl (j : CaJob) : SameJob j j := ⟨rfl, rfl, rfl, fun h => h⟩

theorem SameJob.trans {j j' j'' : CaJob} (h : SameJob j j') (h' : SameJob j' j'') : SameJob j j'' :=
  ⟨h'.id.trans h.id, h'.deviceId.trans h.deviceId, h'.body.trans h.body,
    fun hj => h'.answered (h.answered hj)⟩

theorem SameJob.waiting {j j' : CaJob} (h : SameJob j j') (hwait : j'.unanswered = true) :
    j.unanswered = true := by
  by_contra hanswered
  rw [h.answered (Bool.not_eq_true _ ▸ hanswered)] at hwait
  cases hwait

theorem SameJob.pick (j : CaJob) (now : Int) : SameJob j (j.pick now) :=
  ⟨rfl, rfl, rfl, fun h => h⟩

theorem SameJob.answer (j : CaJob) (now : Int) (ok : Bool) (error : Option String) :
    SameJob j (j.answer now ok error) :=
  ⟨rfl, rfl, rfl, fun _ => rfl⟩

/-- A passport that was stored names its device and the key on file after that. -/
structure PassportStored (P : Platform) (op : Op) (db' : Db) (row : DevicePassport) : Prop where
  posted : ∃ r now, op = .result r now
  names : ∃ d key, db'.device row.deviceId = some d ∧ onFileKey d = some key ∧
    PassportNames P row.passport key d.rustdeskId row.deviceId

structure Effect (P : Platform) (op : Op) (db db' : Db) : Prop where
  next_le : db.queue.next ≤ db'.queue.next
  device : ∀ did, DeviceChange op db did (db.device did) (db'.device did)
  job : ∀ id, JobChange P op db id (db.job id) (db'.job id)
  passport : ∀ row ∈ db'.passports.rows, row ∈ db.passports.rows ∨ PassportStored P op db' row

section Steps

variable {P : Platform} {op : Op} {db db' : Db} {did : String} {id : Nat}

variable {fails : Bool} {now : Int} {body : JobBody}

theorem SameKeys.refl (d : ManagedDevice) : SameKeys d d := ⟨rfl, rfl, rfl⟩

theorem DeviceChange.refl (o : Option ManagedDevice) : DeviceChange op db did o o := by
  cases o with
  | none => exact .absent
  | some d => exact .kept (.refl d) .same

theorem JobChange.refl (o : Option CaJob) : JobChange P op db id o o := by
  cases o with
  | none => exact .absent
  | some j => exact .kept

theorem Effect.of_devices (hq : db'.queue = db.queue) (hp : db'.passports = db.passports)
    (hd : ∀ did, DeviceChange op db did (db.device did) (db'.device did)) :
    Effect P op db db' where
  next_le := by rw [hq]
  device := hd
  job id := by
    rw [Db.job, Db.job, hq]
    exact .refl _
  passport row hrow := .inl (hp ▸ hrow)

theorem Effect.of_same (hd : db'.devices = db.devices) (hq : db'.queue = db.queue)
    (hp : db'.passports = db.passports) : Effect P op db db' := by
  refine .of_devices hq hp fun did => ?_
  rw [Db.device, Db.device, hd]
  exact .refl _

theorem device_updateDevice_change {f : ManagedDevice → ManagedDevice}
    (hf : ∀ d, (f d).id = d.id)
    (h : ∀ d, db.device did = some d → DeviceChange op db did (some d) (some (f d))) (x : String) :
    DeviceChange op db x (db.device x) ((db.updateDevice did f hf).device x) := by
  rw [device_updateDevice]
  split_ifs with hx
  · subst hx
    cases hd : db.device x with
    | none => exact .absent
    | some d => exact h d hd
  · exact .refl _

theorem Effect.enqueue {mid : Db} (hmid : Effect P op db mid) (hby : QueuedBy P op db did body)
    (h : mid.enqueue did body = some db') :
    Effect P op db db' := by
  obtain ⟨hjobs, hnext, q, rfl⟩ := enqueue_eq_some h
  refine ⟨?_, hmid.device, fun id => ?_, fun row hrow => (hmid.passport row hrow).imp_right ?_⟩
  · rw [hnext]
    exact Nat.le_succ_of_le hmid.next_le
  · rw [hjobs]
    split_ifs with hid
    · subst hid
      have hnone : db.job mid.queue.next = none := by
        cases hjob : db.job mid.queue.next with
        | none => rfl
        | some j => exact absurd (job_lt_next hjob) (Nat.not_lt.mpr hmid.next_le)
      rw [hnone]
      exact .queued hmid.next_le hby
    · exact hmid.job id
  · exact fun hstored => ⟨hstored.posted, hstored.names⟩

theorem Effect.tryEnqueue {mid : Db} (hmid : Effect P op db mid) (hby : QueuedBy P op db did body) :
    Effect P op db (mid.tryEnqueue fails did body) := by
  unfold Db.tryEnqueue
  split_ifs
  · exact hmid
  · cases h : mid.enqueue did body with
    | none => exact hmid
    | some mid' => exact hmid.enqueue hby h

/-! ## One operation at a time -/

theorem effect_of_reenrolls {e : Enrollment} (hop : op.enrollment = some e)
    (h : Reenrolls db did e db') : Effect P op db db' := by
  obtain ⟨⟨d, hd, hopen⟩, a, ha, rfl⟩ := h
  refine .of_devices rfl rfl (device_updateDevice_change (ManagedDevice.id_reenroll e) fun d' hd' => ?_)
  obtain rfl := Option.some.inj (hd.symm.trans hd')
  exact .reenrolled hop hopen ⟨a, ha⟩

theorem enroll_effect {req : EnrollRequest} (h : enrollDevice P req db = .ok db') :
    Effect P (.enroll req) db db' := by
  rcases enrollDevice_ok h with ⟨hnew, rfl⟩ | ⟨did, hback⟩
  · refine .of_devices rfl rfl fun did => ?_
    simp only [Db.device] at hnew ⊢
    rw [Table.find_insert]
    split_ifs with hins
    · rw [hins.2]
      exact .enrolled rfl hins.1
    · exact .refl _
  · exact effect_of_reenrolls rfl hback

theorem authorize_effect {account authorizationId : String} {minutes : Int}
    (h : authorizeDeviceReenrollment did account authorizationId minutes now db = .ok db') :
    Effect P (.authorize did account authorizationId minutes now) db db' := by
  simp only [authorizeDeviceReenrollment, checkAuthorizable, bind_ok_iff, refuseIf_eq_ok,
    exists_unit, orRefuse_eq_ok, pure_ok_iff] at h
  obtain ⟨-, d, -, -, -, rfl⟩ := h
  split_ifs
  · exact .of_devices rfl rfl (device_updateDevice_change (ManagedDevice.id_extendPoll now)
      fun d _ => .kept ⟨rfl, rfl, rfl⟩ .same)
  · exact .of_same rfl rfl rfl

theorem approve_effect {name : Option String} {approver : CaSigner.Approver}
    (h : approveDevice P did name approver fails db = .ok db') :
    Effect P (.approve did name approver fails) db db' := by
  simp only [approveDevice, checkApprovable, bind_ok_iff, refuseIf_eq_ok, exists_unit,
    orRefuse_eq_ok, not_or] at h
  obtain ⟨d, hd, hopen, -, h⟩ := h
  split at h
  · obtain rfl := pure_ok_iff.mp h
    exact .of_devices rfl rfl (device_updateDevice_change (ManagedDevice.id_rename _)
      fun d _ => .kept ⟨rfl, rfl, rfl⟩ .same)
  · rename_i hfrom
    have hmid : Effect P (.approve did name approver fails) db
        (db.updateDevice did (ManagedDevice.approve ((nonBlank name).or d.friendlyName))
          (ManagedDevice.id_approve ((nonBlank name).or d.friendlyName))) := by
      refine .of_devices rfl rfl (device_updateDevice_change (ManagedDevice.id_approve _)
        fun d' hd' => ?_)
      obtain rfl := Option.some.inj (hd.symm.trans hd')
      exact .kept ⟨rfl, rfl, rfl⟩ (.approved rfl hfrom hopen)
    split at h
    · obtain rfl := pure_ok_iff.mp h
      exact hmid
    · split at h
      · obtain rfl := pure_ok_iff.mp h
        exact hmid
      · rename_i p hp
        obtain rfl := pure_ok_iff.mp h
        have hkeys : SameKeys d (d.approve ((nonBlank name).or d.friendlyName)) := ⟨rfl, rfl, rfl⟩
        have hid : d.id = did := Table.key_of_find hd
        exact hmid.tryEnqueue (.approval rfl hd hfrom hopen hkeys hid hp)

theorem changeStatus_effect {change : StatusChange}
    (h : changeDeviceStatus did change fails db = .ok db') :
    Effect P (.changeStatus did change fails) db db' := by
  simp only [changeDeviceStatus, bind_ok_iff, orRefuse_eq_ok] at h
  obtain ⟨d, hd, h⟩ := h
  split at h
  · obtain rfl := pure_ok_iff.mp h
    exact .of_same rfl rfl rfl
  · rename_i hfrom
    simp only [bind_ok_iff, exists_unit] at h
    obtain ⟨-, h⟩ := h
    have hchanged : ∀ x, DeviceChange (.changeStatus did change fails) db x (db.device x)
        ((db.updateDevice did (ManagedDevice.setStatus change.status)
          (ManagedDevice.id_setStatus change.status)).device x) := by
      refine device_updateDevice_change (ManagedDevice.id_setStatus change.status)
        fun d' hd' => ?_
      obtain rfl := Option.some.inj (hd.symm.trans hd')
      exact .kept ⟨rfl, rfl, rfl⟩ (.changed rfl hfrom)
    split at h
    · obtain rfl := pure_ok_iff.mp h
      exact .of_devices rfl rfl hchanged
    · rename_i hchange
      obtain rfl := pure_ok_iff.mp h
      exact Effect.tryEnqueue (.of_devices rfl rfl hchanged) (.revocation rfl hd hchange)

theorem delete_effect (h : deleteDevice did db = .ok db') : Effect P (.delete did) db db' := by
  simp only [deleteDevice, checkDeletable, bind_ok_iff, orRefuse_eq_ok, refuseIf_eq_ok,
    exists_unit, pure_ok_iff, not_and_or, not_not, ne_eq] at h
  obtain ⟨d, hd, hclosed, rfl⟩ := h
  refine ⟨Nat.le_refl _, fun x => ?_, fun id => ?_, fun row hrow => .inl (Table.mem_delete.mp hrow).1⟩
  · simp only [Db.device] at hd ⊢
    rw [Table.find_delete]
    cases hx : db.devices.find x with
    | none => exact .absent
    | some d' =>
      rw [Option.filter_some]
      have hid : d'.id = x := Table.key_of_find hx
      by_cases hdel : x = did
      · subst hdel
        obtain rfl := Option.some.inj (hd.symm.trans hx)
        simp only [hid, beq_self_eq_true, Bool.not_true, Bool.false_eq_true, if_false]
        exact .deleted rfl hclosed
      · have hne : d'.id ≠ did := fun heq => hdel (hid.symm.trans heq)
        simp only [beq_eq_false_iff_ne.mpr hne, Bool.not_false, if_true]
        exact .kept (.refl d') .same
  · simp only [Db.job, Queue.removeDevice]
    rw [Table.find_delete]
    cases db.queue.jobs.find id with
    | none => exact .absent
    | some j =>
      rw [Option.filter_some]
      by_cases hdel : j.deviceId = did
      · simp only [hdel, beq_self_eq_true, Bool.not_true, Bool.false_eq_true, if_false]
        exact .removed (by rw [hdel])
      · simp only [beq_eq_false_iff_ne.mpr hdel, Bool.not_false, if_true]
        exact .kept

theorem rename_effect {name : String} (h : renameDevice P did name db = .ok db') :
    Effect P (.rename did name) db db' := by
  simp only [renameDevice, bind_ok_iff] at h
  obtain ⟨d, -, h⟩ := h
  split at h
  · obtain rfl := pure_ok_iff.mp h
    exact .of_same rfl rfl rfl
  · obtain rfl := pure_ok_iff.mp h
    exact .of_devices rfl rfl (device_updateDevice_change (ManagedDevice.id_rename _)
      fun d _ => .kept ⟨rfl, rfl, rfl⟩ .same)

theorem request_effect {kind : RequestKind} {text : String}
    (h : requestPassport P did kind text now db = .ok db') :
    Effect P (.request did kind text now) db db' := by
  obtain ⟨d, onFile, expected, hqueued, henq⟩ := requestPassport_ok h
  exact Effect.enqueue (.of_same rfl rfl rfl) (.request rfl hqueued) henq

theorem issueAll_effect {approver : CaSigner.Approver} (h : caIssueAll approver now db = .ok db') :
    Effect P (.issueAll approver now) db db' := by
  simp only [caIssueAll, bind_ok_iff, exists_unit] at h
  obtain ⟨-, h⟩ := h
  have hrows : ∀ d ∈ db.devices.rows.filter (db.needsPassport now),
      db.device d.id = some d ∧ d.status = .approved := by
    intro d hd
    obtain ⟨hmem, hneeds⟩ := mem_filter.mp hd
    simp only [Db.needsPassport, Bool.and_eq_true, beq_iff_eq] at hneeds
    exact ⟨Table.find_key_iff_mem.mpr hmem, hneeds.1.1⟩
  -- the rows were selected before the first insert, so each is a row of `db`
  have hfold : ∀ (ds : List ManagedDevice) (mid : Db),
      (∀ d ∈ ds, db.device d.id = some d ∧ d.status = .approved) →
      Effect P (.issueAll approver now) db mid →
      ds.foldlM (queueBootstrap approver db.settings.lifetimeDays) mid = .ok db' →
      Effect P (.issueAll approver now) db db' := by
    intro ds
    induction ds with
    | nil =>
      intro mid _ hmid h
      obtain rfl := pure_ok_iff.mp h
      exact hmid
    | cons d ds ih =>
      intro mid hds hmid h
      rw [foldlM_cons, bind_ok_iff] at h
      obtain ⟨mid', hone, hrest⟩ := h
      refine ih mid' (fun x hx => hds x (mem_cons_of_mem _ hx)) ?_ hrest
      obtain ⟨hrow, happroved⟩ := hds d mem_cons_self
      unfold queueBootstrap at hone
      cases hp : devicePayload d with
      | none =>
        rw [hp] at hone
        cases hone
        exact hmid
      | some p =>
        rw [hp] at hone
        exact hmid.enqueue (.bootstrap rfl hrow hp happroved) (orRefuse_eq_ok.mp hone)
  exact hfold _ db hrows (.of_same rfl rfl rfl) h

theorem poll_effect (now : Int) : Effect P (.poll now) db (getJobs now db).2 := by
  refine ⟨Nat.le_refl _, fun did => .refl _, fun id => ?_, fun row hrow => .inl hrow⟩
  unfold getJobs
  simp only
  rw [job_update]
  cases hjob : db.job id with
  | none => exact .absent
  | some j =>
    rw [Option.map_some]
    split_ifs with hpick
    · obtain ⟨d, hd, hid⟩ := any_eq_true.mp hpick
      have hrow := (mem_dueJobs hd).1
      have hj : db.job j.id = some j := Table.key_of_find hjob ▸ hjob
      obtain rfl := Option.some.inj (hrow.symm.trans (beq_iff_eq.mp hid ▸ hj))
      exact .picked rfl hd
    · exact .kept

theorem onFileKey_certify {d : ManagedDevice} {key serial : String} {expiresAt : Int}
    (h : expectedIdk body (onFileKey d) = .ok key) :
    onFileKey (d.certify serial expiresAt body.verified) = some key := by
  obtain ⟨hne, hkey⟩ := expectedIdk_eq_ok.mp h
  cases hv : body.verified with
  | none =>
    have hsame : onFileKey (d.certify serial expiresAt none) = onFileKey d := rfl
    rw [hsame]
    rw [hv, Option.map_none, Option.none_or] at hkey
    cases hfile : onFileKey d with
    | none =>
      rw [hfile] at hkey
      exact absurd hkey.symm hne
    | some k =>
      rw [hfile] at hkey
      exact congrArg some hkey
  | some e =>
    rw [hv, Option.map_some, Option.some_or, Option.getD_some] at hkey
    subst hkey
    unfold onFileKey ManagedDevice.certify
    simp [hne]

theorem result_effect {r : JobResult} (h : applyResult P now db r = .ok db') :
    Effect P (.result r now) db db' := by
  have hanswered : ∀ {job : CaJob} (ok : Bool) (error : Option String),
      db.job job.id = some job → job.unanswered = true → r.id = job.id →
      ∀ id, JobChange P (.result r now) db id (db.job id) ((db.answer job.id now ok error).job id) := by
    intro job ok error hopen hwait hid id
    rw [job_answer]
    split_ifs with heq
    · subst heq
      rw [hopen]
      exact .answered rfl hid hwait
    · exact .refl _
  cases applyResult_ok h with
  | ignored => exact .of_same rfl rfl rfl
  | answered ok error hopen hwait hid =>
    exact ⟨Nat.le_refl _, fun did => .refl _, hanswered ok error hopen hwait hid,
      fun row hrow => .inl hrow⟩
  | @stored job d row key hopen hwait hid hok hdevice hrow hkey hnames =>
    refine ⟨Nat.le_refl _, fun did => ?_, hanswered _ _ hopen hwait hid, fun x hx => ?_⟩
    · rw [device_store, device_answer]
      split_ifs with hdid
      · subst hdid
        rw [hrow, hdevice]
        exact .certified rfl hok hid hopen hwait rfl
      · exact .refl _
    · rcases Table.mem_insert.mp hx with hx | ⟨rfl, -⟩
      · exact .inl hx
      · refine .inr ⟨⟨r, now, rfl⟩, d.certify x.serial x.expiresAt job.body.verified, key, ?_,
          onFileKey_certify hkey, hrow ▸ hnames⟩
        rw [device_store, if_pos rfl, device_answer, hrow, hdevice, Option.map_some]

/-- **Every operation** changes rows only as `DeviceChange` and `JobChange` say. -/
theorem step_effect (h : Step P db op db') : Effect P op db db' := by
  unfold Step at h
  cases op with
  | enroll req => exact enroll_effect h
  | reenroll req => exact effect_of_reenrolls rfl (completeDeviceReenrollment_ok h)
  | authorize did account authorizationId minutes now => exact authorize_effect h
  | slidePoll did now =>
    cases h
    exact .of_devices rfl rfl (device_updateDevice_change (ManagedDevice.id_extendPoll now)
      fun d _ => .kept ⟨rfl, rfl, rfl⟩ .same)
  | approve did name approver fails => exact approve_effect h
  | changeStatus did change fails => exact changeStatus_effect h
  | delete did => exact delete_effect h
  | rename did name => exact rename_effect h
  | request did kind text now => exact request_effect h
  | issueAll approver now => exact issueAll_effect h
  | poll now =>
    cases h
    exact poll_effect now
  | result r now => exact result_effect h
  | configure settings =>
    cases h
    exact .of_same rfl rfl rfl
  | accounts owners =>
    cases h
    exact .of_same rfl rfl rfl

/-- **A post is a run of its results**, from one committed state to the next. -/
theorem postResults_run {results : List JobResult} (h : postResults P results now db = .ok db') :
    ∃ es, Run (Step P) db es db' ∧ es.map Event.label = results.map (Op.result · now) := by
  have hfold := postResults_ok h
  clear h
  induction results using List.reverseRecOn generalizing db' with
  | nil =>
    obtain rfl := pure_ok_iff.mp hfold
    exact ⟨[], .nil, rfl⟩
  | append_singleton rs r ih =>
    rw [foldlM_append, bind_ok_iff] at hfold
    obtain ⟨mid, hrs, hr⟩ := hfold
    obtain ⟨es, hrun, hlabels⟩ := ih hrs
    rw [foldlM_cons, bind_ok_iff] at hr
    obtain ⟨last, hr, hlast⟩ := hr
    obtain rfl := pure_ok_iff.mp hlast
    have hstep : Step P mid (.result r now) last := hr
    exact ⟨es ++ [⟨mid, .result r now, last⟩], hrun.snoc hstep, by simp [hlabels]⟩

/-! ## A list of operations -/

/-- The database after an operation; one that fails changes nothing. -/
def after (P : Platform) (op : Op) (db : Db) : Db := ((op.apply P db).toOption).getD db

def afterOps (P : Platform) : List Op → Db → Db
  | [], db => db
  | op :: ops, db => afterOps P ops (after P op db)

def opsOk (P : Platform) : List Op → Db → Bool
  | [], _ => true
  | op :: ops, db => (op.apply P db).toOption.isSome && opsOk P ops (after P op db)

theorem step_after (op : Op) {db : Db} (h : (op.apply P db).toOption.isSome = true) :
    Step P db op (after P op db) := by
  unfold Step after
  cases hop : op.apply P db with
  | error e =>
    rw [hop] at h
    cases h
  | ok db' => rfl

theorem run_of_opsOk {ops : List Op} (hok : opsOk P ops db = true) :
    ∃ es, Run (Step P) db es (afterOps P ops db) ∧ es.map Event.label = ops := by
  induction ops generalizing db with
  | nil => exact ⟨[], .nil, rfl⟩
  | cons op ops ih =>
    rw [opsOk, Bool.and_eq_true] at hok
    obtain ⟨es, hrun, hlabels⟩ := ih hok.2
    exact ⟨_, (Run.snoc .nil (step_after op hok.1)).trans hrun, by simp [hlabels]⟩

end Steps

end ManagedDirectory.Rds
