import ManagedDirectory.Rds.Ops
import ManagedDirectory.Rds.Wire

/-!
# The identity key of a device

Which identity key RDS has on file for a device, over every run of operations: the results of the
CA are arbitrary, and may come late, twice or in any order.

`two_box_rule`: the key only changes to the new key of an update that RDS had verified itself, and
a passport that is stored names the key on file. `no_stale_update` and `key_after_reenrollment` say
when an update that was queued before a change of key, or the key from before a re-enrollment, does
not come back. It does otherwise: `stale_update` and `key_survives_reenrollment`.
-/

namespace ManagedDirectory.Rds

open Codec Lib Passport List

abbrev RdsEv := Event Db Op

structure Queues (P : Platform) (e : RdsEv) (j : CaJob) : Prop where
  queuedBy : QueuedBy P e.label e.before j.deviceId j.body
  le_id : e.before.queue.next ≤ j.id
  id_lt : j.id < e.after.queue.next

/-- The event queued an update of the device's key from `old` to `new`. RDS had checked it against
`old`, the key on file. -/
def QueuesUpdate (P : Platform) (e : RdsEv) (did old new : String) : Prop :=
  ∃ text now d prot, e.label = .request did .keyupdate text now ∧
    e.before.device did = some d ∧ onFileKey d = some old ∧
    KeyUpdateVerified P text old d.rustdeskId did now new prot

section Runs

variable {P : Platform} {db₀ db db' : Db} {es pre mid post : List RdsEv} {op : Op} {did : String}
  {id : Nat} {j : CaJob} {e c x : RdsEv}

theorem next_le_of_dbRun (h : Run (Step P) db₀ es db) : db₀.queue.next ≤ db.queue.next :=
  h.invariant (fun db => db₀.queue.next ≤ db.queue.next) (Nat.le_refl _)
    fun hle hstep => Nat.le_trans hle (step_effect hstep).next_le

theorem job_of_step (h : Step P db op db') (hj : db'.job id = some j) :
    (∃ j₀, db.job id = some j₀ ∧ SameJob j₀ j) ∨ Queues P ⟨db, op, db'⟩ j := by
  have hid : j.id = id := Table.key_of_find hj
  have hlt := job_lt_next hj
  have hchange := (step_effect h).job id
  rw [hj] at hchange
  generalize db.job id = o at hchange
  generalize hnew : some j = o' at hchange
  cases hchange with
  | absent => cases hnew
  | kept =>
    cases hnew
    exact .inl ⟨_, rfl, .refl _⟩
  | picked _ _ =>
    cases hnew
    exact .inl ⟨_, rfl, .pick _ _⟩
  | answered _ _ _ =>
    cases hnew
    exact .inl ⟨_, rfl, .answer _ _ _ _⟩
  | queued hge hby =>
    cases hnew
    exact .inr ⟨hby, hge, hlt⟩
  | removed _ => cases hnew

/-- **Where a row of the queue comes from**: it was there at the start, or an event queued it. -/
theorem job_of_run (h : Run (Step P) db₀ es db) (hj : db.job id = some j) :
    (∃ j₀, db₀.job id = some j₀ ∧ SameJob j₀ j) ∨ ∃ e ∈ es, Queues P e j := by
  revert id j
  refine h.history (fun es db => ∀ {id : Nat} {j : CaJob}, db.job id = some j →
    (∃ j₀, db₀.job id = some j₀ ∧ SameJob j₀ j) ∨ ∃ e ∈ es, Queues P e j) ?_ ?_
  · exact fun hj => .inl ⟨_, hj, .refl _⟩
  · intro es db op db' ih hstep id j hj
    rcases job_of_step hstep hj with ⟨j₁, hj₁, hsame⟩ | hnew
    · rcases ih hj₁ with ⟨j₀, hj₀, hsame₀⟩ | ⟨e, he, hq⟩
      · exact .inl ⟨j₀, hj₀, hsame₀.trans hsame⟩
      · refine .inr ⟨e, mem_append_left _ he, ?_, hsame.id ▸ hq.le_id, hsame.id ▸ hq.id_lt⟩
        rw [hsame.deviceId, hsame.body]
        exact hq.queuedBy
    · exact .inr ⟨_, by simp, hnew⟩

theorem Queues.update {expected : Expected} (h : Queues P e j)
    (hupdate : j.body.verified = some expected) :
    ∃ old, QueuesUpdate P e j.deviceId old expected.idk := by
  have hby := h.queuedBy
  generalize j.body = body at hby hupdate
  cases hby with
  | approval => cases hupdate
  | revocation => cases hupdate
  | bootstrap => cases hupdate
  | @request kind text now d onFile expected' hop hqueued =>
    cases kind with
    | renew => cases hupdate
    | keyupdate =>
      cases hupdate
      have hid : d.id = j.deviceId := Table.key_of_find hqueued.row
      have hkey := hqueued.key
      rw [expectedKey, hid, sec8VerifyKeyUpdate_ok_iff] at hkey
      exact ⟨onFile.idk, text, now, d, _, hop, hqueued.row,
        onFileKey_of_devicePayload hqueued.payload, hkey⟩

theorem identity_of_step {d' : ManagedDevice} (h : Step P db op db')
    (hrow : db'.device did = some d') :
    d'.identityPublicKey = (db.device did).bind ManagedDevice.identityPublicKey ∨
      ∃ r now job expected, op = .result r now ∧ r.id = job.id ∧ db.job job.id = some job ∧
        job.unanswered = true ∧ job.deviceId = did ∧ job.body.verified = some expected ∧
        d'.identityPublicKey = some expected.idk := by
  have hchange := (step_effect h).device did
  rw [hrow] at hchange
  generalize db.device did = o at hchange ⊢
  generalize hnew : some d' = o' at hchange
  cases hchange with
  | absent => cases hnew
  | kept hkeys _ =>
    cases hnew
    exact .inl hkeys.identityPublicKey
  | enrolled _ _ =>
    cases hnew
    exact .inl rfl
  | reenrolled _ _ _ =>
    cases hnew
    exact .inl rfl
  | deleted _ _ => cases hnew
  | @certified d r now job serial expiresAt hop _ hid hjob hwait hdid =>
    cases hnew
    cases hv : job.body.verified with
    | none => exact .inl rfl
    | some expected => exact .inr ⟨r, now, job, expected, hop, hid, hjob, hwait, hdid, hv, rfl⟩

end Runs

/-! ## A device that asks for two keys -/

namespace KeySample

def key (n : UInt8) : String := b64 (firstBytes 32 [n])

def approver : CaSigner.Approver := ⟨"owner", "owner", "dashboard"⟩

def setup : List Op :=
  [.enroll ⟨⟨"1", "workshop", none, firstBytes 32 [3], "t", 1⟩, none, "d"⟩,
    .approve "d" none approver false, .configure ⟨some "log", 7⟩]

def start : Db :=
  ⟨Table.empty _, Queue.empty, Table.empty _, Table.empty _, ["owner"], ⟨none, 7⟩⟩

def approved : Db := afterOps plainPlatform setup start

def body (n : UInt8) : KeyUpdateBody where
  typ := "rdc-keyupdate"
  v := version
  rid := "1"
  did := "d"
  oldKey := key 3
  newKey := key n
  newAlg := "ed25519"
  prot := "dpapi"
  ts := 1000
  nonce := "n"

def request (n : UInt8) : String := signKeyUpdate prefixCrypto [3] [n] (body n)

theorem request_short (n : UInt8) : byteLen (request n) ≤ maxTokenLen := by
  refine byteLen_signKeyUpdate_le ?_ ?_
  · simp only [forall_mem_cons, body]
    exact ⟨by decide, by decide, by decide, plain_b64 _, plain_b64 _, by decide, by decide,
      by decide, by simp⟩
  · have hold : (body n).oldKey.length = 43 := by simp [body, key, length_b64, length_firstBytes]
    have hnew : (body n).newKey.length = 43 := by simp [body, key, length_b64, length_firstBytes]
    have hrest : (body n).typ.length + (body n).rid.length + (body n).did.length +
        (body n).newAlg.length + (body n).prot.length + (body n).nonce.length = 28 := by
      simp only [body]
      decide
    omega

theorem request_verified (n : UInt8) :
    sec8VerifyKeyUpdate plainPlatform (request n) (key 3) "1" "d" 1000 =
      .ok (key n, codePoints "dpapi") := by
  have hfresh : |1000 - (body n).ts.toInt| ≤ sec8RequestMaxAge := by
    simp only [body]
    decide
  have hnew : (body n).newKey = b64 (prefixCrypto.publicKey [n]) := rfl
  have hold : (body n).oldKey = b64 (prefixCrypto.publicKey [3]) := rfl
  have hplatform : plainPlatform.verify = prefixCrypto.verify := rfl
  have hprot : (codePoints (body n).prot).take 16 = codePoints "dpapi" := by
    simp only [body]
    decide
  rw [← hprot]
  exact sec8VerifyKeyUpdate_signKeyUpdate hplatform prefixCrypto_correct ⟨rfl, rfl, rfl⟩ hold hnew
    hfresh

def update (text : String) (n : UInt8) : JobBody :=
  .keyupdate ⟨"1", "d", text, 7⟩ ⟨key n, "dpapi"⟩

def push (q : Queue) (job : JobBody) (h : q.next < 2 ^ 63) : Queue where
  jobs := q.jobs.insert ⟨q.next, "d", job, none, none, none, none⟩
  next := q.next + 1
  below j hj := by
    rcases Table.mem_insert.mp hj with hj | ⟨rfl, -⟩
    · exact Nat.lt_succ_of_lt (q.below j hj)
    · exact Nat.lt_succ_self _
  next_le := h

/-- A text that RDS takes as a request for key `n`. -/
structure Sent (text : String) (n : UInt8) : Prop where
  ok : signedRequestOk text = true
  plain : storable text = true
  verified : sec8VerifyKeyUpdate plainPlatform text (key 3) "1" "d" 1000 =
    .ok (key n, codePoints "dpapi")

theorem sent_request (n : UInt8) : Sent (request n) n :=
  ⟨signedRequestOk_signKeyUpdate (request_short n), storable_of_plain (plain_signKeyUpdate _ _ _),
    request_verified n⟩

theorem enqueue_push {db : Db} {job : JobBody} (h : db.queue.next < 2 ^ 63)
    (htexts : job.texts.all storable = true) :
    db.enqueue "d" job = some { db with queue := push db.queue job h } := by
  unfold Db.enqueue Queue.enqueue
  rw [dif_pos ⟨htexts, h⟩]
  rfl

def device : ManagedDevice :=
  ⟨"d", "1", "workshop", none, firstBytes 32 [3], .approved, "t", 1 + enrollmentPollDays, none,
    none, none, none, none⟩

theorem request_step {db : Db} {text : String} {n : UInt8} (h : Sent text n)
    (hsettings : db.settings = ⟨some "log", 7⟩) (hrow : db.device "d" = some device)
    (hwaiting : db.waitingRequests "d" < 2) (hnext : db.queue.next < 2 ^ 63) :
    Step plainPlatform db (.request "d" .keyupdate text 1000)
      { db with queue := push db.queue (update text n) hnext } := by
  have hqueued : Queued plainPlatform db "d" .keyupdate text 1000 device
      ⟨"1", "d", "workshop", key 3, "ed25519", key 3, "legacy"⟩ ⟨key n, "dpapi"⟩ :=
    ⟨hrow, rfl, rfl, h.verified, hwaiting⟩
  refine requestPassport_of_queued h.ok (by rw [hsettings]; rfl) hqueued ?_
  have hbody : RequestKind.keyupdate.body ⟨device.rustdeskId, "d", text, db.settings.lifetimeDays⟩
      ⟨key n, "dpapi"⟩ = update text n := by
    rw [hsettings]
    rfl
  have hkey : storable (key n) = true := storable_of_plain (plain_b64 _)
  rw [hbody]
  refine enqueue_push hnext ?_
  simp only [update, JobBody.texts, all_cons, all_nil, h.plain, hkey, Bool.and_true]
  decide

theorem two_small : 2 < 2 ^ 63 := by decide

def waitingOne (text : String) : Db :=
  { approved with queue := push approved.queue (update text 4) (Nat.lt_of_succ_lt two_small) }

def waitingBoth (text text' : String) : Db :=
  { waitingOne text with queue := push (waitingOne text).queue (update text' 5) two_small }

theorem request_one {text : String} (h : Sent text 4) :
    Step plainPlatform approved (.request "d" .keyupdate text 1000) (waitingOne text) :=
  request_step h rfl rfl (by decide) _

theorem request_two {text text' : String} (h : Sent text' 5) :
    Step plainPlatform (waitingOne text) (.request "d" .keyupdate text' 1000)
      (waitingBoth text text') := by
  have hwaiting : (waitingOne text).waitingRequests "d" = 1 := rfl
  exact request_step h rfl rfl (by rw [hwaiting]; decide) _

def passportBody (n : UInt8) (serial : String) : PassportBody :=
  ⟨"rdc-passport", version, serial, "1", "d", key n, "ed25519", key 3, "dpapi", [], 1000, 1000,
    2000, "0"⟩

def passport (n : UInt8) (serial : String) : String :=
  signPassport prefixCrypto [2] (signIkc prefixCrypto [1] (prefixCrypto.verifyingKey [2]) 0 9000)
    (passportBody n serial)

def answer (id : Int) (n : UInt8) (serial passport : String) : JobResult :=
  ⟨id, true, none, some passport, some serial, some 1000, some 2000, some (key n), some "dpapi"⟩

def row (id : Nat) (serial passport : String) : DevicePassport :=
  ⟨serial, "d", "keyupdate", passport, 1000 * 1000000, 2000 * 1000000, id⟩

structure Takes (text : String) (id : Int) (n : UInt8) (serial token : String) : Prop where
  plain : storable token = true
  nonempty : token ≠ ""
  fits : ∀ file, passportMismatch plainPlatform (update text n) ⟨file, some "1", some "d"⟩
    (answer id n serial token) = .ok ()

theorem key_ne_empty (n : UInt8) : key n ≠ "" := by
  intro hempty
  have hlen := congrArg String.length hempty
  rw [key, length_b64, length_firstBytes] at hlen
  cases hlen

theorem key_ne {m n : UInt8} (h : firstBytes 32 [m] ≠ firstBytes 32 [n]) : key m ≠ key n :=
  fun heq => h (b64_inj heq)

theorem takes_passport (text : String) (id : Int) (n : UInt8) (serial : String) :
    Takes text id n serial (passport n serial) where
  plain := storable_of_plain (plain_signPassport (ikcShape_signIkc _ _ _ _))
  nonempty := signPassport_ne_empty
  fits file := by
    have hexpected : expectedIdk (update text n) file = .ok (passportBody n serial).idk :=
      expectedIdk_eq_ok.mpr ⟨key_ne_empty n, rfl⟩
    exact passportMismatch_issued (ikcShape_signIkc [1] (prefixCrypto.verifyingKey [2]) 0 9000)
      hexpected (answer id n serial (passport n serial)) rfl rfl rfl

def updateJob (id : Nat) (text : String) (n : UInt8) : CaJob :=
  ⟨id, "d", update text n, none, none, none, none⟩

def stored (db : Db) (id : Nat) (text : String) (n : UInt8) (serial token : String) : Db :=
  (db.answer id 30 true none).store (update text n) (row id serial token)

theorem result_stored (db : Db) {d : ManagedDevice} {text serial token : String} {id : Nat}
    {n : UInt8} (h : Takes text id n serial token) (hserial : storable serial = true)
    (hopen : db.openJob id = some (updateJob id text n))
    (hrow : db.device "d" = some d) (hrid : d.rustdeskId = "1") :
    Step plainPlatform db (.result (answer id n serial token) 30)
      (stored db id text n serial token) := by
  have hpassport : passportRow db (updateJob id text n) (answer id n serial token) =
      some (row id serial token) := by
    simp only [passportRow, answer, Option.getD_some, h.plain, updateJob, hrow]
    show (if (storable serial && true && true) = true then some (row id serial token) else none) = _
    rw [hserial]
    rfl
  have hfits : passportMismatch plainPlatform (update text n) (db.onFile "d")
      (answer id n serial token) = .ok () := by
    have hfile := h.fits (onFileKey d)
    rw [← hrid] at hfile
    rw [Db.onFile, hrow]
    exact hfile
  exact applyResult_of_taken rfl hopen rfl (show (some token).getD "" ≠ "" from h.nonempty) hfits
    hpassport

def enrollment : Enrollment := ⟨"1", "workshop", none, firstBytes 32 [6], "t2", 60⟩

def comeBack : Op := .reenroll ⟨enrollment, "d", "t"⟩

def authorize : Op := .authorize "d" "owner" "a" 60 50

def updated (text token : String) : Db := stored (waitingOne text) 1 text 4 "s1" token

def closed (db : Db) : Db :=
  (db.updateDevice "d" (ManagedDevice.setStatus .blocked)
    (ManagedDevice.id_setStatus .blocked)).revokeAuthorizations "d"

def blocked (text token : String) : Db :=
  { closed (updated text token) with
    queue := push (updated text token).queue (.revoke ⟨"1", "d", "blocked"⟩) two_small }

theorem block_step (text token : String) :
    Step plainPlatform (updated text token) (.changeStatus "d" .blocked false)
      (blocked text token) := by
  have henqueue : (closed (updated text token)).enqueue "d" (.revoke ⟨"1", "d", "blocked"⟩) =
      some (blocked text token) := enqueue_push two_small (by decide)
  have hstep : changeDeviceStatus "d" .blocked false (updated text token) =
      .ok (((closed (updated text token)).enqueue "d" (.revoke ⟨"1", "d", "blocked"⟩)).getD
        (closed (updated text token))) := rfl
  rwa [henqueue] at hstep

theorem run_setup : ∃ es, Run (Step plainPlatform) start es approved := by
  obtain ⟨es, hrun, -⟩ := run_of_opsOk (show opsOk plainPlatform setup start = true from rfl)
  exact ⟨es, hrun⟩

theorem run_requests :
    ∃ es, Run (Step plainPlatform) start es (waitingBoth (request 4) (request 5)) := by
  obtain ⟨es, hrun⟩ := run_setup
  exact ⟨_, (hrun.snoc (request_one (sent_request 4))).snoc (request_two (sent_request 5))⟩

def posted (ok : Bool) : JobResult := ⟨1, ok, none, none, none, none, none, none, none⟩

def failedOnce : List Op := .configure ⟨some "log", 7⟩ :: (setup ++ [.result (posted false) 5])

end KeySample

section Keys

variable {P : Platform} {db₀ db db' : Db} {es pre mid post : List RdsEv} {op : Op} {did : String}
  {id : Nat} {j : CaJob} {e c x : RdsEv}

/-! ## The two-box rule -/

/-- **The two-box rule.** Whatever results are posted, an identity key only changes to the new key
of an update of that device that RDS had verified against the key on file, and a passport that is
stored names its device and the key on file after that result. -/
theorem two_box_rule (h : Run (Step P) db₀ es db) (hempty : ∀ id, db₀.job id = none)
    (hstep : Step P db op db') :
    (∀ did d', db'.device did = some d' →
      d'.identityPublicKey ≠ (db.device did).bind ManagedDevice.identityPublicKey →
      ∃ r now job new, op = .result r now ∧ r.id = job.id ∧ db.job job.id = some job ∧
        job.deviceId = did ∧ d'.identityPublicKey = some new ∧
        (∃ signed prot, job.body = .keyupdate signed ⟨new, prot⟩) ∧
        ∃ e ∈ es, Queues P e job ∧ ∃ old, QueuesUpdate P e did old new) ∧
    ∀ row ∈ db'.passports.rows, row ∉ db.passports.rows →
      ∃ d key, db'.device row.deviceId = some d ∧ onFileKey d = some key ∧
        PassportNames P row.passport key d.rustdeskId row.deviceId := by
  refine ⟨fun did d' hrow hne => ?_, fun row hrow hnew => ?_⟩
  · obtain ⟨r, now, job, expected, hop, hid, hjob, -, hdid, hv, hkey⟩ :=
      (identity_of_step hstep hrow).resolve_left hne
    have hbody : ∃ signed prot, job.body = .keyupdate signed ⟨expected.idk, prot⟩ := by
      cases hb : job.body with
      | keyupdate signed expected' =>
        rw [hb] at hv
        cases hv
        exact ⟨signed, _, rfl⟩
      | _ =>
        rw [hb] at hv
        cases hv
    rcases job_of_run h hjob with ⟨j₀, hj₀, -⟩ | ⟨e, he, hq⟩
    · rw [hempty] at hj₀
      cases hj₀
    · exact ⟨r, now, job, expected.idk, hop, hid, hjob, hdid, hkey, hbody, e, he, hq,
        hdid ▸ hq.update hv⟩
  · exact (((step_effect hstep).passport row hrow).resolve_left hnew).names

open KeySample in
/-- Key 4 comes on file with the result of the update to it. -/
theorem sample_two_box_rule : ∃ es db r now db',
    Run (Step plainPlatform) start es db ∧
      Step plainPlatform db (.result r now) db' ∧
      ∃ e ∈ es, ∃ old, QueuesUpdate plainPlatform e "d" old (key 4) := by
  obtain ⟨es, hrun⟩ := run_requests
  have htakes := takes_passport (request 4) 1 4 "s1"
  -- the texts are long; nothing below looks into them
  generalize request 4 = text at hrun htakes
  generalize request 5 = text' at hrun
  generalize passport 4 "s1" = token at htakes
  have hresult := result_stored (waitingBoth text text') htakes (by decide)
    rfl rfl rfl
  refine ⟨es, _, _, _, _, hrun, hresult, ?_⟩
  obtain ⟨r, now, job, new, -, -, -, -, hkey, -, e, he, -, hqueued⟩ :=
    (two_box_rule hrun (fun _ => rfl) hresult).1 "d" _ rfl (Option.some_ne_none _)
  cases hkey
  exact ⟨e, he, hqueued⟩

/-! ## Updates from before a change -/

def Answers (op : Op) (j : CaJob) : Prop := ∃ r now, op = .result r now ∧ r.id = j.id

/-- The event gives the device another key: a re-enrollment, or a new identity key. -/
def Rekeys (e : RdsEv) (did : String) : Prop :=
  ∃ d d', e.before.device did = some d ∧ e.after.device did = some d' ∧
    ((∃ enrollment, e.label.enrollment = some enrollment ∧ d' = d.reenroll enrollment) ∨
      d'.identityPublicKey ≠ d.identityPublicKey)

/-- No key update of the device waits but the one that the event answers. -/
def NoOtherUpdate (e : RdsEv) (did : String) : Prop :=
  ∀ j, e.before.job j.id = some j → j.deviceId = did → j.body.verified.isSome = true →
    j.unanswered = true → Answers e.label j

/-- A row that was there before the event and still waits, waited then and was not answered by the
event. -/
theorem waiting_before (hstep : Step P e.before e.label e.after)
    (hmid : Run (Step P) e.after mid db) (hj : db.job j.id = some j) (hwait : j.unanswered = true)
    (hold : j.id < e.before.queue.next) :
    ∃ j₀, e.before.job j₀.id = some j₀ ∧ SameJob j₀ j ∧ j₀.unanswered = true ∧
      ¬ Answers e.label j₀ := by
  obtain ⟨j₁, hj₁, hsame₁⟩ : ∃ j₁, e.after.job j.id = some j₁ ∧ SameJob j₁ j := by
    refine (job_of_run hmid hj).resolve_right ?_
    rintro ⟨y, hy, hq⟩
    obtain ⟨l₁, l₂, rfl⟩ := append_of_mem hy
    have hle := next_le_of_dbRun hmid.split.1
    have hle' := (step_effect hstep).next_le
    have hge := hq.le_id
    omega
  obtain ⟨j₀, hj₀, hsame₀⟩ : ∃ j₀, e.before.job j.id = some j₀ ∧ SameJob j₀ j₁ := by
    refine (job_of_step hstep hj₁).resolve_right fun hq => ?_
    have hge : e.before.queue.next ≤ j₁.id := hq.le_id
    rw [← hsame₁.id] at hge
    omega
  have hsame := hsame₀.trans hsame₁
  refine ⟨j₀, hsame.id ▸ hj₀, hsame, hsame.waiting hwait, ?_⟩
  rintro ⟨r, now, hlabel, hid⟩
  rw [hlabel] at hstep
  have hopen : e.before.openJob r.id = some j₀ := by
    unfold Db.openJob
    rw [hid, if_pos (Int.natCast_nonneg _), Int.toNat_natCast, ← hsame.id, hj₀]
    simp [hsame.waiting hwait]
  obtain ⟨j₂, hj₂, hanswered⟩ := answered_of_applyResult hstep hopen
  rw [← hsame.id, hj₁] at hj₂
  cases hj₂
  rw [hsame₁.waiting hwait] at hanswered
  cases hanswered

/-- **No stale update**, where each change of a device's key finds no other update of the device
waiting: after the change, the result of an update that was queued before it leaves the identity key
alone. -/
theorem no_stale_update (h : Run (Step P) db₀ (pre ++ c :: (mid ++ x :: post)) db)
    (hcond : ∀ e ∈ pre ++ c :: (mid ++ x :: post), Rekeys e did → NoOtherUpdate e did)
    (hchange : Rekeys c did) (hj : x.before.job j.id = some j) (hdid : j.deviceId = did)
    (hupdate : j.body.verified.isSome = true) (hold : j.id < c.before.queue.next)
    (hresult : Answers x.label j) :
    ∀ d d', x.before.device did = some d → x.after.device did = some d' →
      d'.identityPublicKey = d.identityPublicKey := by
  intro d d' hd hd'
  obtain ⟨-, hstep, hrest⟩ := h.split
  obtain ⟨hmid, hx, -⟩ := hrest.split
  rcases identity_of_step hx hd' with hsame | ⟨r, now, job, expected, hop, hid, hjob, hwait, -⟩
  · rw [hsame, hd, Option.bind_some]
  · exfalso
    obtain ⟨r', now', hop', hid'⟩ := hresult
    obtain ⟨rfl, -⟩ : r = r' ∧ now = now' := by simpa using hop.symm.trans hop'
    have hids : job.id = j.id := Int.natCast_inj.mp (hid.symm.trans hid')
    obtain rfl : job = j := Option.some.inj (hjob.symm.trans (hids ▸ hj))
    obtain ⟨j₀, hj₀, hsame, hwait₀, hnot⟩ := waiting_before hstep hmid hj hwait hold
    refine hnot (hcond c (by simp) hchange j₀ hj₀ (hsame.deviceId ▸ hdid) ?_ hwait₀)
    rw [← hsame.body]
    exact hupdate

open KeySample in
/-- Two updates wait, to key 4 and to key 5. After key 4 is on file, the result of the other one
puts key 5 there. -/
theorem stale_update : ∃ pre c x db j d d',
    Run (Step plainPlatform) start (pre ++ c :: ([] ++ x :: [])) db ∧ Rekeys c "d" ∧
      x.before.job j.id = some j ∧ j.deviceId = "d" ∧ j.body.verified.isSome = true ∧
      j.id < c.before.queue.next ∧ Answers x.label j ∧ x.before.device "d" = some d ∧
      x.after.device "d" = some d' ∧ d'.identityPublicKey ≠ d.identityPublicKey := by
  obtain ⟨es, hrun⟩ := run_requests
  have hone := takes_passport (request 4) 1 4 "s1"
  have htwo := takes_passport (request 5) 2 5 "s2"
  generalize request 4 = text at hrun hone
  generalize request 5 = text' at hrun htwo
  generalize passport 4 "s1" = token at hone
  generalize passport 5 "s2" = token' at htwo
  have hrun' := (hrun.snoc (result_stored _ hone (by decide) rfl rfl rfl)).snoc
    (result_stored _ htwo (by decide) rfl rfl rfl)
  rw [append_assoc] at hrun'
  have hkeys : key 5 ≠ key 4 := key_ne (by decide)
  exact ⟨es, _, _, _, updateJob 2 text' 5, _, _, hrun',
    ⟨_, _, rfl, rfl, .inr (Option.some_ne_none _)⟩, rfl, rfl, rfl, show 2 < 3 by decide,
    ⟨_, _, rfl, rfl⟩, rfl, rfl, fun heq => hkeys (Option.some.inj heq)⟩

open KeySample in
/-- The result of an update that comes twice changes nothing the second time. -/
theorem sample_no_stale_update : ∃ pre c x db j d d',
    Run (Step plainPlatform) approved (pre ++ c :: ([] ++ x :: [])) db ∧ Rekeys c "d" ∧
      x.before.job j.id = some j ∧ Answers x.label j ∧ x.before.device "d" = some d ∧
      x.after.device "d" = some d' ∧ d'.identityPublicKey = d.identityPublicKey := by
  have hsent := sent_request 4
  have htakes := takes_passport (request 4) 1 4 "s1"
  generalize request 4 = text at hsent htakes
  generalize passport 4 "s1" = token at htakes
  have hstored := result_stored (waitingOne text) htakes (by decide) rfl
    rfl rfl
  have hagain : Step plainPlatform (stored (waitingOne text) 1 text 4 "s1" token)
      (.result (KeySample.answer 1 4 "s1" token) 35) _ := rfl
  have hrun := ((Run.snoc .nil (request_one hsent)).snoc hstored).snoc hagain
  rw [append_assoc] at hrun
  have hchange : Rekeys ⟨waitingOne text, .result (KeySample.answer 1 4 "s1" token) 30,
      stored (waitingOne text) 1 text 4 "s1" token⟩ "d" :=
    ⟨_, _, rfl, rfl, .inr (Option.some_ne_none _)⟩
  refine ⟨_, _, _, _, (updateJob 1 text 4).answer 30 true none, _, _, hrun, hchange, rfl,
    ⟨_, _, rfl, rfl⟩, rfl, rfl, ?_⟩
  refine no_stale_update (j := (updateJob 1 text 4).answer 30 true none) hrun ?_ hchange
    rfl rfl rfl (show 1 < 2 by decide) ⟨_, _, rfl, rfl⟩ _ _ rfl rfl
  intro e he _ j hj _ _ hwait
  have hmem := Table.mem_of_find hj
  simp only [nil_append, cons_append, mem_cons, not_mem_nil, or_false] at he
  rcases he with rfl | rfl | rfl
  · cases hmem
  · obtain rfl := mem_singleton.mp hmem
    exact ⟨_, _, rfl, rfl⟩
  · obtain rfl := mem_singleton.mp hmem
    cases hwait

/-! ## The key after a re-enrollment -/

/-- The event brings the device back with the key of the enrollment. -/
def Returns (e : RdsEv) (did : String) (enrollment : Enrollment) : Prop :=
  e.label.enrollment = some enrollment ∧
    ∃ d, e.before.device did = some d ∧ e.after.device did = some (d.reenroll enrollment)

def NotEnrolled (es : List RdsEv) (did : String) : Prop :=
  ∀ e ∈ es, e.label.enrollment.isSome = true → e.after.device did = e.before.device did

/-- The keys RDS uses for a device: in issue jobs, in the checks of results and in hbbs's list. -/
def UsesKey (d : ManagedDevice) (key : String) : Prop :=
  (∃ p, devicePayload d = some p ∧ p.idk = key) ∨ onFileKey d = some key ∨ listedKey d = some key

/-- The key is reached from `first` by verified updates of the device that the events queued. -/
def Reached (P : Platform) (es : List RdsEv) (did : String) : String → String → Prop :=
  Relation.ReflTransGen fun old new => ∃ e ∈ es, QueuesUpdate P e did old new

theorem onFileKey_of_usesKey {d : ManagedDevice} {key : String} (h : UsesKey d key) :
    onFileKey d = some key := by
  rcases h with ⟨p, hp, rfl⟩ | h | h
  · exact onFileKey_of_devicePayload hp
  · exact h
  · exact onFileKey_of_listedKey h

theorem Reached.mono {first key : String} {es' : List RdsEv} (h : Reached P es did first key)
    (hsub : ∀ e ∈ es, e ∈ es') : Reached P es' did first key :=
  Relation.ReflTransGen.mono (fun _ _ ⟨e, he, hq⟩ => ⟨e, hsub e he, hq⟩) _ _ h

theorem length_enrolled_key {e : Enrollment} (h : Step P db op db') (hop : op.enrollment = some e) :
    32 ≤ e.devicePublicKey.length := by
  have hlength : checkDevicePublicKey e.devicePublicKey = .ok () →
      32 ≤ e.devicePublicKey.length := by
    intro hcheck
    simp only [checkDevicePublicKey, refuseIf_eq_ok, not_or, Nat.not_lt] at hcheck
    exact hcheck.1
  cases op with
  | enroll req =>
    cases hop
    simp only [Step, Op.apply, enrollDevice, bind_ok_iff, exists_unit] at h
    exact hlength h.2.1
  | reenroll req =>
    cases hop
    simp only [Step, Op.apply, completeDeviceReenrollment, bind_ok_iff, exists_unit] at h
    exact hlength h.1
  | _ => cases hop

/-- The keys of a device that came back with `key`, and of its updates that wait, are reached from
`key`. -/
structure KeysReached (P : Platform) (es : List RdsEv) (did : String) (key : Bytes) (db : Db) :
    Prop where
  row : ∀ d, db.device did = some d → d.devicePublicKey = key ∧
    ∀ idk, d.identityPublicKey = some idk → idk = "" ∨ Reached P es did (b64 key) idk
  waiting : ∀ j expected, db.job j.id = some j → j.deviceId = did → j.unanswered = true →
    j.body.verified = some expected → Reached P es did (b64 key) expected.idk

theorem KeysReached.onFile {key : Bytes} {d : ManagedDevice} {idk : String}
    (h : KeysReached P es did key db) (hkey : key ≠ []) (hrow : db.device did = some d)
    (hidk : onFileKey d = some idk) : Reached P es did (b64 key) idk := by
  obtain ⟨hdevice, hidentity⟩ := h.row d hrow
  unfold onFileKey at hidk
  split_ifs at hidk with hnone
  · cases hidk
    rw [hdevice]
    exact .refl
  · refine (hidentity idk hidk).resolve_left fun hempty => hnone ⟨?_, hdevice ▸ hkey⟩
    rw [hidk, hempty, Option.getD_some]

theorem KeysReached.step {key : Bytes} (h : KeysReached P es did key db) (hkey : key ≠ [])
    (hstep : Step P db op db') (hnot : NotEnrolled [⟨db, op, db'⟩] did) :
    KeysReached P (es ++ [⟨db, op, db'⟩]) did key db' := by
  have hmono : ∀ {k : String}, Reached P es did (b64 key) k →
      Reached P (es ++ [⟨db, op, db'⟩]) did (b64 key) k :=
    fun hk => hk.mono fun e he => mem_append_left _ he
  constructor
  · intro d' hd'
    have hchange := (step_effect hstep).device did
    have hsame := hnot _ (mem_singleton.mpr rfl)
    simp only at hsame
    rw [hd'] at hchange hsame
    generalize hold : db.device did = o at hchange hsame
    generalize hnew : some d' = o' at hchange
    cases hchange with
    | absent => cases hnew
    | @kept d _ hkeys _ =>
      cases hnew
      obtain ⟨hdevice, hidentity⟩ := h.row d hold
      refine ⟨hkeys.devicePublicKey.trans hdevice, fun idk hidk => ?_⟩
      rw [hkeys.identityPublicKey] at hidk
      exact (hidentity idk hidk).imp_right hmono
    | enrolled hop _ =>
      rw [hop] at hsame
      cases hsame rfl
    | @reenrolled d e hop _ _ =>
      rw [hop] at hsame
      cases hnew
      obtain ⟨hdevice, hidentity⟩ := h.row d hold
      have hrow := Option.some.inj (hsame rfl)
      rw [hrow]
      exact ⟨hdevice, fun idk hidk => (hidentity idk hidk).imp_right hmono⟩
    | @certified d r now job serial expiresAt _ _ _ hjob hwait hdid =>
      cases hnew
      obtain ⟨hdevice, hidentity⟩ := h.row d hold
      refine ⟨hdevice, fun idk hidk => ?_⟩
      cases hv : job.body.verified with
      | none =>
        rw [hv] at hidk
        exact (hidentity idk hidk).imp_right hmono
      | some expected =>
        rw [hv] at hidk
        cases hidk
        exact .inr (hmono (h.waiting job expected hjob hdid hwait hv))
    | deleted _ _ => cases hnew
  · intro j expected hj hdid hwait hv
    rcases job_of_step hstep hj with ⟨j₀, hj₀, hsame⟩ | hq
    · refine hmono (h.waiting j₀ expected (hsame.id ▸ hj₀) (hsame.deviceId ▸ hdid)
        (hsame.waiting hwait) ?_)
      rw [← hsame.body]
      exact hv
    · obtain ⟨old, hupdate⟩ := hq.update hv
      rw [hdid] at hupdate
      obtain ⟨_, _, d, _, -, hrow, hfile, -⟩ := id hupdate
      exact .tail (hmono (h.onFile hkey hrow hfile)) ⟨_, by simp, hupdate⟩

/-- **The key after a re-enrollment**, where the re-enrollment finds no identity key but its own and
no update of the device waiting: every key RDS uses for the device is the new device key, or reached
from it by verified updates that were made later. -/
theorem key_after_reenrollment {enrollment : Enrollment} {d : ManagedDevice} {key : String}
    (h : Run (Step P) db₀ (pre ++ c :: post) db) (hback : Returns c did enrollment)
    (hlast : NotEnrolled post did)
    (hidentity : ∀ d idk, c.before.device did = some d → d.identityPublicKey = some idk →
      idk = "" ∨ idk = b64 enrollment.devicePublicKey)
    (hwaiting : ∀ j, c.before.job j.id = some j → j.deviceId = did →
      j.body.verified.isSome = true → j.unanswered = false)
    (hrow : db.device did = some d) (huses : UsesKey d key) :
    Reached P post did (b64 enrollment.devicePublicKey) key := by
  obtain ⟨-, hstep, hpost⟩ := h.split
  obtain ⟨hop, d₀, hd₀, hd₀'⟩ := hback
  have hkey : enrollment.devicePublicKey ≠ [] := by
    intro hnil
    have hlength := length_enrolled_key hstep hop
    rw [hnil] at hlength
    cases hlength
  have hstart : KeysReached P [] did enrollment.devicePublicKey c.after := by
    constructor
    · intro d' hd'
      obtain rfl := Option.some.inj (hd₀'.symm.trans hd')
      refine ⟨rfl, fun idk hidk => (hidentity d₀ idk hd₀ hidk).imp_right ?_⟩
      rintro rfl
      exact .refl
    · -- an enrollment queues nothing, so a row that waits now waited before
      intro j expected hj hdid hwait hv
      exfalso
      rcases job_of_step hstep hj with ⟨j₀, hj₀, hsame⟩ | hq
      · have hanswered := hwaiting j₀ (hsame.id ▸ hj₀) (hsame.deviceId ▸ hdid)
          (by rw [← hsame.body, hv, Option.isSome_some])
        rw [hsame.answered hanswered] at hwait
        cases hwait
      · obtain ⟨_, _, _, _, _, hrequest, -⟩ := hq.update hv
        rw [show c.label = _ from hrequest] at hop
        cases hop
  have hreached : KeysReached P post did enrollment.devicePublicKey db := by
    refine hpost.history (fun es db => NotEnrolled es did →
      KeysReached P es did enrollment.devicePublicKey db) (fun _ => hstart) ?_ hlast
    intro es m op m' ih hm hnot
    refine (ih fun e he => hnot e (mem_append_left _ he)).step hkey hm fun e he => ?_
    exact hnot e (mem_append_right _ he)
  exact hreached.onFile hkey hrow (onFileKey_of_usesKey huses)

open KeySample in
/-- A device that had changed its key comes back with key 6, and RDS goes on using key 4. -/
theorem key_survives_reenrollment : ∃ pre c enrollment d key,
    Run (Step plainPlatform) start (pre ++ [c]) c.after ∧ Returns c "d" enrollment ∧
      c.after.device "d" = some d ∧ UsesKey d key ∧
      ¬ Reached plainPlatform [] "d" (b64 enrollment.devicePublicKey) key := by
  obtain ⟨es, hrun⟩ := run_setup
  have hsent := sent_request 4
  have htakes := takes_passport (request 4) 1 4 "s1"
  generalize request 4 = text at hsent htakes
  generalize passport 4 "s1" = token at htakes
  have hupdated := (hrun.snoc (request_one hsent)).snoc
    (result_stored _ htakes (by decide) rfl rfl rfl)
  have hblocked := hupdated.snoc (block_step text token)
  have hback := (hblocked.snoc (step_after authorize rfl)).snoc
    (step_after comeBack rfl)
  refine ⟨_, _, enrollment, _, key 4, hback, ⟨rfl, _, rfl, rfl⟩, rfl,
    .inr (.inl ?_), fun hreached => ?_⟩
  · exact if_neg fun hempty => key_ne_empty 4 hempty.1
  · -- no event, no update: only the device key itself is reached
    have hkeys : key 6 ≠ key 4 := key_ne (by decide)
    rcases hreached.cases_tail with heq | ⟨_, -, e, he, -⟩
    · exact hkeys heq.symm
    · cases he

open KeySample in
/-- A device that never changed its key comes back with key 6, and RDS uses that. -/
theorem sample_key_after_reenrollment : ∃ pre c d,
    Run (Step plainPlatform) start (pre ++ c :: []) c.after ∧
      Returns c "d" enrollment ∧ c.after.device "d" = some d ∧
      UsesKey d (key 6) ∧
      Reached plainPlatform [] "d" (b64 enrollment.devicePublicKey)
        (key 6) := by
  obtain ⟨es, hrun, -⟩ := run_of_opsOk (show opsOk plainPlatform
    (setup ++ [.changeStatus "d" .blocked false, authorize]) start = true from rfl)
  have hback := hrun.snoc (step_after comeBack rfl)
  have huses : UsesKey (device.reenroll enrollment) (key 6) :=
    .inl ⟨_, rfl, rfl⟩
  refine ⟨es, _, _, hback, ⟨rfl, _, rfl, rfl⟩, rfl, huses, ?_⟩
  refine key_after_reenrollment hback ⟨rfl, _, rfl, rfl⟩ (fun e he => ?_) ?_ ?_ rfl huses
  · cases he
  · intro d idk hd hidk
    cases hd
    cases hidk
  · -- the only row is the revoke job of the block
    intro j hj _ hupdate
    obtain rfl := mem_singleton.mp (Table.mem_of_find hj)
    cases hupdate

/-- **The first answer stands**: whatever is posted after a job was answered, its row stays as it is
until its device is deleted, and its id is not used again. -/
theorem first_answer_stands (h : Run (Step P) db₀ es db) (hj : db₀.job id = some j)
    (hanswered : j.unanswered = false) :
    db.job id = some j ∨ db.job id = none ∧ ∃ e ∈ es, e.label = .delete j.deviceId := by
  refine (h.history (fun es db => id < db.queue.next ∧ (db.job id = some j ∨
    db.job id = none ∧ ∃ e ∈ es, e.label = .delete j.deviceId)) ⟨job_lt_next hj, .inl hj⟩ ?_).2
  rintro es db op db' ⟨hlt, hjob⟩ hstep
  have heffect := step_effect hstep
  refine ⟨hlt.trans_le heffect.next_le, ?_⟩
  have hchange := heffect.job id
  rcases hjob with hjob | ⟨hjob, e, he, hdelete⟩
  · rw [hjob] at hchange
    generalize db'.job id = after at hchange ⊢
    cases hchange with
    | kept => exact .inl rfl
    | picked _ hdue => simp [(mem_dueJobs hdue).2] at hanswered
    | answered _ _ hwait => simp [hwait] at hanswered
    | removed hop => exact .inr ⟨rfl, _, mem_append_right _ mem_cons_self, hop⟩
  · rw [hjob] at hchange
    generalize db'.job id = after at hchange ⊢
    cases hchange with
    | absent => exact .inr ⟨rfl, e, mem_append_left _ he, hdelete⟩
    | queued hnew => exact absurd hnew (Nat.not_le.mpr hlt)

open KeySample in
/-- A job that has failed does not succeed later. -/
theorem sample_first_answer_stands : ∃ es db job,
    Run (Step plainPlatform) (afterOps plainPlatform failedOnce start) es db ∧
      db.job 1 = some job ∧ job.ok = some false := by
  have hposted : opsOk plainPlatform [.result (posted true) 6]
      (afterOps plainPlatform failedOnce start) = true := rfl
  obtain ⟨es, hrun, hlabels⟩ := run_of_opsOk hposted
  refine ⟨es, _, _, hrun, (first_answer_stands hrun rfl rfl).resolve_right ?_, rfl⟩
  rintro ⟨-, e, he, hdelete⟩
  have hmem := mem_map_of_mem (f := Event.label) he
  rw [hlabels, hdelete] at hmem
  simp at hmem

end Keys

end ManagedDirectory.Rds
