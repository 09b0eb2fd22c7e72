import ManagedDirectory.Rds.Passports
import ManagedDirectory.Link.Bootstrap
import ManagedDirectory.Link.KeyUpdates

/-!
# The passport a device gets

`GET /v1/device/passport` answers with the passport that expires last and with the identity key on
file. `key_served`: the passport carries that key, if one for it is stored, as long as a passport
for a new key outlives those for the old ones. When the lifetime is lowered before a key update it
does not: `stale_passport_served`.
-/

namespace ManagedDirectory.Link

open Codec Lib Passport List
open Rds (Db Op CaJob Platform JobBody RdsEv Step KeyServed KeepsAhead HasPassport CarriesKey
  DevicePassport ManagedDevice IkcShape plainPlatform afterOps opsOk toTimestamp onFileKey
  expectedIdk getDevicePassport)
open CaSigner (Signer Env passportFor clampDays issuedFor)

/-! ## Answers of the signer -/

/-- The posted answer with a passport for `body`. -/
def passportAnswer (C : Crypto) (keys : CaSigner.Keys) (id : Int) (body : PassportBody) :
    Rds.JobResult :=
  ⟨id, true, none, some (signPassport C keys.issuing keys.ikc body), some body.serial,
    some body.nbf.toInt, some body.exp.toInt, some body.idk, some body.prot⟩

def passportAnswerRow (C : Crypto) (keys : CaSigner.Keys) (job : CaJob) (body : PassportBody)
    (nbf exp : Int) : DevicePassport :=
  ⟨body.serial, job.deviceId, job.body.kind, signPassport C keys.issuing keys.ikc body, nbf, exp,
    job.id⟩

theorem passport_stored {P : Platform} {C : Crypto} {db : Db} {job : CaJob} {d : ManagedDevice}
    {keys : CaSigner.Keys} {body : PassportBody} {nbf exp : Int} (now : Int)
    (hikc : IkcShape keys.ikc) (hopen : db.openJob job.id = some job)
    (hrow : db.device job.deviceId = some d) (hrid : body.rid = d.rustdeskId)
    (hdid : body.did = job.deviceId) (hkey : expectedIdk job.body (onFileKey d) = .ok body.idk)
    (hserial : Rds.storable body.serial = true)
    (hnbf : toTimestamp body.nbf.toInt = some nbf) (hexp : toTimestamp body.exp.toInt = some exp) :
    Step P db (.result (passportAnswer C keys job.id body) now)
      ((db.answer job.id now true none).store job.body
        (passportAnswerRow C keys job body nbf exp)) := by
  have hmatch : Rds.passportMismatch P job.body (db.onFile job.deviceId)
      (passportAnswer C keys job.id body) = .ok () := by
    simp only [Rds.Db.onFile, hrow]
    rw [← hrid, ← hdid]
    exact Rds.passportMismatch_issued hikc hkey _ rfl rfl rfl
  have hpassport : Rds.storable (signPassport C keys.issuing keys.ikc body) = true :=
    Rds.storable_of_plain (Rds.plain_signPassport hikc)
  have hstored : Rds.passportRow db job (passportAnswer C keys job.id body) =
      some (passportAnswerRow C keys job body nbf exp) := by
    simp [Rds.passportRow, passportAnswer, passportAnswerRow, hserial, hnbf, hexp, hpassport, hrow]
  exact Rds.applyResult_of_taken rfl hopen rfl Rds.signPassport_ne_empty hmatch hstored

/-! ## A lifetime that is lowered before a key update -/

namespace LoweredSample

open CaSigner.Sample (did envAt moveSigned)

def approveOps : List Op :=
  [.enroll ⟨⟨"123456789", "workshop", none, firstBytes 32 [3], "t", 1⟩, none, did⟩,
    .configure ⟨some "log", 7⟩, .approve did none sampleApprover false, .poll 20]

def approvedDb : Db := afterOps plainPlatform approveOps sampleStart.rds

def issueIn : CaSigner.IssueJob :=
  ⟨⟨"123456789", did, "workshop", b64 (firstBytes 32 [3]), "ed25519", b64 (firstBytes 32 [3]),
    "legacy"⟩, sampleApprover, 7, "approve"⟩

def issueJob : CaJob := ⟨1, did, .issue issueIn, some 20, none, none, none⟩

def record : CaSigner.Device := CaSigner.issueRecord issueIn none 1000

theorem approve_ok : opsOk plainPlatform approveOps sampleStart.rds = true := rfl

theorem openJob_issueJob : approvedDb.openJob issueJob.id = some issueJob := rfl

theorem issueIn_checks : CaSigner.IssueChecks prefixCrypto issueIn := by
  have hkey : ∃ k : VerifyingKey prefixCrypto, b64 (firstBytes 32 [3]) = b64 k.bytes :=
    ⟨prefixCrypto.verifyingKey [3], rfl⟩
  exact ⟨by decide, by decide, rfl, by decide, hkey, hkey, by decide⟩

theorem issue_succeeds : CaSigner.Succeeds
    (CaSigner.handle prefixCrypto (wireJob issueJob) (envAt 1000)) sampleStart.ca
    (issuedFor prefixCrypto sampleStart.ca (envAt 1000) record issueIn.lifetimeDays)
    (sampleStart.ca.state.insert did (record.issuedAt 1000)) := by
  have policy : CaSigner.IssuePolicy issueIn (sampleStart.ca.state.devices issueIn.device.did) := by
    refine ⟨fun e he => ?_, fun e he => ?_, fun e he => ?_⟩ <;> cases he
  have hrate : CaSigner.WithinRate sampleStart.ca issueIn.device.did (envAt 1000).rate := by
    intro d hd
    cases hd
  exact CaSigner.handle_issue_succeeds rfl (CaSigner.decodeIssueJob_payload issueIn)
    (CaSigner.handleIssue_succeeds issueIn_checks policy hrate ⟨by decide, rfl, rfl⟩)

def issuedBody : PassportBody :=
  passportFor sampleStart.ca.keys record (envAt 1000).serial 1000
    (clampDays issueIn.lifetimeDays sampleStart.ca.cfg.maxLifetimeDays)

def firstRow (token : String) : DevicePassport :=
  ⟨hex (List.replicate 16 7), did, "issue", token, 700 * 1000000, 605800 * 1000000, 1⟩

def firstToken : String :=
  signPassport prefixCrypto sampleStart.ca.keys.issuing sampleStart.ca.keys.ikc issuedBody

def storedDb (token : String) : Db :=
  (approvedDb.answer 1 30 true none).store issueJob.body (firstRow token)

def enrolled : ManagedDevice :=
  ⟨did, "123456789", "workshop", none, firstBytes 32 [3], .approved, "t",
    1 + Rds.enrollmentPollDays, none, none, none, none, none⟩

theorem device_approvedDb : approvedDb.device did = some enrolled := rfl

theorem store_issued : Step plainPlatform approvedDb
    (.result (passportAnswer prefixCrypto sampleStart.ca.keys 1 issuedBody) 30)
    (storedDb firstToken) := by
  have hikc : IkcShape sampleStart.ca.keys.ikc := Rds.ikcShape_signIkc _ _ _ _
  have hfile : onFileKey enrolled = some issuedBody.idk := rfl
  have hkey : expectedIdk issueJob.body (onFileKey enrolled) = .ok issuedBody.idk := by
    rw [hfile]
    exact Rds.expectedIdk_eq_ok.mpr ⟨Rds.KeySample.key_ne_empty 3, rfl⟩
  have hserial : Rds.storable issuedBody.serial = true := Rds.storable_of_plain (plain_hex _)
  have hnbf : toTimestamp issuedBody.nbf.toInt = some (700 * 1000000) := rfl
  have hexp : toTimestamp issuedBody.exp.toInt = some (605800 * 1000000) := rfl
  exact @passport_stored plainPlatform prefixCrypto approvedDb issueJob enrolled
    sampleStart.ca.keys issuedBody _ _ 30 hikc openJob_issueJob device_approvedDb rfl rfl hkey
    hserial hnbf hexp

def moveIn : CaSigner.SignedJob := ⟨"123456789", did, (moveSigned [3] [4] "n1").request, 1⟩

def newKey : String := b64 (prefixCrypto.verifyingKey [4]).bytes

def moveEnv : Env := { envAt 1000 with serial := List.replicate 16 8, serial_length := rfl }

def moveJobBody : JobBody := .keyupdate moveIn ⟨newKey, "dpapi"⟩

def certified : ManagedDevice :=
  enrolled.certify (hex (List.replicate 16 7)) (605800 * 1000000) none

def loweredDb (token : String) : Db := { storedDb token with settings := ⟨some "log", 1⟩ }

theorem device_loweredDb (token : String) : (loweredDb token).device did = some certified := rfl

theorem queued_move (token : String) : Rds.Queued plainPlatform (loweredDb token) did .keyupdate
    moveIn.request 1000 certified issueIn.device ⟨newKey, "dpapi"⟩ where
  row := device_loweredDb token
  approved := rfl
  payload := rfl
  key := move_verified_by_rds [3] [4] "n1"
  waiting := by
    rw [show (loweredDb token).waitingRequests did = 0 from rfl]
    decide

theorem storable_moveJobBody : moveJobBody.texts.all Rds.storable = true := by
  have hrequest : Rds.storable moveIn.request = true :=
    Rds.storable_of_plain (Rds.plain_signKeyUpdate _ _ _)
  have hkey : Rds.storable newKey = true := Rds.storable_of_plain (plain_b64 _)
  simp only [moveJobBody, JobBody.texts, all_cons, all_nil, hrequest, hkey,
    Bool.and_true]
  decide

theorem run_move (token : String) : ∃ es db job,
    Run (Step plainPlatform) (loweredDb token) es db ∧
      es.map Event.label = [.request did .keyupdate moveIn.request 1000, .poll 40] ∧
      db.openJob 2 = some job ∧ job.id = 2 ∧ job.deviceId = did ∧ job.body = moveJobBody ∧
      db.device did = some certified ∧ db.passports = (loweredDb token).passports := by
  obtain ⟨mid, henqueue⟩ : ∃ mid, (loweredDb token).enqueue did moveJobBody = some mid := by
    unfold Db.enqueue Rds.Queue.enqueue
    rw [dif_pos ⟨storable_moveJobBody, (by decide : 2 < 2 ^ 63)⟩]
    exact ⟨_, rfl⟩
  have htext : Rds.signedRequestOk moveIn.request = true :=
    Rds.signedRequestOk_signKeyUpdate (CaSigner.Sample.move_short [3] [4] (by decide) (by decide))
  have hrequest : Step plainPlatform (loweredDb token)
      (.request did .keyupdate moveIn.request 1000) mid :=
    Rds.requestPassport_of_queued htext rfl (queued_move token) henqueue
  have hpoll : Step plainPlatform mid (.poll 40) (Rds.getJobs 40 mid).2 := rfl
  obtain ⟨hjobs, -, q, hmid⟩ := Rds.enqueue_eq_some henqueue
  have hjob : mid.job 2 = some ⟨2, did, moveJobBody, none, none, none, none⟩ := hjobs 2
  have hchange := (Rds.step_effect hpoll).job 2
  rw [hjob] at hchange
  obtain ⟨job, hjob', hid, hdid, hbody, hwait⟩ : ∃ job, (Rds.getJobs 40 mid).2.job 2 = some job ∧
      job.id = 2 ∧ job.deviceId = did ∧ job.body = moveJobBody ∧ job.unanswered = true := by
    generalize (Rds.getJobs 40 mid).2.job 2 = after at hchange
    cases hchange with
    | kept => exact ⟨_, rfl, rfl, rfl, rfl, rfl⟩
    | picked => exact ⟨_, rfl, rfl, rfl, rfl, rfl⟩
    | answered hop => cases hop
    | removed hop => cases hop
  refine ⟨_, _, job, .snoc (.snoc .nil hrequest) hpoll, rfl, ?_, hid, hdid, hbody, ?_, ?_⟩
  · have hopen : (Rds.getJobs 40 mid).2.openJob 2 =
        ((Rds.getJobs 40 mid).2.job 2).filter CaJob.unanswered := rfl
    rw [hopen, hjob', Option.filter_some, hwait, if_pos rfl]
  · rw [hmid]
    rfl
  · rw [hmid]
    rfl

open CaSigner.Sample in
theorem move_succeeds {s : Signer} {wire : CaSigner.Job} (hkind : wire.kind = "keyupdate")
    (hpayload : CaSigner.decodeSignedJob wire.payload = some moveIn)
    (hsetup : CaSigner.SameSetup sampleStart.ca s)
    (hstate : s.state = sampleStart.ca.state.insert did (record.issuedAt 1000)) :
    ∃ st, CaSigner.Succeeds (CaSigner.handle prefixCrypto wire moveEnv) s
      (issuedFor prefixCrypto s moveEnv ((record.issuedAt 1000).rekey newKey "dpapi") 1) st := by
  have hd : s.state.devices did = some (record.issuedAt 1000) := by
    rw [hstate, CaSigner.State.insert_devices_same]
  have hunseen : (s.state.nonceSeen did "n1" 1000).1 = false := by
    rw [hstate]
    rfl
  have hdays : ¬ s.cfg.maxLifetimeDays < 1 := by
    rw [hsetup.cfg]
    decide
  have hkey : (record.issuedAt 1000).idk = b64 (prefixCrypto.verifyingKey [3]).bytes := rfl
  have accepted : CaSigner.KeyUpdateAccepted prefixCrypto
      { moveSigned [3] [4] "n1" with lifetimeDays := 1 } moveEnv s (record.issuedAt 1000) _ _ _ :=
    move_accepted 1 (by decide) (by decide) rfl hd rfl rfl hkey hunseen
  have hmoved := CaSigner.handleKeyUpdate_succeeds accepted ⟨hdays, rfl, rfl⟩
  exact ⟨_, CaSigner.handle_keyUpdate_succeeds hkind hpayload hmoved⟩

def movedBody : PassportBody :=
  passportFor sampleStart.ca.keys ((record.issuedAt 1000).rekey newKey "dpapi") moveEnv.serial 1000
    (clampDays 1 sampleStart.ca.cfg.maxLifetimeDays)

def secondToken : String :=
  signPassport prefixCrypto sampleStart.ca.keys.issuing sampleStart.ca.keys.ikc movedBody

def secondRow (token : String) : DevicePassport :=
  ⟨hex (List.replicate 16 8), did, "keyupdate", token, 700 * 1000000, 87400 * 1000000, 2⟩

theorem ofSigner_moved {s : Signer} {job : CaJob} (hsetup : CaSigner.SameSetup sampleStart.ca s)
    (hid : job.id = 2) :
    Rds.JobResult.ofSigner { issuedFor prefixCrypto s moveEnv
      ((record.issuedAt 1000).rekey newKey "dpapi") 1 with id := (wireJob job).id } =
      passportAnswer prefixCrypto sampleStart.ca.keys 2 movedBody := by
  rw [issuedFor, hsetup.keys, hsetup.cfg, wireJob, hid]
  rfl

theorem newKey_ne_empty : newKey ≠ "" := Rds.KeySample.key_ne_empty 4

theorem store_moved {db : Db} {job : CaJob} (hopen : db.openJob 2 = some job) (hid : job.id = 2)
    (hdid : job.deviceId = did) (hbody : job.body = moveJobBody)
    (hrow : db.device did = some certified) : Step plainPlatform db
      (.result (passportAnswer prefixCrypto sampleStart.ca.keys 2 movedBody) 50)
      ((db.answer 2 50 true none).store moveJobBody (secondRow secondToken)) := by
  have hikc : IkcShape sampleStart.ca.keys.ikc := Rds.ikcShape_signIkc _ _ _ _
  have hserial : Rds.storable movedBody.serial = true := Rds.storable_of_plain (plain_hex _)
  have hnbf : toTimestamp movedBody.nbf.toInt = some (700 * 1000000) := rfl
  have hexp : toTimestamp movedBody.exp.toInt = some (87400 * 1000000) := rfl
  obtain ⟨id, did', body, picked, done, ok, error⟩ := job
  cases hid
  cases hdid
  cases hbody
  have hkey : expectedIdk moveJobBody (onFileKey certified) = .ok movedBody.idk :=
    Rds.expectedIdk_eq_ok.mpr ⟨newKey_ne_empty, rfl⟩
  exact @passport_stored plainPlatform prefixCrypto db
    ⟨2, did, moveJobBody, picked, done, ok, error⟩ certified sampleStart.ca.keys movedBody _ _ 50
    hikc hopen hrow rfl rfl hkey hserial hnbf hexp

theorem not_keyServed {db : Db} {token token' : String}
    (hrow : db.device did = some certified)
    (hpassports : db.passports = (loweredDb token).passports)
    (hold : CarriesKey plainPlatform token (b64 (firstBytes 32 [3])))
    (hnew : CarriesKey plainPlatform token' newKey) :
    ¬ KeyServed plainPlatform ((db.answer 2 50 true none).store moveJobBody (secondRow token'))
      did := by
  intro hserved
  have hrows : ∀ x, x ∈ ((db.answer 2 50 true none).store moveJobBody
      (secondRow token')).passports.rows ↔ x = firstRow token ∨ x = secondRow token' := by
    have hfirst : ∀ x, x ∈ db.passports.rows ↔ x = firstRow token := by
      rw [hpassports]
      intro x
      exact mem_singleton
    have hserials : (firstRow token).serial ≠ (secondRow token').serial := by
      show hex (List.replicate 16 7) ≠ hex (List.replicate 16 8)
      decide
    intro x
    refine Table.mem_insert.trans (or_congr (hfirst x) (and_iff_left ?_))
    refine Table.find_eq_none_iff.mpr fun y hy => ?_
    rw [(hfirst y).mp hy]
    exact hserials
  have hdevice : ((db.answer 2 50 true none).store moveJobBody (secondRow token')).device did =
      some (certified.certify (hex (List.replicate 16 8)) (87400 * 1000000)
        (some ⟨newKey, "dpapi"⟩)) := by
    rw [Rds.device_store, if_pos (show did = (secondRow token').deviceId from rfl),
      Rds.device_answer, hrow]
    rfl
  -- the first passport expires last
  have hnewest : firstRow token ∈ ((db.answer 2 50 true none).store moveJobBody
      (secondRow token')).newestPassports did := by
    rw [Rds.mem_newestPassports]
    refine ⟨⟨(hrows _).mpr (.inl rfl), rfl⟩, fun q hq _ => ?_⟩
    rcases (hrows q).mp hq with rfl | rfl
    · exact Int.le_refl _
    · show (87400 * 1000000 : Int) ≤ 605800 * 1000000
      decide
  have hidk : (getDevicePassport ((db.answer 2 50 true none).store moveJobBody
      (secondRow token')) did (some (firstRow token))).idkOnFile = some newKey := by
    simp only [getDevicePassport, hdevice, Option.bind_some]
    have htext : Rds.orText (some newKey) (b64 (firstBytes 32 [3])) = newKey := by
      simp only [Rds.orText, newKey_ne_empty, if_false]
    exact congrArg some htext
  obtain ⟨served, hserved, hcarries⟩ := hserved _ newKey (.inr ⟨_, hnewest, rfl⟩) hidk
    ⟨secondRow token', (hrows _).mpr (.inr rfl), rfl, hnew⟩
  cases hserved
  have hkeys : b64 (firstBytes 32 [3]) ≠ newKey := Rds.KeySample.key_ne (by decide)
  exact hkeys (hold.unique hcarries)

end LoweredSample

/-! ## The answer -/

/-- **The passport carries the reported key**, in every run in which a passport for a new key
outlives the others of the device. -/
theorem key_served {P : Platform} {db₀ db : Db} {es : List RdsEv} {did : String}
    (h : Run (Step P) db₀ es db) (h0 : db₀.passports.rows = [])
    (hcond : ∀ e ∈ es, KeepsAhead P did e) : KeyServed P db did :=
  (Rds.outlives_of_run h h0 hcond).keyServed

open LoweredSample in
/-- The first passport of a device is served with its key. -/
theorem sample_key_served : ∃ es db, Run (Step plainPlatform) approvedDb es db ∧
    HasPassport plainPlatform db CaSigner.Sample.did (b64 (firstBytes 32 [3])) ∧
    KeyServed plainPlatform db CaSigner.Sample.did := by
  have hrun := Run.snoc .nil store_issued
  have hikc : IkcShape sampleStart.ca.keys.ikc := Rds.ikcShape_signIkc _ _ _ _
  have hcarries : CarriesKey plainPlatform firstToken (b64 (firstBytes 32 [3])) :=
    Rds.carries_signPassport hikc
  generalize firstToken = token at hrun hcarries
  refine ⟨_, _, hrun, ⟨firstRow token, mem_singleton.mpr rfl, rfl, hcarries⟩,
    key_served hrun rfl fun e he => ?_⟩
  obtain rfl := mem_singleton.mp he
  exact Rds.keepsAhead_of_none rfl

open LoweredSample in
open CaSigner.Sample in
/-- A device has a passport for seven days. The lifetime is lowered to one day and the device moves
to another key: RDS reports the new key, with the passport for the old one. -/
theorem stale_passport_served : ∃ es db j j' r r' s s',
    Run (Step plainPlatform) sampleStart.rds es db ∧
      es.map Event.label = approveOps ++
        [.result (.ofSigner r) 30, .configure ⟨some "log", 1⟩,
          .request did .keyupdate moveIn.request 1000, .poll 40,
          .result (.ofSigner r') 50] ∧
      CaSigner.process prefixCrypto (wireJob j) (envAt 1000) sampleStart.ca =
        (some r, s) ∧
      CaSigner.process prefixCrypto (wireJob j') moveEnv s = (some r', s') ∧
      ¬ KeyServed plainPlatform db did := by
  obtain ⟨es, hrun, hlabels⟩ := Rds.run_of_opsOk approve_ok
  obtain ⟨es', db, job, hmove, hlabels', hopen, hid, hdid, hbody, hrow, hpassports⟩ :=
    run_move firstToken
  have hikc : IkcShape sampleStart.ca.keys.ikc := Rds.ikcShape_signIkc _ _ _ _
  have hlower : Step plainPlatform (storedDb firstToken)
      (.configure ⟨some "log", 1⟩) (loweredDb firstToken) := rfl
  have hstored := store_moved hopen hid hdid hbody hrow
  have hfull := (((hrun.snoc store_issued).snoc hlower).trans hmove).snoc hstored
  -- the signer's side
  obtain ⟨hanswer, hsetup, hstate, -⟩ := CaSigner.process_of_succeeds issue_succeeds
  have hkind : (wireJob job).kind = "keyupdate" := by
    rw [wireJob, hbody]
    rfl
  have hpayload : CaSigner.decodeSignedJob (wireJob job).payload = some moveIn := by
    rw [wireJob, hbody]
    exact CaSigner.decodeSignedJob_payload _ _ _
  obtain ⟨st, hmoved⟩ := move_succeeds hkind hpayload hsetup hstate
  obtain ⟨hanswer', -⟩ := CaSigner.process_of_succeeds hmoved
  refine ⟨_, _, issueJob, job, _, _, _, _, hfull, ?_, Prod.ext hanswer rfl,
    Prod.ext hanswer' rfl, not_keyServed hrow hpassports
      (Rds.carries_signPassport hikc) (Rds.carries_signPassport hikc)⟩
  rw [ofSigner_moved hsetup hid]
  simp only [map_append, map_cons, map_nil, hlabels, hlabels', append_assoc,
    cons_append, nil_append]
  rfl

end ManagedDirectory.Link
