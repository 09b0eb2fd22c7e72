import ManagedDirectory.Rds.Requests

/-!
# RDS: results of the CA

`passportMismatch` says why RDS does not take a result, `applyResult` is one turn of the loop in
`post_results` and `postResults` the whole post, which commits all results or none.
`applyResult_ok` lists what one result can do (`ResultEffect`): nothing, answer its job, or store a
passport that names the device and the key RDS expects.
-/

namespace ManagedDirectory.Rds

open Codec Lib Passport

structure JobResult where
  id : Int
  ok : Bool
  error : Option String
  passport : Option String
  serial : Option String
  nbf : Option Int
  exp : Option Int
  idk : Option String
  prot : Option String
  deriving DecidableEq

/-- `Field(max_length=limit)`. -/
def within (limit : Nat) (text : Option String) : Bool := text.all fun t => t.toList.length ≤ limit

/-- The limits of the `JobResult` model. -/
def JobResult.valid (r : JobResult) : Bool :=
  within 1000 r.error && within 4096 r.passport && within 64 r.serial && within 128 r.idk &&
    within 16 r.prot

/-! ## The check of a result -/

/-- What `_on_file_key` returns: the key, the rid and the did. -/
structure OnFile where
  key : Option String
  rid : Option String
  did : Option String

def Db.onFile (db : Db) (did : String) : OnFile :=
  match db.device did with
  | none => ⟨none, none, none⟩
  | some d => ⟨onFileKey d, some d.rustdeskId, some did⟩

def JobBody.verified : JobBody → Option Expected
  | .keyupdate _ expected => some expected
  | _ => none

def passportPart (token : String) : Option String :=
  match splitDots token with
  | [p0, _, _, p3, _] => if p0 = tokenPrefix then some p3 else none
  | _ => none

/-- Why a result is not taken; nobody handles a `RecursionError`. -/
inductive Mismatch where
  | refused (problem : String)
  | exception
  deriving DecidableEq, Repr

def expectedIdk (body : JobBody) (key : Option String) : Except Mismatch String :=
  match body.verified with
  | some expected =>
    if expected.idk = "" then .error (.refused "key update was not verified by RDS")
    else .ok expected.idk
  | none => if key.getD "" = "" then .error (.refused "no key on file") else .ok (key.getD "")

def passportMismatch (P : Platform) (body : JobBody) (onFile : OnFile) (result : JobResult) :
    Except Mismatch Unit := do
  let expected ← expectedIdk body onFile.key
  refuseIf (result.idk.any (· ≠ expected)) (.refused "result key differs from the key RDS verified")
  let part ← orRefuse (passportPart (result.passport.getD "")) (.refused "malformed passport")
  let bytes ← orRefuse (pyUnb64 part) (.refused "malformed passport")
  let tree ← loadsOr P bytes (.refused "malformed passport") .exception
  let passport ← orRefuse (asDict tree) (.refused "malformed passport")
  refuseIf (!equalsText (dictGet "idk" passport) (some expected))
    (.refused "passport key differs from the key RDS verified")
  refuseIf (!equalsText (dictGet "rid" passport) onFile.rid ||
      !equalsText (dictGet "did" passport) onFile.did)
    (.refused "passport is for another device")
  refuseIf (result.serial.any fun serial => !equalsText (dictGet "serial" passport) (some serial))
    (.refused "passport serial differs from the result")

/-- The body of the passport, as RDS reads it, names this key and this device. -/
def PassportNames (P : Platform) (token key rid did : String) : Prop :=
  ∃ part bytes body, passportPart token = some part ∧ pyUnb64 part = some bytes ∧
    loads P.depth bytes = .ok (.obj body) ∧ dictGet "idk" body = some (jsonStr key) ∧
    dictGet "rid" body = some (jsonStr rid) ∧ dictGet "did" body = some (jsonStr did)

/-! ## One result -/

/-- `to_timestamp`, with the range PostgreSQL stores. -/
def toTimestamp (seconds : Int) : Option Int :=
  if -210866803200 ≤ seconds ∧ seconds < 9224318016000 then some (seconds * 1000000) else none

def CaJob.answer (now : Int) (ok : Bool) (error : Option String) (j : CaJob) : CaJob :=
  { j with doneAt := some now, ok := some ok, error := error }

theorem CaJob.id_answer (now : Int) (ok : Bool) (error : Option String) (j : CaJob) :
    (j.answer now ok error).id = j.id := rfl

def Db.answer (db : Db) (id : Nat) (now : Int) (ok : Bool) (error : Option String) : Db :=
  { db with
    queue := db.queue.update (fun j => j.id == id) (CaJob.answer now ok error)
      (CaJob.id_answer now ok error) }

def Db.openJob (db : Db) (id : Int) : Option CaJob :=
  if 0 ≤ id then (db.job id.toNat).filter CaJob.unanswered else none

/-- A device row after a passport was stored. The key and its protection come from what RDS
verified, never from the CA's result. -/
def ManagedDevice.certify (serial : String) (expiresAt : Int) (new : Option Expected)
    (d : ManagedDevice) : ManagedDevice :=
  { d with
    passportSerial := some serial
    passportExpiresAt := some expiresAt
    identityPublicKey := (new.map Expected.idk).or d.identityPublicKey
    keyProtection := (new.map Expected.prot).or d.keyProtection
    identityKeyAlg := some (d.identityKeyAlg.getD "ed25519") }

theorem ManagedDevice.id_certify (serial : String) (expiresAt : Int) (new : Option Expected)
    (d : ManagedDevice) : (d.certify serial expiresAt new).id = d.id := rfl

def Db.store (db : Db) (body : JobBody) (row : DevicePassport) : Db :=
  { db with passports := db.passports.insert row }.updateDevice row.deviceId
    (ManagedDevice.certify row.serial row.expiresAt body.verified)
    (ManagedDevice.id_certify row.serial row.expiresAt body.verified)

/-- The row for a result, if its columns are there and can be stored. -/
def passportRow (db : Db) (job : CaJob) (r : JobResult) : Option DevicePassport := do
  let serial ← r.serial
  let nbf ← r.nbf.bind toTimestamp
  let expiresAt ← r.exp.bind toTimestamp
  let passport := r.passport.getD ""
  -- the foreign key to `managed_devices`
  if storable serial && storable passport && (db.device job.deviceId).isSome then
    some ⟨serial, job.deviceId, job.body.kind, passport, nbf, expiresAt, job.id⟩
  else none

/-- One turn of the loop of `post_results`. -/
def applyResult (P : Platform) (now : Int) (db : Db) (r : JobResult) : Except Failure Db :=
  if !r.error.all storable then .error .exception
  else
    match db.openJob r.id with
    | none => .ok db
    | some job =>
      if r.ok = false ∨ r.passport.getD "" = "" then .ok (db.answer job.id now r.ok r.error)
      else
        match passportMismatch P job.body (db.onFile job.deviceId) r with
        | .error .exception => .error .exception
        | .error (.refused problem) =>
          .ok (db.answer job.id now false (some ("RDS refused the result: " ++ problem)))
        | .ok () =>
          match passportRow db job r with
          | none => .error .exception
          | some row => .ok ((db.answer job.id now r.ok r.error).store job.body row)

/-- `post_results`: one transaction for all results. -/
def postResults (P : Platform) (results : List JobResult) (now : Int) (db : Db) :
    Except Failure Db := do
  refuseIf (100 < results.length ∨ !results.all JobResult.valid) (.http 422 "results")
  results.foldlM (applyResult P now) db

/-! ## What a result can do -/

section Effect

variable {P : Platform} {db db' : Db} {r : JobResult} {now : Int} {did : String} {id : Nat}

variable {job : CaJob} {row : DevicePassport} {body : JobBody}

theorem expectedIdk_eq_ok {key : Option String} {expected : String} :
    expectedIdk body key = .ok expected ↔
      expected ≠ "" ∧ ((body.verified.map Expected.idk).or key).getD "" = expected := by
  unfold expectedIdk
  cases body.verified with
  | none =>
    simp only [Option.map_none, Option.none_or]
    by_cases h : key.getD "" = ""
    · simp only [h, if_true, reduceCtorEq, false_iff]
      rintro ⟨hne, heq⟩
      exact hne heq.symm
    · simp only [h, if_false, Except.ok.injEq]
      exact ⟨fun heq => ⟨heq ▸ h, heq⟩, fun heq => heq.2⟩
  | some e =>
    simp only [Option.map_some, Option.some_or, Option.getD_some]
    by_cases h : e.idk = ""
    · simp only [h, if_true, reduceCtorEq, false_iff]
      rintro ⟨hne, heq⟩
      exact hne heq.symm
    · simp only [h, if_false, Except.ok.injEq]
      exact ⟨fun heq => ⟨heq ▸ h, heq⟩, fun heq => heq.2⟩

theorem names_of_no_mismatch {key : Option String} {rid did : String}
    (h : passportMismatch P body ⟨key, some rid, some did⟩ r = .ok ()) :
    ∃ expected, expectedIdk body key = .ok expected ∧
      PassportNames P (r.passport.getD "") expected rid did := by
  simp only [passportMismatch, bind_ok_iff, refuseIf_eq_ok, exists_unit, orRefuse_eq_ok,
    loadsOr_eq_ok, asDict_eq_some, not_not_eq_true, not_or_not_eq_true, equalsText_some_iff] at h
  obtain ⟨expected, hexp, -, part, hpart, bytes, hbytes, _, hloads, body, rfl, hidk, ⟨hrid, hdid⟩,
    -⟩ := h
  exact ⟨expected, hexp, part, bytes, body, hpart, hbytes, hloads, hidk, hrid, hdid⟩

theorem openJob_eq_some {z : Int} (h : db.openJob z = some job) :
    db.job job.id = some job ∧ job.unanswered = true ∧ z = job.id := by
  unfold Db.openJob at h
  split_ifs at h with hz
  obtain ⟨hjob, hopen⟩ := Option.filter_eq_some_iff.mp h
  have hid : job.id = z.toNat := Table.key_of_find hjob
  exact ⟨hid ▸ hjob, hopen, by omega⟩

theorem passportRow_eq_some (h : passportRow db job r = some row) :
    row.deviceId = job.deviceId ∧ row.passport = r.passport.getD "" ∧
      ∃ d, db.device job.deviceId = some d := by
  simp only [passportRow, Option.bind_eq_bind, Option.bind_eq_some_iff] at h
  obtain ⟨serial, -, nbf, -, expiresAt, -, h⟩ := h
  split_ifs at h with hok
  cases h
  simp only [Bool.and_eq_true] at hok
  exact ⟨rfl, rfl, Option.isSome_iff_exists.mp hok.2⟩

@[simp] theorem device_answer {ok : Bool} {error : Option String} :
    (db.answer id now ok error).device did = db.device did := rfl

theorem job_answer {id' : Nat} {ok : Bool} {error : Option String} :
    (db.answer id now ok error).job id' =
      if id' = id then (db.job id').map (CaJob.answer now ok error) else db.job id' := by
  unfold Db.answer
  rw [job_update]
  cases hjob : db.job id' with
  | none => simp
  | some j =>
    have hid : j.id = id' := Table.key_of_find hjob
    by_cases h : id' = id
    · simp [h, show j.id = id from hid.trans h]
    · simp [h, show j.id ≠ id from fun heq => h (hid.symm.trans heq)]

@[simp] theorem job_store :
    (db.store body row).job id = db.job id := rfl

theorem device_store :
    (db.store body row).device did = if did = row.deviceId then
      (db.device did).map (ManagedDevice.certify row.serial row.expiresAt body.verified)
    else db.device did :=
  device_updateDevice

inductive ResultEffect (P : Platform) (now : Int) (db : Db) (r : JobResult) : Db → Prop where
  | ignored : ResultEffect P now db r db
  | answered {job : CaJob} (ok : Bool) (error : Option String)
      (hopen : db.job job.id = some job) (hwait : job.unanswered = true) (hid : r.id = job.id) :
    ResultEffect P now db r (db.answer job.id now ok error)
  | stored {job : CaJob} {d : ManagedDevice} {row : DevicePassport} {key : String}
      (hopen : db.job job.id = some job) (hwait : job.unanswered = true) (hid : r.id = job.id)
      (hok : r.ok = true)
      (hdevice : db.device job.deviceId = some d) (hrow : row.deviceId = job.deviceId)
      (hkey : expectedIdk job.body (onFileKey d) = .ok key)
      (hnames : PassportNames P row.passport key d.rustdeskId job.deviceId) :
    ResultEffect P now db r ((db.answer job.id now r.ok r.error).store job.body row)

/-- **One result** is ignored, answers its job, or also stores a passport RDS expects. -/
theorem applyResult_ok (h : applyResult P now db r = .ok db') : ResultEffect P now db r db' := by
  unfold applyResult at h
  split at h
  · cases h
  · cases hjob : db.openJob r.id with
    | none =>
      rw [hjob] at h
      cases h
      exact .ignored
    | some job =>
      obtain ⟨hopen, hwait, hid⟩ := openJob_eq_some hjob
      simp only [hjob] at h
      split at h
      · cases h
        exact .answered _ _ hopen hwait hid
      · rename_i hok
        split at h
        · cases h
        · cases h
          exact .answered _ _ hopen hwait hid
        · rename_i hmatch
          split at h
          · cases h
          · rename_i row hrow
            cases h
            obtain ⟨hdid, hpass, d, hd⟩ := passportRow_eq_some hrow
            simp only [Db.onFile, hd] at hmatch
            obtain ⟨key, hkey, hnames⟩ := names_of_no_mismatch hmatch
            simp only [not_or, Bool.not_eq_false] at hok
            exact .stored hopen hwait hid hok.1 hd hdid hkey (hpass ▸ hnames)

theorem answered_of_applyResult (h : applyResult P now db r = .ok db')
    (hopen : db.openJob r.id = some job) :
    ∃ job', db'.job job.id = some job' ∧ job'.unanswered = false := by
  have hjob := (openJob_eq_some hopen).1
  have hanswer : ∀ (ok : Bool) (error : Option String), ∃ job',
      (db.answer job.id now ok error).job job.id = some job' ∧ job'.unanswered = false := by
    intro ok error
    refine ⟨job.answer now ok error, ?_, rfl⟩
    rw [job_answer, if_pos rfl, hjob, Option.map_some]
  unfold applyResult at h
  simp only [hopen] at h
  split at h
  · cases h
  · split at h
    · cases h
      exact hanswer _ _
    · split at h
      · cases h
      · cases h
        exact hanswer _ _
      · split at h
        · cases h
        · cases h
          rw [job_store]
          exact hanswer _ _

theorem applyResult_of_taken (herror : r.error.all storable = true)
    (hopen : db.openJob r.id = some job) (hok : r.ok = true) (hpassport : r.passport.getD "" ≠ "")
    (hmatch : passportMismatch P job.body (db.onFile job.deviceId) r = .ok ())
    (hrow : passportRow db job r = some row) :
    applyResult P now db r = .ok ((db.answer job.id now r.ok r.error).store job.body row) := by
  unfold applyResult
  simp [herror, hopen, hok, hpassport, hmatch, hrow]

/-- **A post is its results one after the other.** -/
theorem postResults_ok {results : List JobResult} (h : postResults P results now db = .ok db') :
    results.foldlM (applyResult P now) db = .ok db' := by
  simp only [postResults, bind_ok_iff, exists_unit] at h
  exact h.2

end Effect

end ManagedDirectory.Rds
