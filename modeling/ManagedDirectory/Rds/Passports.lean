import ManagedDirectory.Rds.IdentityKeys

/-!
# RDS: the passports of a device

`getDevicePassport` is `GET /v1/device/passport`: the row that expires last, next to the identity
key on file. `passportChange_of_step` says what an operation does to `device_passports`: a result
adds a row, the deletion of a device takes its rows away, and nothing else touches the table.

`Outlives` is the invariant that makes the answer fit: once a passport for the key on file is
stored, it outlives every passport of the device for another key.
-/

namespace ManagedDirectory.Rds

open Codec Lib Passport

/-! ## The answer -/

structure PassportAnswer where
  mode : String
  passport : Option String
  serial : Option String
  expiresAt : Option Int
  idkOnFile : Option String
  protOnFile : Option String
  renewAfterSeconds : Int
  deriving DecidableEq

/-- `_sec8_mode`. -/
def Settings.mode (s : Settings) : String := if s.off then "off" else "log"

def Db.passportsOf (db : Db) (did : String) : List DevicePassport :=
  db.passports.rows.filter fun p => p.deviceId == did

/-- What `ORDER BY expires_at DESC LIMIT 1` may return: PostgreSQL picks one of the rows that
expire last. -/
def Db.newestPassports (db : Db) (did : String) : List DevicePassport :=
  (db.passportsOf did).filter fun p => (db.passportsOf did).all fun q => q.expiresAt ≤ p.expiresAt

/-- `get_device_passport` with the row that was selected. -/
def getDevicePassport (db : Db) (did : String) (row : Option DevicePassport) : PassportAnswer :=
  let onFile := (db.device did).bind devicePayload
  { mode := db.settings.mode
    passport := row.map DevicePassport.passport
    serial := row.map DevicePassport.serial
    expiresAt := row.map DevicePassport.expiresAt
    idkOnFile := onFile.map CaSigner.DeviceIn.idk
    protOnFile := onFile.map CaSigner.DeviceIn.prot
    renewAfterSeconds := db.settings.lifetimeDays.toInt * 86400 / 2 }

def MayAnswer (db : Db) (did : String) (answer : PassportAnswer) : Prop :=
  (db.passportsOf did = [] ∧ answer = getDevicePassport db did none) ∨
    ∃ row ∈ db.newestPassports did, answer = getDevicePassport db did (some row)

def CarriesKey (P : Platform) (token key : String) : Prop :=
  ∃ part bytes body, passportPart token = some part ∧ pyUnb64 part = some bytes ∧
    loads P.depth bytes = .ok (.obj body) ∧ dictGet "idk" body = some (jsonStr key)

def HasPassport (P : Platform) (db : Db) (did key : String) : Prop :=
  ∃ row ∈ db.passports.rows, row.deviceId = did ∧ CarriesKey P row.passport key

/-- Each answer to the device carries the key it reports, if a passport for that key is stored. -/
def KeyServed (P : Platform) (db : Db) (did : String) : Prop :=
  ∀ answer key, MayAnswer db did answer → answer.idkOnFile = some key →
    HasPassport P db did key → ∃ token, answer.passport = some token ∧ CarriesKey P token key

section Answers

variable {P : Platform} {db db' : Db} {did : String} {row : DevicePassport} {token key key' : String}

theorem mem_passportsOf : row ∈ db.passportsOf did ↔ row ∈ db.passports.rows ∧ row.deviceId = did := by
  simp [Db.passportsOf]

theorem mem_newestPassports : row ∈ db.newestPassports did ↔
    (row ∈ db.passports.rows ∧ row.deviceId = did) ∧
      ∀ q ∈ db.passports.rows, q.deviceId = did → q.expiresAt ≤ row.expiresAt := by
  simp only [Db.newestPassports, List.mem_filter, List.all_eq_true, decide_eq_true_eq,
    mem_passportsOf, and_imp]

theorem PassportNames.carries {rid : String} (h : PassportNames P token key rid did) :
    CarriesKey P token key := by
  obtain ⟨part, bytes, body, hpart, hbytes, hloads, hidk, -⟩ := h
  exact ⟨part, bytes, body, hpart, hbytes, hloads, hidk⟩

theorem CarriesKey.unique (h : CarriesKey P token key) (h' : CarriesKey P token key') :
    key = key' := by
  obtain ⟨part, bytes, body, hpart, hbytes, hloads, hidk⟩ := h
  obtain ⟨part', bytes', body', hpart', hbytes', hloads', hidk'⟩ := h'
  obtain rfl := Option.some.inj (hpart.symm.trans hpart')
  obtain rfl := Option.some.inj (hbytes.symm.trans hbytes')
  cases hloads.symm.trans hloads'
  have hjson : jsonStr key = jsonStr key' := Option.some.inj (hidk.symm.trans hidk')
  rw [jsonStr, jsonStr, Json.str.injEq] at hjson
  have htext := congrArg ofCodePoints hjson
  rw [ofCodePoints_codePoints, ofCodePoints_codePoints] at htext
  exact Option.some.inj htext

theorem carries_signPassport {C : Crypto} {issuing : Bytes} {ikc : String} {body : PassportBody}
    (h : IkcShape ikc) : CarriesKey P (signPassport C issuing ikc body) body.idk := by
  obtain ⟨kvs, hloads, hdict⟩ := passportLayout.loads_toVec body P.deep
  exact ⟨_, _, kvs, passportPart_signPassport h, pyUnb64_b64 _, hloads,
    hdict 5 "idk" (.str body.idk) rfl rfl⟩

theorem idkOnFile_getDevicePassport {selected : Option DevicePassport}
    (h : (getDevicePassport db did selected).idkOnFile = some key) :
    ∃ d, db.device did = some d ∧ onFileKey d = some key := by
  simp only [getDevicePassport, Option.map_eq_some_iff, Option.bind_eq_some_iff] at h
  obtain ⟨p, ⟨d, hd, hp⟩, rfl⟩ := h
  exact ⟨d, hd, onFileKey_of_devicePayload hp⟩

end Answers

/-! ## What an operation does to the table -/

/-- What an operation does to `device_passports`. -/
inductive PassportChange (P : Platform) (op : Op) (db : Db) : Db → Prop where
  | kept {db' : Db} (hrows : db'.passports = db.passports)
      (hdevices : ∀ r now, op = .result r now → db'.devices = db.devices)
      (hdelete : ∀ did, op ≠ .delete did) :
    PassportChange P op db db'
  | deleted {db' : Db} {did : String} (hop : op = .delete did)
      (hrows : db'.passports = db.passports.delete fun p => p.deviceId == did) :
    PassportChange P op db db'
  | stored {r : JobResult} {now : Int} {job : CaJob} {d : ManagedDevice} {row : DevicePassport}
      {key : String} (hop : op = .result r now) (hopen : db.openJob r.id = some job)
      (hrow : passportRow db job r = some row) (hdid : row.deviceId = job.deviceId)
      (hdevice : db.device job.deviceId = some d)
      (hkey : expectedIdk job.body (onFileKey d) = .ok key)
      (hcarries : CarriesKey P row.passport key) :
    PassportChange P op db ((db.answer job.id now r.ok r.error).store job.body row)

section Changes

variable {P : Platform} {op : Op} {db db' : Db} {did : String}

theorem passports_enqueue {body : JobBody} (h : db.enqueue did body = some db') :
    db'.passports = db.passports := by
  obtain ⟨-, -, q, rfl⟩ := enqueue_eq_some h
  rfl

@[simp] theorem passports_tryEnqueue {fails : Bool} {body : JobBody} :
    (db.tryEnqueue fails did body).passports = db.passports := by
  unfold Db.tryEnqueue
  split_ifs
  · rfl
  · cases h : db.enqueue did body with
    | none => rfl
    | some db' => exact passports_enqueue h

@[simp] theorem passports_updateDevice {f : ManagedDevice → ManagedDevice}
    {hf : ∀ d, (f d).id = d.id} : (db.updateDevice did f hf).passports = db.passports := rfl

theorem passports_approve {name : Option String} {approver : CaSigner.Approver} {fails : Bool}
    (h : approveDevice P did name approver fails db = .ok db') :
    db'.passports = db.passports := by
  simp only [approveDevice, bind_ok_iff] at h
  obtain ⟨d, -, -, -, -, -, h⟩ := h
  split at h
  · obtain rfl := pure_ok_iff.mp h
    rfl
  · split at h
    · obtain rfl := pure_ok_iff.mp h
      rfl
    · split at h <;> obtain rfl := pure_ok_iff.mp h
      · rfl
      · rw [passports_tryEnqueue, passports_updateDevice]

theorem passports_changeStatus {change : StatusChange} {fails : Bool}
    (h : changeDeviceStatus did change fails db = .ok db') : db'.passports = db.passports := by
  simp only [changeDeviceStatus, bind_ok_iff] at h
  obtain ⟨d, -, h⟩ := h
  split at h
  · obtain rfl := pure_ok_iff.mp h
    rfl
  · simp only [bind_ok_iff] at h
    obtain ⟨-, -, h⟩ := h
    split at h <;> obtain rfl := pure_ok_iff.mp h
    · rfl
    · rw [passports_tryEnqueue]
      rfl

theorem passports_issueAll {approver : CaSigner.Approver} {now : Int}
    (h : caIssueAll approver now db = .ok db') : db'.passports = db.passports := by
  simp only [caIssueAll, bind_ok_iff, exists_unit] at h
  obtain ⟨-, h⟩ := h
  generalize db.devices.rows.filter (db.needsPassport now) = ds at h
  generalize db.settings.lifetimeDays = days at h
  induction ds generalizing db with
  | nil =>
    obtain rfl := pure_ok_iff.mp h
    rfl
  | cons d ds ih =>
    rw [List.foldlM_cons, bind_ok_iff] at h
    obtain ⟨mid, hone, hrest⟩ := h
    refine (ih hrest).trans ?_
    unfold queueBootstrap at hone
    split at hone
    · cases hone
      rfl
    · exact passports_enqueue (orRefuse_eq_ok.mp hone)

theorem passports_rename {name : String} (h : renameDevice P did name db = .ok db') :
    db'.passports = db.passports := by
  simp only [renameDevice, bind_ok_iff] at h
  obtain ⟨d, -, h⟩ := h
  split at h <;> obtain rfl := pure_ok_iff.mp h <;> rfl

theorem passports_authorize {account authorizationId : String} {minutes now : Int}
    (h : authorizeDeviceReenrollment did account authorizationId minutes now db = .ok db') :
    db'.passports = db.passports := by
  simp only [authorizeDeviceReenrollment, bind_ok_iff, pure_ok_iff] at h
  obtain ⟨-, -, d, -, -, -, -, -, rfl⟩ := h
  split_ifs <;> rfl

theorem passportChange_of_result {r : JobResult} {now : Int}
    (h : applyResult P now db r = .ok db') : PassportChange P (.result r now) db db' := by
  have hanswered : ∀ id ok error, PassportChange P (.result r now) db (db.answer id now ok error) :=
    fun _ _ _ => .kept rfl (fun _ _ _ => rfl) (by simp)
  unfold applyResult at h
  split at h
  · cases h
  · split at h
    · cases h
      exact .kept rfl (fun _ _ _ => rfl) (by simp)
    · rename_i job hopen
      split at h
      · cases h
        exact hanswered _ _ _
      · split at h
        · cases h
        · cases h
          exact hanswered _ _ _
        · rename_i hmatch
          split at h
          · cases h
          · rename_i row hrow
            cases h
            obtain ⟨hdid, hpass, d, hd⟩ := passportRow_eq_some hrow
            simp only [Db.onFile, hd] at hmatch
            obtain ⟨key, hkey, hnames⟩ := names_of_no_mismatch hmatch
            exact .stored rfl hopen hrow hdid hd hkey (hpass ▸ hnames.carries)

/-- **Every operation** changes the passports only as `PassportChange` says. -/
theorem passportChange_of_step (h : Step P db op db') : PassportChange P op db db' := by
  unfold Step at h
  cases op with
  | enroll req =>
    refine .kept ?_ (by simp) (by simp)
    rcases enrollDevice_ok h with ⟨-, rfl⟩ | ⟨did, -, a, -, rfl⟩ <;> rfl
  | reenroll req =>
    refine .kept ?_ (by simp) (by simp)
    obtain ⟨-, a, -, rfl⟩ := completeDeviceReenrollment_ok h
    rfl
  | authorize did account authorizationId minutes now =>
    exact .kept (passports_authorize h) (by simp) (by simp)
  | approve did name approver fails => exact .kept (passports_approve h) (by simp) (by simp)
  | changeStatus did change fails => exact .kept (passports_changeStatus h) (by simp) (by simp)
  | delete did =>
    simp only [Op.apply, deleteDevice, bind_ok_iff, pure_ok_iff] at h
    obtain ⟨d, -, -, -, rfl⟩ := h
    exact .deleted rfl rfl
  | rename did name => exact .kept (passports_rename h) (by simp) (by simp)
  | request did kind text now =>
    obtain ⟨d, onFile, expected, -, henqueue⟩ := requestPassport_ok h
    exact .kept (passports_enqueue henqueue) (by simp) (by simp)
  | issueAll approver now => exact .kept (passports_issueAll h) (by simp) (by simp)
  | result r now => exact passportChange_of_result h
  | slidePoll did now | poll now | configure settings | accounts owners =>
    cases h
    exact .kept rfl (by simp) (by simp)

end Changes

/-! ## The passport for the key on file -/

/-- A passport for the key outlives every passport of the device that does not carry it. -/
def OutlivesOthers (P : Platform) (db : Db) (did key : String) : Prop :=
  ∀ row ∈ db.passports.rows, row.deviceId = did → ¬ CarriesKey P row.passport key →
    ∃ row' ∈ db.passports.rows, row'.deviceId = did ∧ CarriesKey P row'.passport key ∧
      row.expiresAt < row'.expiresAt

/-- If a passport for the key on file is stored, one of them outlives those for other keys. A device
that is not on file has no passports. -/
structure Outlives (P : Platform) (db : Db) (did : String) : Prop where
  absent : db.device did = none → ∀ row ∈ db.passports.rows, row.deviceId ≠ did
  onFile : ∀ d key, db.device did = some d → onFileKey d = some key → HasPassport P db did key →
    OutlivesOthers P db did key

/-- The event stores a passport of the device, for a key that is on file afterwards. -/
structure Stores (e : RdsEv) (did : String) (d : ManagedDevice) (row : DevicePassport)
    (key : String) : Prop where
  device : e.before.device did = some d
  posted : ∃ r now job, e.label = .result r now ∧ e.before.openJob r.id = some job ∧
    job.deviceId = did ∧ passportRow e.before job r = some row ∧
    expectedIdk job.body (onFileKey d) = .ok key

/-- What keeps the passport for the key on file ahead of the others. -/
structure KeepsAhead (P : Platform) (did : String) (e : RdsEv) : Prop where
  serial : ∀ d row key, Stores e did d row key → ∀ x ∈ e.before.passports.rows,
    x.serial ≠ row.serial
  /-- The first passport for a key, and one that brings its key on file, outlives those for other
  keys. -/
  expiry : ∀ d row key, Stores e did d row key →
    (onFileKey d ≠ some key ∨ ¬ HasPassport P e.before did key) →
    ∀ x ∈ e.before.passports.rows, x.deviceId = did → ¬ CarriesKey P x.passport key →
      x.expiresAt < row.expiresAt
  /-- A re-enrollment does not bring back a key that passports were stored for. -/
  reenrollment : ∀ enrollment d, e.label.enrollment = some enrollment →
    e.before.device did = some d → onFileKey (d.reenroll enrollment) = onFileKey d ∨
      ∀ key, onFileKey (d.reenroll enrollment) = some key → ¬ HasPassport P e.before did key

section Invariant

variable {P : Platform} {op : Op} {db db' : Db} {did : String}

theorem keepsAhead_of_none {e : RdsEv} (h : e.before.passports.rows = []) :
    KeepsAhead P did e where
  serial d row key _ x hx := by
    rw [h] at hx
    cases hx
  expiry d row key _ _ x hx := by
    rw [h] at hx
    cases hx
  reenrollment enrollment d _ _ := by
    refine .inr fun key _ hhas => ?_
    obtain ⟨row, hrow, -⟩ := hhas
    rw [h] at hrow
    cases hrow

theorem onFileKey_of_sameKeys {d d' : ManagedDevice} (h : SameKeys d d') :
    onFileKey d' = onFileKey d := by
  unfold onFileKey
  rw [h.identityPublicKey, h.devicePublicKey]

def SamePassports (did : String) (db db' : Db) : Prop :=
  ∀ row, row.deviceId = did → (row ∈ db'.passports.rows ↔ row ∈ db.passports.rows)

theorem SamePassports.hasPassport (h : SamePassports did db db') {key : String} :
    HasPassport P db' did key ↔ HasPassport P db did key := by
  constructor
  · rintro ⟨row, hrow, hdid, hcarries⟩
    exact ⟨row, (h row hdid).mp hrow, hdid, hcarries⟩
  · rintro ⟨row, hrow, hdid, hcarries⟩
    exact ⟨row, (h row hdid).mpr hrow, hdid, hcarries⟩

theorem SamePassports.outlivesOthers (h : SamePassports did db db') {key : String}
    (hout : OutlivesOthers P db did key) : OutlivesOthers P db' did key := by
  intro row hrow hdid hother
  obtain ⟨row', hrow', hdid', hcarries, hlt⟩ := hout row ((h row hdid).mp hrow) hdid hother
  exact ⟨row', (h row' hdid').mpr hrow', hdid', hcarries, hlt⟩

theorem Outlives.of_same (h : Outlives P db did) (hsame : SamePassports did db db')
    (habsent : db'.device did = none → ∀ row ∈ db.passports.rows, row.deviceId ≠ did)
    (hkey : ∀ d' key, db'.device did = some d' → onFileKey d' = some key →
      (∃ d, db.device did = some d ∧ onFileKey d = some key) ∨ ¬ HasPassport P db did key) :
    Outlives P db' did where
  absent hnone row hrow hdid := habsent hnone row ((hsame row hdid).mp hrow) hdid
  onFile d' key hd' hfile hhas := by
    rw [hsame.hasPassport] at hhas
    rcases hkey d' key hd' hfile with ⟨d, hd, hfile⟩ | hnot
    · exact hsame.outlivesOthers (h.onFile d key hd hfile hhas)
    · exact absurd hhas hnot

theorem Outlives.of_change (h : Outlives P db did) (hcond : KeepsAhead P did ⟨db, op, db'⟩)
    (hsame : SamePassports did db db')
    (hchange : DeviceChange op db did (db.device did) (db'.device did))
    (hop : ∀ r now, op ≠ .result r now) (hdelete : op ≠ .delete did) : Outlives P db' did := by
  generalize hb : db.device did = before at hchange
  generalize ha : db'.device did = after at hchange
  cases hchange with
  | absent =>
    refine h.of_same hsame (fun _ => h.absent hb) fun d' key hd' => ?_
    cases ha.symm.trans hd'
  | @kept d d' hkeys =>
    refine h.of_same hsame (fun hnone => ?_) fun d'' key hd'' hfile => ?_
    · cases ha.symm.trans hnone
    · cases ha.symm.trans hd''
      exact .inl ⟨d, hb, (onFileKey_of_sameKeys hkeys).symm.trans hfile⟩
  | enrolled =>
    refine h.of_same hsame (fun _ => h.absent hb) fun d' key _ _ => .inr ?_
    rintro ⟨row, hrow, hdid, -⟩
    exact h.absent hb row hrow hdid
  | @reenrolled d enrollment henrollment =>
    refine h.of_same hsame (fun hnone => ?_) fun d' key hd' hfile => ?_
    · cases ha.symm.trans hnone
    · cases ha.symm.trans hd'
      rcases hcond.reenrollment enrollment d henrollment hb with heq | hnew
      · exact .inl ⟨d, hb, heq.symm.trans hfile⟩
      · exact .inr (hnew key hfile)
  | certified hresult => exact absurd hresult (hop _ _)
  | deleted hdel => exact absurd hdel hdelete

theorem Outlives.store {r : JobResult} {now : Int} {job : CaJob} {d : ManagedDevice}
    {row : DevicePassport} {key : String} (h : Outlives P db did)
    (hcond : KeepsAhead P did ⟨db, .result r now, db'⟩) (hopen : db.openJob r.id = some job)
    (hrow : passportRow db job r = some row) (hdid : row.deviceId = job.deviceId)
    (hdevice : db.device job.deviceId = some d) (hjob : job.deviceId = did)
    (hkey : expectedIdk job.body (onFileKey d) = .ok key)
    (hcarries : CarriesKey P row.passport key) :
    Outlives P ((db.answer job.id now r.ok r.error).store job.body row) did := by
  have hrowDid : row.deviceId = did := hdid.trans hjob
  rw [hjob] at hdevice
  have hstores : Stores ⟨db, .result r now, db'⟩ did d row key :=
    ⟨hdevice, r, now, job, rfl, hopen, hjob, hrow, hkey⟩
  have hfresh : db.passports.find row.serial = none :=
    Table.find_eq_none_iff.mpr (hcond.serial d row key hstores)
  have hrows : ∀ x, x ∈ ((db.answer job.id now r.ok r.error).store job.body row).passports.rows ↔
      x ∈ db.passports.rows ∨ x = row := by
    intro x
    refine Table.mem_insert.trans (or_congr_right (and_iff_left ?_))
    exact hfresh
  have hafter : ((db.answer job.id now r.ok r.error).store job.body row).device did =
      some (d.certify row.serial row.expiresAt job.body.verified) := by
    rw [device_store, if_pos hrowDid.symm, device_answer, hdevice, Option.map_some]
  refine ⟨fun hnone => ?_, fun d' key' hd' hfile _ => ?_⟩
  · cases hafter.symm.trans hnone
  · cases hafter.symm.trans hd'
    obtain rfl := Option.some.inj ((onFileKey_certify hkey).symm.trans hfile)
    intro x hx hxdid hother
    rcases (hrows x).mp hx with hx | rfl
    · by_cases hold : onFileKey d = some key ∧ HasPassport P db did key
      · obtain ⟨x', hx', hx'did, hx'carries, hlt⟩ :=
          h.onFile d key hdevice hold.1 hold.2 x hx hxdid hother
        exact ⟨x', (hrows x').mpr (.inl hx'), hx'did, hx'carries, hlt⟩
      · have hnew := not_and_or.mp hold
        exact ⟨row, (hrows row).mpr (.inr rfl), hrowDid, hcarries,
          hcond.expiry d row key hstores hnew x hx hxdid hother⟩
    · exact absurd hcarries hother

theorem outlives_of_step (h : Outlives P db did) (hstep : Step P db op db')
    (hcond : KeepsAhead P did ⟨db, op, db'⟩) : Outlives P db' did := by
  have hchange := (step_effect hstep).device did
  cases passportChange_of_step hstep with
  | kept hrows hdevices hdelete =>
    have hsame : SamePassports did db db' := by
      intro row _
      rw [hrows]
    by_cases hop : ∃ r now, op = .result r now
    · obtain ⟨r, now, hop⟩ := hop
      have hdevice : db'.device did = db.device did := by
        rw [Db.device, Db.device, hdevices r now hop]
      refine h.of_same hsame (fun hnone => h.absent (hdevice ▸ hnone)) fun d' key hd' hfile => ?_
      exact .inl ⟨d', hdevice ▸ hd', hfile⟩
    · exact h.of_change hcond hsame hchange (fun r now heq => hop ⟨r, now, heq⟩) (hdelete did)
  | @deleted _ gone hop hrows =>
    by_cases hgone : gone = did
    · subst hgone
      have hnone : ∀ row ∈ db'.passports.rows, row.deviceId ≠ gone := by
        intro row hrow
        rw [hrows] at hrow
        exact beq_eq_false_iff_ne.mp (Table.mem_delete.mp hrow).2
      refine ⟨fun _ => hnone, fun d key _ _ hhas => ?_⟩
      obtain ⟨row, hrow, hdid, -⟩ := hhas
      exact absurd hdid (hnone row hrow)
    · have hsame : SamePassports did db db' := by
        intro row hdid
        rw [hrows, Table.mem_delete]
        exact and_iff_left (beq_eq_false_iff_ne.mpr fun heq => hgone (heq.symm.trans hdid))
      refine h.of_change hcond hsame hchange (by simp [hop]) ?_
      rw [hop]
      simpa using hgone
  | @stored r now job d row key hop hopen hrow hdid hdevice hkey hcarries =>
    subst hop
    by_cases hjob : job.deviceId = did
    · exact h.store hcond hopen hrow hdid hdevice hjob hkey hcarries
    · have hother : row.deviceId ≠ did := fun heq => hjob (hdid.symm.trans heq)
      have hsame : SamePassports did db
          ((db.answer job.id now r.ok r.error).store job.body row) := by
        intro x hx
        refine Table.mem_insert.trans (or_iff_left ?_)
        rintro ⟨rfl, -⟩
        exact hother hx
      have hkept : ((db.answer job.id now r.ok r.error).store job.body row).device did =
          db.device did := by
        rw [device_store, if_neg (Ne.symm hother), device_answer]
      refine h.of_same hsame (fun hnone => h.absent (hkept ▸ hnone)) fun d' key hd' hfile => ?_
      exact .inl ⟨d', hkept ▸ hd', hfile⟩

theorem outlives_of_run {db₀ : Db} {es : List RdsEv} (h : Run (Step P) db₀ es db)
    (h0 : db₀.passports.rows = []) (hcond : ∀ e ∈ es, KeepsAhead P did e) :
    Outlives P db did := by
  induction h with
  | nil =>
    refine ⟨fun _ row hrow => ?_, fun d key _ _ hhas => ?_⟩
    · rw [h0] at hrow
      cases hrow
    · obtain ⟨row, hrow, -⟩ := hhas
      rw [h0] at hrow
      cases hrow
  | snoc _ hstep ih =>
    exact outlives_of_step (ih fun e he => hcond e (List.mem_append_left _ he)) hstep
      (hcond _ (by simp))

theorem Outlives.keyServed (h : Outlives P db did) : KeyServed P db did := by
  intro answer key hmay hidk hhas
  rcases hmay with ⟨hnone, rfl⟩ | ⟨row, hrow, rfl⟩
  · obtain ⟨row, hrow, hdid, -⟩ := hhas
    have hmem := mem_passportsOf.mpr ⟨hrow, hdid⟩
    rw [hnone] at hmem
    cases hmem
  · obtain ⟨d, hd, hfile⟩ := idkOnFile_getDevicePassport hidk
    obtain ⟨⟨hmem, hdid⟩, hnewest⟩ := mem_newestPassports.mp hrow
    refine ⟨row.passport, rfl, ?_⟩
    by_contra hother
    obtain ⟨row', hrow', hdid', -, hlt⟩ := h.onFile d key hd hfile hhas row hmem hdid hother
    exact absurd (hnewest row' hrow' hdid') (by omega)

end Invariant

end ManagedDirectory.Rds
