import ManagedDirectory.Sync.Directory

/-!
# What the directory version misses

The answer of `GET /v1/directory` is made of what the fingerprint reads (`covered`) and of the rest
(`uncovered`). Without separators in the texts the fingerprint tells all covered data apart
(`covered_of_text`), so a changed answer is noticed exactly if no change is in the rest alone
(`directory_noticed_iff`). A device's platform is in the rest (`platform_unnoticed`).
-/

namespace ManagedDirectory.Sync

open Codec Lib List
open Updates (isHexDigit)

/-! ## The rest -/

/-- What is shown of a device besides what the fingerprint reads. -/
structure UncoveredRow where
  platform : Platform
  lastSeenAt : Option (Option Int)
  activeSessionPeer : Option Text

structure Uncovered where
  instanceId : Uuid
  rows : List UncoveredRow
  onlineClients : Nat
  activeSessions : Nat
  selfActiveSessionPeer : Option Text

def uncoveredRow (sql : Sql) (db : DirectoryDb) (now : Int) (d : DirectoryDevice) :
    UncoveredRow where
  platform := d.platform
  lastSeenAt := if db.online sql now d then none else some d.lastSeenAt
  activeSessionPeer := db.activeSessionPeer sql now d.id

def uncovered (sql : Sql) (db : DirectoryDb) (now : Int) (device : Uuid) : Uncovered where
  instanceId := db.instanceId
  rows := ((db.approvedDeviceDirectory now).filter fun d => d.id ≠ device).map
    (uncoveredRow sql db now)
  onlineClients := db.onlineClients sql now
  activeSessions := db.activeSessionCount sql now
  selfActiveSessionPeer := db.activeSessionPeer sql now device

/-! ## Texts without separators -/

/-- No name or id of a device has a separator of the fingerprint in it. -/
def CoveredRow.Plain (r : CoveredRow) : Prop :=
  ∀ text ∈ [r.rustdeskId, r.displayName, r.hostname],
    ','.toNat ∉ text ∧ '|'.toNat ∉ text ∧ '#'.toNat ∉ text

structure Covered.Plain (c : Covered) : Prop where
  rows : ∀ r ∈ c.rows, r.Plain
  sessions : ∀ s ∈ c.sessions, ∀ peer ∈ s.2, '|'.toNat ∉ peer ∧ '#'.toNat ∉ peer
  settings : ∀ s ∈ c.settings, '='.toNat ∉ s.1

section Decoding

variable {sql : Sql}

theorem Uuid.ext_text {id id' : Uuid} (h : id.text = id'.text) : id = id' := by
  cases id
  cases id'
  simp_all

theorem Uuid.notMem (id : Uuid) {c : Nat} (hc : (isHexDigit c || c = '-'.toNat) = false) :
    c ∉ id.text := by
  intro h
  rw [all_eq_true.mp id.form c h] at hc
  cases hc

theorem Sql.notMem_md5 (text : Text) {c : Nat} (hc : isHexDigit c = false) :
    c ∉ sql.md5 text := by
  intro h
  rw [all_eq_true.mp (sql.md5_hex text) c h] at hc
  cases hc

theorem closedFrom_append {s : Scan} {v rest : Text} (hv : closedFrom s v = true) :
    closedFrom s (v ++ ','.toNat :: rest) = false := by
  induction v generalizing s with
  | nil =>
    have htop : s = .top := by simpa [closedFrom] using hv
    simp [closedFrom, htop]
  | cons c v ih =>
    simp only [closedFrom, Bool.and_eq_true] at hv
    rw [cons_append, closedFrom, ih hv.2, Bool.and_false]

theorem coveredRow_of_text {r r' : CoveredRow} (hr : r.Plain) (hr' : r'.Plain)
    (hkey : sql.md5 r.publicKey = sql.md5 r'.publicKey → r.publicKey = r'.publicKey)
    (h : r.text sql = r'.text sql) : r = r' := by
  obtain ⟨id, rid, name, host, key, on⟩ := r
  obtain ⟨id', rid', name', host', key', on'⟩ := r'
  simp only [CoveredRow.Plain, forall_mem_cons] at hr hr'
  simp only [CoveredRow.text, joined] at h hkey
  obtain ⟨hid, h₁⟩ := append_sep_inj_of_notMem (id.notMem (by decide)) (id'.notMem (by decide)) h
  obtain ⟨hrid, h₂⟩ := append_sep_inj_of_notMem hr.1.1 hr'.1.1 h₁
  obtain ⟨hname, h₃⟩ := append_sep_inj_of_notMem hr.2.1.1 hr'.2.1.1 h₂
  obtain ⟨hhost, h₄⟩ := append_sep_inj_of_notMem hr.2.2.1.1 hr'.2.2.1.1 h₃
  obtain ⟨hmd5, hon⟩ := append_sep_inj_of_notMem (sql.notMem_md5 key (by decide))
    (sql.notMem_md5 key' (by decide)) h₄
  have hbool : on = on' := by
    revert hon
    cases on <;> cases on' <;> decide
  rw [Uuid.ext_text hid, hrid, hname, hhost, hkey hmd5, hbool]

theorem notMem_rowText {r : CoveredRow} (hr : r.Plain) {c : Nat} (hc : c = '|'.toNat ∨ c = '#'.toNat) :
    c ∉ r.text sql := by
  have hhex : (isHexDigit c || c = '-'.toNat) = false ∧ isHexDigit c = false ∧ c ≠ ','.toNat ∧
      c ∉ codePoints "t" ∧ c ∉ codePoints "f" := by
    rcases hc with rfl | rfl <;> decide
  refine notMem_joined hhex.2.2.1 ?_
  simp only [forall_mem_cons, not_mem_nil, false_implies, implies_true, and_true]
  simp only [CoveredRow.Plain, forall_mem_cons] at hr
  refine ⟨r.id.notMem hhex.1, ?_, ?_, ?_, sql.notMem_md5 _ hhex.2.1, ?_⟩
  · rcases hc with rfl | rfl
    · exact hr.1.2.1
    · exact hr.1.2.2
  · rcases hc with rfl | rfl
    · exact hr.2.1.2.1
    · exact hr.2.1.2.2
  · rcases hc with rfl | rfl
    · exact hr.2.2.1.2.1
    · exact hr.2.2.1.2.2
  · cases r.online
    · exact hhex.2.2.2.2
    · exact hhex.2.2.2.1

theorem session_of_text {s s' : Uuid × Option Text} (h : sessionText s = sessionText s') :
    s = s' := by
  obtain ⟨id, peer⟩ := s
  obtain ⟨id', peer'⟩ := s'
  have hcomma : ','.toNat ∉ id.text := id.notMem (by decide)
  have hcomma' : ','.toNat ∉ id'.text := id'.notMem (by decide)
  cases peer with
  | none =>
    cases peer' with
    | none => rw [show id = id' from Uuid.ext_text h]
    | some peer' =>
      refine absurd ?_ hcomma
      rw [show id.text = id'.text ++ ','.toNat :: peer' from h]
      simp
  | some peer =>
    cases peer' with
    | none =>
      refine absurd ?_ hcomma'
      rw [show id'.text = id.text ++ ','.toNat :: peer from h.symm]
      simp
    | some peer' =>
      have hparts : id.text ++ ','.toNat :: peer = id'.text ++ ','.toNat :: peer' := h
      obtain ⟨hid, hpeer⟩ := append_sep_inj_of_notMem hcomma hcomma' hparts
      rw [Uuid.ext_text hid, hpeer]

theorem notMem_sessionText {s : Uuid × Option Text} {c : Nat} (hc : c = '|'.toNat ∨ c = '#'.toNat)
    (hs : ∀ peer ∈ s.2, c ∉ peer) : c ∉ sessionText s := by
  refine notMem_joined (by rcases hc with rfl | rfl <;> decide) ?_
  intro w hw
  rcases mem_cons.mp hw with rfl | hw
  · exact s.1.notMem (by rcases hc with rfl | rfl <;> decide)
  · exact hs w (by simpa using hw)

theorem separable_settings {xs ys : List (Text × Text)}
    (hxs : ∀ s ∈ xs, '='.toNat ∉ s.1 ∧ closedFrom .top s.2 = true)
    (hys : ∀ s ∈ ys, '='.toNat ∉ s.1 ∧ closedFrom .top s.2 = true) :
    Separable ','.toNat (xs.map settingText) (ys.map settingText) := by
  have hstop {s s' : Text × Text} (hs : '='.toNat ∉ s.1 ∧ closedFrom .top s.2 = true)
      (hs' : '='.toNat ∉ s'.1 ∧ closedFrom .top s'.2 = true) (rest : Text) :
      settingText s ≠ settingText s' ++ ','.toNat :: rest := by
    intro h
    rw [settingText, settingText, append_assoc, cons_append] at h
    have hvalue := (append_sep_inj_of_notMem hs.1 hs'.1 h).2
    rw [hvalue, closedFrom_append hs'.2] at hs
    cases hs.2
  intro w hw v hv rest
  obtain ⟨s, hs, rfl⟩ := mem_map.mp hw
  obtain ⟨s', hs', rfl⟩ := mem_map.mp hv
  exact ⟨hstop (hxs s hs) (hys s' hs') rest, hstop (hys s' hs') (hxs s hs) rest⟩

theorem settings_of_text {xs ys : List (Text × Text)}
    (hxs : ∀ s ∈ xs, '='.toNat ∉ s.1 ∧ closedFrom .top s.2 = true)
    (hys : ∀ s ∈ ys, '='.toNat ∉ s.1 ∧ closedFrom .top s.2 = true)
    (h : joined ','.toNat (xs.map settingText) = joined ','.toNat (ys.map settingText)) :
    xs = ys := by
  have hne {zs : List (Text × Text)} : ∀ w ∈ zs.map settingText, w ≠ [] := by
    intro w hw
    obtain ⟨s, -, rfl⟩ := mem_map.mp hw
    simp [settingText]
  have hwords := joined_injective hne hne (separable_settings hxs hys) h
  refine eq_of_map_eq (fun s hs s' hs' hsame => ?_) hwords
  obtain ⟨hkey, hvalue⟩ := append_sep_inj_of_notMem (hxs s hs).1 (hys s' hs').1 hsame
  exact Prod.ext hkey hvalue

theorem rows_of_text {xs ys : List CoveredRow} (hxs : ∀ r ∈ xs, r.Plain) (hys : ∀ r ∈ ys, r.Plain)
    (hkey : ∀ r ∈ xs, ∀ r' ∈ ys, sql.md5 r.publicKey = sql.md5 r'.publicKey →
      r.publicKey = r'.publicKey)
    (h : joined '|'.toNat (xs.map (CoveredRow.text sql)) =
      joined '|'.toNat (ys.map (CoveredRow.text sql))) : xs = ys := by
  have hwords {zs : List CoveredRow} (hzs : ∀ r ∈ zs, r.Plain) :
      ∀ w ∈ zs.map (CoveredRow.text sql), w ≠ [] ∧ '|'.toNat ∉ w := by
    intro w hw
    obtain ⟨r, hr, rfl⟩ := mem_map.mp hw
    exact ⟨by simp [CoveredRow.text, joined], notMem_rowText (hzs r hr) (.inl rfl)⟩
  refine eq_of_map_eq (fun r hr r' hr' => ?_)
    (joined_injective_of_notMem (hwords hxs) (hwords hys) h)
  exact coveredRow_of_text (hxs r hr) (hys r' hr') (hkey r hr r' hr')

theorem sessions_of_text {xs ys : List (Uuid × Option Text)}
    (hxs : ∀ s ∈ xs, ∀ peer ∈ s.2, '|'.toNat ∉ peer)
    (hys : ∀ s ∈ ys, ∀ peer ∈ s.2, '|'.toNat ∉ peer)
    (h : joined '|'.toNat (xs.map sessionText) = joined '|'.toNat (ys.map sessionText)) :
    xs = ys := by
  have hwords {zs : List (Uuid × Option Text)} (hzs : ∀ s ∈ zs, ∀ peer ∈ s.2, '|'.toNat ∉ peer) :
      ∀ w ∈ zs.map sessionText, w ≠ [] ∧ '|'.toNat ∉ w := by
    intro w hw
    obtain ⟨s, hs, rfl⟩ := mem_map.mp hw
    refine ⟨?_, notMem_sessionText (.inl rfl) (hzs s hs)⟩
    have hid := s.1.nonempty
    cases hpeer : s.2 <;> simp [sessionText, joined, hpeer, hid]
  exact eq_of_map_eq (fun s _ s' _ => session_of_text)
    (joined_injective_of_notMem (hwords hxs) (hwords hys) h)

/-- **Without separators in the texts, equal fingerprint texts have equal rows, sessions and
settings.** -/
theorem covered_of_text {c c' : Covered} (hc : c.Plain) (hc' : c'.Plain)
    (hclosed : ∀ s ∈ c.settings, closedFrom .top s.2 = true)
    (hclosed' : ∀ s ∈ c'.settings, closedFrom .top s.2 = true)
    (hkey : ∀ r ∈ c.rows, ∀ r' ∈ c'.rows, sql.md5 r.publicKey = sql.md5 r'.publicKey →
      r.publicKey = r'.publicKey)
    (h : c.text sql = c'.text sql) : c = c' := by
  have hrows {c : Covered} (hc : c.Plain) :
      '#'.toNat ∉ joined '|'.toNat (c.rows.map (CoveredRow.text sql)) := by
    refine notMem_joined (by decide) fun w hw => ?_
    obtain ⟨r, hr, rfl⟩ := mem_map.mp hw
    exact notMem_rowText (hc.rows r hr) (.inr rfl)
  have hsessions {c : Covered} (hc : c.Plain) :
      '#'.toNat ∉ joined '|'.toNat (c.sessions.map sessionText) := by
    refine notMem_joined (by decide) fun w hw => ?_
    obtain ⟨s, hs, rfl⟩ := mem_map.mp hw
    exact notMem_sessionText (.inr rfl) fun peer hpeer => (hc.sessions s hs peer hpeer).2
  obtain ⟨h₁, hrest⟩ := append_sep_inj_of_notMem (hrows hc) (hrows hc') h
  obtain ⟨h₂, h₃⟩ := append_sep_inj_of_notMem (hsessions hc) (hsessions hc') hrest
  have heq₁ := rows_of_text hc.rows hc'.rows hkey h₁
  have heq₂ := sessions_of_text (fun s hs peer hp => (hc.sessions s hs peer hp).1)
    (fun s hs peer hp => (hc'.sessions s hs peer hp).1) h₂
  have heq₃ := settings_of_text (fun s hs => ⟨hc.settings s hs, hclosed s hs⟩)
    (fun s hs => ⟨hc'.settings s hs, hclosed' s hs⟩) h₃
  cases c
  cases c'
  simp_all

end Decoding

/-! ## The answer -/

def combine (r : CoveredRow) (u : UncoveredRow) : StableEntry :=
  ⟨r.id, r.rustdeskId, r.displayName, r.hostname, u.lastSeenAt, r.publicKey, u.platform, r.online,
    u.activeSessionPeer⟩

def Sql.stableLe (sql : Sql) (a b : StableEntry) : Bool :=
  if sql.le (sql.lower a.displayName) (sql.lower b.displayName) then
    !sql.le (sql.lower b.displayName) (sql.lower a.displayName) || sql.le a.rustdeskId b.rustdeskId
  else false

section Answer

variable {sql : Sql} {db db₁ db₂ : DirectoryDb} {now : Int} {device : Uuid}
  {p p₁ p₂ : DirectoryPayload}

theorem settings_of_covered (h : covered sql db₁ now = covered sql db₂ now) :
    db₁.settings = db₂.settings := by
  refine eq_of_map_eq (fun s _ s' _ hsame => ?_) (congrArg Covered.settings h)
  cases s
  cases s'
  simp_all

theorem settingValue_congr (h : db₁.settings = db₂.settings) (key : String) :
    db₁.settingValue sql key = db₂.settingValue sql key := by
  simp only [DirectoryDb.settingValue, h]

theorem getIntDirectorySetting_congr (h : db₁.settings = db₂.settings) (key : String)
    (fallback : Int) : db₁.getIntDirectorySetting sql key fallback =
      db₂.getIntDirectorySetting sql key fallback := by
  simp only [DirectoryDb.getIntDirectorySetting, settingValue_congr h]

theorem modeSetting_congr (h : db₁.settings = db₂.settings) (key : String) (modes : List String)
    (default : String) : db₁.modeSetting sql key modes default =
      db₂.modeSetting sql key modes default := by
  simp only [DirectoryDb.modeSetting, settingValue_congr h]

theorem relayWebrtc_congr (h : db₁.settings = db₂.settings) :
    db₁.relayWebrtc sql = db₂.relayWebrtc sql := by
  simp only [DirectoryDb.relayWebrtc, modeSetting_congr h, settingValue_congr h]

def shownEntries (sql : Sql) (db : DirectoryDb) (now : Int) (device : Uuid) : List StableEntry :=
  ((db.approvedDeviceDirectory now).filter fun d => d.id ≠ device).map fun d =>
    combine (coveredRow sql db now d) (uncoveredRow sql db now d)

structure Answers (sql : Sql) (db : DirectoryDb) (now : Int) (device : Uuid)
    (p : StablePayload) : Prop where
  instanceId : p.instanceId = db.instanceId
  refreshSeconds : p.refreshSeconds = db.refreshSeconds sql
  devices : p.devices = (shownEntries sql db now device).mergeSort sql.stableLe
  onlineClients : p.onlineClients = db.onlineClients sql now
  activeSessions : p.activeSessions = db.activeSessionCount sql now
  peerAuthMode : p.peerAuthMode = db.peerAuthMode sql
  relayFallbackDelayMs : db.getIntDirectorySetting sql "connection.relay_fallback_delay_ms" 1500 =
    .ok p.relayFallbackDelayMs
  webrtc : ∃ r ∈ (covered sql db now).rows, r.id = device ∧ p.webrtc = db.deviceWebrtc sql r.rustdeskId
  selfActiveSessionPeer : p.selfActiveSessionPeer = db.activeSessionPeer sql now device

theorem answers_of_approvedDirectory (h : approvedDirectory sql db now device = some p) :
    Answers sql db now device p.stable := by
  unfold approvedDirectory at h
  split at h
  · rename_i self delay hself hdelay
    cases h
    have hid : self.id = device := by simpa using List.find?_some hself
    refine ⟨rfl, rfl, ?_, rfl, rfl, rfl, hdelay, ⟨coveredRow sql db now self, ?_, hid, rfl⟩, rfl⟩
    · have hsort (xs : List DirectoryEntry) : (xs.mergeSort sql.entryLe).map DirectoryEntry.stable =
          (xs.map DirectoryEntry.stable).mergeSort sql.stableLe :=
        map_mergeSort fun _ _ _ _ => rfl
      simp only [DirectoryPayload.stable, hsort, map_map]
      rfl
    · exact mem_map.mpr ⟨self, List.mem_of_find?_eq_some hself, rfl⟩
  · cases h

theorem nodup_covered_ids : ((covered sql db now).rows.map CoveredRow.id).Nodup := by
  have hsub : ((db.approvedDeviceDirectory now).map DirectoryDevice.id).Nodup :=
    db.ids.sublist ((filter_sublist).map _)
  simpa [covered, map_map, Function.comp_def, coveredRow] using hsub

theorem map_id_shownEntries : (shownEntries sql db now device).map StableEntry.id =
    ((covered sql db now).rows.map CoveredRow.id).filter fun id => id ≠ device := by
  simp only [shownEntries, covered, map_map, filter_map, Function.comp_def]
  rfl

theorem shownEntries_eq : shownEntries sql db now device =
    zipWith combine ((covered sql db now).rows.filter fun r => r.id ≠ device)
      (uncovered sql db now device).rows := by
  have hid (d : DirectoryDevice) : (coveredRow sql db now d).id = d.id := rfl
  simp only [shownEntries, covered, uncovered, filter_map, zipWith_map, Function.comp_def,
    hid, zipWith_self]

theorem stable_of_parts (h₁ : Answers sql db₁ now device p₁.stable)
    (h₂ : Answers sql db₂ now device p₂.stable) (hcovered : covered sql db₁ now = covered sql db₂ now)
    (huncovered : uncovered sql db₁ now device = uncovered sql db₂ now device) :
    p₁.stable = p₂.stable := by
  have hsettings := settings_of_covered hcovered
  have hwebrtc : p₁.stable.webrtc = p₂.stable.webrtc := by
    obtain ⟨r₁, hr₁, hid₁, hw₁⟩ := h₁.webrtc
    obtain ⟨r₂, hr₂, hid₂, hw₂⟩ := h₂.webrtc
    obtain rfl : r₁ = r₂ := inj_on_of_nodup_map nodup_covered_ids (hcovered ▸ hr₁) hr₂
      (hid₁.trans hid₂.symm)
    rw [hw₁, hw₂]
    simp only [DirectoryDb.deviceWebrtc, relayWebrtc_congr hsettings]
  have hrefresh : p₁.stable.refreshSeconds = p₂.stable.refreshSeconds := by
    rw [h₁.refreshSeconds, h₂.refreshSeconds]
    simp only [DirectoryDb.refreshSeconds, settingValue_congr hsettings]
  have hmode : p₁.stable.peerAuthMode = p₂.stable.peerAuthMode := by
    rw [h₁.peerAuthMode, h₂.peerAuthMode]
    exact modeSetting_congr hsettings ..
  have hdelay : p₁.stable.relayFallbackDelayMs = p₂.stable.relayFallbackDelayMs := by
    have hsame := h₁.relayFallbackDelayMs
    rw [getIntDirectorySetting_congr hsettings, h₂.relayFallbackDelayMs] at hsame
    exact (Except.ok.inj hsame).symm
  have hdevices : p₁.stable.devices = p₂.stable.devices := by
    rw [h₁.devices, h₂.devices, shownEntries_eq, shownEntries_eq, hcovered, huncovered]
  have hinstance : p₁.stable.instanceId = p₂.stable.instanceId := by
    rw [h₁.instanceId, h₂.instanceId]
    exact congrArg Uncovered.instanceId huncovered
  have honline : p₁.stable.onlineClients = p₂.stable.onlineClients := by
    rw [h₁.onlineClients, h₂.onlineClients]
    exact congrArg Uncovered.onlineClients huncovered
  have hactive : p₁.stable.activeSessions = p₂.stable.activeSessions := by
    rw [h₁.activeSessions, h₂.activeSessions]
    exact congrArg Uncovered.activeSessions huncovered
  have hself : p₁.stable.selfActiveSessionPeer = p₂.stable.selfActiveSessionPeer := by
    rw [h₁.selfActiveSessionPeer, h₂.selfActiveSessionPeer]
    exact congrArg Uncovered.selfActiveSessionPeer huncovered
  rcases hp₁ : p₁.stable with ⟨_, _, _, _, _, _, _, _, _⟩
  rcases hp₂ : p₂.stable with ⟨_, _, _, _, _, _, _, _, _⟩
  simp_all

theorem uncovered_of_stable (h₁ : Answers sql db₁ now device p₁.stable)
    (h₂ : Answers sql db₂ now device p₂.stable) (hcovered : covered sql db₁ now = covered sql db₂ now)
    (hstable : p₁.stable = p₂.stable) :
    uncovered sql db₁ now device = uncovered sql db₂ now device := by
  rw [hstable] at h₁
  have hsorted := h₁.devices.symm.trans h₂.devices
  have hperm : (shownEntries sql db₁ now device).Perm (shownEntries sql db₂ now device) :=
    (mergeSort_perm _ _).symm.trans ((List.Perm.of_eq hsorted).trans (mergeSort_perm _ _))
  have hids : (shownEntries sql db₁ now device).map StableEntry.id =
      (shownEntries sql db₂ now device).map StableEntry.id := by
    rw [map_id_shownEntries, map_id_shownEntries, hcovered]
  have hnodup : ((shownEntries sql db₁ now device).map StableEntry.id).Nodup := by
    rw [map_id_shownEntries]
    exact nodup_covered_ids.filter _
  have hentries := eq_of_perm_of_map_eq hperm hids hnodup
  have hrows (db : DirectoryDb) : (uncovered sql db now device).rows =
      (shownEntries sql db now device).map fun e =>
        (⟨e.platform, e.lastSeenAt, e.activeSessionPeer⟩ : UncoveredRow) := by
    simp [uncovered, shownEntries, map_map, Function.comp_def, combine, uncoveredRow]
  have hrows' : (uncovered sql db₁ now device).rows = (uncovered sql db₂ now device).rows := by
    rw [hrows, hrows, hentries]
  have hparts {u u' : Uncovered} (hi : u.instanceId = u'.instanceId) (hr : u.rows = u'.rows)
      (ho : u.onlineClients = u'.onlineClients) (ha : u.activeSessions = u'.activeSessions)
      (hs : u.selfActiveSessionPeer = u'.selfActiveSessionPeer) : u = u' := by
    cases u
    cases u'
    simp_all
  exact hparts (h₁.instanceId.symm.trans h₂.instanceId) hrows'
    (h₁.onlineClients.symm.trans h₂.onlineClients)
    (h₁.activeSessions.symm.trans h₂.activeSessions)
    (h₁.selfActiveSessionPeer.symm.trans h₂.selfActiveSessionPeer)

end Answer

/-! ## Noticing -/

structure NoCollisions (sql : Sql) (digest : StablePayload → Text) (now : Int)
    (db₁ db₂ : DirectoryDb) (p₁ p₂ : DirectoryPayload) : Prop where
  keys : ∀ r ∈ (covered sql db₁ now).rows, ∀ r' ∈ (covered sql db₂ now).rows,
    sql.md5 r.publicKey = sql.md5 r'.publicKey → r.publicKey = r'.publicKey
  fingerprints : directoryFingerprint sql db₁ now = directoryFingerprint sql db₂ now →
    (covered sql db₁ now).text sql = (covered sql db₂ now).text sql
  etags : directoryEtag digest p₁ = directoryEtag digest p₂ → p₁.stable = p₂.stable

/-- **A different `ETag` comes with a different `directory` value only if what the fingerprint does
not read did not change alone, and without separators in the texts that is enough.** -/
theorem directory_noticed_iff {sql : Sql} {digest : StablePayload → Text} {db₁ db₂ : DirectoryDb}
    {now : Int} {device : Uuid} {p₁ p₂ : DirectoryPayload}
    (h₁ : approvedDirectory sql db₁ now device = some p₁)
    (h₂ : approvedDirectory sql db₂ now device = some p₂)
    (hno : NoCollisions sql digest now db₁ db₂ p₁ p₂) :
    ((directoryEtag digest p₁ ≠ directoryEtag digest p₂ →
        directoryFingerprint sql db₁ now ≠ directoryFingerprint sql db₂ now) →
      covered sql db₁ now = covered sql db₂ now →
        uncovered sql db₁ now device = uncovered sql db₂ now device) ∧
    ((covered sql db₁ now).Plain → (covered sql db₂ now).Plain →
      (covered sql db₁ now = covered sql db₂ now →
        uncovered sql db₁ now device = uncovered sql db₂ now device) →
      directoryEtag digest p₁ ≠ directoryEtag digest p₂ →
        directoryFingerprint sql db₁ now ≠ directoryFingerprint sql db₂ now) := by
  have ha₁ := answers_of_approvedDirectory h₁
  have ha₂ := answers_of_approvedDirectory h₂
  constructor
  · intro hnoticed hcovered
    have hsame : directoryFingerprint sql db₁ now = directoryFingerprint sql db₂ now := by
      rw [directoryFingerprint, directoryFingerprint, hcovered]
    have hetag : directoryEtag digest p₁ = directoryEtag digest p₂ := by
      by_contra hdiffer
      exact hnoticed hdiffer hsame
    exact uncovered_of_stable ha₁ ha₂ hcovered (hno.etags hetag)
  · intro hplain₁ hplain₂ hrest hdiffer hsame
    have hclosed (db : DirectoryDb) :
        ∀ s ∈ (covered sql db now).settings, closedFrom .top s.2 = true := by
      intro s hs
      obtain ⟨setting, -, rfl⟩ := mem_map.mp hs
      exact setting.closed
    have hcovered := covered_of_text hplain₁ hplain₂ (hclosed db₁) (hclosed db₂) hno.keys
      (hno.fingerprints hsame)
    refine hdiffer (congrArg digest ?_)
    exact stable_of_parts ha₁ ha₂ hcovered (hrest hcovered)

/-! ## A platform the fingerprint does not read -/

namespace DirectorySample

def uuid (last : Nat) (h : isHexDigit last = true) : Uuid :=
  ⟨codePoints "00000000-0000-4000-8000-00000000000" ++ [last], by simp, by
    rw [all_append, Bool.and_eq_true]
    exact ⟨by decide, by simp [h]⟩⟩

def selfId : Uuid := uuid '1'.toNat (by decide)

def peerId : Uuid := uuid '2'.toNat (by decide)

def self : DirectoryDevice :=
  ⟨selfId, codePoints "100", codePoints "desk", none, codePoints "AAA=", true, none, .windows⟩

def peer (name : String) (platform : Platform) : DirectoryDevice :=
  ⟨peerId, codePoints "200", codePoints name, none, codePoints "BBB=", true, none, platform⟩

def db (name : String) (platform : Platform) : DirectoryDb where
  instanceId := uuid '0'.toNat (by decide)
  devices := [self, peer name platform]
  credentials := [⟨selfId, false, none⟩, ⟨peerId, false, none⟩]
  sessions := []
  settings := []
  ids := show [selfId, peerId].Nodup by decide
  rustdeskIds := show [codePoints "100", codePoints "200"].Nodup by decide

theorem listed (name : String) (platform : Platform) :
    (db name platform).approvedDeviceDirectory 0 = [self, peer name platform] := by
  simp [DirectoryDb.approvedDeviceDirectory, db, self, peer]

def payload (name : String) (platform : Platform) : DirectoryPayload where
  instanceId := uuid '0'.toNat (by decide)
  generatedAt := 0
  refreshSeconds := .int false 300
  devices := [⟨peerId, codePoints "200", codePoints name, codePoints name, none,
    codePoints "BBB=", platform, false, none⟩]
  onlineClients := 0
  activeSessions := 0
  peerAuthMode := "log"
  relayFallbackDelayMs := 1500
  webrtc := false
  selfActiveSessionPeer := none

theorem answer (sql : Sql) (name : String) (platform : Platform) :
    approvedDirectory sql (db name platform) 0 selfId = some (payload name platform) := by
  have hfind : [self, peer name platform].find? (fun d => d.id = selfId) = some self := by
    simp [self]
  have hothers : [self, peer name platform].filter (fun d => d.id ≠ selfId) =
      [peer name platform] := by
    have hpeer : (peer name platform).id ≠ selfId := show peerId ≠ selfId by decide
    simp [self, hpeer]
  simp only [approvedDirectory, listed, hfind, hothers, map_cons, map_nil,
    mergeSort_singleton]
  rfl

theorem covered_db (sql : Sql) (name : String) (platform : Platform) :
    covered sql (db name platform) 0 =
      ⟨[⟨selfId, codePoints "100", codePoints "desk", codePoints "desk", codePoints "AAA=", false⟩,
        ⟨peerId, codePoints "200", codePoints name, codePoints name, codePoints "BBB=", false⟩],
        [], []⟩ := by
  have hsessions : (db name platform).activeSessions sql 0 = [] := rfl
  simp only [covered, listed, hsessions, map_nil, mergeSort_nil]
  rfl

def sql : Sql where
  python := ⟨asciiUnicode, 900, fun neg m e => .fin ((if neg then -1 else 1) * m * 10 ^ e),
    fun _ => []⟩
  lower := List.map asciiLower
  le a b := decide (a ≤ b)
  md5 text :=
    if text = codePoints "AAA=" then codePoints "02f8dea793e1de8535c8f1b054caa4cb"
    else if text = codePoints "BBB=" then codePoints "6c0ffbeb19cd69dda3de24c30d663ca7"
    else if hasPart text "tablet" then codePoints "31ca97e6495e5dbc07636b0724cf77b2"
    else codePoints "db9692683984f1ae00d4172191081d94"
  md5_hex text := by split_ifs <;> decide

def digest (p : StablePayload) : Text :=
  if p.devices.map StableEntry.displayName = [codePoints "tab"] then
    codePoints "\"52ff56233af4e0c8a5a0a73185ed87ac\""
  else codePoints "\"345eed6f23cbfc58489a11c5b11883f2\""

theorem plain_covered : ∀ name ∈ ["tab", "tablet"],
    (covered sql (db name .windows) 0).Plain := by
  intro name hname
  rw [covered_db]
  refine ⟨?_, by simp, by simp⟩
  revert name
  unfold CoveredRow.Plain
  decide

theorem rename_noticed :
    directoryEtag digest (payload "tab" .windows) ≠ directoryEtag digest (payload "tablet" .windows) ∧
      directoryFingerprint sql (db "tab" .windows) 0 ≠
        directoryFingerprint sql (db "tablet" .windows) 0 := by
  have hetag : directoryEtag digest (payload "tab" .windows) ≠
      directoryEtag digest (payload "tablet" .windows) := by decide +kernel
  have hfingerprint : directoryFingerprint sql (db "tab" .windows) 0 ≠
      directoryFingerprint sql (db "tablet" .windows) 0 := by
    rw [directoryFingerprint, directoryFingerprint, covered_db, covered_db]
    decide +kernel
  have hno : NoCollisions sql digest 0 (db "tab" .windows) (db "tablet" .windows)
      (payload "tab" .windows) (payload "tablet" .windows) := by
    refine ⟨?_, fun h => absurd h hfingerprint, fun h => absurd h hetag⟩
    rw [covered_db, covered_db]
    decide +kernel
  have hiff := directory_noticed_iff (answer sql "tab" .windows) (answer sql "tablet" .windows) hno
  refine ⟨hetag, hiff.2 (plain_covered "tab" (by simp)) (plain_covered "tablet" (by simp)) ?_ hetag⟩
  intro hsame
  rw [covered_db, covered_db] at hsame
  have hnames := congrArg (fun c => c.rows.map CoveredRow.displayName) hsame
  exact absurd hnames (by decide)

/-- **The platform of a device is in the answer and not in the `directory` value**: whatever the
digests are, if they do not collide the `ETag` changes and the `directory` value does not. -/
theorem platform_unnoticed : ∃ db₁ db₂ now device, ∀ (sql : Sql) (digest : StablePayload → Text),
    ∃ p₁ p₂, approvedDirectory sql db₁ now device = some p₁ ∧
      approvedDirectory sql db₂ now device = some p₂ ∧
      (NoCollisions sql digest now db₁ db₂ p₁ p₂ →
        directoryEtag digest p₁ ≠ directoryEtag digest p₂) ∧
      directoryFingerprint sql db₁ now = directoryFingerprint sql db₂ now := by
  refine ⟨db "tab" .windows, db "tab" .android, 0, selfId, fun sql digest => ?_⟩
  refine ⟨_, _, answer sql "tab" .windows, answer sql "tab" .android, fun hno hsame => ?_, ?_⟩
  · have hstable := hno.etags hsame
    have hdevices := congrArg (fun p => p.devices.map StableEntry.platform) hstable
    exact absurd hdevices (by decide)
  · rw [directoryFingerprint, directoryFingerprint, covered_db, covered_db]

end DirectorySample

end ManagedDirectory.Sync
