import ManagedDirectory.Lib.Joined
import ManagedDirectory.Updates.Manifests

/-!
# The directory and its two summaries

`approvedDirectory` is `GET /v1/directory`, `directoryEtag` its `ETag`, and `directoryFingerprint`
the `directory` value of `versions_for`, over the tables they read. PostgreSQL's order of texts,
its `lower` and the two digests are parameters (`Sql`). The caches of a few seconds are left out.
-/

namespace ManagedDirectory.Sync

open Codec Lib
open Updates (Python Raised isHexDigit)

/-! ## Tables -/

structure Uuid where
  text : Text
  nonempty : text ≠ []
  form : (text.all fun c => isHexDigit c || c = '-'.toNat) = true
  deriving DecidableEq

inductive Platform where
  | windows
  | android
  deriving DecidableEq, Repr

/-- A row of `managed_devices`. -/
structure DirectoryDevice where
  id : Uuid
  rustdeskId : Text
  hostname : Text
  friendlyName : Option Text
  /-- `encode(device_public_key, 'base64')`. -/
  publicKey : Text
  /-- `status = 'approved'`. -/
  approved : Bool
  lastSeenAt : Option Int
  platform : Platform

/-- A row of `device_credentials`. -/
structure DirectoryCredential where
  device : Uuid
  revoked : Bool
  expiresAt : Option Int

/-- A row of `device_active_sessions`. -/
structure ActiveSession where
  reporting : Uuid
  peer : Option Text
  ended : Bool
  lastHeartbeatAt : Int

structure Scan where
  depth : Nat
  quoted : Bool
  escaped : Bool
  deriving DecidableEq

def Scan.top : Scan := ⟨0, false, false⟩

def Scan.next (s : Scan) (c : Nat) : Scan :=
  if s.quoted then
    if s.escaped then { s with escaped := false }
    else if c = '\\'.toNat then { s with escaped := true }
    else if c = '"'.toNat then { s with quoted := false }
    else s
  else if c = '"'.toNat then { s with quoted := true }
  else if c = '['.toNat ∨ c = '{'.toNat then { s with depth := s.depth + 1 }
  else if c = ']'.toNat ∨ c = '}'.toNat then { s with depth := s.depth - 1 }
  else s

/-- The text ends outside strings and brackets, and has no comma there. -/
def closedFrom : Scan → Text → Bool
  | s, [] => s = .top
  | s, c :: cs => !(s = .top ∧ c = ','.toNat : Bool) && closedFrom (s.next c) cs

/-- A row of `directory_settings`. -/
structure DirectorySetting where
  key : Text
  /-- `setting_value::text`, the text of one JSON value. -/
  value : Text
  closed : closedFrom .top value = true

/-- The tables; devices in the order of their ids and settings in the order of their keys, sessions
as a scan finds them. -/
structure DirectoryDb where
  instanceId : Uuid
  devices : List DirectoryDevice
  credentials : List DirectoryCredential
  sessions : List ActiveSession
  settings : List DirectorySetting
  ids : (devices.map DirectoryDevice.id).Nodup
  rustdeskIds : (devices.map DirectoryDevice.rustdeskId).Nodup

structure Sql where
  python : Python
  lower : Text → Text
  le : Text → Text → Bool
  /-- `md5(text)`, in hexadecimal. -/
  md5 : Text → Text
  md5_hex : ∀ text, (md5 text).all isHexDigit = true

namespace DirectoryDb

variable (sql : Sql) (db : DirectoryDb) (now : Int)

/-! ## Settings -/

/-- The value of a setting as `psycopg` loads it. -/
def settingValue (key : String) : Option Json :=
  (db.settings.find? fun s => s.key = codePoints key).bind fun s =>
    (parseJson (pythonJson sql.python.depth) s.value).toOption

/-- `_get_int_directory_setting`. -/
def getIntDirectorySetting (key : String) (fallback : Int) : Except Raised Int :=
  match (db.settingValue sql key).map sql.python.int with
  | none => .ok fallback
  | some (.ok n) => .ok n
  | some (.error .type) => .ok fallback
  | some (.error .value) => .ok fallback
  | some (.error e) => .error e

/-- `heartbeat_seconds`: an exception leaves the default. -/
def heartbeatSeconds : Int :=
  match db.getIntDirectorySetting sql "connection.heartbeat_seconds" 15 with
  | .ok n => min (max n 10) 120
  | .error _ => 15

def presenceTimeoutSeconds : Int := max 45 (3 * db.heartbeatSeconds sql)

/-- Not before this a device or a session counts as there; times are in microseconds. -/
def cutoff : Int := now - db.presenceTimeoutSeconds sql * 1000000

/-- `str(value).strip().strip('"').lower()`. -/
def modeText (value : Json) : Text :=
  let U := sql.python.unicode
  let quote (c : Nat) : Bool := c = '"'.toNat
  let stripped := U.strip (U.str value)
  U.lower ((stripped.dropWhile quote).reverse.dropWhile quote).reverse

def modeSetting (key : String) (modes : List String) (default : String) : String :=
  match db.settingValue sql key with
  | some value => (modes.find? fun m => codePoints m = modeText sql value).getD default
  | none => default

/-- `_get_peer_auth_mode`. -/
def peerAuthMode : String := db.modeSetting sql "peer_auth.mode" ["off", "log", "enforce"] "log"

/-- `_get_relay_webrtc`. -/
def relayWebrtc : String × Text :=
  (db.modeSetting sql "relay.webrtc" ["off", "test", "on"] "off",
    match db.settingValue sql "relay.webrtc_test_ids" with
    | some (.str ids) => ids
    | _ => [])

def deviceWebrtc (rustdeskId : Text) : Bool :=
  let (mode, testIds) := db.relayWebrtc sql
  mode = "on" ||
    (mode = "test" && (((testIds.splitOn ','.toNat).map sql.python.unicode.strip).filter
      (· ≠ [])).contains rustdeskId)

/-- `client_settings(cursor).get("client.directory_refresh_seconds", 300)`. -/
def refreshSeconds : Json :=
  (db.settingValue sql "client.directory_refresh_seconds").getD (.int false 300)

/-! ## Devices and sessions -/

def online (d : DirectoryDevice) : Bool := d.lastSeenAt.any fun seen => db.cutoff sql now ≤ seen

/-- `btrim(text)`. -/
def btrim (text : Text) : Text :=
  ((text.dropWhile (· = ' '.toNat)).reverse.dropWhile (· = ' '.toNat)).reverse

def displayName (d : DirectoryDevice) : Text :=
  match d.friendlyName.map btrim with
  | some name => if name = [] then d.hostname else name
  | none => d.hostname

/-- `approved_device_directory`; a device has at most one credential that is not revoked. -/
def approvedDeviceDirectory : List DirectoryDevice :=
  db.devices.filter fun d => d.approved && db.credentials.any fun c =>
    c.device = d.id && !c.revoked && c.expiresAt.all fun expiry => decide (now < expiry)

def activeSessions : List ActiveSession :=
  db.sessions.filter fun s => !s.ended && decide (db.cutoff sql now ≤ s.lastHeartbeatAt)

def deviceOf (id : Uuid) : Option DirectoryDevice := db.devices.find? fun d => d.id = id

def deviceOfRustdeskId (rustdeskId : Option Text) : Option DirectoryDevice :=
  rustdeskId.bind fun rid => db.devices.find? fun d => d.rustdeskId = rid

/-- `COALESCE(friendly_name, hostname, 'Unknown peer')`. -/
def peerName (d : Option DirectoryDevice) : Text :=
  match d with
  | some d => d.friendlyName.getD d.hostname
  | none => codePoints "Unknown peer"

def sessionPeers : List (Uuid × Text) :=
  (db.activeSessions sql now).map
      (fun s => (s.reporting, peerName (db.deviceOfRustdeskId s.peer))) ++
    (db.activeSessions sql now).filterMap fun s =>
      match db.deviceOf s.reporting, db.deviceOfRustdeskId s.peer with
      | some reporting, some peer => some (peer.id, peerName (some reporting))
      | _, _ => none

/-- `active_peer_by_device.get(id)`: the first row of a device counts. -/
def activeSessionPeer (id : Uuid) : Option Text :=
  ((db.sessionPeers sql now).find? fun p => p.1 = id).map Prod.snd

def onlineClients : Nat := db.devices.countP fun d => d.approved && db.online sql now d

def activeSessionCount : Nat :=
  (db.activeSessions sql now).countP fun s => (db.deviceOf s.reporting).any (·.approved)

end DirectoryDb

/-! ## `GET /v1/directory` -/

structure DirectoryEntry where
  id : Uuid
  rustdeskId : Text
  displayName : Text
  hostname : Text
  lastSeenAt : Option Int
  publicKey : Text
  platform : Platform
  online : Bool
  activeSessionPeer : Option Text

structure DirectoryPayload where
  instanceId : Uuid
  generatedAt : Int
  refreshSeconds : Json
  devices : List DirectoryEntry
  onlineClients : Nat
  activeSessions : Nat
  peerAuthMode : String
  relayFallbackDelayMs : Int
  webrtc : Bool
  selfActiveSessionPeer : Option Text

def directoryEntry (sql : Sql) (db : DirectoryDb) (now : Int) (d : DirectoryDevice) :
    DirectoryEntry where
  id := d.id
  rustdeskId := d.rustdeskId
  displayName := DirectoryDb.displayName d
  hostname := d.hostname
  lastSeenAt := d.lastSeenAt
  publicKey := d.publicKey
  platform := d.platform
  online := db.online sql now d
  activeSessionPeer := db.activeSessionPeer sql now d.id

/-- `ORDER BY LOWER(display_name), rustdesk_id`. -/
def Sql.entryLe (sql : Sql) (a b : DirectoryEntry) : Bool :=
  if sql.le (sql.lower a.displayName) (sql.lower b.displayName) then
    !sql.le (sql.lower b.displayName) (sql.lower a.displayName) || sql.le a.rustdeskId b.rustdeskId
  else false

/-- `approved_directory`; a device that is not in the directory is refused before. -/
def approvedDirectory (sql : Sql) (db : DirectoryDb) (now : Int) (device : Uuid) :
    Option DirectoryPayload :=
  match (db.approvedDeviceDirectory now).find? (fun d => d.id = device),
      db.getIntDirectorySetting sql "connection.relay_fallback_delay_ms" 1500 with
  | some self, .ok delay =>
    some {
      instanceId := db.instanceId
      generatedAt := now
      refreshSeconds := db.refreshSeconds sql
      devices := (((db.approvedDeviceDirectory now).filter fun d => d.id ≠ device).map
        (directoryEntry sql db now)).mergeSort sql.entryLe
      onlineClients := db.onlineClients sql now
      activeSessions := db.activeSessionCount sql now
      peerAuthMode := db.peerAuthMode sql
      relayFallbackDelayMs := delay
      webrtc := db.deviceWebrtc sql self.rustdeskId
      selfActiveSessionPeer := db.activeSessionPeer sql now device }
  | _, _ => none

/-! ## `directory_etag` -/

/-- A device for the `ETag`, where `last_seen_at` is left out of one that is online. -/
structure StableEntry where
  id : Uuid
  rustdeskId : Text
  displayName : Text
  hostname : Text
  lastSeenAt : Option (Option Int)
  publicKey : Text
  platform : Platform
  online : Bool
  activeSessionPeer : Option Text

def DirectoryEntry.stable (e : DirectoryEntry) : StableEntry where
  id := e.id
  rustdeskId := e.rustdeskId
  displayName := e.displayName
  hostname := e.hostname
  lastSeenAt := if e.online then none else some e.lastSeenAt
  publicKey := e.publicKey
  platform := e.platform
  online := e.online
  activeSessionPeer := e.activeSessionPeer

/-- The payload without `generated_at`. -/
structure StablePayload where
  instanceId : Uuid
  refreshSeconds : Json
  devices : List StableEntry
  onlineClients : Nat
  activeSessions : Nat
  peerAuthMode : String
  relayFallbackDelayMs : Int
  webrtc : Bool
  selfActiveSessionPeer : Option Text

def DirectoryPayload.stable (p : DirectoryPayload) : StablePayload where
  instanceId := p.instanceId
  refreshSeconds := p.refreshSeconds
  devices := p.devices.map DirectoryEntry.stable
  onlineClients := p.onlineClients
  activeSessions := p.activeSessions
  peerAuthMode := p.peerAuthMode
  relayFallbackDelayMs := p.relayFallbackDelayMs
  webrtc := p.webrtc
  selfActiveSessionPeer := p.selfActiveSessionPeer

/-- `directory_etag`, with the digest of what is left. -/
def directoryEtag (digest : StablePayload → Text) (p : DirectoryPayload) : Text := digest p.stable

/-! ## `_directory_fingerprint` -/

structure CoveredRow where
  id : Uuid
  rustdeskId : Text
  displayName : Text
  hostname : Text
  publicKey : Text
  online : Bool

def coveredRow (sql : Sql) (db : DirectoryDb) (now : Int) (d : DirectoryDevice) : CoveredRow :=
  ⟨d.id, d.rustdeskId, DirectoryDb.displayName d, d.hostname, d.publicKey, db.online sql now d⟩

structure Covered where
  rows : List CoveredRow
  sessions : List (Uuid × Option Text)
  settings : List (Text × Text)

/-- `ORDER BY s.reporting_device_id, s.peer_rustdesk_id`, where NULL comes last. -/
def Sql.sessionLe (sql : Sql) (a b : Uuid × Option Text) : Bool :=
  if a.1 = b.1 then
    match a.2, b.2 with
    | some a, some b => sql.le a b
    | some _, none => true
    | none, some _ => false
    | none, none => true
  else decide (a.1.text < b.1.text)

def covered (sql : Sql) (db : DirectoryDb) (now : Int) : Covered where
  rows := (db.approvedDeviceDirectory now).map (coveredRow sql db now)
  sessions := ((db.activeSessions sql now).map fun s => (s.reporting, s.peer)).mergeSort
    sql.sessionLe
  settings := db.settings.map fun s => (s.key, s.value)

/-- The text of a `boolean`. -/
def boolText : Bool → Text
  | true => codePoints "t"
  | false => codePoints "f"

def CoveredRow.text (sql : Sql) (r : CoveredRow) : Text :=
  joined ','.toNat [r.id.text, r.rustdeskId, r.displayName, r.hostname, sql.md5 r.publicKey,
    boolText r.online]

/-- `concat_ws` leaves NULL out. -/
def sessionText (s : Uuid × Option Text) : Text := joined ','.toNat (s.1.text :: s.2.toList)

def settingText (s : Text × Text) : Text := s.1 ++ '='.toNat :: s.2

def Covered.text (sql : Sql) (c : Covered) : Text :=
  joined '|'.toNat (c.rows.map (CoveredRow.text sql)) ++ '#'.toNat ::
    (joined '|'.toNat (c.sessions.map sessionText) ++ '#'.toNat ::
      joined ','.toNat (c.settings.map settingText))

/-- `_directory_fingerprint`. -/
def directoryFingerprint (sql : Sql) (db : DirectoryDb) (now : Int) : Text :=
  (sql.md5 ((covered sql db now).text sql)).take 12

end ManagedDirectory.Sync
