import ManagedDirectory.Rds.Transactions
import ManagedDirectory.Sealed.Address
import ManagedDirectory.Sealed.Envelope

/-!
# Sealed transport: the gate for inspected networks

`gate` decides whether a call that reports a TLS interceptor is served, and keeps the books about
networks and about the devices seen on them. `gate_served` lists what must be true for a call that
came without an edge certificate to pass while certificates are required.
-/

namespace ManagedDirectory.Sealed

open Codec Lib
open Rds (Issuer ManagedDevice Credential Record validateDeviceCredential)

/-! ## The tables -/

inductive NetworkStatus where
  | pending
  | approved
  | denied
  deriving DecidableEq, Repr

/-- A row of `inspection_networks`. -/
structure Network where
  id : String
  cidr : Cidr
  status : NetworkStatus
  issuer : Option Text
  subject : Option Text
  caKeyId : Option Text
  country : Option Text
  lastSeenAt : Int
  bootstrapRequests : Nat

/-- `managed_devices.inspected_network_policy`. -/
inductive Policy where
  | auto
  | strict
  deriving DecidableEq, Repr

inductive Reason where
  | edgeCertificateRequired
  | unauthenticated
  | bootstrap
  | denied
  | deviceStrict
  | approved
  | unreviewedEdgeCertRequired
  | allowed
  | noEdgeCert
  deriving DecidableEq, Repr

def Reason.text : Reason → String
  | .edgeCertificateRequired => "edge_certificate_required"
  | .unauthenticated => "unauthenticated"
  | .bootstrap => "bootstrap"
  | .denied => "denied"
  | .deviceStrict => "device_strict"
  | .approved => "approved"
  | .unreviewedEdgeCertRequired => "unreviewed_edge_cert_required"
  | .allowed => "allowed"
  | .noEdgeCert => "no_edge_cert"

/-- A row of `inspection_observations`. -/
structure Observation where
  networkId : String
  deviceId : String
  egressIp : Text
  issuer : Option Text
  caKeyId : Option Text
  lastSeenAt : Int
  requestCount : Nat
  lastDecision : Reason
  lastAlertAt : Option Int

inductive CertKind where
  | device
  | browser
  | mobile
  deriving DecidableEq, Repr

/-- A row of `edge_client_certs`. -/
structure EdgeClientCert where
  deviceId : Option String
  kind : CertKind
  revokedAt : Option Int
  expiresAt : Int
  deriving DecidableEq

/-- A row of `sealed_replay`; its time is in seconds. -/
structure ReplaySlot where
  ephHash : Bytes
  seenAt : ℚ
  deriving DecidableEq

/-- The tables the sealed transport reads or writes; times of the others are microseconds. -/
structure Database where
  records : String → Record
  policies : String → Policy
  inspectedAt : String → Option Int
  edgeClientCerts : List EdgeClientCert
  networks : List Network
  observations : List Observation
  replay : List ReplaySlot

/-- `SELECT 1 FROM edge_client_certs …`: an active certificate of the device. -/
def Database.holdsEdgeCert (db : Database) (did : String) (now : Int) : Bool :=
  db.edgeClientCerts.any fun c =>
    c.deviceId == some did && c.kind == .device && c.revokedAt.isNone && now < c.expiresAt

def Database.policy (db : Database) (did : String) : Policy :=
  if (db.records did).row.isSome then db.policies did else .auto

/-! ## One report -/

structure Query where
  path : Text
  token : Option Text
  ip : Text
  country : Option Text
  info : Info
  opsUrl : Text
  edgeCertVerified : Bool

inductive Action where
  | classify (networkId : String) (device : Option String) (info : Info) (opsUrl : Text)
  | alert (networkId device : String) (info : Info) (opsUrl : Text) (reason : Reason)

structure Decision where
  allowed : Bool
  reason : Reason
  actions : List Action

inductive GateFailure where
  | valueError
  | exception
  deriving DecidableEq, Repr

def bootstrapPrefixes : List String :=
  ["/v1/enrollment/", "/v1/device/edge-cert", "/v1/peer-auth/ca"]

def isBootstrap (path : Text) : Bool := bootstrapPrefixes.any fun start => startsWith path start

/-- What psycopg says to a text: a lone surrogate has no encoding, PostgreSQL has no NUL. -/
def checkSqlText (text : Option Text) : Except GateFailure Unit := do
  refuseIf (text.any fun t => t.any fun c => 0xD800 ≤ c && c < 0xE000) .valueError
  refuseIf (text.any fun t => t.contains 0) .exception

def checkSqlTexts (texts : List (Option Text)) : Except GateFailure Unit := texts.forM checkSqlText

def tokenDevice (I : Issuer) (db : Database) (now : Int) (token : Option Text) :
    Option (ManagedDevice × Credential) := do
  let text ← token.filter (· ≠ [])
  let credential ← ofCodePoints text
  (validateDeviceCredential I db.records now credential).toOption

def newNetwork (newId : String) (q : Query) (address : Address) (now : Int) : Network :=
  ⟨newId, address.single, .pending, q.info.issuer, q.info.subject, q.info.caKeyId, q.country, now,
    0⟩

def Network.note (info : Info) (now : Int) (n : Network) : Network :=
  { n with
    lastSeenAt := now
    issuer := info.issuer.or n.issuer
    subject := info.subject.or n.subject
    caKeyId := info.caKeyId.or n.caKeyId }

def Network.countBootstrap (n : Network) : Network :=
  { n with bootstrapRequests := n.bootstrapRequests + 1 }

def Database.updateNetwork (db : Database) (id : String) (f : Network → Network) : Database :=
  { db with networks := db.networks.map fun n => if n.id = id then f n else n }

/-- The entry for the address as it was before the report, whether it is new, and the tables with
the report in it. -/
def noteNetwork (newId : String) (q : Query) (address : Address) (now : Int) (db : Database) :
    Except GateFailure (Network × Bool × Database) := do
  checkSqlTexts [q.info.issuer, q.info.subject, q.info.caKeyId]
  match mostSpecific Network.cidr db.networks address with
  | none =>
    checkSqlText q.country
    let network := newNetwork newId q address now
    pure (network, true, { db with networks := db.networks ++ [network] })
  | some network => pure (network, false, db.updateNetwork network.id (Network.note q.info now))

def decideDevice (requireEdgeCert verified bootstrap : Bool) (status : NetworkStatus)
    (policy : Policy) (holdsCert : Bool) : Bool × Reason :=
  if status = .denied then (false, .denied)
  else if policy = .strict then (false, .deviceStrict)
  else if status = .approved then
    -- an interceptor strips the client certificate, so the device must at least hold one
    if requireEdgeCert && !verified && !holdsCert then (false, .noEdgeCert) else (true, .approved)
  else if bootstrap then (true, .bootstrap)
  else if requireEdgeCert && !verified then (false, .unreviewedEdgeCertRequired)
  else (true, .allowed)

def alertRepeat : Int := 24 * 3600 * 1000000

def Observation.isFor (networkId deviceId : String) (o : Observation) : Bool :=
  o.networkId == networkId && o.deviceId == deviceId

/-- `INSERT INTO inspection_observations … ON CONFLICT DO UPDATE`, and `last_alert_at = now()` if
someone is told. -/
def Database.observe (db : Database) (networkId did : String) (q : Query) (reason : Reason)
    (now : Int) (told : Bool) : Database :=
  let alertAt (last : Option Int) := if told then some now else last
  if db.observations.any (Observation.isFor networkId did) then
    { db with
      observations := db.observations.map fun o =>
        if o.isFor networkId did then
          { o with
            egressIp := q.ip
            issuer := q.info.issuer.or o.issuer
            caKeyId := q.info.caKeyId.or o.caKeyId
            lastSeenAt := now
            requestCount := o.requestCount + 1
            lastDecision := reason
            lastAlertAt := alertAt o.lastAlertAt }
        else o }
  else
    { db with
      observations := db.observations ++
        [⟨networkId, did, q.ip, q.info.issuer, q.info.caKeyId, now, 1, reason, alertAt none⟩] }

/-- Whether an alert is due: a device on a network for the first time, or a refusal, at most once a
day. -/
def Database.alertDue (db : Database) (networkId did : String) (allowed : Bool) (now : Int) :
    Bool :=
  match db.observations.find? (Observation.isFor networkId did) with
  | none => true
  | some o => !allowed && o.lastAlertAt.all fun last => alertRepeat < now - last

def gateDevice (requireEdgeCert : Bool) (q : Query) (now : Int) (network : Network) (isNew : Bool)
    (did : String) (db : Database) : Decision × Database :=
  let (allowed, reason) := decideDevice requireEdgeCert q.edgeCertVerified (isBootstrap q.path)
    network.status (db.policy did) (db.holdsEdgeCert did now)
  let due := db.alertDue network.id did allowed now
  let actions :=
    if isNew then [Action.classify network.id (some did) q.info q.opsUrl]
    else if due then [Action.alert network.id did q.info q.opsUrl reason]
    else []
  let db := db.observe network.id did q reason now (isNew || due)
  (⟨allowed, reason, actions⟩,
    { db with inspectedAt := fun x => if x = did then some now else db.inspectedAt x })

/-- The gate for a call that is put on record: that of a device, or a bootstrap call. -/
def gateKnown (requireEdgeCert : Bool) (newId : String) (now : Int) (q : Query)
    (device : Option (ManagedDevice × Credential)) (db : Database) :
    Except GateFailure (Decision × Database) := do
  let address ← orRefuse (ipAddress q.ip) .valueError
  refuseIf address.zoned .exception
  let (network, isNew, db) ← noteNetwork newId q address now db
  match device with
  | none =>
    let actions := if isNew then [Action.classify network.id none q.info q.opsUrl] else []
    pure (⟨true, .bootstrap, actions⟩, db.updateNetwork network.id Network.countBootstrap)
  | some (d, _) => pure (gateDevice requireEdgeCert q now network isNew d.id db)

/-- `_gate`. -/
def gate (I : Issuer) (requireEdgeCert : Bool) (newId : String) (now : Int) (q : Query)
    (db : Database) : Except GateFailure (Decision × Database) :=
  match tokenDevice I db now q.token, isBootstrap q.path with
  | none, false =>
    if requireEdgeCert && !q.edgeCertVerified then .ok (⟨false, .edgeCertificateRequired, []⟩, db)
    else .ok (⟨true, .unauthenticated, []⟩, db)
  | device, _ => gateKnown requireEdgeCert newId now q device db

/-! ## The gate and the replay slots -/

def Database.withSlots (db : Database) (slots : List ReplaySlot) : Database :=
  { db with replay := slots }

section Slots

variable {newId : String} {now : Int} {q : Query} {db : Database}

theorem noteNetwork_withSlots {address : Address} (slots : List ReplaySlot) :
    noteNetwork newId q address now (db.withSlots slots) =
      (noteNetwork newId q address now db).map fun x => (x.1, x.2.1, x.2.2.withSlots slots) := by
  unfold noteNetwork
  cases checkSqlTexts [q.info.issuer, q.info.subject, q.info.caKeyId] with
  | error failure => rfl
  | ok _ =>
    change (match mostSpecific Network.cidr db.networks address with | none => _ | some _ => _) =
      Except.map _ (match mostSpecific Network.cidr db.networks address with
        | none => _ | some _ => _)
    cases mostSpecific Network.cidr db.networks address with
    | some network => rfl
    | none => cases checkSqlText q.country <;> rfl

theorem observe_withSlots {networkId did : String} {reason : Reason} {told : Bool}
    (slots : List ReplaySlot) :
    (db.withSlots slots).observe networkId did q reason now told =
      (db.observe networkId did q reason now told).withSlots slots := by
  unfold Database.observe Database.withSlots
  split_ifs <;> rfl

theorem gateDevice_withSlots {requireEdgeCert isNew : Bool} {network : Network} {did : String}
    (slots : List ReplaySlot) :
    gateDevice requireEdgeCert q now network isNew did (db.withSlots slots) =
      ((gateDevice requireEdgeCert q now network isNew did db).1,
        (gateDevice requireEdgeCert q now network isNew did db).2.withSlots slots) := by
  have hpolicy : (db.withSlots slots).policy did = db.policy did := rfl
  have hcert : (db.withSlots slots).holdsEdgeCert did now = db.holdsEdgeCert did now := rfl
  have hdue : ∀ allowed, (db.withSlots slots).alertDue network.id did allowed now =
      db.alertDue network.id did allowed now := fun _ => rfl
  simp only [gateDevice, hpolicy, hcert, hdue, observe_withSlots]
  rfl

theorem gateKnown_withSlots {requireEdgeCert : Bool} {device : Option (ManagedDevice × Credential)}
    (slots : List ReplaySlot) :
    gateKnown requireEdgeCert newId now q device (db.withSlots slots) =
      (gateKnown requireEdgeCert newId now q device db).map
        fun x => (x.1, x.2.withSlots slots) := by
  unfold gateKnown
  rw [map_bind]
  refine bind_congr fun address => ?_
  rw [map_bind]
  refine bind_congr fun _ => ?_
  rw [map_bind, noteNetwork_withSlots]
  cases noteNetwork newId q address now db with
  | error failure => rfl
  | ok noted =>
    cases device with
    | none => rfl
    | some found => exact congrArg Except.ok (gateDevice_withSlots slots)

theorem gate_withSlots {I : Issuer} {requireEdgeCert : Bool} (slots : List ReplaySlot) :
    gate I requireEdgeCert newId now q (db.withSlots slots) =
      (gate I requireEdgeCert newId now q db).map fun x => (x.1, x.2.withSlots slots) := by
  have htoken : tokenDevice I (db.withSlots slots) now q.token = tokenDevice I db now q.token := rfl
  unfold gate
  rw [htoken]
  split
  · split_ifs <;> rfl
  · exact gateKnown_withSlots slots

end Slots

/-! ## Who passes without an edge certificate -/

section Served

variable {I : Issuer} {newId : String} {now : Int} {q : Query} {db db' : Database} {d : Decision}

theorem decideDevice_served {status : NetworkStatus} {policy : Policy} {holdsCert : Bool}
    (h : (decideDevice true false false status policy holdsCert).1 = true) :
    status = .approved ∧ policy ≠ .strict ∧ holdsCert = true := by
  cases status <;> cases policy <;> cases holdsCert <;> simp_all [decideDevice]

theorem noteNetwork_ok {address : Address} {network : Network} {isNew : Bool}
    (h : noteNetwork newId q address now db = .ok (network, isNew, db')) :
    (mostSpecific Network.cidr db.networks address = some network ∨ network.status = .pending) ∧
      db'.records = db.records ∧ db'.policies = db.policies ∧
      db'.edgeClientCerts = db.edgeClientCerts := by
  simp only [noteNetwork, bind_ok_iff, exists_unit] at h
  obtain ⟨-, h⟩ := h
  split at h
  · simp only [bind_ok_iff, exists_unit, pure_ok_iff] at h
    obtain ⟨-, h⟩ := h
    cases h
    exact ⟨.inr rfl, rfl, rfl, rfl⟩
  · rename_i hfound
    cases h
    exact ⟨.inl hfound, rfl, rfl, rfl⟩

/-- What a call must show to pass the gate without a verified edge certificate. -/
structure Admitted (I : Issuer) (now : Int) (q : Query) (db : Database) : Prop where
  device : ∃ d c, tokenDevice I db now q.token = some (d, c) ∧ db.policy d.id ≠ .strict ∧
    db.holdsEdgeCert d.id now = true
  network : ∃ address n, ipAddress q.ip = some address ∧
    MostSpecific Network.cidr db.networks address n ∧ n.status = .approved

/-- **While edge certificates are required**, a call without one passes the gate only as an accepted
device with an active certificate, on an approved network, and not set to strict. -/
theorem gate_served (h : gate I true newId now q db = .ok (d, db')) (hallowed : d.allowed = true)
    (hverified : q.edgeCertVerified = false) (hpath : isBootstrap q.path = false) :
    Admitted I now q db := by
  unfold gate at h
  cases hdevice : tokenDevice I db now q.token with
  | none =>
    simp only [hdevice, hpath, hverified, Bool.not_false, Bool.and_self, if_true] at h
    cases h
    cases hallowed
  | some found =>
    obtain ⟨d', c⟩ := found
    simp only [hdevice, hpath, gateKnown, bind_ok_iff, exists_unit, orRefuse_eq_ok, Prod.exists,
      pure_ok_iff] at h
    obtain ⟨address, haddress, -, network, isNew, db₁, hnote, h⟩ := h
    obtain ⟨hfound, hrecords, hpolicies, hcerts⟩ := noteNetwork_ok hnote
    have hdecided : (decideDevice true q.edgeCertVerified (isBootstrap q.path) network.status
        (db₁.policy d'.id) (db₁.holdsEdgeCert d'.id now)).1 = true := by
      have hdecision : (gateDevice true q now network isNew d'.id db₁).1.allowed = true := by
        rw [h]
        exact hallowed
      exact hdecision
    rw [hverified, hpath] at hdecided
    obtain ⟨happroved, hpolicy, hcert⟩ := decideDevice_served hdecided
    have hsame : db₁.policy d'.id = db.policy d'.id := by
      rw [Database.policy, Database.policy, hrecords, hpolicies]
    have hsame' : db₁.holdsEdgeCert d'.id now = db.holdsEdgeCert d'.id now := by
      rw [Database.holdsEdgeCert, Database.holdsEdgeCert, hcerts]
    refine ⟨⟨d', c, hdevice, hsame ▸ hpolicy, hsame' ▸ hcert⟩, address, network, haddress, ?_,
      happroved⟩
    refine mostSpecific_spec (hfound.resolve_right fun hpending => ?_)
    rw [hpending] at happroved
    cases happroved

end Served

end ManagedDirectory.Sealed
