import ManagedDirectory.Rds.Lifecycle
import ManagedDirectory.Sealed.Gate

/-!
# Sealed transport: one call

`sealedCall` is `POST /v1/sealed` up to the inner call: open the envelope, claim its replay slot,
pass the gate or the edge certificate rule, and rebuild the headers.

`connection_facts`: what the inner call learns about the connection comes from the outer request,
and header entries outside the allowlist change nothing. `report_never_widens`: reporting an
interceptor lets a call through that is refused without the report only for a device that meets
every condition of an approved network.
-/

namespace ManagedDirectory.Sealed

open Codec Lib List
open Rds (Issuer)

/-- The outer request: the headers as ASGI has them, with names in lower case. -/
structure Outer where
  headers : Headers
  client : Option (Text × Nat)

def values (headers : Headers) (name : Text) : List Text :=
  (headers.filter fun h => h.1 == name).map Prod.snd

/-- `request.headers.get(name)`: the first value. -/
def Outer.get (o : Outer) (name : Text) : Option Text := (values o.headers name).head?

def Outer.header (o : Outer) (name : String) : Option Text := o.get (codePoints name)

def Outer.host (o : Outer) : Text := (o.header "host").getD []

/-- `request.client`, or what stands for it. -/
def Outer.clientOr (o : Outer) : Text × Nat := o.client.getD (codePoints "0.0.0.0", 0)

def Outer.edgeCertVerified (o : Outer) : Bool :=
  o.header "x-edge-client-cert-verified" == some (codePoints "true")

structure Config where
  keys : List Bytes
  requireEdgeCert : Bool
  adminPath : Text

/-- What a call reads from clocks and generators: `time.time()` at the timestamp check, `now()` of
the claim and of the gate, and the id of a new row. -/
structure Readings where
  checkedAt : ℚ
  claimedAt : ℚ
  gateAt : Int
  newNetworkId : String

structure InnerCall where
  method : Text
  target : Text
  headers : Headers
  body : Bytes
  client : Text × Nat
  baseUrl : Text
  deriving DecidableEq

inductive Outcome where
  | notConfigured
  | tooLarge
  | invalid
  | refused (status : Nat) (detail : String)
  | exception
  | executed (call : InnerCall)
  deriving DecidableEq

/-- The decision of the gate, if it was asked, and what became of the call. -/
structure Answer where
  decision : Option (Except GateFailure Decision)
  outcome : Outcome

/-! ## The replay slot -/

def Database.isFresh (db : Database) (hash : Bytes) : Bool :=
  db.replay.all fun s => s.ephHash != hash

/-- `_claim_replay_slot`: `INSERT … ON CONFLICT DO NOTHING`. -/
def Database.claim (db : Database) (hash : Bytes) (now : ℚ) : Bool × Database :=
  if db.isFresh hash then (true, db.withSlots (db.replay ++ [⟨hash, now⟩])) else (false, db)

/-! ## The inner call -/

/-- `OUTER_FORWARDED_HEADERS`. -/
def outerForwardedHeaders : List String :=
  ["x-edge-client-cert-verified", "x-edge-client-cert-fingerprint", "cf-connecting-ip",
    "cf-ipcountry", "x-forwarded-for", "x-forwarded-proto"]

def forwardedHeaders (o : Outer) : Headers :=
  outerForwardedHeaders.filterMap fun name => (o.header name).map (codePoints name, ·)

def ownHeaders (o : Outer) (inspected : Bool) : Headers :=
  [(codePoints "host", o.host), (codePoints "x-rds-sealed", codePoints "1"),
    (codePoints "x-rds-sealed-inspected", codePoints (if inspected then "1" else "0"))]

def isAscii (text : Text) : Bool := text.all (· < 128)

def baseUrl (o : Outer) : Text :=
  codePoints "https://" ++ if o.host = [] then codePoints "rds.internal" else o.host

variable (R : Runtime)

/-- The request httpx makes; it refuses a header that is not ASCII and a URL it cannot read. -/
def forward (o : Outer) (t : Target) (body : Bytes) (inspected : Bool) : Outcome :=
  let headers := t.headers ++ forwardedHeaders o ++ ownHeaders o inspected
  if headers.all (fun h => isAscii h.2) && R.urlOk (baseUrl o) t.target then
    .executed ⟨t.method, t.target, headers, body, o.clientOr, baseUrl o⟩
  else .exception

/-- `_ops_url`. -/
def opsUrl (adminPath host : Text) : Text :=
  let opsHost := if 2 ≤ host.count '.'.toNat then
      codePoints "ops." ++ (host.dropWhile (· ≠ '.'.toNat)).drop 1
    else host
  codePoints "https://" ++ opsHost ++ adminPath ++ codePoints "/#inspection"

def query (cfg : Config) (o : Outer) (t : Target) (info : Info) : Query where
  path := t.path
  token := bearer R t.headers
  ip := o.clientOr.1
  country := (o.header "cf-ipcountry").filter (· ≠ [])
  info := info
  opsUrl := opsUrl cfg.adminPath o.host
  edgeCertVerified := o.edgeCertVerified

def serveInspected (I : Issuer) (cfg : Config) (r : Readings) (o : Outer) (t : Target) (info : Info)
    (body : Bytes) (db : Database) : Answer × Database :=
  match gate I cfg.requireEdgeCert r.newNetworkId r.gateAt (query R cfg o t info) db with
  | .error .valueError =>
    (⟨some (.error .valueError), .refused 503 "inspected_network_unknown_source"⟩, db)
  | .error .exception => (⟨some (.error .exception), .exception⟩, db)
  | .ok (d, db') =>
    (⟨some (.ok d), if d.allowed then forward R o t body true
      else .refused 503 ("inspected_network_" ++ d.reason.text)⟩, db')

def servePlain (cfg : Config) (o : Outer) (t : Target) (body : Bytes) : Outcome :=
  if cfg.requireEdgeCert && !o.edgeCertVerified && !isBootstrap t.path then
    .refused 403 "edge_certificate_required"
  else forward R o t body false

def serve (I : Issuer) (cfg : Config) (r : Readings) (o : Outer) (t : Target) (info : Option Info)
    (body : Bytes) (db : Database) : Answer × Database :=
  match info with
  | some info => serveInspected R I cfg r o t info body db
  | none => (⟨none, servePlain R cfg o t body⟩, db)

def maxSealedRequest : Nat := 24 * 1024 * 1024

/-- `_read_bounded` takes the body. -/
def fitsBody (o : Outer) (blob : Bytes) : Bool :=
  blob.length ≤ maxSealedRequest &&
    (o.header "content-length").all fun declared =>
      !(declared ≠ [] && declared.all isDigit) || digitsVal declared ≤ maxSealedRequest

def callOpened (I : Issuer) (cfg : Config) (r : Readings) (o : Outer) (e : Opened)
    (db : Database) : Answer × Database :=
  match innerTarget R r.checkedAt e.metadata with
  | .error (.bad _) => (⟨none, .invalid⟩, db)
  | .error .exception => (⟨none, .exception⟩, db)
  | .ok t =>
    match db.claim (R.sha256 e.ephPub) r.claimedAt with
    | (false, db) => (⟨none, .invalid⟩, db)
    | (true, db) => serve R I cfg r o t (inspectionInfo R e.metadata) e.body db

def sealedCall (I : Issuer) (cfg : Config) (r : Readings) (o : Outer) (blob : Bytes)
    (db : Database) : Answer × Database :=
  if cfg.keys.isEmpty then (⟨none, .notConfigured⟩, db)
  else if !fitsBody o blob then (⟨none, .tooLarge⟩, db)
  else
    match openRequest R cfg.keys blob with
    | .error (.bad _) => (⟨none, .invalid⟩, db)
    | .error .exception => (⟨none, .exception⟩, db)
    | .ok e => callOpened R I cfg r o e db

variable {R}

section Runs

variable {I : Issuer} {cfg : Config} {r : Readings} {o : Outer} {blob : Bytes}
  {db db' : Database} {call : InnerCall} {t : Target} {e e' : Opened} {info : Option Info}
  {body : Bytes}

theorem callOpened_of_fresh (ht : innerTarget R r.checkedAt e.metadata = .ok t)
    (hfresh : db.isFresh (R.sha256 e.ephPub) = true) :
    callOpened R I cfg r o e db = serve R I cfg r o t (inspectionInfo R e.metadata) e.body
      (db.withSlots (db.replay ++ [⟨R.sha256 e.ephPub, r.claimedAt⟩])) := by
  simp only [callOpened, ht, Database.claim, hfresh, if_true]

theorem callOpened_of_seen (ht : innerTarget R r.checkedAt e.metadata = .ok t)
    (hseen : db.isFresh (R.sha256 e.ephPub) = false) :
    callOpened R I cfg r o e db = (⟨none, .invalid⟩, db) := by
  simp only [callOpened, ht, Database.claim, hseen, Bool.false_eq_true, if_false]

/-- **A call that is executed** asked for something RDS serves, and its slot was free. -/
theorem callOpened_executed (h : (callOpened R I cfg r o e db).1.outcome = .executed call) :
    ∃ t, innerTarget R r.checkedAt e.metadata = .ok t ∧
      db.isFresh (R.sha256 e.ephPub) = true := by
  cases ht : innerTarget R r.checkedAt e.metadata with
  | error failure =>
    rw [callOpened, ht] at h
    cases failure <;> cases h
  | ok t =>
    refine ⟨t, rfl, ?_⟩
    by_contra hseen
    rw [callOpened_of_seen ht (Bool.not_eq_true _ ▸ hseen)] at h
    cases h

theorem sealedCall_of_opened (hkeys : cfg.keys.isEmpty = false) (hfits : fitsBody o blob = true)
    (hopen : openRequest R cfg.keys blob = .ok e) :
    sealedCall R I cfg r o blob db = callOpened R I cfg r o e db := by
  simp only [sealedCall, hkeys, hfits, hopen, Bool.false_eq_true, Bool.not_true, if_false]

theorem sealedCall_executed (h : (sealedCall R I cfg r o blob db).1.outcome = .executed call) :
    ∃ e, openRequest R cfg.keys blob = .ok e ∧ cfg.keys.isEmpty = false ∧
      fitsBody o blob = true ∧ sealedCall R I cfg r o blob db = callOpened R I cfg r o e db := by
  unfold sealedCall at h
  split_ifs at h with hkeys hfits
  have hkeys' : cfg.keys.isEmpty = false := by simpa using hkeys
  have hfits' : fitsBody o blob = true := by simpa using hfits
  split at h
  · cases h
  · cases h
  · rename_i e hopen
    exact ⟨e, hopen, hkeys', hfits', sealedCall_of_opened hkeys' hfits' hopen⟩

theorem serve_executed (h : (serve R I cfg r o t info body db).1.outcome = .executed call) :
    ∃ inspected, forward R o t body inspected = .executed call := by
  unfold serve at h
  split at h
  · unfold serveInspected at h
    split at h
    · cases h
    · cases h
    · simp only at h
      split_ifs at h
      exact ⟨true, h⟩
  · unfold servePlain at h
    simp only at h
    split_ifs at h
    exact ⟨false, h⟩

/-! ## What the inner call sees of the connection -/

/-- The names that describe the connection, apart from `host`. -/
def isConnectionName (name : Text) : Bool :=
  startsWith name "cf-" || startsWith name "x-forwarded-" || startsWith name "x-edge-client-cert-"

theorem values_append (a b : Headers) (name : Text) :
    values (a ++ b) name = values a name ++ values b name := by
  simp [values]

theorem values_eq_nil {headers : Headers} {name : Text} (h : ∀ x ∈ headers, x.1 ≠ name) :
    values headers name = [] := by
  rw [values, filter_eq_nil_iff.mpr, map_nil]
  intro x hx
  simpa using h x hx

theorem not_isOneOf_of_connection {name : Text}
    (h : isConnectionName name = true ∨ name = codePoints "host") :
    isOneOf innerRequestHeaders name = false := by
  by_contra hin
  obtain ⟨allowed, hmem, heq⟩ := any_eq_true.mp (Bool.not_eq_false _ ▸ hin)
  obtain rfl := beq_iff_eq.mp heq
  have hall : ∀ allowed ∈ innerRequestHeaders, isConnectionName (codePoints allowed) = false ∧
      codePoints allowed ≠ codePoints "host" := by decide
  obtain ⟨hconn, hhost⟩ := hall allowed hmem
  rcases h with h | h
  · rw [hconn] at h
    cases h
  · exact hhost h

theorem values_target {name : Text} (hallowed : ∀ x ∈ t.headers,
      isOneOf innerRequestHeaders x.1 = true)
    (hname : isConnectionName name = true ∨ name = codePoints "host") :
    values t.headers name = [] := by
  refine values_eq_nil fun x hx heq => ?_
  have hout := not_isOneOf_of_connection hname
  rw [← heq, hallowed x hx] at hout
  cases hout

theorem values_forwarded (o : Outer) (name : Text) :
    values (forwardedHeaders o) name =
      if isOneOf outerForwardedHeaders name then (o.get name).toList else [] := by
  have hnodup : (outerForwardedHeaders.map codePoints).Nodup := by decide
  unfold forwardedHeaders isOneOf
  generalize outerForwardedHeaders = names at hnodup ⊢
  induction names with
  | nil => rfl
  | cons first rest ih =>
    rw [map_cons, nodup_cons] at hnodup
    have hrest := ih hnodup.2
    rw [filterMap_cons]
    by_cases heq : codePoints first = name
    · subst heq
      have hnone : (rest.any fun x => codePoints x == codePoints first) = false := by
        rw [Bool.eq_false_iff]
        intro hany
        obtain ⟨x, hx, hxeq⟩ := any_eq_true.mp hany
        exact hnodup.1 (mem_map.mpr ⟨x, hx, beq_iff_eq.mp hxeq⟩)
      rw [hnone] at hrest
      cases hget : o.header first with
      | none =>
        have hnil : o.get (codePoints first) = none := hget
        simpa [hnil] using hrest
      | some v =>
        have hv : o.get (codePoints first) = some v := hget
        simp only [Bool.false_eq_true, if_false, values] at hrest
        simp [values, hv, hrest]
    · cases hget : o.header first with
      | none => simpa [heq] using hrest
      | some v => simpa [values, heq] using hrest

/-- What a call sees of its connection, against the outer request. -/
structure SeesOuter (o : Outer) (call : InnerCall) : Prop where
  client : call.client = o.clientOr
  host : values call.headers (codePoints "host") = [o.host]
  connection : ∀ name, isConnectionName name = true → values call.headers name =
    if isOneOf outerForwardedHeaders name then (o.get name).toList else []

theorem forward_seesOuter {inspected : Bool} (h : forward R o t body inspected = .executed call)
    (hallowed : ∀ x ∈ t.headers, isOneOf innerRequestHeaders x.1 = true) : SeesOuter o call := by
  unfold forward at h
  simp only at h
  split_ifs at h
  cases h
  refine ⟨rfl, ?_, fun name hname => ?_⟩
  · rw [values_append, values_append, values_target hallowed (.inr rfl), values_forwarded]
    rfl
  · have hown : values (ownHeaders o inspected) name = [] := by
      refine values_eq_nil fun x hx heq => ?_
      have hnames : ∀ n ∈ ["host", "x-rds-sealed", "x-rds-sealed-inspected"],
          isConnectionName (codePoints n) = false := by decide
      simp only [ownHeaders, mem_cons, not_mem_nil, or_false] at hx
      rw [← heq] at hname
      rcases hx with rfl | rfl | rfl
      · simp [hnames "host"] at hname
      · simp [hnames "x-rds-sealed"] at hname
      · simp [hnames "x-rds-sealed-inspected"] at hname
    rw [values_append, values_append, values_target hallowed (.inl hname), values_forwarded, hown,
      nil_append, append_nil]

/-! ## Two runs -/

theorem serve_withSlots (slots : List ReplaySlot) :
    serve R I cfg r o t info body (db.withSlots slots) =
      ((serve R I cfg r o t info body db).1,
        (serve R I cfg r o t info body db).2.withSlots slots) := by
  cases info with
  | none => rfl
  | some info =>
    simp only [serve, serveInspected, gate_withSlots]
    cases gate I cfg.requireEdgeCert r.newNetworkId r.gateAt (query R cfg o t info) db with
    | error failure => cases failure <;> rfl
    | ok decided => rfl

theorem serve_replay : (serve R I cfg r o t info body db).2.replay = db.replay :=
  congrArg (fun x => x.2.replay)
    (serve_withSlots db.replay : serve R I cfg r o t info body (db.withSlots db.replay) = _)

theorem callOpened_answer (ht : innerTarget R r.checkedAt e.metadata = .ok t) :
    (callOpened R I cfg r o e db).1 =
      if db.isFresh (R.sha256 e.ephPub) then
        (serve R I cfg r o t (inspectionInfo R e.metadata) e.body db).1
      else ⟨none, .invalid⟩ := by
  cases hfresh : db.isFresh (R.sha256 e.ephPub) with
  | true => rw [callOpened_of_fresh ht hfresh, serve_withSlots, if_pos rfl]
  | false =>
    rw [callOpened_of_seen ht hfresh]
    rfl

theorem callOpened_congr (hmeta : SameMetadata R e.metadata e'.metadata) (hbody : e.body = e'.body)
    (hfresh : db.isFresh (R.sha256 e.ephPub) = db.isFresh (R.sha256 e'.ephPub)) :
    (callOpened R I cfg r o e db).1 = (callOpened R I cfg r o e' db).1 := by
  have htarget := innerTarget_congr hmeta r.checkedAt
  cases ht : innerTarget R r.checkedAt e.metadata with
  | error failure =>
    rw [callOpened, callOpened, ht, ← htarget, ht]
    cases failure <;> rfl
  | ok t =>
    rw [callOpened_answer ht, callOpened_answer (htarget ▸ ht), hfresh, inspectionInfo_congr hmeta,
      hbody]

/-! ## A sample -/

namespace CallSample

def runtime : Runtime where
  unicode := asciiUnicode
  depth := 127
  publicKey := id
  sha256 := firstBytes 32
  exchange _ point := some point
  derive _ _ := ([], [])
  decrypt _ ciphertext _ := some ciphertext
  urlOk _ _ := true

def config (requireEdgeCert : Bool) : Config :=
  ⟨[List.replicate 32 0], requireEdgeCert, codePoints "/ops"⟩

def sealText (json : Text) : Bytes :=
  reqMagic ++ List.replicate 8 0 ++ List.replicate 32 7 ++
    [0, 0, 0, UInt8.ofNat (utf8Encode json).length] ++ utf8Encode json

def envelope (time : String) : Bytes :=
  sealText (codePoints ("\x7b\"m\":\"GET\",\"p\":\"/v1/x\",\"t\":" ++ time ++ "\x7d"))

/-- The object with the members `"m":"GET"`, `"p":"/v1/x"`, `"t":0`,
`"h":[["Authorization","Bearer t"]]` and `more`. -/
def authorizedText (more : Text) : Text :=
  [123, 34, 109, 34, 58, 34, 71, 69, 84, 34, 44, 34, 112, 34, 58, 34, 47, 118, 49, 47, 120, 34,
    44, 34, 116, 34, 58, 48, 44, 34, 104, 34, 58, 91, 91, 34, 65, 117, 116, 104, 111, 114, 105,
    122, 97, 116, 105, 111, 110, 34, 44, 34, 66, 101, 97, 114, 101, 114, 32, 116, 34, 93, 93] ++
    more ++ [125]

def reportText : Text := [44, 34, 105, 34, 58, 123, 125]

def opened (report : Dict) : Opened where
  ephPub := List.replicate 32 7
  responseKey := []
  metadata := [(codePoints "m", jsonStr "GET"), (codePoints "p", jsonStr "/v1/x"),
    (codePoints "t", .int false 0),
    (codePoints "h", .arr [.arr [jsonStr "Authorization", jsonStr "Bearer t"]])] ++ report
  body := []

def claims : Rds.CredentialClaims := ⟨"d", "c1", "1", hex (List.replicate 32 1), "rds", 2, none⟩

def issuer : Issuer where
  encode c := if c = claims then "t" else ""
  decode _ text := if text = "t" then some claims else none
  decode_encode {now c c'} h := by
    by_cases hc : c = claims
    · simp only [hc, if_true, Option.some.injEq] at h
      rw [hc, h]
    · simp [hc] at h
  sha256 := firstBytes 32
  instanceId := "rds"

def database : Database where
  records did := if did = "d" then Rds.sampleApproved else .empty
  policies _ := .auto
  inspectedAt _ := none
  edgeClientCerts := [⟨some "d", .device, none, 100⟩]
  networks := [⟨"n", ⟨false, 0x0a000000, 8⟩, .approved, none, none, none, none, 0, 0⟩]
  observations := []
  replay := []

def readings : Readings := ⟨0, 0, 3, "n2"⟩

def laterReadings : Readings := ⟨1501, 1501, 3, "n2"⟩

def outer (headers : List (String × String)) : Outer :=
  ⟨headers.map fun h => (codePoints h.1, codePoints h.2), some (codePoints "10.0.0.1", 5)⟩

theorem openRequest_sealText {json : Text} {kvs : Dict} {requireEdgeCert : Bool}
    (hlen : 16 ≤ (utf8Encode json).length ∧ (utf8Encode json).length < 256)
    (hdecode : pyDecode (utf8Encode json) = some json)
    (hparse : parseJson (cpythonJson 127) json = .ok (.obj kvs)) :
    openRequest runtime (config requireEdgeCert).keys (sealText json) =
      .ok ⟨List.replicate 32 7, [], kvs, []⟩ := by
  have hloads : readMetadata runtime (utf8Encode json) = .ok kvs := by
    simp only [readMetadata, loadsIn, runtime, hdecode, hparse]
  generalize hbytes : utf8Encode json = bytes at hlen hloads
  have hfind : findKey runtime (config requireEdgeCert).keys (List.replicate 8 0) =
      some (List.replicate 32 0) := by
    cases requireEdgeCert <;> decide +kernel
  have hlast : (UInt8.ofNat bytes.length).toNat = bytes.length := by
    rw [UInt8.toNat_ofNat', Nat.mod_eq_of_lt hlen.2]
  have hblob : sealText json = reqMagic ++ (List.replicate 8 0 ++ (List.replicate 32 7 ++
      ([0, 0, 0, UInt8.ofNat bytes.length] ++ bytes))) := by
    simp only [sealText, hbytes, append_assoc]
  have hlength : (sealText json).length = 48 + bytes.length := by
    rw [hblob]
    simp [reqMagic]
    omega
  have hmagic : (sealText json).take 4 = reqMagic := by rw [hblob]; rfl
  have hid : ((sealText json).drop 4).take 8 = List.replicate 8 0 := by rw [hblob]; rfl
  have hpub : ((sealText json).drop 12).take 32 = List.replicate 32 7 := by rw [hblob]; rfl
  have hinner : (sealText json).drop headerLen = [0, 0, 0, UInt8.ofNat bytes.length] ++ bytes := by
    rw [hblob]
    rfl
  have hunpack : unpackU32 (([0, 0, 0, UInt8.ofNat bytes.length] ++ bytes).take 4) =
      some bytes.length := by
    simp [unpackU32, hlast]
  have hrefuse : ¬ ((sealText json).length < headerLen + 4 + 16 ∨
      (sealText json).take 4 ≠ reqMagic) := by
    rw [hlength, hmagic, headerLen]
    simp only [ne_eq, not_true_eq_false, or_false]
    omega
  have hmeta : (([0, 0, 0, UInt8.ofNat bytes.length] ++ bytes).drop 4).take bytes.length =
      bytes := by
    simp
  have hrest : ([0, 0, 0, UInt8.ofNat bytes.length] ++ bytes).drop (4 + bytes.length) = [] := by
    refine drop_eq_nil_of_le ?_
    simp only [length_append, length_cons, length_nil]
    omega
  simp only [openRequest, bind_ok_iff, refuseIf_eq_ok, orRefuse_eq_ok, exists_unit, pure_ok_iff,
    hid, hpub, hinner]
  refine ⟨hrefuse, _, hfind, _, rfl, _, rfl, _, hunpack, ?_, _, hmeta.symm ▸ hloads, ?_⟩
  · simp
  · rw [hrest]
    rfl

def innerCall (o : Outer) (headers : Headers) (inspected : Bool) : InnerCall where
  method := codePoints "GET"
  target := codePoints "/v1/x"
  headers := headers ++ forwardedHeaders o ++ ownHeaders o inspected
  body := []
  client := (codePoints "10.0.0.1", 5)
  baseUrl := baseUrl o

end CallSample

/-- Two envelopes that differ only in header entries outside the allowlist. -/
structure SameEnvelope (R : Runtime) (e e' : Opened) : Prop where
  metadata : SameMetadata R e.metadata e'.metadata
  body : e.body = e'.body

theorem sealedCall_congr {blob' : Bytes} (hopen : openRequest R cfg.keys blob = .ok e)
    (hopen' : openRequest R cfg.keys blob' = .ok e') (hsame : SameEnvelope R e e')
    (hfits : fitsBody o blob = fitsBody o blob')
    (hfresh : db.isFresh (R.sha256 e.ephPub) = db.isFresh (R.sha256 e'.ephPub)) :
    (sealedCall R I cfg r o blob db).1 = (sealedCall R I cfg r o blob' db).1 := by
  by_cases hkeys : cfg.keys.isEmpty = true
  · rw [sealedCall, sealedCall, if_pos hkeys, if_pos hkeys]
  · have hkeys' : cfg.keys.isEmpty = false := by simpa using hkeys
    by_cases hok : fitsBody o blob = true
    · rw [sealedCall_of_opened hkeys' hok hopen, sealedCall_of_opened hkeys' (hfits ▸ hok) hopen']
      exact callOpened_congr hsame.metadata hsame.body hfresh
    · simp [sealedCall, hkeys', ← hfits, hok]

/-- **Connection facts cannot be forged.** A call that is executed has the client, the host and the
connection headers of the outer request, each at most once; and two envelopes that differ only in
header entries outside the allowlist get one answer. -/
theorem connection_facts (R : Runtime) (I : Issuer) (cfg : Config) (r : Readings) (o : Outer)
    (db : Database) :
    (∀ blob call, (sealedCall R I cfg r o blob db).1.outcome = .executed call →
      SeesOuter o call) ∧
    ∀ blob blob' e e', openRequest R cfg.keys blob = .ok e →
      openRequest R cfg.keys blob' = .ok e' → SameEnvelope R e e' →
      fitsBody o blob = fitsBody o blob' →
      db.isFresh (R.sha256 e.ephPub) = db.isFresh (R.sha256 e'.ephPub) →
      (sealedCall R I cfg r o blob db).1 = (sealedCall R I cfg r o blob' db).1 := by
  refine ⟨fun blob call hexecuted => ?_, fun _ _ _ _ => sealedCall_congr⟩
  obtain ⟨e, -, -, -, hopened⟩ := sealedCall_executed hexecuted
  rw [hopened] at hexecuted
  obtain ⟨t, ht, hfresh⟩ := callOpened_executed hexecuted
  rw [callOpened_answer ht, if_pos hfresh] at hexecuted
  obtain ⟨inspected, hforward⟩ := serve_executed hexecuted
  exact forward_seesOuter hforward (innerTarget_allowed ht)

open CallSample in
theorem sample_connection_facts :
    (sealedCall runtime issuer (config false) readings (outer [("host", "rds")]) (envelope "0")
      database).1.outcome = .executed (innerCall (outer [("host", "rds")]) [] false) ∧
    SeesOuter (outer [("host", "rds")]) (innerCall (outer [("host", "rds")]) [] false) := by
  have hexecuted : (sealedCall runtime issuer (config false) readings (outer [("host", "rds")])
      (envelope "0") database).1.outcome =
        .executed (innerCall (outer [("host", "rds")]) [] false) := by
    decide +kernel
  exact ⟨hexecuted, (connection_facts _ _ _ _ _ _).1 _ _ hexecuted⟩

open CallSample in
/-- An outer request without a `Host` header: the inner call has an empty one. -/
theorem empty_host :
    (sealedCall runtime issuer (config false) readings (outer []) (envelope "0")
      database).1.outcome = .executed (innerCall (outer []) [] false) ∧
    values (outer []).headers (codePoints "host") = [] ∧
    values (innerCall (outer []) [] false).headers (codePoints "host") = [[]] := by
  decide +kernel

/-! ## What a report can open -/

theorem forward_report (h : forward R o t body true = .executed call) :
    ∃ call', forward R o t body false = .executed call' := by
  unfold forward at h ⊢
  have hown : (ownHeaders o true).all (fun x => isAscii x.2) =
      (ownHeaders o false).all fun x => isAscii x.2 := rfl
  simp only [all_append, hown] at h ⊢
  split_ifs at h with hok
  exact ⟨_, if_pos hok⟩

theorem callOpened_report (hcert : cfg.requireEdgeCert = true) (hbody : e.body = e'.body)
    (hsame : ∀ key, key ≠ "i" → dictGet key e.metadata = dictGet key e'.metadata)
    (hplain : inspectionInfo R e.metadata = none)
    (hslot : db.isFresh (R.sha256 e.ephPub) = db.isFresh (R.sha256 e'.ephPub))
    (hrefused : ∀ call, (callOpened R I cfg r o e db).1.outcome ≠ .executed call)
    (hexecuted : (callOpened R I cfg r o e' db).1.outcome = .executed call) :
    ∃ t info, innerTarget R r.checkedAt e'.metadata = .ok t ∧
      inspectionInfo R e'.metadata = some info ∧
      Admitted I r.gateAt (query R cfg o t info) db := by
  obtain ⟨t, ht, hfresh⟩ := callOpened_executed hexecuted
  have htarget := innerTarget_report (R := R) hsame r.checkedAt
  rw [callOpened_answer ht, if_pos hfresh, ← hbody] at hexecuted
  rw [callOpened_answer (htarget.trans ht), hslot, if_pos hfresh, hplain] at hrefused
  cases hinfo : inspectionInfo R e'.metadata with
  | none =>
    rw [hinfo] at hexecuted
    exact absurd hexecuted (hrefused call)
  | some info =>
    refine ⟨t, info, ht, rfl, ?_⟩
    rw [hinfo] at hexecuted
    simp only [serve, serveInspected, hcert] at hexecuted
    cases hgate : gate I true r.newNetworkId r.gateAt (query R cfg o t info) db with
    | error failure =>
      rw [hgate] at hexecuted
      cases failure <;> cases hexecuted
    | ok decided =>
      rw [hgate] at hexecuted
      simp only at hexecuted
      split_ifs at hexecuted with hallowed
      -- httpx takes the request, so without the report it was the certificate that was missing
      obtain ⟨call', hforward⟩ := forward_report hexecuted
      have hmissing :
          ¬ (!(cfg.requireEdgeCert && !o.edgeCertVerified && !isBootstrap t.path)) = true := by
        intro hserved
        refine hrefused call' ?_
        simp only [Bool.not_eq_true', serve, servePlain] at hserved ⊢
        rw [hserved, if_neg Bool.false_ne_true, hforward]
      simp only [hcert, Bool.true_and, Bool.not_eq_true', Bool.not_eq_false, Bool.and_eq_true]
        at hmissing
      exact gate_served hgate hallowed hmissing.1 hmissing.2

/-- An envelope without a report and one for the same call, with a report if there is one. -/
structure SameCall (R : Runtime) (e e' : Opened) : Prop where
  body : e.body = e'.body
  metadata : ∀ key, key ≠ "i" → dictGet key e.metadata = dictGet key e'.metadata
  plain : inspectionInfo R e.metadata = none

/-- **Reporting an interceptor never widens access.** While edge certificates are required, a call
that is refused without a report is executed with one only for an admitted device. -/
theorem report_never_widens {blob' : Bytes} (hcert : cfg.requireEdgeCert = true)
    (hopen : openRequest R cfg.keys blob = .ok e) (hopen' : openRequest R cfg.keys blob' = .ok e')
    (hsame : SameCall R e e') (hfits : fitsBody o blob = fitsBody o blob')
    (hslot : db.isFresh (R.sha256 e.ephPub) = db.isFresh (R.sha256 e'.ephPub))
    (hrefused : ∀ call, (sealedCall R I cfg r o blob db).1.outcome ≠ .executed call)
    (hexecuted : (sealedCall R I cfg r o blob' db).1.outcome = .executed call) :
    ∃ t info, innerTarget R r.checkedAt e'.metadata = .ok t ∧
      inspectionInfo R e'.metadata = some info ∧
      Admitted I r.gateAt (query R cfg o t info) db := by
  obtain ⟨-, -, hkeys, hok, -⟩ := sealedCall_executed hexecuted
  rw [sealedCall_of_opened hkeys hok hopen'] at hexecuted
  rw [sealedCall_of_opened hkeys (hfits.trans hok) hopen] at hrefused
  exact callOpened_report hcert hsame.body hsame.metadata hsame.plain hslot hrefused hexecuted

open CallSample in
theorem sample_report_never_widens :
    (sealedCall runtime issuer (config true) readings (outer []) (sealText (authorizedText []))
      database).1.outcome = .refused 403 "edge_certificate_required" ∧
    ∃ q, Admitted issuer 3 q database := by
  have hplain : (sealedCall runtime issuer (config true) readings (outer [])
      (sealText (authorizedText [])) database).1.outcome =
        .refused 403 "edge_certificate_required" := by
    decide +kernel
  have hexecuted : (sealedCall runtime issuer (config true) readings (outer [])
      (sealText (authorizedText reportText)) database).1.outcome =
        .executed (innerCall (outer [])
          [(codePoints "authorization", codePoints "Bearer t")] true) := by
    decide +kernel
  have hopen : openRequest runtime (config true).keys (sealText (authorizedText [])) =
      .ok (opened []) :=
    openRequest_sealText (by decide +kernel) (by decide +kernel) rfl
  have hopen' : openRequest runtime (config true).keys (sealText (authorizedText reportText)) =
      .ok (opened [(codePoints "i", .obj [])]) :=
    openRequest_sealText (by decide +kernel) (by decide +kernel) rfl
  have hsame : ∀ key, key ≠ "i" → dictGet key (opened []).metadata =
      dictGet key (opened [(codePoints "i", .obj [])]).metadata := by
    intro key hkey
    have hcode : (codePoints "i" == codePoints key) = false := by
      rw [beq_eq_false_iff_ne]
      exact fun heq => hkey (codePoints_inj heq).symm
    simp only [dictGet, opened, append_nil, reverse_cons, reverse_nil,
      nil_append, cons_append, List.find?_cons, hcode]
  have hrefused : ∀ call, (sealedCall runtime issuer (config true) readings (outer [])
      (sealText (authorizedText [])) database).1.outcome ≠ .executed call := by
    intro call h
    rw [hplain] at h
    cases h
  have hfits : fitsBody (outer []) (sealText (authorizedText [])) =
      fitsBody (outer []) (sealText (authorizedText reportText)) := by
    decide +kernel
  obtain ⟨t, info, -, -, hadmitted⟩ := report_never_widens rfl hopen hopen' ⟨rfl, hsame, rfl⟩ hfits
    (by decide +kernel) hrefused hexecuted
  exact ⟨hplain, _, hadmitted⟩

end Runs

end ManagedDirectory.Sealed
