import ManagedDirectory.Codec.PyFloat
import ManagedDirectory.Lib.Checked

/-!
# Sealed transport: envelopes

`openRequest` decrypts an envelope and reads its metadata, `innerTarget` checks what call it asks
for and `inspectionInfo` reads the client's report of an interceptor. All three are functions of the
bytes that arrived; only `innerTarget` also reads the clock. Python's `str` is a list of code
points.

`innerTarget_time` and `innerTarget_allowed` say what an accepted call went through, and
`innerTarget_congr` that header entries outside the allowlist do not matter to it.
-/

namespace ManagedDirectory.Sealed

open Codec Lib

/-- What the API runs on: the interpreter, the primitives of `cryptography`, and the URLs that
httpx takes. -/
structure Runtime where
  unicode : Unicode
  /-- The nesting `json.loads` stands. -/
  depth : Nat
  publicKey : Bytes → Bytes
  sha256 : Bytes → Bytes
  exchange : (secret point : Bytes) → Option Bytes
  derive : (shared salt : Bytes) → Bytes × Bytes
  decrypt : (key ciphertext aad : Bytes) → Option Bytes
  urlOk : (base target : Text) → Bool

inductive EnvelopeError where
  /-- `_BadEnvelope`. -/
  | bad (reason : String)
  | exception
  deriving DecidableEq, Repr

abbrev Dict := List (Text × Json)

structure Opened where
  ephPub : Bytes
  responseKey : Bytes
  metadata : Dict
  body : Bytes

def headerLen : Nat := 4 + 8 + 32

def reqMagic : Bytes := [0x52, 0x44, 0x53, 0x31]

variable (R : Runtime)

def keyId (secret : Bytes) : Bytes := (R.sha256 (R.publicKey secret)).take 8

/-- `struct.unpack(">I", …)`. -/
def unpackU32 : Bytes → Option Nat
  | [a, b, c, d] => some (((a.toNat * 256 + b.toNat) * 256 + c.toNat) * 256 + d.toNat)
  | _ => none

def findKey (keys : List Bytes) (id : Bytes) : Option Bytes :=
  keys.reverse.find? fun secret => keyId R secret == id

def readMetadata (bytes : Bytes) : Except EnvelopeError Dict :=
  match loadsIn (cpythonJson R.depth) bytes with
  | .ok (.obj kvs) => .ok kvs
  | .ok _ => .error (.bad "meta type")
  | .error .malformed => .error (.bad "meta json")
  | .error .tooDeep => .error .exception

def openRequest (keys : List Bytes) (blob : Bytes) : Except EnvelopeError Opened := do
  refuseIf (blob.length < headerLen + 4 + 16 ∨ blob.take 4 ≠ reqMagic) (.bad "framing")
  let secret ← orRefuse (findKey R keys ((blob.drop 4).take 8)) (.bad "unknown key id")
  let ephPub := (blob.drop 12).take 32
  let shared ← orRefuse (R.exchange secret ephPub) (.bad "ephemeral key")
  let (requestKey, responseKey) := R.derive shared (ephPub ++ R.publicKey secret)
  let inner ← orRefuse (R.decrypt requestKey (blob.drop headerLen) (blob.take headerLen))
    (.bad "authentication")
  let metaLen ← orRefuse (unpackU32 (inner.take 4)) .exception
  refuseIf (inner.length - 4 < metaLen) (.bad "meta length")
  let metadata ← readMetadata R ((inner.drop 4).take metaLen)
  pure ⟨ephPub, responseKey, metadata, inner.drop (4 + metaLen)⟩

/-! ## The inner call -/

def methods : List String := ["GET", "HEAD", "POST", "PUT", "PATCH", "DELETE"]

/-- `INNER_REQUEST_HEADERS`. -/
def innerRequestHeaders : List String :=
  ["authorization", "content-type", "accept", "user-agent", "range", "upload-offset",
    "upload-length", "x-content-sha256", "if-match", "if-none-match"]

def isOneOf (names : List String) (text : Text) : Bool :=
  names.any fun name => codePoints name == text

/-- The path and the fragment of a target that starts with `/v1/`: `urlsplit` finds no scheme and no
host in it. -/
def urlsplit (target : Text) : Text × Text :=
  let main := target.takeWhile (· ≠ '#'.toNat)
  (main.takeWhile (· ≠ '?'.toNat), (target.dropWhile (· ≠ '#'.toNat)).drop 1)

def targetOk (target : Text) : Bool :=
  target.length ≤ 4096 && target ≠ [] && target.all (fun c => 0x21 ≤ c && c ≤ 0x7e) &&
    startsWith target "/v1/" && !startsWith target "/v1/sealed"

def pathOk (path : Text) : Bool :=
  !(hasPart path "//" || hasPart path "\\" || hasPart path "%" || hasPart path "/./" ||
    hasPart path "/../" || endsWith path "/." || endsWith path "/..")

def clockSkewSeconds : ℚ := 600

def truthy : Json → Bool
  | .null => false
  | .bool b => b
  | .int _ n => n ≠ 0
  | .float _ m _ => m ≠ 0
  | .special _ => true
  | .str s => s ≠ []
  | .arr xs => !xs.isEmpty
  | .obj kvs => !kvs.isEmpty

/-- `meta.get("h") or []`, if it is a list of at most 32. -/
def rawHeaders (value : Option Json) : Except EnvelopeError (List Json) :=
  match value.filter truthy with
  | none => .ok []
  | some (.arr xs) => if 32 < xs.length then .error (.bad "headers") else .ok xs
  | some _ => .error (.bad "headers")

abbrev Headers := List (Text × Text)

def headerName (name : Json) : Text := R.unicode.lower (R.unicode.str name)

def headerValueOk (value : Text) : Bool :=
  value.length ≤ 8192 && !value.contains '\r'.toNat && !value.contains '\n'.toNat

/-- One entry: nothing if its name is not in the allowlist, whatever its value is. -/
def headerEntry : Json → Except EnvelopeError (Option (Text × Text))
  | .arr [name, value] =>
    if isOneOf innerRequestHeaders (headerName R name) then do
      refuseIf (!headerValueOk (R.unicode.str value)) (.bad "header value")
      pure (some (headerName R name, R.unicode.str value))
    else .ok none
  | _ => .error (.bad "header pair")

def innerHeaders : List Json → Except EnvelopeError Headers
  | [] => .ok []
  | entry :: rest => do
    let header ← headerEntry R entry
    let headers ← innerHeaders rest
    pure (header.toList ++ headers)

def metadataHeaders (metadata : Dict) : Except EnvelopeError Headers := do
  let raw ← rawHeaders (dictGet "h" metadata)
  innerHeaders R raw

structure Target where
  method : Text
  target : Text
  headers : Headers
  deriving DecidableEq

def Target.path (t : Target) : Text := (urlsplit t.target).1

/-- `inner_target` at the time `now`. -/
def innerTarget (now : ℚ) (metadata : Dict) : Except EnvelopeError Target := do
  let method := R.unicode.upper (R.unicode.str ((dictGet "m" metadata).getD (jsonStr "")))
  let target := R.unicode.str ((dictGet "p" metadata).getD (jsonStr ""))
  refuseIf (!isOneOf methods method) (.bad "method")
  refuseIf (!targetOk target) (.bad "target")
  refuseIf ((urlsplit target).2 ≠ []) (.bad "target form")
  refuseIf (!pathOk (urlsplit target).1) (.bad "target path")
  refuseIf (floatOverflows (dictGet "t" metadata)) .exception
  let sentAt ← orRefuse (R.unicode.float (dictGet "t" metadata)) (.bad "timestamp")
  refuseIf (PyFloat.far now sentAt clockSkewSeconds) (.bad "clock skew")
  let headers ← metadataHeaders R metadata
  pure ⟨method, target, headers⟩

/-- `_bearer`: the token of the first `Bearer` authorization. -/
def bearer (headers : Headers) : Option Text :=
  (headers.find? fun h => h.1 == codePoints "authorization" &&
    R.unicode.lower (h.2.take 7) == codePoints "bearer ").map fun h => R.unicode.strip (h.2.drop 7)

structure Info where
  issuer : Option Text
  subject : Option Text
  caKeyId : Option Text
  leafSha256 : Option Text
  deriving DecidableEq

/-- A text of the report: nothing for `None` and the empty text. -/
def infoText (info : Dict) (key : String) (limit : Nat) : Option Text :=
  match dictGet key info with
  | none => none
  | some .null => none
  | some (.str []) => none
  | some value => some ((R.unicode.str value).take limit)

def inspectionInfo (metadata : Dict) : Option Info :=
  match dictGet "i" metadata with
  | some (.obj info) =>
    some ⟨infoText R info "issuer" 512, infoText R info "subject" 512,
      infoText R info "ca_key_id" 128, infoText R info "leaf_sha256" 64⟩
  | _ => none

/-! ## What an accepted call went through -/

variable {R}

theorem innerTarget_time {now : ℚ} {metadata : Dict} {t : Target}
    (h : innerTarget R now metadata = .ok t) :
    ∃ sent, R.unicode.float (dictGet "t" metadata) = some sent ∧
      PyFloat.far now sent clockSkewSeconds = false := by
  simp only [innerTarget, bind_ok_iff, refuseIf_eq_ok, exists_unit, orRefuse_eq_ok,
    Bool.not_eq_true] at h
  obtain ⟨-, -, -, -, -, sent, hsent, hnear, -⟩ := h
  exact ⟨sent, hsent, hnear⟩

theorem headerEntry_allowed {entry : Json} {header : Text × Text}
    (h : headerEntry R entry = .ok (some header)) :
    isOneOf innerRequestHeaders header.1 = true := by
  unfold headerEntry at h
  split at h
  · split at h
    · rename_i hallowed
      simp only [bind_ok_iff, exists_unit, pure_ok_iff, Option.some.injEq] at h
      obtain ⟨-, rfl⟩ := h
      exact hallowed
    · cases h
  · cases h

theorem innerHeaders_allowed {raw : List Json} {headers : Headers}
    (h : innerHeaders R raw = .ok headers) :
    ∀ header ∈ headers, isOneOf innerRequestHeaders header.1 = true := by
  induction raw generalizing headers with
  | nil =>
    cases h
    simp
  | cons entry rest ih =>
    simp only [innerHeaders, bind_ok_iff, pure_ok_iff] at h
    obtain ⟨first, hfirst, others, hothers, rfl⟩ := h
    intro header hmem
    rcases List.mem_append.mp hmem with hmem | hmem
    · exact headerEntry_allowed (Option.mem_toList.mp hmem ▸ hfirst)
    · exact ih hothers header hmem

theorem innerTarget_allowed {now : ℚ} {metadata : Dict} {t : Target}
    (h : innerTarget R now metadata = .ok t) :
    ∀ header ∈ t.headers, isOneOf innerRequestHeaders header.1 = true := by
  simp only [innerTarget, metadataHeaders, bind_ok_iff, exists_unit, pure_ok_iff] at h
  obtain ⟨-, -, -, -, -, -, -, -, headers, ⟨raw, -, hheaders⟩, rfl⟩ := h
  exact innerHeaders_allowed hheaders

/-! ## Entries that do not matter -/

/-- The same entry, or two entries whose names are both outside the allowlist. -/
inductive SameEntry (R : Runtime) : Json → Json → Prop where
  | same (entry : Json) : SameEntry R entry entry
  | outside {name value name' value' : Json}
      (h : isOneOf innerRequestHeaders (headerName R name) = false)
      (h' : isOneOf innerRequestHeaders (headerName R name') = false) :
    SameEntry R (.arr [name, value]) (.arr [name', value'])

/-- Two metadata that differ at most in header entries outside the allowlist. -/
structure SameMetadata (R : Runtime) (m m' : Dict) : Prop where
  other : ∀ key, key ≠ "h" → dictGet key m = dictGet key m'
  headers : dictGet "h" m = dictGet "h" m' ∨
    ∃ xs xs', dictGet "h" m = some (.arr xs) ∧ dictGet "h" m' = some (.arr xs') ∧
      List.Forall₂ (SameEntry R) xs xs'

theorem headerEntry_congr {x x' : Json} (h : SameEntry R x x') :
    headerEntry R x = headerEntry R x' := by
  cases h with
  | same entry => rfl
  | outside hout hout' => simp [headerEntry, hout, hout']

theorem innerHeaders_congr {xs xs' : List Json} (h : List.Forall₂ (SameEntry R) xs xs') :
    innerHeaders R xs = innerHeaders R xs' := by
  induction h with
  | nil => rfl
  | cons hentry _ ih => rw [innerHeaders, innerHeaders, headerEntry_congr hentry, ih]

theorem metadataHeaders_congr {m m' : Dict} (h : SameMetadata R m m') :
    metadataHeaders R m = metadataHeaders R m' := by
  unfold metadataHeaders
  rcases h.headers with heq | ⟨xs, xs', hxs, hxs', hrel⟩
  · rw [heq]
  · have hlen := hrel.length_eq
    rw [hxs, hxs']
    cases hrel with
    | nil => rfl
    | cons hentry hrest =>
      simp only [rawHeaders, Option.filter_some, truthy, List.isEmpty_cons, Bool.not_false, if_true]
      rw [hlen]
      split_ifs
      · rfl
      · exact innerHeaders_congr (.cons hentry hrest)

theorem innerTarget_of_agree {m m' : Dict} (hfields : ∀ key ∈ ["m", "p", "t"],
      dictGet key m = dictGet key m') (hheaders : metadataHeaders R m = metadataHeaders R m')
    (now : ℚ) : innerTarget R now m = innerTarget R now m' := by
  unfold innerTarget
  rw [hfields "m" (by simp), hfields "p" (by simp), hfields "t" (by simp), hheaders]

/-- **Entries outside the allowlist do not matter** to the call that an envelope asks for. -/
theorem innerTarget_congr {m m' : Dict} (h : SameMetadata R m m') (now : ℚ) :
    innerTarget R now m = innerTarget R now m' := by
  refine innerTarget_of_agree (fun key hkey => h.other key ?_) (metadataHeaders_congr h) now
  rintro rfl
  simp at hkey

theorem innerTarget_report {m m' : Dict} (h : ∀ key, key ≠ "i" → dictGet key m = dictGet key m')
    (now : ℚ) : innerTarget R now m = innerTarget R now m' := by
  refine innerTarget_of_agree (fun key hkey => h key ?_) ?_ now
  · rintro rfl
    simp at hkey
  · rw [metadataHeaders, metadataHeaders, h "h" (by decide)]

theorem inspectionInfo_congr {m m' : Dict} (h : SameMetadata R m m') :
    inspectionInfo R m = inspectionInfo R m' := by
  unfold inspectionInfo
  rw [h.other "i" (by decide)]

end ManagedDirectory.Sealed
