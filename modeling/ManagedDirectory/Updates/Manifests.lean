import ManagedDirectory.Codec.PyFloat
import ManagedDirectory.Rds.Requests

/-!
# Update manifests

`loadUpdateManifest` reads the manifest of a channel and an architecture and checks it against its
release, with the source's refusals in the source's order; `managedUpdateLatest` is
`GET /v1/updates/latest`. `loadUpdateManifest_ok` lists what is true of a manifest that is served
(`Served`).

A directory of manifests is what its names lead to; symbolic links are left out. Python's tables of
characters, its reading of float literals and SHA-256 are parameters (`Python`).
-/

namespace ManagedDirectory.Updates

open Codec Lib
open Rds (Failure asDict asDict_eq_some)

structure Python where
  unicode : Unicode
  /-- The nesting `json.loads` stands. -/
  depth : Nat
  /-- The `float` of the literal `± m * 10 ^ e`. -/
  literal : (neg : Bool) → (m : Nat) → (e : Int) → PyFloat
  /-- `hashlib.sha256(content).hexdigest()`. -/
  sha256 : Bytes → Text

inductive Raised where
  | os
  | value
  | type
  | key
  | attribute
  | overflow
  | recursion
  deriving DecidableEq, Repr

/-! ## Python values -/

namespace Python

variable (py : Python)

/-- `int(x)` of a float rounds towards zero. -/
def truncate : PyFloat → Except Raised Int
  | .nan => .error .value
  | .inf => .error .overflow
  | .negInf => .error .overflow
  | .fin q => .ok (q.num.tdiv q.den)

/-- The digits of `int(text)`, without the sign. -/
def unsignedInt (cs : Text) : Option Int :=
  if cs ≠ [] ∧ cs.all isDigit then some (digitsVal cs) else none

/-- `int(text)`. -/
def intOfText (text : Text) : Option Int := do
  let cs ← dropUnderscores false (py.unicode.strip (text.map py.unicode.asciiForm))
  match cs with
  | c :: rest =>
    if c = '-'.toNat then (- ·) <$> unsignedInt rest
    else if c = '+'.toNat then unsignedInt rest
    else unsignedInt (c :: rest)
  | [] => none

/-- `int(value)` of a value that `json.loads` returned. -/
def int : Json → Except Raised Int
  | .null => .error .type
  | .bool b => .ok (if b then 1 else 0)
  | .int neg n => .ok (if neg then -n else n)
  | .float neg m e => truncate (py.literal neg m e)
  | .special .nan => .error .value
  | .special _ => .error .overflow
  | .str s => orRefuse (py.intOfText s) .value
  | .arr _ => .error .type
  | .obj _ => .error .type

def truthy : Json → Bool
  | .null => false
  | .bool b => b
  | .int _ n => n ≠ 0
  | .float neg m e => py.literal neg m e ≠ .fin 0
  | .special _ => true
  | .str s => s ≠ []
  | .arr xs => !xs.isEmpty
  | .obj kvs => !kvs.isEmpty

/-- `value == n` for an integer `n`. -/
def equalsInt (value : Json) (n : Int) : Bool :=
  match value with
  | .bool b => (if b then 1 else 0) = n
  | .int neg m => (if neg then -(m : Int) else m) = n
  | .float neg m e => py.literal neg m e = .fin n
  | _ => false

theorem int_of_equalsInt {value : Json} {n : Int} (h : py.equalsInt value n = true) :
    py.int value = .ok n := by
  cases value with
  | bool b => simpa [equalsInt, int] using h
  | int neg m => simpa [equalsInt, int] using h
  | float neg m e =>
    simp only [equalsInt, decide_eq_true_eq] at h
    simp [int, h, truncate]
  | _ => simp [equalsInt] at h

end Python

/-! ## Files -/

inductive ManifestFile where
  /-- A file; `none` if it cannot be read. -/
  | file (content : Option Bytes)
  | other

/-- What `safe_update_file` finds under a name in the directory of releases. -/
inductive Lookup where
  | found (content : Bytes)
  | missing
  | impossible

structure UpdateFiles where
  manifest : String → Option ManifestFile
  release : Text → Lookup

/-- `json.loads(path.read_text(encoding="utf-8"))`. -/
def readJson (py : Python) : Option ManifestFile → Except Raised Json
  | some (.file (some content)) =>
    match utf8Decode false content with
    | none => .error .value
    | some text =>
      match parseJson (pythonJson py.depth) text with
      | .ok tree => .ok tree
      | .error .malformed => .error .value
      | .error .tooDeep => .error .recursion
  | _ => .error .os

/-! ## The manifest of a channel and an architecture -/

abbrev Dict := List (List Nat × Json)

def updateFileNotFound : Failure := .http 404 "Update file not found"

def manifestRefused (reason : String) : Failure := .http 503 ("Managed update " ++ reason)

def archManifest (channel arch : String) : String := channel ++ "-" ++ arch ++ ".json"

def legacyManifest (channel : String) : String := channel ++ ".json"

/-- `safe_update_file(UPDATE_MANIFESTS, name)`. -/
def safeManifest (files : UpdateFiles) (name : String) : Option ManifestFile :=
  match files.manifest name with
  | some (.file content) => some (.file content)
  | _ => none

/-- The file to serve, and whether it must name its architecture. -/
def pickManifest (files : UpdateFiles) (channel arch : String) :
    Except Failure (ManifestFile × Bool) :=
  match safeManifest files (archManifest channel arch) with
  | some file => .ok (file, true)
  | none =>
    if arch ≠ "x86_64" then .error updateFileNotFound
    else
      match safeManifest files (legacyManifest channel) with
      | some file => .ok (file, false)
      | none => .error updateFileNotFound

def requiredFields : List String :=
  ["channel", "build_number", "version", "file_name", "size", "sha256", "signature", "published_at"]

def needed (requireArchField : Bool) : List String :=
  if requireArchField then "arch" :: requiredFields else requiredFields

def releaseSuffix (arch : String) : String := if arch = "android-aarch64" then ".apk" else ".exe"

def isHexDigit (c : Nat) : Bool := isDigit c || (97 ≤ c && c ≤ 102)

/-- `json.loads` of the file, where an `OSError` or a `ValueError` is a 503. -/
def readManifest (py : Python) (file : ManifestFile) : Except Failure Json :=
  match readJson py (some file) with
  | .ok tree => .ok tree
  | .error .os => .error (manifestRefused "manifest is unavailable")
  | .error .value => .error (manifestRefused "manifest is unavailable")
  | .error _ => .error .exception

def openRelease (files : UpdateFiles) (name : Text) : Except Failure Bytes :=
  match files.release name with
  | .found content => .ok content
  | .missing => .error updateFileNotFound
  | .impossible => .error .exception

/-- `str(manifest.get(name, ""))` of a field that is there. -/
def Python.field (py : Python) (manifest : Dict) (name : String) : Text :=
  match dictGet name manifest with
  | some value => py.unicode.str value
  | none => []

/-- `int(manifest.get("size", -1))` of a field that is there; nobody handles its exceptions. -/
def declaredSize (py : Python) (manifest : Dict) : Except Failure Int :=
  match (dictGet "size" manifest).map py.int with
  | some (.ok size) => .ok size
  | _ => .error .exception

def loadUpdateManifest (py : Python) (files : UpdateFiles) (channel arch : String) :
    Except Failure Dict := do
  let (file, requireArchField) ← pickManifest files channel arch
  let tree ← readManifest py file
  let manifest ← orRefuse (asDict tree) (manifestRefused "manifest is invalid")
  refuseIf (!(needed requireArchField).all fun name => (dictGet name manifest).isSome)
    (manifestRefused "manifest is incomplete")
  refuseIf (!equalsText (dictGet "channel" manifest) (some channel))
    (manifestRefused "manifest channel mismatch")
  refuseIf (requireArchField && !equalsText (dictGet "arch" manifest) (some arch))
    (manifestRefused "manifest architecture mismatch")
  let fileName := py.field manifest "file_name"
  -- `Path(file_name).name != file_name`
  refuseIf (fileName.contains '/'.toNat ||
      !endsWith (py.unicode.lower fileName) (releaseSuffix arch))
    (manifestRefused "manifest filename is invalid")
  let release ← openRelease files fileName
  let size ← declaredSize py manifest
  refuseIf (release.length ≠ size) (manifestRefused "release size does not match manifest")
  let expected := py.unicode.lower (py.field manifest "sha256")
  refuseIf (expected.length ≠ 64 ∨ !expected.all isHexDigit)
    (manifestRefused "manifest SHA256 is invalid")
  refuseIf (py.sha256 release ≠ expected) (manifestRefused "release hash does not match manifest")
  pure manifest

/-- `managed_update_latest`: `none` is 204, a manifest 200. -/
def managedUpdateLatest (py : Python) (files : UpdateFiles) (channel arch : String) :
    Except Failure (Option Dict) :=
  match loadUpdateManifest py files channel arch with
  | .ok manifest => .ok (some manifest)
  | .error (.http 404 _) => .ok none
  | .error e => .error e

/-! ## What is served -/

structure Fits (py : Python) (files : UpdateFiles) (channel arch : String)
    (requireArchField : Bool) (manifest : Dict) : Prop where
  complete : ∀ name ∈ needed requireArchField, (dictGet name manifest).isSome = true
  ofChannel : dictGet "channel" manifest = some (jsonStr channel)
  ofArch : requireArchField = true → dictGet "arch" manifest = some (jsonStr arch)
  flat : '/'.toNat ∉ py.field manifest "file_name"
  suffix : endsWith (py.unicode.lower (py.field manifest "file_name")) (releaseSuffix arch) = true
  hash : (py.unicode.lower (py.field manifest "sha256")).length = 64 ∧
    (py.unicode.lower (py.field manifest "sha256")).all isHexDigit = true
  release : ∃ content, files.release (py.field manifest "file_name") = .found content ∧
    declaredSize py manifest = .ok content.length ∧
    py.sha256 content = py.unicode.lower (py.field manifest "sha256")

section Served

variable {py : Python} {files : UpdateFiles} {channel arch : String} {manifest : Dict}

theorem readManifest_eq_ok {file : ManifestFile} {tree : Json} :
    readManifest py file = .ok tree ↔ readJson py (some file) = .ok tree := by
  unfold readManifest
  split <;> simp_all

theorem openRelease_eq_ok {name : Text} {content : Bytes} :
    openRelease files name = .ok content ↔ files.release name = .found content := by
  unfold openRelease
  split <;> simp_all

/-- **What is served is the file of the channel and the architecture, and it passes the checks.** -/
theorem loadUpdateManifest_eq_ok :
    loadUpdateManifest py files channel arch = .ok manifest ↔
      ∃ file requireArchField, pickManifest files channel arch = .ok (file, requireArchField) ∧
        readJson py (some file) = .ok (.obj manifest) ∧
        Fits py files channel arch requireArchField manifest := by
  simp only [loadUpdateManifest, bind_ok_iff, Prod.exists, refuseIf_eq_ok, exists_unit,
    orRefuse_eq_ok, readManifest_eq_ok, openRelease_eq_ok, asDict_eq_some, pure_ok_iff]
  constructor
  · rintro ⟨file, req, hpick, _, hread, m, rfl, hneeded, hchannel, harch, hname, content, hcontent,
      size, hsize, hlength, hhash, hsha, rfl⟩
    simp only [Bool.not_eq_true, Bool.not_eq_false', List.all_eq_true] at hneeded
    simp only [Bool.or_eq_true, not_or] at hname
    refine ⟨file, req, hpick, hread, hneeded, by simpa using hchannel, ?_, by simpa using hname.1,
      by simpa using hname.2, by simpa using hhash, content, hcontent, ?_, by simpa using hsha⟩
    · rintro rfl
      simpa using harch
    · rw [hsize, not_ne_iff.mp hlength]
  · rintro ⟨file, req, hpick, hread, h⟩
    obtain ⟨content, hcontent, hsize, hsha⟩ := h.release
    refine ⟨file, req, hpick, _, hread, manifest, rfl, ?_, by simpa using h.ofChannel, ?_, ?_,
      content, hcontent, _, hsize, by simp, by simpa using h.hash, by simpa using hsha, rfl⟩
    · simpa [← Option.isSome_iff_ne_none] using h.complete
    · cases req with
      | false => simp
      | true => simpa using h.ofArch rfl
    · simpa using ⟨h.flat, h.suffix⟩

theorem loadUpdateManifest_of_latest
    (h : managedUpdateLatest py files channel arch = .ok (some manifest)) :
    loadUpdateManifest py files channel arch = .ok manifest := by
  unfold managedUpdateLatest at h
  split at h
  · cases h
    assumption
  · cases h
  · cases h

theorem Fits.build {requireArchField : Bool}
    (h : Fits py files channel arch requireArchField manifest) :
    ∃ value, dictGet "build_number" manifest = some value := by
  refine Option.isSome_iff_exists.mp (h.complete "build_number" ?_)
  cases requireArchField <;> decide

end Served

end ManagedDirectory.Updates
