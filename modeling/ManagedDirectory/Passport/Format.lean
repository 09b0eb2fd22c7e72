import ManagedDirectory.Codec.Text
import ManagedDirectory.Codec.Serde
import ManagedDirectory.Lib.Checked
import ManagedDirectory.Lib.Signature

/-!
# Device passports: the wire format

`rdc_passport` as the crate has it: a token is
`rdcp1.<ikc body>.<ikc sig>.<passport body>.<passport sig>`, each part base64url. The bodies are
structs written by `serde_json` (`IkcBody`, `PassportBody`, `RenewBody`, `KeyUpdateBody`) and
every signature covers a domain followed by the body's bytes (`signed`).

`i64` is `Int64`, whose arithmetic wraps as the release build's does.
-/

namespace ManagedDirectory.Passport

open Codec Lib

/-- `PREFIX`. -/
def tokenPrefix : String := "rdcp1"

def version : UInt32 := 1

def ikcDomain : Bytes := utf8 "rdcp1-ikc" ++ [0]
def passportDomain : Bytes := utf8 "rdcp1-passport" ++ [0]
def renewDomain : Bytes := utf8 "rdcp1-renew" ++ [0]
def keyupdateDomain : Bytes := utf8 "rdcp1-keyupdate" ++ [0]

def maxTokenLen : Nat := 4096

def scopes : List String := ["hbbs", "hbbr", "rds", "chat", "rustdrop", "peer"]

inductive Error where
  | malformed (what : String)
  | untrustedRoot
  | badIkcSignature
  | ikcNotYetValid
  | ikcExpired
  | badSignature
  | notYetValid
  | expired
  | wrongIssuer
  | unsupported (what : String)
  | staleRequest
  deriving DecidableEq, Repr

/-- `Display` for `Error`, which prints its `Debug` form. -/
def Error.display : Error → String
  | .malformed what => "Malformed(\"" ++ what ++ "\")"
  | .untrustedRoot => "UntrustedRoot"
  | .badIkcSignature => "BadIkcSignature"
  | .ikcNotYetValid => "IkcNotYetValid"
  | .ikcExpired => "IkcExpired"
  | .badSignature => "BadSignature"
  | .notYetValid => "NotYetValid"
  | .expired => "Expired"
  | .wrongIssuer => "WrongIssuer"
  | .unsupported what => "Unsupported(\"" ++ what ++ "\")"
  | .staleRequest => "StaleRequest"

/-! ## Bodies -/

structure IkcBody where
  typ : String
  v : UInt32
  kid : String
  key : String
  nbf : Int64
  exp : Int64
  deriving DecidableEq

structure PassportBody where
  typ : String
  v : UInt32
  serial : String
  rid : String
  did : String
  idk : String
  idkAlg : String
  rdk : String
  prot : String
  scopes : List String
  iat : Int64
  nbf : Int64
  exp : Int64
  ikid : String
  deriving DecidableEq

structure RenewBody where
  typ : String
  v : UInt32
  rid : String
  did : String
  idk : String
  ts : Int64
  nonce : String
  deriving DecidableEq

/-- Moving a device to a new identity key, signed by the old key and by the new one. -/
structure KeyUpdateBody where
  typ : String
  v : UInt32
  rid : String
  did : String
  oldKey : String
  newKey : String
  newAlg : String
  prot : String
  ts : Int64
  nonce : String
  deriving DecidableEq

def ikcLayout : Layout IkcBody where
  names := ["typ", "v", "kid", "key", "nbf", "exp"]
  nodup := by decide
  values b := [.str b.typ, .int b.v.toNat, .str b.kid, .str b.key, .int b.nbf.toInt,
    .int b.exp.toInt]
  length_values _ := rfl
  read
    | [typ, v, kid, key, nbf, exp] => do
      pure ⟨← asString typ, ← asU32 v, ← asString kid, ← asString key, ← asI64 nbf, ← asI64 exp⟩
    | _ => none
  read_values b := by simp

def passportLayout : Layout PassportBody where
  names := ["typ", "v", "serial", "rid", "did", "idk", "idk_alg", "rdk", "prot", "scopes", "iat",
    "nbf", "exp", "ikid"]
  nodup := by decide
  values b := [.str b.typ, .int b.v.toNat, .str b.serial, .str b.rid, .str b.did, .str b.idk,
    .str b.idkAlg, .str b.rdk, .str b.prot, .strs b.scopes, .int b.iat.toInt, .int b.nbf.toInt,
    .int b.exp.toInt, .str b.ikid]
  length_values _ := rfl
  read
    | [typ, v, serial, rid, did, idk, idkAlg, rdk, prot, scopes, iat, nbf, exp, ikid] => do
      pure ⟨← asString typ, ← asU32 v, ← asString serial, ← asString rid, ← asString did,
        ← asString idk, ← asString idkAlg, ← asString rdk, ← asString prot, ← asStrings scopes,
        ← asI64 iat, ← asI64 nbf, ← asI64 exp, ← asString ikid⟩
    | _ => none
  read_values b := by simp

def renewLayout : Layout RenewBody where
  names := ["typ", "v", "rid", "did", "idk", "ts", "nonce"]
  nodup := by decide
  values b := [.str b.typ, .int b.v.toNat, .str b.rid, .str b.did, .str b.idk, .int b.ts.toInt,
    .str b.nonce]
  length_values _ := rfl
  read
    | [typ, v, rid, did, idk, ts, nonce] => do
      pure ⟨← asString typ, ← asU32 v, ← asString rid, ← asString did, ← asString idk,
        ← asI64 ts, ← asString nonce⟩
    | _ => none
  read_values b := by simp

def keyUpdateLayout : Layout KeyUpdateBody where
  names := ["typ", "v", "rid", "did", "old_key", "new_key", "new_alg", "prot", "ts", "nonce"]
  nodup := by decide
  values b := [.str b.typ, .int b.v.toNat, .str b.rid, .str b.did, .str b.oldKey, .str b.newKey,
    .str b.newAlg, .str b.prot, .int b.ts.toInt, .str b.nonce]
  length_values _ := rfl
  read
    | [typ, v, rid, did, oldKey, newKey, newAlg, prot, ts, nonce] => do
      pure ⟨← asString typ, ← asU32 v, ← asString rid, ← asString did, ← asString oldKey,
        ← asString newKey, ← asString newAlg, ← asString prot, ← asI64 ts, ← asString nonce⟩
    | _ => none
  read_values b := by simp

/-! ## Keys and signatures -/

variable (C : Crypto)

/-- `unb64` with the crate's error. -/
def unb64E (text : String) : Except Error Bytes := orRefuse (unb64 text) (.malformed "base64")

/-- `kid_for`: the first 8 bytes of the key's SHA-256, in hex. -/
def kidFor (key : VerifyingKey C) : String := hex ((C.sha256 key.bytes).take 8)

def fingerprint (raw : Bytes) : String := hex ((C.sha256 raw).take 16)

def signed (domain body : Bytes) : Bytes := domain ++ body

def verifyingKey (raw : Bytes) : Except Error (VerifyingKey C) :=
  if hlen : raw.length = 32 then
    if hkey : C.isKey raw = true then .ok ⟨raw, hlen, hkey⟩ else .error (.malformed "key")
  else .error (.malformed "key length")

def signature (raw : Bytes) : Except Error Bytes := do
  refuseIf (raw.length ≠ 64) (.malformed "signature length")
  pure raw

def parsePublicKey (b64Key : String) : Except Error (VerifyingKey C) := do
  verifyingKey C (← unb64E b64Key)

variable {C}

theorem verifyingKey_eq_ok {raw : Bytes} {key : VerifyingKey C} :
    verifyingKey C raw = .ok key ↔ key.bytes = raw := by
  unfold verifyingKey
  constructor
  · intro h
    split_ifs at h with hlen hkey
    cases h
    rfl
  · rintro rfl
    rw [dif_pos key.length_eq, dif_pos key.isKey_eq]

@[simp] theorem signature_eq_ok {raw sig : Bytes} :
    signature raw = .ok sig ↔ raw.length = 64 ∧ raw = sig := by
  simp only [signature, bind_ok_iff, refuseIf_eq_ok, pure_ok_iff, exists_unit, not_not, ne_eq]

theorem parsePublicKey_eq_ok {text : String} {key : VerifyingKey C} :
    parsePublicKey C text = .ok key ↔ text = b64 key.bytes := by
  simp only [parsePublicKey, bind_ok_iff, unb64E, orRefuse_eq_ok, verifyingKey_eq_ok,
    unb64_eq_some_iff]
  constructor
  · rintro ⟨raw, rfl, rfl⟩
    rfl
  · rintro rfl
    exact ⟨_, rfl, rfl⟩

/-! ## Signing -/

variable (C)

/-- The body `sign_ikc` writes. -/
def ikcBody (issuing : VerifyingKey C) (nbf exp : Int64) : IkcBody where
  typ := "rdc-ikc"
  v := version
  kid := kidFor C issuing
  key := b64 issuing.bytes
  nbf := nbf
  exp := exp

def signIkc (root : Bytes) (issuing : VerifyingKey C) (nbf exp : Int64) : String :=
  let bytes := ikcLayout.toVec (ikcBody C issuing nbf exp)
  let sig := C.sign root (signed ikcDomain bytes)
  b64 bytes ++ "." ++ b64 sig

def signPassport (issuing : Bytes) (ikc : String) (body : PassportBody) : String :=
  let bytes := passportLayout.toVec body
  let sig := C.sign issuing (signed passportDomain bytes)
  tokenPrefix ++ "." ++ ikc ++ "." ++ b64 bytes ++ "." ++ b64 sig

def signRenew (identity : Bytes) (body : RenewBody) : String :=
  let bytes := renewLayout.toVec body
  let sig := C.sign identity (signed renewDomain bytes)
  b64 bytes ++ "." ++ b64 sig

def signKeyUpdate (old new : Bytes) (body : KeyUpdateBody) : String :=
  let bytes := keyUpdateLayout.toVec body
  let message := signed keyupdateDomain bytes
  b64 bytes ++ "." ++ b64 (C.sign old message) ++ "." ++ b64 (C.sign new message)

/-! ## Verifying -/

structure Verified where
  passport : PassportBody
  ikc : IkcBody
  inGrace : Bool
  deriving DecidableEq

structure Window where
  now : Int64
  skew : Int64
  grace : Int64

def tokenParts (token : String) : Except Error (String × String × String × String) :=
  match splitDots token with
  | [p0, p1, p2, p3, p4] => do
    refuseIf (p0 ≠ tokenPrefix) (.malformed "shape")
    pure (p1, p2, p3, p4)
  | _ => .error (.malformed "shape")

/-- Strict verification against a set of trusted root public keys. -/
def verify (token : String) (roots : List (VerifyingKey C)) (window : Window) :
    Except Error Verified := do
  refuseIf (maxTokenLen < byteLen token) (.malformed "too long")
  let (p1, p2, p3, p4) ← tokenParts token
  let ikcBytes ← unb64E p1
  let ikcSig ← signature (← unb64E p2)
  let bodyBytes ← unb64E p3
  let bodySig ← signature (← unb64E p4)
  refuseIf (!roots.any fun root => C.verify root.bytes (signed ikcDomain ikcBytes) ikcSig)
    (if roots.isEmpty then .untrustedRoot else .badIkcSignature)
  let ikc ← orRefuse (ikcLayout.fromSlice ikcBytes) (.malformed "ikc json")
  refuseIf (ikc.typ ≠ "rdc-ikc" ∨ ikc.v ≠ version) (.unsupported "ikc type/version")
  refuseIf (window.now + window.skew < ikc.nbf) .ikcNotYetValid
  refuseIf (window.now - window.skew > ikc.exp) .ikcExpired
  let issuing ← verifyingKey C (← unb64E ikc.key)
  refuseIf (kidFor C issuing ≠ ikc.kid) (.malformed "kid")
  refuseIf (!C.verify issuing.bytes (signed passportDomain bodyBytes) bodySig) .badSignature
  let passport ← orRefuse (passportLayout.fromSlice bodyBytes) (.malformed "passport json")
  refuseIf (passport.typ ≠ "rdc-passport" ∨ passport.v ≠ version)
    (.unsupported "passport type/version")
  refuseIf (passport.ikid ≠ ikc.kid) .wrongIssuer
  refuseIf (passport.idkAlg ≠ "ed25519") (.unsupported "idk_alg")
  let _ ← parsePublicKey C passport.idk
  let _ ← parsePublicKey C passport.rdk
  refuseIf (window.now + window.skew < passport.nbf) .notYetValid
  refuseIf (window.now - window.skew > passport.exp + max window.grace 0) .expired
  pure ⟨passport, ikc, window.now - window.skew > passport.exp⟩

def splitTwo (request : String) : Except Error (Bytes × Bytes) := do
  refuseIf (maxTokenLen < byteLen request) (.malformed "too long")
  match splitDots request with
  | [p0, p1] =>
    let bytes ← unb64E p0
    let sig ← signature (← unb64E p1)
    pure (bytes, sig)
  | _ => .error (.malformed "shape")

/-- Checks a renewal: signature by `expectedIdk`, field match, freshness. -/
def verifyRenew (request : String) (expectedIdk : VerifyingKey C) (now maxAge : Int64) :
    Except Error RenewBody := do
  let (bytes, sig) ← splitTwo request
  refuseIf (!C.verify expectedIdk.bytes (signed renewDomain bytes) sig) .badSignature
  let body ← orRefuse (renewLayout.fromSlice bytes) (.malformed "renew json")
  refuseIf (body.typ ≠ "rdc-renew" ∨ body.v ≠ version) (.unsupported "renew type/version")
  let idk ← unb64E body.idk
  refuseIf (idk ≠ expectedIdk.bytes) .wrongIssuer
  refuseIf ((now - body.ts).abs > maxAge) .staleRequest
  pure body

def keyUpdateParts (request : String) : Except Error (String × String × String) :=
  match splitDots request with
  | [p0, p1, p2] => .ok (p0, p1, p2)
  | _ => .error (.malformed "shape")

/-- Checks a key update: signed by the key on file and by the new key it names. -/
def verifyKeyUpdate (request : String) (expectedOld : VerifyingKey C) (now maxAge : Int64) :
    Except Error (KeyUpdateBody × VerifyingKey C) := do
  refuseIf (maxTokenLen < byteLen request) (.malformed "too long")
  let (p0, p1, p2) ← keyUpdateParts request
  let bytes ← unb64E p0
  let message := signed keyupdateDomain bytes
  let oldSig ← signature (← unb64E p1)
  refuseIf (!C.verify expectedOld.bytes message oldSig) .badSignature
  let body ← orRefuse (keyUpdateLayout.fromSlice bytes) (.malformed "key update json")
  refuseIf (body.typ ≠ "rdc-keyupdate" ∨ body.v ≠ version ∨ body.newAlg ≠ "ed25519")
    (.unsupported "key update type/version/alg")
  let old ← unb64E body.oldKey
  refuseIf (old ≠ expectedOld.bytes) .wrongIssuer
  let new ← verifyingKey C (← unb64E body.newKey)
  let newSig ← signature (← unb64E p2)
  refuseIf (!C.verify new.bytes message newSig) .badSignature
  refuseIf ((now - body.ts).abs > maxAge) .staleRequest
  pure (body, new)

end ManagedDirectory.Passport
