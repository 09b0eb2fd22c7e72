import ManagedDirectory.Sealed.Call

/-!
# Sealed transport: what an envelope can raise

`sealed_call` answers 400 to every `_BadEnvelope`; any other exception of `open_request` or
`inner_target` escapes. `sealedCall_closed_iff` says which envelopes do that: those of a valid sender
whose metadata is nested too deeply for `json.loads` (a `RecursionError` is no `ValueError`), or asks
for a call in good form at a time that is an integer beyond the range of a `float` (an
`OverflowError`).
-/

namespace ManagedDirectory.Sealed

open Codec Lib
open Rds (Issuer)

/-- What is documented of `ChaCha20Poly1305.decrypt`: the tag of 16 bytes is taken off. -/
def Runtime.TagLength (R : Runtime) : Prop :=
  ∀ key ciphertext aad inner, R.decrypt key ciphertext aad = some inner →
    inner.length + 16 = ciphertext.length

/-- The blob is an authentic envelope around the metadata `text` and a body. -/
structure Carries (R : Runtime) (keys : List Bytes) (blob : Bytes) (text body : Bytes) : Prop where
  framed : ¬ (blob.length < headerLen + 4 + 16 ∨ blob.take 4 ≠ reqMagic)
  plain : ∃ secret shared inner metaLen,
    findKey R keys ((blob.drop 4).take 8) = some secret ∧
    R.exchange secret ((blob.drop 12).take 32) = some shared ∧
    R.decrypt (R.derive shared ((blob.drop 12).take 32 ++ R.publicKey secret)).1
      (blob.drop headerLen) (blob.take headerLen) = some inner ∧
    unpackU32 (inner.take 4) = some metaLen ∧ metaLen ≤ inner.length - 4 ∧
    text = (inner.drop 4).take metaLen ∧ body = inner.drop (4 + metaLen)

/-- The metadata asks for a call that `inner_target` takes up to its time. -/
structure InGoodForm (R : Runtime) (metadata : Dict) : Prop where
  method : isOneOf methods
    (R.unicode.upper (R.unicode.str ((dictGet "m" metadata).getD (jsonStr "")))) = true
  target : targetOk (R.unicode.str ((dictGet "p" metadata).getD (jsonStr ""))) = true
  form : (urlsplit (R.unicode.str ((dictGet "p" metadata).getD (jsonStr "")))).2 = []
  path : pathOk (urlsplit (R.unicode.str ((dictGet "p" metadata).getD (jsonStr "")))).1 = true

/-- Metadata that raises nothing but a `_BadEnvelope`. -/
structure Harmless (R : Runtime) (text : Bytes) : Prop where
  nesting : loadsIn (cpythonJson R.depth) text ≠ .error .tooDeep
  time : ∀ metadata, loadsIn (cpythonJson R.depth) text = .ok (.obj metadata) →
    InGoodForm R metadata → floatOverflows (dictGet "t" metadata) = false

section Raises

variable {R : Runtime} {keys : List Bytes} {blob text body : Bytes} {e : Opened}

theorem unpackU32_of_length {bytes : Bytes} (h : bytes.length = 4) : unpackU32 bytes ≠ none := by
  match bytes, h with
  | [a, b, c, d], _ => simp [unpackU32]

theorem readMetadata_ok {kvs : Dict} :
    readMetadata R text = .ok kvs ↔ loadsIn (cpythonJson R.depth) text = .ok (.obj kvs) := by
  unfold readMetadata
  split <;> simp_all

theorem readMetadata_exception :
    readMetadata R text = .error .exception ↔
      loadsIn (cpythonJson R.depth) text = .error .tooDeep := by
  unfold readMetadata
  split <;> simp_all

theorem Carries.opens (h : Carries R keys blob text body) {metadata : Dict}
    (hmeta : loadsIn (cpythonJson R.depth) text = .ok (.obj metadata)) :
    ∃ e, openRequest R keys blob = .ok e ∧ e.metadata = metadata := by
  obtain ⟨hframed, secret, shared, inner, metaLen, hkey, hshared, hinner, hlen, hle, rfl, rfl⟩ := h
  refine ⟨⟨(blob.drop 12).take 32, (R.derive shared ((blob.drop 12).take 32 ++
    R.publicKey secret)).2, metadata, inner.drop (4 + metaLen)⟩, ?_, rfl⟩
  simp only [openRequest, bind_ok_iff, refuseIf_eq_ok, orRefuse_eq_ok, exists_unit, pure_ok_iff]
  exact ⟨hframed, secret, hkey, shared, hshared, inner, hinner, metaLen, hlen,
    Nat.not_lt.mpr hle, metadata, readMetadata_ok.mpr hmeta, rfl⟩

theorem openRequest_ok (h : openRequest R keys blob = .ok e) :
    ∃ text body, Carries R keys blob text body ∧
      loadsIn (cpythonJson R.depth) text = .ok (.obj e.metadata) := by
  simp only [openRequest, bind_ok_iff, refuseIf_eq_ok, orRefuse_eq_ok, exists_unit,
    pure_ok_iff] at h
  obtain ⟨hframed, secret, hkey, shared, hshared, inner, hinner, metaLen, hlen, hfits, kvs, hkvs,
    rfl⟩ := h
  exact ⟨_, _, ⟨hframed, secret, shared, inner, metaLen, hkey, hshared, hinner, hlen,
    Nat.le_of_not_lt hfits, rfl, rfl⟩, readMetadata_ok.mp hkvs⟩

theorem openRequest_exception (hR : R.TagLength) :
    openRequest R keys blob = .error .exception ↔
      ∃ text body, Carries R keys blob text body ∧
        loadsIn (cpythonJson R.depth) text = .error .tooDeep := by
  simp only [openRequest, bind_error_iff, refuseIf_eq_error, orRefuse_eq_error, refuseIf_eq_ok,
    orRefuse_eq_ok, exists_unit, pure_ne_error, reduceCtorEq, and_false, false_or, exists_false,
    or_false, readMetadata_exception]
  constructor
  · rintro ⟨hframed, secret, hkey, shared, hshared, inner, hinner, hnone | hmeta⟩
    · -- the tag leaves at least the four bytes of the length
      have hlen := hR _ _ _ _ hinner
      rw [List.length_drop] at hlen
      have hfour : (inner.take 4).length = 4 := by
        rw [List.length_take]
        simp only [headerLen, not_or, not_lt] at hframed hlen
        omega
      exact absurd hnone.1 (unpackU32_of_length hfour)
    · obtain ⟨metaLen, hlen, hfits, hdeep⟩ := hmeta
      exact ⟨_, _, ⟨hframed, secret, shared, inner, metaLen, hkey, hshared, hinner, hlen,
        Nat.le_of_not_lt hfits, rfl, rfl⟩, hdeep⟩
  · rintro ⟨-, -, ⟨hframed, secret, shared, inner, metaLen, hkey, hshared, hinner, hlen, hfits, rfl,
      rfl⟩, hdeep⟩
    exact ⟨hframed, secret, hkey, shared, hshared, inner, hinner,
      .inr ⟨metaLen, hlen, Nat.not_lt.mpr hfits, hdeep⟩⟩

theorem metadataHeaders_ne_exception (metadata : Dict) :
    metadataHeaders R metadata ≠ .error .exception := by
  have hraw : ∀ value, rawHeaders value ≠ .error .exception := by
    intro value
    unfold rawHeaders
    split
    · simp
    · split_ifs <;> simp
    · simp
  have hentry : ∀ entry, headerEntry R entry ≠ .error .exception := by
    intro entry h
    unfold headerEntry at h
    split at h
    · split at h
      · simp only [bind_error_iff, refuseIf_eq_error, reduceCtorEq, and_false, pure_ne_error,
          exists_false, or_self] at h
      · cases h
    · cases h
  have hentries : ∀ raw, innerHeaders R raw ≠ .error .exception := by
    intro raw
    induction raw with
    | nil => simp [innerHeaders]
    | cons entry rest ih =>
      simp only [innerHeaders, bind_error_iff, hentry, ih, pure_ne_error, and_false, exists_false,
        or_self, not_false_eq_true, ne_eq]
  simp only [metadataHeaders, bind_error_iff, hraw, hentries, and_false, exists_false, or_self,
    not_false_eq_true, ne_eq]

theorem innerTarget_exception {now : ℚ} {metadata : Dict} :
    innerTarget R now metadata = .error .exception ↔
      InGoodForm R metadata ∧ floatOverflows (dictGet "t" metadata) = true := by
  simp only [innerTarget, bind_error_iff, refuseIf_eq_error, orRefuse_eq_error, refuseIf_eq_ok,
    exists_unit, pure_ne_error, reduceCtorEq, and_false, false_or, exists_false, or_false,
    metadataHeaders_ne_exception, and_true]
  constructor
  · rintro ⟨hmethod, htarget, hform, hpath, hover⟩
    exact ⟨⟨by simpa using hmethod, by simpa using htarget, by simpa using hform,
      by simpa using hpath⟩, hover⟩
  · rintro ⟨⟨hmethod, htarget, hform, hpath⟩, hover⟩
    exact ⟨by simpa using hmethod, by simpa using htarget, by simpa using hform,
      by simpa using hpath, hover⟩

/-- `open_request` and then `inner_target`. -/
def readCall (R : Runtime) (keys : List Bytes) (now : ℚ) (blob : Bytes) :
    Except EnvelopeError Target := do
  let e ← openRequest R keys blob
  innerTarget R now e.metadata

theorem readCall_exception (hR : R.TagLength) {now : ℚ} :
    readCall R keys now blob = .error .exception ↔
      ∃ text body, Carries R keys blob text body ∧ ¬ Harmless R text := by
  rw [readCall, bind_error_iff, openRequest_exception hR]
  simp only [innerTarget_exception]
  constructor
  · rintro (⟨text, body, hcarries, hdeep⟩ | ⟨e, hopen, hform, hover⟩)
    · exact ⟨text, body, hcarries, fun hharmless => hharmless.nesting hdeep⟩
    · obtain ⟨text, body, hcarries, hmeta⟩ := openRequest_ok hopen
      refine ⟨text, body, hcarries, fun hharmless => ?_⟩
      rw [hharmless.time e.metadata hmeta hform] at hover
      cases hover
  · rintro ⟨text, body, hcarries, hharm⟩
    by_cases hdeep : loadsIn (cpythonJson R.depth) text = .error .tooDeep
    · exact .inl ⟨text, body, hcarries, hdeep⟩
    · have htime : ∃ metadata, loadsIn (cpythonJson R.depth) text = .ok (.obj metadata) ∧
          InGoodForm R metadata ∧ floatOverflows (dictGet "t" metadata) = true := by
        by_contra hno
        refine hharm ⟨hdeep, fun metadata hmeta hform => Bool.eq_false_iff.mpr fun hover => ?_⟩
        exact hno ⟨metadata, hmeta, hform, hover⟩
      obtain ⟨metadata, hmeta, hform, hover⟩ := htime
      obtain ⟨e, hopen, rfl⟩ := hcarries.opens hmeta
      exact .inr ⟨e, hopen, hform, hover⟩

variable {I : Issuer} {cfg : Config} {r : Readings} {o : Outer} {db : Database}

/-- `sealed_call` gets a call from the envelope, or answers 400. -/
def Closed (R : Runtime) (I : Issuer) (cfg : Config) (r : Readings) (o : Outer) (blob : Bytes)
    (db : Database) : Prop :=
  (∃ t, readCall R cfg.keys r.checkedAt blob = .ok t) ∨
    (sealedCall R I cfg r o blob db).1.outcome = .invalid

theorem sealedCall_of_error (hkeys : cfg.keys.isEmpty = false) (hfits : fitsBody o blob = true)
    {failure : EnvelopeError} (h : readCall R cfg.keys r.checkedAt blob = .error failure) :
    (sealedCall R I cfg r o blob db).1.outcome =
      match failure with
      | .bad _ => .invalid
      | .exception => .exception := by
  simp only [sealedCall, hkeys, hfits, Bool.false_eq_true, Bool.not_true, if_false]
  rcases bind_error_iff.mp h with hopen | ⟨e, hopen, ht⟩
  · rw [hopen]
    cases failure <;> rfl
  · rw [hopen]
    simp only [callOpened, ht]
    cases failure <;> rfl

theorem closed_iff (hkeys : cfg.keys.isEmpty = false) (hfits : fitsBody o blob = true) :
    Closed R I cfg r o blob db ↔ readCall R cfg.keys r.checkedAt blob ≠ .error .exception := by
  rw [Closed]
  cases h : readCall R cfg.keys r.checkedAt blob with
  | ok t => simp
  | error failure =>
    rw [sealedCall_of_error hkeys hfits h]
    cases failure <;> simp

/-- **Which envelopes fail closed.** With keys configured and a body within the size limit, an
envelope gives a call or the answer 400 exactly when the metadata it carries, if it is authentic, is
harmless. -/
theorem sealedCall_closed_iff (hR : R.TagLength) (hkeys : cfg.keys.isEmpty = false)
    (hfits : fitsBody o blob = true) :
    Closed R I cfg r o blob db ↔
      ∀ text body, Carries R cfg.keys blob text body → Harmless R text := by
  rw [closed_iff hkeys hfits, ne_eq, readCall_exception hR]
  constructor
  · intro hno text body hcarries
    by_contra hharm
    exact hno ⟨text, body, hcarries, hharm⟩
  · rintro hharmless ⟨text, body, hcarries, hharm⟩
    exact hharm (hharmless text body hcarries)

end Raises

/-! ## Samples -/

namespace RaiseSample

open CallSample (config outer issuer readings database)

def runtime : Runtime :=
  { CallSample.runtime with
    decrypt := fun _ ciphertext _ =>
      if 16 ≤ ciphertext.length then some (ciphertext.take (ciphertext.length - 16)) else none }

theorem tagLength_runtime : runtime.TagLength := by
  intro key ciphertext aad inner h
  simp only [runtime] at h
  split_ifs at h with hlen
  obtain rfl := Option.some.inj h
  rw [List.length_take]
  omega

def envelope (time : Text) : Bytes :=
  let json := utf8Encode (codePoints "\x7b\"m\":\"GET\",\"p\":\"/v1/x\",\"t\":" ++ time ++ [125])
  reqMagic ++ List.replicate 8 0 ++ List.replicate 32 7 ++
    [0, 0, UInt8.ofNat (json.length / 256), UInt8.ofNat json.length] ++ json ++ List.replicate 16 0

def hugeTime : Text := 49 :: List.replicate 309 48

end RaiseSample

open RaiseSample in
open CallSample (config outer issuer readings database) in
theorem sample_closed :
    (sealedCall RaiseSample.runtime issuer (config false) readings (outer [])
      (RaiseSample.envelope (codePoints "null")) database).1.outcome = .invalid ∧
    ∀ text body, Carries RaiseSample.runtime (config false).keys
      (RaiseSample.envelope (codePoints "null")) text body → Harmless RaiseSample.runtime text := by
  have hinvalid : (sealedCall RaiseSample.runtime issuer (config false) readings (outer [])
      (RaiseSample.envelope (codePoints "null")) database).1.outcome = .invalid := by
    decide +kernel
  have hfits : fitsBody (outer []) (RaiseSample.envelope (codePoints "null")) = true := by
    decide +kernel
  exact ⟨hinvalid, (sealedCall_closed_iff tagLength_runtime rfl hfits).mp (.inr hinvalid)⟩

open RaiseSample in
open CallSample (config outer issuer readings database) in
/-- The time `10 ^ 309` of an authentic envelope raises an `OverflowError` that nobody handles. -/
theorem huge_time_escapes :
    RaiseSample.runtime.TagLength ∧ (config false).keys.isEmpty = false ∧
    fitsBody (outer []) (RaiseSample.envelope hugeTime) = true ∧
    ¬ Closed RaiseSample.runtime issuer (config false) readings (outer [])
      (RaiseSample.envelope hugeTime) database := by
  have hraised : readCall RaiseSample.runtime (config false).keys readings.checkedAt
      (RaiseSample.envelope hugeTime) = .error .exception := by
    decide +kernel
  have hfits : fitsBody (outer []) (RaiseSample.envelope hugeTime) = true := by decide +kernel
  refine ⟨tagLength_runtime, rfl, hfits, ?_⟩
  generalize RaiseSample.envelope hugeTime = blob at hraised hfits
  rw [closed_iff rfl hfits]
  exact fun h => h hraised

end ManagedDirectory.Sealed
