import ManagedDirectory.Passport.Trust

/-!
# The time checks in seconds

`verify` and the request checks compare `i64` sums; here they are read as comparisons of the
numbers meant. `selfMade_accepted_iff` is the acceptance of a self-made token when the sums fit.

For requests the sender chooses the timestamp, so nothing bounds `now - ts`. `verifyRenewIn` and
`verifyKeyUpdateIn` are the two checks under either overflow behaviour, and `requests_fresh_iff`
says for which requests both builds do what the check is for.
-/

namespace ManagedDirectory.Passport

open Codec Lib

variable {C : Crypto}

/-! ## Self-made tokens -/

/-- The sums of the checks fit: with a skew and a grace that are not negative, each can only leave
`i64` at one end. -/
structure Window.SumsFit (w : Window) (exp : Int64) : Prop where
  skew : 0 ≤ w.skew.toInt
  grace : 0 ≤ w.grace.toInt
  late : w.now.toInt + w.skew.toInt < 2 ^ 63
  early : -2 ^ 63 ≤ w.now.toInt - w.skew.toInt
  exp : exp.toInt + w.grace.toInt < 2 ^ 63

namespace Window.SumsFit

variable {w : Window} {exp : Int64} (h : w.SumsFit exp)
include h

theorem toInt_late : (w.now + w.skew).toInt = w.now.toInt + w.skew.toInt := by
  have := w.now.le_toInt
  have := h.skew
  exact toInt_add_of_fits (by omega) h.late

theorem toInt_early : (w.now - w.skew).toInt = w.now.toInt - w.skew.toInt := by
  have := w.now.toInt_lt
  have := h.skew
  exact toInt_sub_of_fits h.early (by omega)

theorem toInt_exp : (exp + max w.grace 0).toInt = exp.toInt + w.grace.toInt := by
  have hgrace : (max w.grace 0).toInt = w.grace.toInt := by
    rw [toInt_max_zero, max_eq_left h.grace]
  have := exp.le_toInt
  have := h.grace
  have := h.exp
  rw [toInt_add_of_fits (by omega) (by omega), hgrace]

theorem not_before_iff (nbf : Int64) :
    nbf ≤ w.now + w.skew ↔ nbf.toInt - w.skew.toInt ≤ w.now.toInt := by
  rw [Int64.le_iff_toInt_le, h.toInt_late]
  omega

theorem not_after_iff (end_ : Int64) :
    w.now - w.skew ≤ end_ ↔ w.now.toInt ≤ end_.toInt + w.skew.toInt := by
  rw [Int64.le_iff_toInt_le, h.toInt_early]
  omega

theorem not_expired_iff :
    w.now - w.skew ≤ exp + max w.grace 0 ↔
      w.now.toInt ≤ exp.toInt + w.grace.toInt + w.skew.toInt := by
  rw [Int64.le_iff_toInt_le, h.toInt_early, h.toInt_exp]
  omega

theorem past_iff : w.now - w.skew > exp ↔ exp.toInt < w.now.toInt - w.skew.toInt := by
  rw [gt_iff_lt, Int64.lt_iff_toInt_lt, h.toInt_early]

end Window.SumsFit

theorem exists_parsePublicKey {text : String} :
    (∃ k, parsePublicKey C text = .ok k) ↔ ∃ k : VerifyingKey C, text = b64 k.bytes := by
  simp only [parsePublicKey_eq_ok]

/-- **A self-made token is accepted exactly when it is short enough, its fields are as expected
and the clock is within both windows**; what is returned is the body that was signed, and it is in
grace exactly after its own end. -/
theorem selfMade_accepted_iff (hcorrect : C.Correct) {root issuing : Bytes} {nbf exp : Int64}
    {body : PassportBody} {roots : List (VerifyingKey C)} {w : Window}
    (hroot : C.verifyingKey root ∈ roots) (hfit : w.SumsFit body.exp) :
    ((∃ r, verify C (selfMade C root issuing nbf exp body) roots w = .ok r ∧ r.passport = body) ↔
      byteLen (selfMade C root issuing nbf exp body) ≤ 4096 ∧
      (body.typ = "rdc-passport" ∧ body.v = 1 ∧ body.ikid = kidFor C (C.verifyingKey issuing) ∧
        body.idkAlg = "ed25519") ∧
      (∃ k, parsePublicKey C body.idk = .ok k) ∧ (∃ k, parsePublicKey C body.rdk = .ok k) ∧
      (nbf.toInt - w.skew.toInt ≤ w.now.toInt ∧ w.now.toInt ≤ exp.toInt + w.skew.toInt) ∧
      (body.nbf.toInt - w.skew.toInt ≤ w.now.toInt ∧
        w.now.toInt ≤ body.exp.toInt + w.grace.toInt + w.skew.toInt)) ∧
    ∀ r, verify C (selfMade C root issuing nbf exp body) roots w = .ok r →
      r.passport = body ∧
        (r.inGrace = true ↔ body.exp.toInt < w.now.toInt - w.skew.toInt) := by
  have hiff : ∀ r, verify C (selfMade C root issuing nbf exp body) roots w = .ok r ↔
      byteLen (selfMade C root issuing nbf exp body) ≤ maxTokenLen ∧
      SelfMadeChecks C issuing nbf exp body w ∧
      r = ⟨body, ikcBody C (C.verifyingKey issuing) nbf exp, w.now - w.skew > body.exp⟩ :=
    fun r => verify_selfMade_iff hroot (hcorrect root _) (hcorrect issuing _)
  refine ⟨⟨?_, ?_⟩, ?_⟩
  · rintro ⟨r, hr, -⟩
    obtain ⟨hlen, c, -⟩ := (hiff r).mp hr
    exact ⟨hlen, ⟨c.type.1, c.type.2, c.ikid, c.idk_alg⟩, exists_parsePublicKey.mpr c.idk,
      exists_parsePublicKey.mpr c.rdk,
      ⟨(hfit.not_before_iff _).mp c.ikc_nbf, (hfit.not_after_iff _).mp c.ikc_exp⟩,
      (hfit.not_before_iff _).mp c.nbf, hfit.not_expired_iff.mp c.exp⟩
  · rintro ⟨hlen, ⟨htyp, hv, hikid, halg⟩, hidk, hrdk, ⟨hikcNbf, hikcExp⟩, hnbf, hexp⟩
    refine ⟨_, (hiff _).mpr ⟨hlen, ?_, rfl⟩, rfl⟩
    exact {
      ikc_nbf := (hfit.not_before_iff _).mpr hikcNbf
      ikc_exp := (hfit.not_after_iff _).mpr hikcExp
      type := ⟨htyp, hv⟩
      ikid := hikid
      idk_alg := halg
      idk := exists_parsePublicKey.mp hidk
      rdk := exists_parsePublicKey.mp hrdk
      nbf := (hfit.not_before_iff _).mpr hnbf
      exp := hfit.not_expired_iff.mpr hexp }
  · intro r hr
    obtain ⟨-, -, rfl⟩ := (hiff r).mp hr
    exact ⟨rfl, by rw [decide_eq_true_iff, hfit.past_iff]⟩

open Sample in
/-- At 1050, with a skew of 10 and a grace of 100, the sample passport of 0 to 1000 is accepted in
grace under a certificate of 0 to 2000. -/
theorem sample_accepted_in_grace :
    ∃ r, verify prefixCrypto (selfMade prefixCrypto rootKey issuingKey 0 2000
        body) [prefixCrypto.verifyingKey rootKey] ⟨1050, 10, 100⟩ = .ok r ∧
      r.passport = body ∧ r.inGrace = true := by
  have hfit : Window.SumsFit ⟨1050, 10, 100⟩ body.exp := by
    constructor <;> decide
  have hspec := @selfMade_accepted_iff prefixCrypto prefixCrypto_correct rootKey
    issuingKey 0 2000 body [prefixCrypto.verifyingKey rootKey] ⟨1050, 10, 100⟩
    (List.mem_singleton.mpr rfl) hfit
  have hkey : ∀ sk : Bytes, ∃ k, parsePublicKey prefixCrypto (b64 (firstBytes 32 sk)) = .ok k :=
    fun sk => ⟨prefixCrypto.verifyingKey sk, parsePublicKey_eq_ok.mpr rfl⟩
  obtain ⟨r, hr, hbody⟩ := hspec.1.mpr
    ⟨byteLen_selfMade_le plainBody textLen_le, ⟨rfl, rfl, rfl, rfl⟩, hkey [3],
      hkey [9], by decide, by decide⟩
  exact ⟨r, hr, hbody, (hspec.2 r hr).2.mpr (by decide)⟩

/-! ## Requests under either overflow behaviour -/

def freshIn {α : Type} (o : Overflow) (now ts maxAge : Int64) (answer : α) :
    Option (Except Error α) := do
  let age ← o.distance now ts
  some do
    refuseIf (age > maxAge) .staleRequest
    pure answer

variable (C)

/-- `verify_renew` up to the age of the request. -/
def renewSigned (request : String) (expectedIdk : VerifyingKey C) : Except Error RenewBody := do
  let (bytes, sig) ← splitTwo request
  refuseIf (!C.verify expectedIdk.bytes (signed renewDomain bytes) sig) .badSignature
  let body ← orRefuse (renewLayout.fromSlice bytes) (.malformed "renew json")
  refuseIf (body.typ ≠ "rdc-renew" ∨ body.v ≠ version) (.unsupported "renew type/version")
  let idk ← unb64E body.idk
  refuseIf (idk ≠ expectedIdk.bytes) .wrongIssuer
  pure body

/-- `verify_key_update` up to the age of the request. -/
def keyUpdateSigned (request : String) (expectedOld : VerifyingKey C) :
    Except Error (KeyUpdateBody × VerifyingKey C) := do
  refuseIf (maxTokenLen < byteLen request) (.malformed "too long")
  let (p0, p1, p2) ← keyUpdateParts request
  let bytes ← unb64E p0
  let message := signed keyupdateDomain bytes
  let oldSig ← signature (← unb64E p1)
  refuseIf (!C.verify expectedOld.bytes message oldSig) .badSignature
  let body ← orRefuse (keyUpdateLayout.fromSlice bytes) (.malformed "key update json")
  refuseIf (body.typ ≠ "rdc-keyupdate" ∨ body.v ≠ version ∨ body.newAlg ≠ "ed25519")
    (.unsupported "key update type/version/alg")
  let old ← unb64E body.oldKey
  refuseIf (old ≠ expectedOld.bytes) .wrongIssuer
  let new ← verifyingKey C (← unb64E body.newKey)
  let newSig ← signature (← unb64E p2)
  refuseIf (!C.verify new.bytes message newSig) .badSignature
  pure (body, new)

/-- `verify_renew` in a build profile; `none` is a panic. -/
def verifyRenewIn (o : Overflow) (request : String) (expectedIdk : VerifyingKey C)
    (now maxAge : Int64) : Option (Except Error RenewBody) :=
  match renewSigned C request expectedIdk with
  | .error e => some (.error e)
  | .ok body => freshIn o now body.ts maxAge body

/-- `verify_key_update` in a build profile; `none` is a panic. -/
def verifyKeyUpdateIn (o : Overflow) (request : String) (expectedOld : VerifyingKey C)
    (now maxAge : Int64) : Option (Except Error (KeyUpdateBody × VerifyingKey C)) :=
  match keyUpdateSigned C request expectedOld with
  | .error e => some (.error e)
  | .ok (body, new) => freshIn o now body.ts maxAge (body, new)

variable {C}

theorem verifyRenew_eq_bind (request : String) (key : VerifyingKey C) (now maxAge : Int64) :
    verifyRenew C request key now maxAge = (do
      let body ← renewSigned C request key
      refuseIf ((now - body.ts).abs > maxAge) .staleRequest
      pure body) := by
  simp only [verifyRenew, renewSigned, bind_assoc, pure_bind]

/-! ## Which requests are fresh -/

/-- What a freshness check is for: it does not panic, and what it accepts is no older than `maxAge`
and no further ahead. -/
def ChecksAge {α : Type} (result : Option (Except Error α)) (ts : α → Int64) (now maxAge : Int64) :
    Prop :=
  result ≠ none ∧
    ∀ answer, result = some (.ok answer) → |now.toInt - (ts answer).toInt| ≤ maxAge.toInt

theorem checksAge_error {α : Type} (e : Error) (ts : α → Int64) (now maxAge : Int64) :
    ChecksAge (some (.error e)) ts now maxAge :=
  ⟨by simp, by simp⟩

/-- The age of a request that is signed is checked in both builds exactly when `now - ts` does not
leave `i64` upwards. -/
theorem checksAge_freshIn_iff {α : Type} (ts : α → Int64) (answer : α) {now maxAge : Int64}
    (hnow : 0 ≤ now.toInt) :
    (∀ o, ChecksAge (freshIn o now (ts answer) maxAge answer) ts now maxAge) ↔
      now.toInt - (ts answer).toInt < 2 ^ 63 := by
  constructor
  · intro h
    by_contra hfar
    refine (h .panics).1 ?_
    rw [freshIn, Overflow.distance_panics (by omega)]
    rfl
  · intro hnear o
    obtain ⟨d, hd, hage⟩ := Overflow.distance_eq (o := o) hnow hnear
    rw [freshIn, hd]
    refine ⟨by simp, fun given h => ?_⟩
    obtain ⟨hle, rfl⟩ : ¬ d > maxAge ∧ answer = given := by
      simpa only [Option.bind_eq_bind, Option.bind_some, Option.some.injEq, bind_ok_iff,
        refuseIf_eq_ok, exists_unit, pure_ok_iff] using h
    rw [← hage]
    exact Int64.le_iff_toInt_le.mp (Int64.not_lt.mp hle)

/-- A renewal that `key` signed and whose fields are as expected. -/
structure RenewSigned (request : String) (key : VerifyingKey C) (body : RenewBody) : Prop where
  short : byteLen request ≤ maxTokenLen
  carried : ∃ bytes sig, splitDots request = [b64 bytes, b64 sig] ∧ sig.length = 64 ∧
    C.verify key.bytes (signed renewDomain bytes) sig = true ∧
    renewLayout.fromSlice bytes = some body
  type : body.typ = "rdc-renew" ∧ body.v = version
  idk : body.idk = b64 key.bytes

/-- A key update that `old` and `new` signed and whose fields are as expected. -/
structure KeyUpdateSigned (request : String) (old new : VerifyingKey C) (body : KeyUpdateBody) :
    Prop where
  short : byteLen request ≤ maxTokenLen
  carried : ∃ bytes oldSig newSig, splitDots request = [b64 bytes, b64 oldSig, b64 newSig] ∧
    oldSig.length = 64 ∧ newSig.length = 64 ∧
    C.verify old.bytes (signed keyupdateDomain bytes) oldSig = true ∧
    C.verify new.bytes (signed keyupdateDomain bytes) newSig = true ∧
    keyUpdateLayout.fromSlice bytes = some body
  type : body.typ = "rdc-keyupdate" ∧ body.v = version ∧ body.newAlg = "ed25519"
  oldKey : body.oldKey = b64 old.bytes
  newKey : body.newKey = b64 new.bytes

theorem splitTwo_ok_iff {request : String} {bytes sig : Bytes} :
    splitTwo request = .ok (bytes, sig) ↔
      byteLen request ≤ maxTokenLen ∧ splitDots request = [b64 bytes, b64 sig] ∧
        sig.length = 64 := by
  simp only [splitTwo, bind_ok_iff, refuseIf_eq_ok, exists_unit, Nat.not_lt]
  refine and_congr_right fun _ => ?_
  split
  · rename_i p0 p1 heq
    simp only [bind_ok_iff, unb64E, orRefuse_eq_ok, pure_ok_iff, Prod.mk.injEq, signature_eq_ok,
      unb64_eq_some_iff, heq, List.cons.injEq, and_true]
    constructor
    · rintro ⟨_, rfl, _, rfl, _, ⟨hlen, rfl⟩, rfl, rfl⟩
      exact ⟨⟨rfl, rfl⟩, hlen⟩
    · rintro ⟨⟨rfl, rfl⟩, hlen⟩
      exact ⟨_, rfl, _, rfl, _, ⟨hlen, rfl⟩, rfl, rfl⟩
  · rename_i hshape
    simp only [reduceCtorEq, false_iff, not_and]
    exact fun heq => absurd heq (hshape _ _)

theorem renewSigned_ok_iff {request : String} {key : VerifyingKey C} {body : RenewBody} :
    renewSigned C request key = .ok body ↔ RenewSigned request key body := by
  simp only [renewSigned, bind_ok_iff, refuseIf_eq_ok, exists_unit, Prod.exists, orRefuse_eq_ok,
    pure_ok_iff, not_or, not_not, ne_eq, unb64E, unb64_eq_some_iff, not_not_eq_true,
    splitTwo_ok_iff]
  constructor
  · rintro ⟨bytes, sig, ⟨hlen, hsplit, hsig⟩, hverify, _, hjson, htype, _, hidk, rfl, rfl⟩
    exact ⟨hlen, ⟨bytes, sig, hsplit, hsig, hverify, hjson⟩, htype, hidk⟩
  · rintro ⟨hlen, ⟨bytes, sig, hsplit, hsig, hverify, hjson⟩, htype, hidk⟩
    exact ⟨bytes, sig, ⟨hlen, hsplit, hsig⟩, hverify, _, hjson, htype, _, hidk, rfl, rfl⟩

theorem keyUpdateParts_ok_iff {request p0 p1 p2 : String} :
    keyUpdateParts request = .ok (p0, p1, p2) ↔ splitDots request = [p0, p1, p2] := by
  refine ⟨keyUpdateParts_ok, fun h => ?_⟩
  rw [keyUpdateParts, h]

theorem keyUpdateSigned_ok_iff {request : String} {old new : VerifyingKey C}
    {body : KeyUpdateBody} :
    keyUpdateSigned C request old = .ok (body, new) ↔ KeyUpdateSigned request old new body := by
  simp only [keyUpdateSigned, bind_ok_iff, refuseIf_eq_ok, exists_unit, Prod.exists,
    orRefuse_eq_ok, pure_ok_iff, not_or, not_not, ne_eq, unb64E, unb64_eq_some_iff,
    not_not_eq_true, signature_eq_ok, verifyingKey_eq_ok, Prod.mk.injEq, keyUpdateParts_ok_iff,
    Nat.not_lt]
  constructor
  · rintro ⟨hlen, p0, p1, p2, hparts, bytes, rfl, _, rfl, oldSig, ⟨hold, rfl⟩, holdSig, _, hjson,
      htype, _, holdKey, rfl, _, hnewKey, _, rfl, _, rfl, newSig, ⟨hnew, rfl⟩, hnewSig, rfl, rfl⟩
    exact ⟨hlen, ⟨bytes, _, _, hparts, hold, hnew, holdSig, hnewSig, hjson⟩, htype, holdKey,
      hnewKey⟩
  · rintro ⟨hlen, ⟨bytes, oldSig, newSig, hparts, hold, hnew, holdSig, hnewSig, hjson⟩, htype,
      holdKey, hnewKey⟩
    exact ⟨hlen, _, _, _, hparts, bytes, rfl, _, rfl, oldSig, ⟨hold, rfl⟩, holdSig, _, hjson,
      htype, _, holdKey, rfl, _, hnewKey, _, rfl, _, rfl, newSig, ⟨hnew, rfl⟩, hnewSig, rfl, rfl⟩

/-- **Both builds check the age of a request exactly when its timestamp, if the request is signed
at all, is less than `2 ^ 63` seconds before the clock.** -/
theorem requests_fresh_iff (request : String) (key : VerifyingKey C) {now : Int64} (maxAge : Int64)
    (hnow : 0 ≤ now.toInt) :
    ((∀ o, ChecksAge (verifyRenewIn C o request key now maxAge) (·.ts) now maxAge) ↔
      ∀ body, RenewSigned request key body → now.toInt - body.ts.toInt < 2 ^ 63) ∧
    ((∀ o, ChecksAge (verifyKeyUpdateIn C o request key now maxAge) (·.1.ts) now maxAge) ↔
      ∀ new body, KeyUpdateSigned request key new body →
        now.toInt - body.ts.toInt < 2 ^ 63) := by
  constructor
  · unfold verifyRenewIn
    simp only [← renewSigned_ok_iff]
    cases renewSigned C request key with
    | error e => simp [checksAge_error]
    | ok body =>
      simp only [Except.ok.injEq, forall_eq']
      exact checksAge_freshIn_iff RenewBody.ts body hnow
  · unfold verifyKeyUpdateIn
    simp only [← keyUpdateSigned_ok_iff]
    cases keyUpdateSigned C request key with
    | error e => simp [checksAge_error]
    | ok given =>
      obtain ⟨body, new⟩ := given
      simp only [Except.ok.injEq, Prod.mk.injEq, and_imp, forall_eq']
      exact checksAge_freshIn_iff (fun given : KeyUpdateBody × VerifyingKey C => given.1.ts)
        (body, new) hnow

namespace Sample

def renewBody (ts : Int64) : RenewBody where
  typ := "rdc-renew"
  v := version
  rid := body.rid
  did := body.did
  idk := b64 (firstBytes 32 [3])
  ts := ts
  nonce := "n1"

theorem renew_short (ts : Int64) :
    byteLen (signRenew prefixCrypto [3] (renewBody ts)) ≤ maxTokenLen := by
  refine byteLen_signRenew_le ?_ ?_
  · simp only [List.forall_mem_cons, renewBody]
    exact ⟨by decide, by decide, by decide, plain_b64 _, by decide, by simp⟩
  · have hidk : (renewBody ts).idk.length = 43 := by
      simp [renewBody, length_b64, length_firstBytes]
    have hrest : (renewBody ts).typ.length + (renewBody ts).rid.length +
        (renewBody ts).did.length + (renewBody ts).nonce.length ≤ 1000 :=
      show (renewBody 0).typ.length + (renewBody 0).rid.length +
        (renewBody 0).did.length + (renewBody 0).nonce.length ≤ 1000 by decide
    omega

theorem renew_signed (ts : Int64) :
    renewSigned prefixCrypto (signRenew prefixCrypto [3] (renewBody ts))
      (prefixCrypto.verifyingKey [3]) = .ok (renewBody ts) := by
  have hzero : (ts - ts).abs ≤ 600 := by
    rw [Int64.sub_self]
    decide
  have hok := verifyRenew_signRenew prefixCrypto_correct (renew_short ts) ⟨rfl, rfl⟩ rfl hzero
  rw [verifyRenew_eq_bind, bind_ok_iff] at hok
  obtain ⟨given, hgiven, hrest⟩ := hok
  simp only [bind_ok_iff, pure_ok_iff, refuseIf_eq_ok, exists_unit] at hrest
  rw [hgiven, hrest.2]

end Sample

open Sample in
/-- A renewal made at 900 has its age checked by both builds at 1000. -/
theorem sample_renewal_fresh :
    ChecksAge (verifyRenewIn prefixCrypto .wraps (signRenew prefixCrypto [3] (renewBody 900))
      (prefixCrypto.verifyingKey [3]) 1000 600) (·.ts) 1000 600 ∧
    ChecksAge (verifyRenewIn prefixCrypto .panics
      (signRenew prefixCrypto [3] (renewBody 900))
      (prefixCrypto.verifyingKey [3]) 1000 600) (·.ts) 1000 600 := by
  have hboth : ∀ o, ChecksAge (verifyRenewIn prefixCrypto o
      (signRenew prefixCrypto [3] (renewBody 900)) (prefixCrypto.verifyingKey [3]) 1000 600)
      (·.ts) 1000 600 := by
    refine (requests_fresh_iff _ _ 600 (by decide)).1.mpr fun body hbody => ?_
    rw [← renewSigned_ok_iff, renew_signed] at hbody
    cases hbody
    decide
  exact ⟨hboth .wraps, hboth .panics⟩

open Sample in
/-- A renewal stamped exactly `2 ^ 63` seconds before the clock is accepted by the release build,
where the difference wraps to a number `abs` leaves negative, and ends the debug build. -/
theorem far_past_renewal_accepted :
    ∃ ts : Int64, 600 < |(1000 : Int64).toInt - ts.toInt| ∧
      verifyRenewIn prefixCrypto .wraps (signRenew prefixCrypto [3] (renewBody ts))
        (prefixCrypto.verifyingKey [3]) 1000 600 = some (.ok (renewBody ts)) ∧
      verifyRenewIn prefixCrypto .panics (signRenew prefixCrypto [3] (renewBody ts))
        (prefixCrypto.verifyingKey [3]) 1000 600 = none := by
  refine ⟨-9223372036854774808, by decide, ?_, ?_⟩
  · rw [verifyRenewIn, renew_signed]
    rfl
  · have hpanic : Overflow.panics.distance 1000 (-9223372036854774808) = none :=
      Overflow.distance_panics (by decide)
    rw [verifyRenewIn, renew_signed]
    simp only [freshIn, renewBody, hpanic]
    rfl

end ManagedDirectory.Passport
