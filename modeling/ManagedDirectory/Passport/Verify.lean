import ManagedDirectory.Passport.Format
import ManagedDirectory.Codec.Length

/-!
# What verification checks

`verify_ok_iff` reads the early returns of `verify` as one list of facts, `Checks`;
`verifyRenew_ok_iff` and `verifyKeyUpdate_ok_iff` do the same for the signed requests. With them
`verify_selfMade_iff` says exactly when a token made by `sign_ikc` and `sign_passport` is accepted.
-/

namespace ManagedDirectory.Passport

open Codec Lib List

variable {C : Crypto}

/-! ## Tokens -/

variable {bytes : Bytes} {maxAge now : Int64} {body : RenewBody} {request : String}

theorem tokenParts_ok_iff {token p1 p2 p3 p4 : String} :
    tokenParts token = .ok (p1, p2, p3, p4) ↔
      splitDots token = [tokenPrefix, p1, p2, p3, p4] := by
  unfold tokenParts
  split
  · rename_i h
    simp only [bind_ok_iff, refuseIf_eq_ok, pure_ok_iff, exists_unit, not_not, ne_eq, h,
      List.cons.injEq, Prod.mk.injEq, and_true]
  · rename_i h
    simp only [reduceCtorEq, false_iff]
    exact h _ _ _ _ _

structure Parts where
  ikcBytes : Bytes
  ikcSig : Bytes
  bodyBytes : Bytes
  bodySig : Bytes

def Parts.fields (p : Parts) : List String :=
  [tokenPrefix, b64 p.ikcBytes, b64 p.ikcSig, b64 p.bodyBytes, b64 p.bodySig]

/-- Everything `verify` checks about decoded parts. -/
structure Checks (roots : List (VerifyingKey C)) (w : Window) (p : Parts)
    (issuing : VerifyingKey C) (ikc : IkcBody) (passport : PassportBody) : Prop where
  ikcSig_length : p.ikcSig.length = 64
  bodySig_length : p.bodySig.length = 64
  root : ∃ root ∈ roots, C.verify root.bytes (signed ikcDomain p.ikcBytes) p.ikcSig = true
  ikc_json : ikcLayout.fromSlice p.ikcBytes = some ikc
  ikc_type : ikc.typ = "rdc-ikc" ∧ ikc.v = version
  ikc_nbf : ikc.nbf ≤ w.now + w.skew
  ikc_exp : w.now - w.skew ≤ ikc.exp
  ikc_key : ikc.key = b64 issuing.bytes
  ikc_kid : kidFor C issuing = ikc.kid
  issued : C.verify issuing.bytes (signed passportDomain p.bodyBytes) p.bodySig = true
  json : passportLayout.fromSlice p.bodyBytes = some passport
  type : passport.typ = "rdc-passport" ∧ passport.v = version
  ikid : passport.ikid = ikc.kid
  idk_alg : passport.idkAlg = "ed25519"
  idk : ∃ k : VerifyingKey C, passport.idk = b64 k.bytes
  rdk : ∃ k : VerifyingKey C, passport.rdk = b64 k.bytes
  nbf : passport.nbf ≤ w.now + w.skew
  exp : w.now - w.skew ≤ passport.exp + max w.grace 0

theorem not_not_eq_true {b : Bool} : ¬ (!b) = true ↔ b = true := by
  cases b <;> simp

/-- **`verify` succeeds exactly when every check does.** -/
theorem verify_ok_iff {token : String} {roots : List (VerifyingKey C)} {w : Window}
    {r : Verified} :
    verify C token roots w = .ok r ↔
      byteLen token ≤ maxTokenLen ∧
      ∃ p : Parts, splitDots token = p.fields ∧
      ∃ issuing ikc passport, Checks (C := C) roots w p issuing ikc passport ∧
        r = ⟨passport, ikc, w.now - w.skew > passport.exp⟩ := by
  simp only [verify, bind_ok_iff, refuseIf_eq_ok, pure_ok_iff, exists_unit, not_not, ne_eq,
    tokenParts_ok_iff, Prod.exists, unb64E, orRefuse_eq_ok, signature_eq_ok, unb64_eq_some_iff,
    verifyingKey_eq_ok, parsePublicKey_eq_ok, not_or, Nat.not_lt, not_not_eq_true,
    any_eq_true, Int64.not_lt, gt_iff_lt]
  refine and_congr_right fun _ => ⟨?_, ?_⟩
  · rintro ⟨_, _, _, _, hsplit, ikcBytes, rfl, ikcSig, rfl, _, ⟨h1, rfl⟩, bodyBytes, rfl,
      bodySig, rfl, _, ⟨h2, rfl⟩, h3, ikc, h4, h5, h6, h7, _, h8, issuing, rfl, h9, h10, passport,
      h11, h12, h13, h14, idk, h15, rdk, h16, h17, h18, rfl⟩
    exact ⟨⟨ikcBytes, ikcSig, bodyBytes, bodySig⟩, hsplit, issuing, ikc, passport,
      ⟨h1, h2, h3, h4, h5, h6, h7, h8, h9, h10, h11, h12, h13, h14, ⟨idk, h15⟩, ⟨rdk, h16⟩, h17,
        h18⟩, rfl⟩
  · rintro ⟨p, hsplit, issuing, ikc, passport, c, rfl⟩
    obtain ⟨idk, hidk⟩ := c.idk
    obtain ⟨rdk, hrdk⟩ := c.rdk
    exact ⟨_, _, _, _, hsplit, _, rfl, _, rfl, _, ⟨c.ikcSig_length, rfl⟩, _, rfl, _, rfl, _,
      ⟨c.bodySig_length, rfl⟩, c.root, ikc, c.ikc_json, c.ikc_type, c.ikc_nbf, c.ikc_exp, _,
      c.ikc_key, issuing, rfl, c.ikc_kid, c.issued, passport, c.json, c.type, c.ikid, c.idk_alg,
      idk, hidk, rdk, hrdk, c.nbf, c.exp, rfl⟩

/-! ## Self-made tokens -/

/-- The parts of a token made by `sign_ikc` and `sign_passport`. -/
def selfMadeParts (root issuing : Bytes) (nbf exp : Int64) (body : PassportBody) : Parts :=
  let ikcBytes := ikcLayout.toVec (ikcBody C (C.verifyingKey issuing) nbf exp)
  let bodyBytes := passportLayout.toVec body
  ⟨ikcBytes, C.sign root (signed ikcDomain ikcBytes), bodyBytes,
    C.sign issuing (signed passportDomain bodyBytes)⟩

def selfMade (C : Crypto) (root issuing : Bytes) (nbf exp : Int64) (body : PassportBody) : String :=
  signPassport C issuing (signIkc C root (C.verifyingKey issuing) nbf exp) body

theorem splitDots_selfMade (root issuing : Bytes) (nbf exp : Int64) (body : PassportBody) :
    splitDots (selfMade C root issuing nbf exp body) =
      (selfMadeParts (C := C) root issuing nbf exp body).fields := by
  have hprefix : ∀ c ∈ tokenPrefix.toList, c ≠ '.' := by simp [tokenPrefix]
  simp only [selfMade, signPassport, signIkc, String.append_assoc]
  rw [splitDots_append_dot hprefix, splitDots_append_dot (b64_no_dot _),
    splitDots_append_dot (b64_no_dot _), splitDots_append_dot (b64_no_dot _),
    splitDots_of_no_dot (b64_no_dot _)]
  rfl

theorem Parts.fields_inj {p q : Parts} (h : p.fields = q.fields) : p = q := by
  obtain ⟨a, b, c, d⟩ := p
  simp only [Parts.fields, List.cons.injEq, and_true, true_and] at h
  obtain ⟨ha, hb, hc, hd⟩ := h
  obtain rfl := b64_inj ha
  obtain rfl := b64_inj hb
  obtain rfl := b64_inj hc
  obtain rfl := b64_inj hd
  rfl

/-- What is left to check about a token that carries the right signatures. -/
structure SelfMadeChecks (C : Crypto) (issuing : Bytes) (nbf exp : Int64) (body : PassportBody)
    (w : Window) : Prop where
  ikc_nbf : nbf ≤ w.now + w.skew
  ikc_exp : w.now - w.skew ≤ exp
  type : body.typ = "rdc-passport" ∧ body.v = version
  ikid : body.ikid = kidFor C (C.verifyingKey issuing)
  idk_alg : body.idkAlg = "ed25519"
  idk : ∃ k : VerifyingKey C, body.idk = b64 k.bytes
  rdk : ∃ k : VerifyingKey C, body.rdk = b64 k.bytes
  nbf : body.nbf ≤ w.now + w.skew
  exp : w.now - w.skew ≤ body.exp + max w.grace 0

/-- **Exactly when a self-made token is accepted**, if its two signatures are. -/
theorem verify_selfMade_iff {root issuing : Bytes} {nbf exp : Int64} {body : PassportBody}
    {roots : List (VerifyingKey C)} {w : Window} {r : Verified}
    (hroot : C.verifyingKey root ∈ roots)
    (hikc : C.verify (C.publicKey root)
      (signed ikcDomain (selfMadeParts (C := C) root issuing nbf exp body).ikcBytes)
      (selfMadeParts (C := C) root issuing nbf exp body).ikcSig = true)
    (hbody : C.verify (C.publicKey issuing)
      (signed passportDomain (selfMadeParts (C := C) root issuing nbf exp body).bodyBytes)
      (selfMadeParts (C := C) root issuing nbf exp body).bodySig = true) :
    verify C (selfMade C root issuing nbf exp body) roots w = .ok r ↔
      byteLen (selfMade C root issuing nbf exp body) ≤ maxTokenLen ∧
      SelfMadeChecks C issuing nbf exp body w ∧
      r = ⟨body, ikcBody C (C.verifyingKey issuing) nbf exp, w.now - w.skew > body.exp⟩ := by
  rw [verify_ok_iff, splitDots_selfMade]
  refine and_congr_right fun _ => ⟨?_, ?_⟩
  · rintro ⟨p, hp, key, ikc, passport, c, rfl⟩
    obtain rfl := Parts.fields_inj hp
    obtain rfl : ikcBody C (C.verifyingKey issuing) nbf exp = ikc := by
      simpa [selfMadeParts] using c.ikc_json
    obtain rfl : body = passport := by simpa [selfMadeParts] using c.json
    exact ⟨⟨c.ikc_nbf, c.ikc_exp, c.type, c.ikid, c.idk_alg, c.idk, c.rdk, c.nbf, c.exp⟩, rfl⟩
  · rintro ⟨c, rfl⟩
    refine ⟨_, rfl, C.verifyingKey issuing, ikcBody C (C.verifyingKey issuing) nbf exp, body, ?_,
      rfl⟩
    exact {
      ikcSig_length := C.length_sign _ _
      bodySig_length := C.length_sign _ _
      root := ⟨_, hroot, hikc⟩
      ikc_json := by simp [selfMadeParts]
      ikc_type := ⟨rfl, rfl⟩
      ikc_nbf := c.ikc_nbf
      ikc_exp := c.ikc_exp
      ikc_key := rfl
      ikc_kid := rfl
      issued := hbody
      json := by simp [selfMadeParts]
      type := c.type
      ikid := c.ikid
      idk_alg := c.idk_alg
      idk := c.idk
      rdk := c.rdk
      nbf := c.nbf
      exp := c.exp }

/-! ## Token length -/

theorem natAbs_toInt_lt (z : Int64) : z.toInt.natAbs < 2 ^ 64 := by
  have hlo := z.le_toInt
  have hhi := z.toInt_lt
  omega

structure PlainBody (body : PassportBody) : Prop where
  plain : ∀ s ∈ [body.typ, body.serial, body.rid, body.did, body.idk, body.idkAlg, body.rdk,
    body.prot, body.ikid], Plain s
  scopes : body.scopes = scopes

def PassportBody.textLen (body : PassportBody) : Nat :=
  body.typ.length + body.serial.length + body.rid.length + body.did.length + body.idk.length +
    body.idkAlg.length + body.rdk.length + body.prot.length + body.ikid.length

theorem length_passport_toVec_le {body : PassportBody} (h : PlainBody body) :
    (passportLayout.toVec body).length ≤ body.textLen + 259 := by
  have hp := h.plain
  simp only [forall_mem_cons] at hp
  obtain ⟨h1, h2, h3, h4, h5, h6, h7, h8, h9, -⟩ := hp
  have hv := body.v.toNat_lt
  have hscopes : ∀ s ∈ body.scopes, Plain s := by
    rw [h.scopes]
    decide
  refine (Layout.length_toVec_le (by decide) ?_).trans ?_
  · simp only [passportLayout, forall_mem_cons, Printable.Plain]
    exact ⟨h1, by omega, h2, h3, h4, h5, h6, h7, h8, hscopes, natAbs_toInt_lt _,
      natAbs_toInt_lt _, natAbs_toInt_lt _, h9, by simp⟩
  · have hnames : (passportLayout.names.map fun name => name.length + 4).sum = 108 := by decide
    have hsum : (body.scopes.map fun s => s.length + 3).sum = 45 := by
      rw [h.scopes]
      decide
    rw [hnames]
    simp only [passportLayout, map_cons, map_nil, sum_cons, sum_nil,
      Printable.width, hsum, PassportBody.textLen]
    omega

theorem length_ikc_toVec_le (key : VerifyingKey C) (nbf exp : Int64) :
    (ikcLayout.toVec (ikcBody C key nbf exp)).length ≤ 200 := by
  refine (Layout.length_toVec_le (by decide) ?_).trans ?_
  · simp only [ikcLayout, ikcBody, forall_mem_cons, Printable.Plain]
    exact ⟨by decide, by decide, plain_hex _, plain_b64 _, natAbs_toInt_lt _, natAbs_toInt_lt _,
      by simp⟩
  · have hnames : (ikcLayout.names.map fun name => name.length + 4).sum = 40 := by decide
    have hkid : (kidFor C key).length = 16 := by
      simp [kidFor, length_hex, C.length_sha256]
    have hkey : (b64 key.bytes).length = 43 := by
      rw [length_b64, key.length_eq]
    have htyp : "rdc-ikc".length = 7 := by decide
    rw [hnames]
    simp only [ikcLayout, ikcBody, map_cons, map_nil, sum_cons, sum_nil,
      Printable.width, hkid, hkey, htyp]
    omega

theorem byteLen_selfMade_le {root issuing : Bytes} {nbf exp : Int64} {body : PassportBody}
    (hplain : PlainBody body) (hlen : body.textLen ≤ 2000) :
    byteLen (selfMade C root issuing nbf exp body) ≤ maxTokenLen := by
  have hikc := length_ikc_toVec_le (C.verifyingKey issuing) nbf exp
  have hbody := length_passport_toVec_le hplain
  have hprefix : byteLen tokenPrefix = 5 := by decide
  have hdot : byteLen "." = 1 := by decide
  simp only [selfMade, signPassport, signIkc, byteLen_append, byteLen_b64, C.length_sign, hprefix,
    hdot, maxTokenLen]
  omega

/-! ## Requests -/

/-- Everything `verify_renew` checks, for a request with body `bytes`. -/
structure RenewChecks (request : String) (key : VerifyingKey C) (now maxAge : Int64)
    (bytes : Bytes) (body : RenewBody) : Prop where
  carried : ∃ sig, splitDots request = [b64 bytes, b64 sig] ∧
    C.verify key.bytes (signed renewDomain bytes) sig = true
  json : renewLayout.fromSlice bytes = some body
  type : body.typ = "rdc-renew" ∧ body.v = version
  idk : body.idk = b64 key.bytes
  fresh : (now - body.ts).abs ≤ maxAge

/-- Everything `verify_key_update` checks, for a request with body `bytes`. -/
structure KeyUpdateChecks (request : String) (old new : VerifyingKey C) (now maxAge : Int64)
    (bytes : Bytes) (body : KeyUpdateBody) : Prop where
  carried : ∃ oldSig newSig, splitDots request = [b64 bytes, b64 oldSig, b64 newSig] ∧
    C.verify old.bytes (signed keyupdateDomain bytes) oldSig = true ∧
    C.verify new.bytes (signed keyupdateDomain bytes) newSig = true
  json : keyUpdateLayout.fromSlice bytes = some body
  type : body.typ = "rdc-keyupdate" ∧ body.v = version ∧ body.newAlg = "ed25519"
  oldKey : body.oldKey = b64 old.bytes
  newKey : body.newKey = b64 new.bytes
  fresh : (now - body.ts).abs ≤ maxAge

def requestBytes (request : String) : Option Bytes :=
  match splitDots request with
  | p0 :: _ => unb64 p0
  | [] => none

theorem RenewChecks.requestBytes_eq {key : VerifyingKey C}
    (h : RenewChecks request key now maxAge bytes body) :
    requestBytes request = some bytes := by
  obtain ⟨sig, hsplit, -⟩ := h.carried
  rw [requestBytes, hsplit]
  exact unb64_b64 bytes

theorem KeyUpdateChecks.requestBytes_eq {old new : VerifyingKey C} {body : KeyUpdateBody}
    (h : KeyUpdateChecks request old new now maxAge bytes body) :
    requestBytes request = some bytes := by
  obtain ⟨oldSig, newSig, hsplit, -⟩ := h.carried
  rw [requestBytes, hsplit]
  exact unb64_b64 bytes

theorem splitTwo_ok {sig : Bytes} (h : splitTwo request = .ok (bytes, sig)) :
    splitDots request = [b64 bytes, b64 sig] := by
  simp only [splitTwo, bind_ok_iff, refuseIf_eq_ok, exists_unit] at h
  obtain ⟨-, h⟩ := h
  split at h
  · rename_i heq
    simp only [bind_ok_iff, unb64E, orRefuse_eq_ok, pure_ok_iff, Prod.mk.injEq, signature_eq_ok,
      unb64_eq_some_iff] at h
    obtain ⟨_, rfl, _, rfl, _, ⟨-, rfl⟩, rfl, rfl⟩ := h
    exact heq
  · exact absurd h (by simp)

theorem verifyRenew_ok {key : VerifyingKey C} (h : verifyRenew C request key now maxAge = .ok body)
    :
    ∃ bytes, RenewChecks request key now maxAge bytes body := by
  simp only [verifyRenew, bind_ok_iff, refuseIf_eq_ok, exists_unit, Prod.exists, orRefuse_eq_ok,
    pure_ok_iff, not_or, not_not, ne_eq, unb64E, unb64_eq_some_iff, not_not_eq_true,
    Int64.not_lt, gt_iff_lt] at h
  obtain ⟨bytes, sig, hsplit, hsig, _, hjson, htype, _, hidk, rfl, hfresh, rfl⟩ := h
  exact ⟨bytes, ⟨sig, splitTwo_ok hsplit, hsig⟩, hjson, htype, hidk, hfresh⟩

theorem keyUpdateParts_ok {p0 p1 p2 : String} (h : keyUpdateParts request = .ok (p0, p1, p2)) :
    splitDots request = [p0, p1, p2] := by
  unfold keyUpdateParts at h
  split at h
  · rename_i heq
    cases h
    exact heq
  · exact absurd h (by simp)

theorem verifyKeyUpdate_ok {old new : VerifyingKey C} {body : KeyUpdateBody}
    (h : verifyKeyUpdate C request old now maxAge = .ok (body, new)) :
    ∃ bytes, KeyUpdateChecks request old new now maxAge bytes body := by
  simp only [verifyKeyUpdate, bind_ok_iff, refuseIf_eq_ok, exists_unit, Prod.exists,
    orRefuse_eq_ok, pure_ok_iff, not_or, not_not, ne_eq, unb64E, unb64_eq_some_iff,
    not_not_eq_true, signature_eq_ok, verifyingKey_eq_ok, Int64.not_lt, gt_iff_lt,
    Prod.mk.injEq] at h
  obtain ⟨-, p0, p1, p2, hparts, bytes, rfl, _, rfl, oldSig, ⟨-, rfl⟩, holdSig, _, hjson, htype, _,
    hold, rfl, _, hnew, _, rfl, _, rfl, newSig, ⟨-, rfl⟩, hnewSig, hfresh, rfl, rfl⟩ := h
  exact ⟨bytes, ⟨_, _, keyUpdateParts_ok hparts, holdSig, hnewSig⟩, hjson, htype, hold, hnew,
    hfresh⟩

/-! ## Self-made requests -/

theorem byteLen_signRenew_le {identity : Bytes}
    (hplain : ∀ s ∈ [body.typ, body.rid, body.did, body.idk, body.nonce], Plain s)
    (hlen : body.typ.length + body.rid.length + body.did.length + body.idk.length +
      body.nonce.length ≤ 2000) : byteLen (signRenew C identity body) ≤ maxTokenLen := by
  simp only [forall_mem_cons] at hplain
  obtain ⟨h1, h2, h3, h4, h5, -⟩ := hplain
  have hv := body.v.toNat_lt
  have hbody : (renewLayout.toVec body).length ≤ 2200 := by
    refine (Layout.length_toVec_le (by decide) ?_).trans ?_
    · simp only [renewLayout, forall_mem_cons, Printable.Plain]
      exact ⟨h1, by omega, h2, h3, h4, natAbs_toInt_lt _, h5, by simp⟩
    · have hnames : (renewLayout.names.map fun name => name.length + 4).sum = 48 := by decide
      rw [hnames]
      simp only [renewLayout, map_cons, map_nil, sum_cons, sum_nil,
        Printable.width]
      omega
  have hdot : byteLen "." = 1 := by decide
  simp only [signRenew, byteLen_append, byteLen_b64, C.length_sign, hdot, maxTokenLen]
  omega

theorem splitDots_signRenew (identity : Bytes) (body : RenewBody) :
    splitDots (signRenew C identity body) = [b64 (renewLayout.toVec body),
      b64 (C.sign identity (signed renewDomain (renewLayout.toVec body)))] := by
  rw [signRenew, String.append_assoc, splitDots_append_dot (b64_no_dot _),
    splitDots_of_no_dot (b64_no_dot _)]

theorem requestBytes_signRenew (identity : Bytes) (body : RenewBody) :
    requestBytes (signRenew C identity body) = some (renewLayout.toVec body) := by
  rw [requestBytes, splitDots_signRenew]
  exact unb64_b64 _

theorem verifyRenew_signRenew {identity : Bytes} (hcorrect : C.Correct)
    (hlen : byteLen (signRenew C identity body) ≤ maxTokenLen)
    (htype : body.typ = "rdc-renew" ∧ body.v = version)
    (hidk : body.idk = b64 (C.publicKey identity)) (hfresh : (now - body.ts).abs ≤ maxAge) :
    verifyRenew C (signRenew C identity body) (C.verifyingKey identity) now maxAge = .ok body := by
  have htwo : splitTwo (signRenew C identity body) = .ok (renewLayout.toVec body,
      C.sign identity (signed renewDomain (renewLayout.toVec body))) := by
    simp only [splitTwo, bind_ok_iff, refuseIf_eq_ok, exists_unit, Nat.not_lt]
    refine ⟨hlen, ?_⟩
    rw [splitDots_signRenew]
    simp only [bind_ok_iff, unb64E, orRefuse_eq_ok, unb64_b64, Option.some.injEq, exists_eq_left',
      signature_eq_ok, C.length_sign, true_and, pure_ok_iff]
  simp only [verifyRenew, bind_ok_iff, htwo, Except.ok.injEq, exists_eq_left', refuseIf_eq_ok,
    exists_unit, orRefuse_eq_ok, Layout.fromSlice_toVec, Option.some.injEq, unb64E, pure_ok_iff,
    not_not_eq_true, not_or, not_not, ne_eq, gt_iff_lt, Int64.not_lt, hidk, unb64_b64]
  exact ⟨hcorrect identity _, htype, rfl, hfresh, trivial⟩

theorem byteLen_signKeyUpdate_le {old new : Bytes} {body : KeyUpdateBody}
    (hplain : ∀ s ∈ [body.typ, body.rid, body.did, body.oldKey, body.newKey, body.newAlg, body.prot,
      body.nonce], Plain s)
    (hlen : body.typ.length + body.rid.length + body.did.length + body.oldKey.length +
      body.newKey.length + body.newAlg.length + body.prot.length + body.nonce.length ≤ 2000) :
    byteLen (signKeyUpdate C old new body) ≤ maxTokenLen := by
  simp only [forall_mem_cons] at hplain
  obtain ⟨h1, h2, h3, h4, h5, h6, h7, h8, -⟩ := hplain
  have hv := body.v.toNat_lt
  have hbody : (keyUpdateLayout.toVec body).length ≤ 2300 := by
    refine (Layout.length_toVec_le (by decide) ?_).trans ?_
    · simp only [keyUpdateLayout, forall_mem_cons, Printable.Plain]
      exact ⟨h1, by omega, h2, h3, h4, h5, h6, h7, natAbs_toInt_lt _, h8, by simp⟩
    · have hnames : (keyUpdateLayout.names.map fun name => name.length + 4).sum = 82 := by decide
      rw [hnames]
      simp only [keyUpdateLayout, map_cons, map_nil, sum_cons, sum_nil,
        Printable.width]
      omega
  have hdot : byteLen "." = 1 := by decide
  simp only [signKeyUpdate, byteLen_append, byteLen_b64, C.length_sign, hdot, maxTokenLen]
  omega

theorem splitDots_signKeyUpdate (old new : Bytes) (body : KeyUpdateBody) :
    splitDots (signKeyUpdate C old new body) =
      [b64 (keyUpdateLayout.toVec body),
        b64 (C.sign old (signed keyupdateDomain (keyUpdateLayout.toVec body))),
        b64 (C.sign new (signed keyupdateDomain (keyUpdateLayout.toVec body)))] := by
  simp only [signKeyUpdate, String.append_assoc]
  rw [splitDots_append_dot (b64_no_dot _), splitDots_append_dot (b64_no_dot _),
    splitDots_of_no_dot (b64_no_dot _)]

theorem verifyKeyUpdate_signKeyUpdate {old new : Bytes} {body : KeyUpdateBody}
    (hcorrect : C.Correct) (hlen : byteLen (signKeyUpdate C old new body) ≤ maxTokenLen)
    (htype : body.typ = "rdc-keyupdate" ∧ body.v = version ∧ body.newAlg = "ed25519")
    (hold : body.oldKey = b64 (C.publicKey old)) (hnew : body.newKey = b64 (C.publicKey new))
    (hfresh : (now - body.ts).abs ≤ maxAge) :
    verifyKeyUpdate C (signKeyUpdate C old new body) (C.verifyingKey old) now maxAge =
      .ok (body, C.verifyingKey new) := by
  have hkey : verifyingKey C (C.publicKey new) = .ok (C.verifyingKey new) :=
    verifyingKey_eq_ok.mpr rfl
  have hparts : keyUpdateParts (signKeyUpdate C old new body) =
      .ok (b64 (keyUpdateLayout.toVec body),
        b64 (C.sign old (signed keyupdateDomain (keyUpdateLayout.toVec body))),
        b64 (C.sign new (signed keyupdateDomain (keyUpdateLayout.toVec body)))) := by
    rw [keyUpdateParts, splitDots_signKeyUpdate]
  simp only [verifyKeyUpdate, bind_ok_iff, refuseIf_eq_ok, exists_unit, hparts, Except.ok.injEq,
    exists_eq_left', unb64E, orRefuse_eq_ok, unb64_b64, Option.some.injEq, signature_eq_ok,
    C.length_sign, true_and, not_not_eq_true, Layout.fromSlice_toVec, not_or, not_not, ne_eq,
    hold, hnew, hkey, gt_iff_lt, Int64.not_lt, Nat.not_lt, pure_ok_iff]
  exact ⟨hlen, hcorrect old _, htype, rfl, hcorrect new _, hfresh, trivial⟩

end ManagedDirectory.Passport
