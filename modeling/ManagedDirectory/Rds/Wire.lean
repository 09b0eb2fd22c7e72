import ManagedDirectory.Rds.Results
import ManagedDirectory.Signer.Handlers

/-!
# What the crate writes and RDS reads

RDS reads with Python what `rdc-passport` and the signer write with `serde_json`.
`sec8VerifyKeyUpdate_signKeyUpdate`: a key update made by the crate is accepted.
`body_agrees`, `keys_agree`: where both accept one request, they read the same keys out of it.
`passportMismatch_issued`: a passport the signer issued for the expected key is taken.
-/

namespace ManagedDirectory.Rds

open Codec Lib Passport List

variable {C : Crypto} {P : Platform}

/-! ## Key updates -/

theorem asInt_int (z : Int) : asInt (some (Printable.int z).toJson) = some z := by
  simp only [Printable.toJson, asInt, decide_eq_true_eq, Option.some.injEq]
  split_ifs <;> omega

theorem isOne_version : isOne (some (Printable.int version.toNat).toJson) = true := by
  decide

/-- **RDS accepts the key updates the crate makes**, while they are fresh. -/
theorem sec8VerifyKeyUpdate_signKeyUpdate {old new : Bytes} {body : KeyUpdateBody} {now : Int}
    (hverify : P.verify = C.verify) (hcorrect : C.Correct)
    (htype : body.typ = "rdc-keyupdate" ∧ body.v = version ∧ body.newAlg = "ed25519")
    (hold : body.oldKey = b64 (C.publicKey old)) (hnew : body.newKey = b64 (C.publicKey new))
    (hfresh : |now - body.ts.toInt| ≤ sec8RequestMaxAge) :
    sec8VerifyKeyUpdate P (signKeyUpdate C old new body) (b64 (C.publicKey old)) body.rid body.did
      now = .ok (b64 (C.publicKey new), (codePoints body.prot).take 16) := by
  obtain ⟨kvs, hloads, hdict⟩ := keyUpdateLayout.loads_toVec body P.deep
  have hprot := hdict 7 "prot" (.str body.prot) rfl rfl
  rw [sec8VerifyKeyUpdate_ok_iff]
  refine ⟨_, _, _, _, _, _, _, _, kvs, body.ts.toInt, splitDots_signKeyUpdate old new body,
    pyUnb64_b64 _, pyUnb64_b64 _, pyUnb64_b64 _, hloads, ?_, ?_, ?_, ?_, ?_, ?_, ?_, ?_, hfresh,
    pyUnb64_b64 _, C.length_publicKey old, pyUnb64_b64 _, C.length_publicKey new, ?_, ?_, ?_⟩
  · exact htype.1 ▸ hdict 0 "typ" (.str body.typ) rfl rfl
  · rw [hdict 1 "v" (.int body.v.toNat) rfl rfl, htype.2.1]
    exact isOne_version
  · exact hdict 2 "rid" (.str body.rid) rfl rfl
  · exact hdict 3 "did" (.str body.did) rfl rfl
  · exact hold ▸ hdict 4 "old_key" (.str body.oldKey) rfl rfl
  · exact htype.2.2 ▸ hdict 6 "new_alg" (.str body.newAlg) rfl rfl
  · exact hnew ▸ hdict 5 "new_key" (.str body.newKey) rfl rfl
  · rw [hdict 8 "ts" (.int body.ts.toInt) rfl rfl]
    exact asInt_int _
  · exact hverify ▸ hcorrect old _
  · exact hverify ▸ hcorrect new _
  · rw [hprot]
    rfl

theorem requestChar_digitChar : ∀ v < 64, (digitChar v).isAlphanum = true ∨ digitChar v = '_' ∨
    digitChar v = '-' := by decide

theorem storable_of_plain {text : String} (h : Plain text) : storable text = true := by
  simp only [storable, Bool.not_eq_true', contains_eq_mem, decide_eq_false_iff_not]
  intro hmem
  exact absurd (h _ hmem).1 (by decide)

theorem plain_append {a b : String} (ha : Plain a) (hb : Plain b) : Plain (a ++ b) := by
  intro c hc
  rw [String.toList_append, mem_append] at hc
  exact hc.elim (ha c) (hb c)

theorem plain_signKeyUpdate (old new : Bytes) (body : KeyUpdateBody) :
    Plain (signKeyUpdate C old new body) :=
  have hdot : Plain "." := by decide
  plain_append (plain_append (plain_append (plain_append (plain_b64 _) hdot) (plain_b64 _)) hdot)
    (plain_b64 _)

theorem signedRequestOk_signKeyUpdate {old new : Bytes} {body : KeyUpdateBody}
    (hlen : byteLen (signKeyUpdate C old new body) ≤ maxTokenLen) :
    signedRequestOk (signKeyUpdate C old new body) = true := by
  have hchars : ∀ (bs : Bytes), ∀ c ∈ (b64 bs).toList,
      c.isAlphanum = true ∨ c = '_' ∨ c = '-' := by
    intro bs c hc
    simp only [b64, String.toList_ofList, b64Chars] at hc
    obtain ⟨v, hv, rfl⟩ := mem_map.mp hc
    exact requestChar_digitChar v (sextets_lt bs v hv)
  have hlong : 10 ≤ (signKeyUpdate C old new body).toList.length := by
    simp only [signKeyUpdate, String.toList_append, length_append, String.length_toList,
      length_b64, C.length_sign]
    omega
  rw [byteLen_plain (plain_signKeyUpdate old new body), ← String.length_toList] at hlen
  simp only [signedRequestOk, Bool.and_eq_true, decide_eq_true_eq, all_eq_true,
    Bool.or_eq_true, beq_iff_eq]
  refine ⟨⟨hlong, hlen⟩, fun c hc => ?_⟩
  have hdot : (".": String).toList = ['.'] := rfl
  simp only [signKeyUpdate, String.toList_append, mem_append, hdot, mem_singleton] at hc
  rcases hc with (((hc | hc) | hc) | hc) | hc
  all_goals
    first
    | exact .inl (.inr hc)
    | rcases hchars _ c hc with h | h | h
      · exact .inl (.inl (.inl h))
      · exact .inl (.inl (.inr h))
      · exact .inr h

theorem body_agrees {request onFile rid did new : String} {prot : List Nat} {now : Int}
    {oldKey newKey : VerifyingKey C} {t maxAge : Int64} {bytes : Bytes} {body : KeyUpdateBody}
    (hrds : sec8VerifyKeyUpdate P request onFile rid did now = .ok (new, prot))
    (hchecks : KeyUpdateChecks request oldKey newKey t maxAge bytes body) :
    onFile = body.oldKey ∧ new = body.newKey ∧ prot = (codePoints body.prot).take 16 := by
  obtain ⟨oldSig, newSig, hsplit, -⟩ := hchecks.carried
  obtain ⟨p0, p1, p2, bodyBytes, -, -, -, -, kvs, -, hsplit', h0, -, -, hloads, -, -, -, -, hold, -,
    hnew, -, -, -, -, -, -, -, -, hprot⟩ := sec8VerifyKeyUpdate_ok_iff.mp hrds
  rw [hsplit] at hsplit'
  obtain ⟨rfl, -, -⟩ : b64 bytes = p0 ∧ b64 oldSig = p1 ∧ b64 newSig = p2 := by
    simpa using hsplit'
  -- what Rust decodes is canonical, so Python decodes the same bytes
  obtain rfl : bytes = bodyBytes := Option.some.inj ((pyUnb64_b64 bytes).symm.trans h0)
  obtain ⟨fs, hread, hnames⟩ := Layout.dict_of_fromSlice P.deep hchecks.json hloads
  have hfields : ∃ o n q, dictGet "old_key" kvs = some o ∧ asString o = some body.oldKey ∧
      dictGet "new_key" kvs = some n ∧ asString n = some body.newKey ∧
      dictGet "prot" kvs = some q ∧ asString q = some body.prot := by
    simp only [keyUpdateLayout] at hread hnames
    split at hread
    · simp only [map_cons, map_nil, List.cons.injEq, and_true] at hnames
      simp only [Option.bind_eq_bind, Option.bind_eq_some_iff, Option.pure_def,
        Option.some.injEq] at hread
      obtain ⟨typ, -, v, -, rid, -, did, -, oldText, ho, newText, hn, alg, -, protText, hq, -, -, -,
        -, rfl⟩ := hread
      exact ⟨_, _, _, hnames.2.2.2.2.1, ho, hnames.2.2.2.2.2.1, hn, hnames.2.2.2.2.2.2.2.1, hq⟩
    · cases hread
  obtain ⟨o, n, q, ho, hos, hn, hns, hq, hqs⟩ := hfields
  have heq : ∀ {a b : String}, jsonStr a = jsonStr b → a = b := fun h =>
    codePoints_inj (Json.str.inj h)
  rw [asString_eq_some] at hos hns hqs
  refine ⟨heq (Option.some.inj (hold.symm.trans (hos ▸ ho))),
    heq (Option.some.inj (hnew.symm.trans (hns ▸ hn))), ?_⟩
  rw [hprot, hq, hqs]
  rfl

/-! ## Passports -/

def JobResult.ofSigner (r : CaSigner.JobResult) : JobResult where
  id := r.id.toInt
  ok := r.ok
  error := r.error
  passport := r.passport
  serial := r.serial
  nbf := r.nbf.map Int64.toInt
  exp := r.exp.map Int64.toInt
  idk := r.idk
  prot := r.prot

def IkcShape (ikc : String) : Prop := ∃ body sig, ikc = b64 body ++ "." ++ b64 sig

theorem ikcShape_signIkc (root : Bytes) (issuing : VerifyingKey C) (nbf exp : Int64) :
    IkcShape (signIkc C root issuing nbf exp) :=
  ⟨_, _, rfl⟩

theorem passportPart_signPassport {issuing : Bytes} {ikc : String} {body : PassportBody}
    (h : IkcShape ikc) :
    passportPart (signPassport C issuing ikc body) = some (b64 (passportLayout.toVec body)) := by
  obtain ⟨ikcBytes, ikcSig, rfl⟩ := h
  have hprefix : ∀ c ∈ tokenPrefix.toList, c ≠ '.' := by simp [tokenPrefix]
  unfold passportPart
  simp only [signPassport, String.append_assoc]
  rw [splitDots_append_dot hprefix, splitDots_append_dot (b64_no_dot _),
    splitDots_append_dot (b64_no_dot _), splitDots_append_dot (b64_no_dot _),
    splitDots_of_no_dot (b64_no_dot _)]
  simp

theorem plain_signPassport {issuing : Bytes} {ikc : String} {body : PassportBody}
    (h : IkcShape ikc) : Plain (signPassport C issuing ikc body) := by
  obtain ⟨ikcBytes, ikcSig, rfl⟩ := h
  have hdot : Plain "." := by decide
  have hprefix : Plain tokenPrefix := by decide
  refine plain_append (plain_append (plain_append (plain_append (plain_append (plain_append
    hprefix hdot) ?_) hdot) (plain_b64 _)) hdot) (plain_b64 _)
  exact plain_append (plain_append (plain_b64 _) hdot) (plain_b64 _)

theorem signPassport_ne_empty {issuing : Bytes} {ikc : String} {body : PassportBody} :
    signPassport C issuing ikc body ≠ "" := by
  intro hempty
  have hlen := congrArg (fun t => t.toList.length) hempty
  simp only [signPassport, String.toList_append, length_append] at hlen
  have hdot : (".": String).toList.length = 1 := rfl
  have hnil : ("": String).toList.length = 0 := rfl
  omega

/-- **A passport the signer issued for the expected key is taken.** -/
theorem passportMismatch_issued {job : JobBody} {key : Option String} {issuing : Bytes}
    {ikc : String} {body : PassportBody} (hikc : IkcShape ikc)
    (hkey : expectedIdk job key = .ok body.idk) (r : JobResult)
    (hpassport : r.passport = some (signPassport C issuing ikc body))
    (hserial : r.serial = some body.serial) (hidk : r.idk = some body.idk) :
    passportMismatch P job ⟨key, some body.rid, some body.did⟩ r = .ok () := by
  obtain ⟨kvs, hloads, hdict⟩ := passportLayout.loads_toVec body P.deep
  simp only [passportMismatch, bind_ok_iff, refuseIf_eq_ok, exists_unit, orRefuse_eq_ok,
    loadsOr_eq_ok, asDict_eq_some, not_not_eq_true, not_or_not_eq_true, equalsText_some_iff]
  refine ⟨body.idk, hkey, ?_, _, ?_, _, pyUnb64_b64 _, _, hloads, kvs, rfl, ?_, ⟨?_, ?_⟩, ?_⟩
  · simp [hidk]
  · rw [hpassport]
    exact passportPart_signPassport hikc
  · exact hdict 5 "idk" (.str body.idk) rfl rfl
  · exact hdict 3 "rid" (.str body.rid) rfl rfl
  · exact hdict 4 "did" (.str body.did) rfl rfl
  · have hs := equalsText_some_iff.mpr (hdict 2 "serial" (.str body.serial) rfl rfl)
    simp [hserial, hs]

end ManagedDirectory.Rds
