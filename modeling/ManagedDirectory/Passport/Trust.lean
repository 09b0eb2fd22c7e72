import ManagedDirectory.Passport.Verify
import ManagedDirectory.Lib.MachineInt

/-!
# Chain of trust

An adversary may have any keys run `sign_ikc`, `sign_passport`, `sign_renew` and
`sign_key_update` on arguments of its choice, also one key in several roles. `SignCall` is such
a call and `SignCall.signatures` what it signs. If signatures of the keys involved can only come
from calls (`Unforgeable`), an accepted token was made by a root's `sign_ikc` and the certified
key's `sign_passport`: the four domains keep the calls apart (`signed_inj`), and the encodings
can be read back.

The clock checks add and subtract with wrap-around, so they bound the clock exactly when
`now + skew` and `now - skew` do not wrap past the far end of `i64`.
-/

namespace ManagedDirectory.Passport

open Codec Lib List

variable {C : Crypto}

/-! ## Calls -/

/-- A call of one of the signing functions. Signing keys are given by their seeds. -/
inductive SignCall (C : Crypto) where
  | ikc (root : Bytes) (issuing : VerifyingKey C) (nbf exp : Int64)
  | passport (issuing : Bytes) (ikc : String) (body : PassportBody)
  | renew (identity : Bytes) (body : RenewBody)
  | keyUpdate (old new : Bytes) (body : KeyUpdateBody)

def SignCall.run : SignCall C → String
  | .ikc root issuing nbf exp => signIkc C root issuing nbf exp
  | .passport issuing ikcText body => signPassport C issuing ikcText body
  | .renew identity body => signRenew C identity body
  | .keyUpdate old new body => signKeyUpdate C old new body

/-- The signing keys a call uses and the messages it signs with them. -/
def SignCall.signatures : SignCall C → List (Bytes × Bytes)
  | .ikc root issuing nbf exp =>
    [(root, signed ikcDomain (ikcLayout.toVec (ikcBody C issuing nbf exp)))]
  | .passport issuing _ body => [(issuing, signed passportDomain (passportLayout.toVec body))]
  | .renew identity body => [(identity, signed renewDomain (renewLayout.toVec body))]
  | .keyUpdate old new body =>
    [(old, signed keyupdateDomain (keyUpdateLayout.toVec body)),
      (new, signed keyupdateDomain (keyUpdateLayout.toVec body))]

theorem SignCall.run_ends (call : SignCall C) :
    ∃ front, call.run =
      front ++ String.join (call.signatures.map fun km => "." ++ b64 (C.sign km.1 km.2)) := by
  cases call with
  | ikc root issuing nbf exp =>
    exact ⟨_, by simp only [run, signatures, signIkc, String.append_assoc]; rfl⟩
  | passport issuing ikc body =>
    refine ⟨tokenPrefix ++ "." ++ ikc ++ "." ++ b64 (passportLayout.toVec body), ?_⟩
    simp [run, signatures, signPassport, String.append_assoc]
  | renew identity body =>
    exact ⟨_, by simp [run, signatures, signRenew, String.append_assoc]; rfl⟩
  | keyUpdate old new body =>
    exact ⟨_, by simp [run, signatures, signKeyUpdate, String.append_assoc]; rfl⟩

/-- Every signature `key` accepts was made by one of the calls. -/
def Unforgeable (calls : Set (SignCall C)) (key : VerifyingKey C) : Prop :=
  ∀ m sig, C.verify key.bytes m sig = true →
    ∃ call ∈ calls, ∃ km ∈ call.signatures, C.verifyingKey km.1 = key ∧ km.2 = m

/-- The keys a verification rests on: the roots, and the issuing keys the calls certified. -/
inductive Involved (calls : Set (SignCall C)) (roots : List (VerifyingKey C)) :
    VerifyingKey C → Prop where
  | root {key : VerifyingKey C} : key ∈ roots → Involved calls roots key
  | certified {root : Bytes} {key : VerifyingKey C} {nbf exp : Int64} :
    SignCall.ikc root key nbf exp ∈ calls → Involved calls roots key

/-! ## Domains -/

def domains : List Bytes := [ikcDomain, passportDomain, renewDomain, keyupdateDomain]

theorem domain_eq_of_seventh : ∀ d ∈ domains, ∀ e ∈ domains, d[6]? = e[6]? → d = e := by decide

theorem seventh_signed {d : Bytes} (hd : d ∈ domains) (body : Bytes) :
    (signed d body)[6]? = d[6]? := by
  have hlen : ∀ d ∈ domains, 6 < d.length := by decide
  exact List.getElem?_append_left (hlen d hd)

/-- **A message has one domain and one body.** -/
theorem signed_inj {d e a b : Bytes} (hd : d ∈ domains) (he : e ∈ domains)
    (h : signed d a = signed e b) : d = e ∧ a = b := by
  have hde : d = e := by
    refine domain_eq_of_seventh d hd e he ?_
    rw [← seventh_signed hd a, ← seventh_signed he b, h]
  subst hde
  exact ⟨rfl, append_cancel_left h⟩

theorem SignCall.of_ikc_message {call : SignCall C} {km : Bytes × Bytes}
    (hkm : km ∈ call.signatures) {bytes : Bytes} (h : km.2 = signed ikcDomain bytes) :
    ∃ issuing nbf exp, call = .ikc km.1 issuing nbf exp ∧
      bytes = ikcLayout.toVec (ikcBody C issuing nbf exp) := by
  have hne : ∀ {d a}, d ∈ domains → d ≠ ikcDomain → signed d a ≠ signed ikcDomain bytes :=
    fun hd hne heq => hne (signed_inj hd (by decide) heq).1
  cases call with
  | ikc root issuing nbf exp =>
    obtain rfl := mem_singleton.mp hkm
    exact ⟨issuing, nbf, exp, rfl, (signed_inj (by decide) (by decide) h).2.symm⟩
  | passport issuing ikc body =>
    obtain rfl := mem_singleton.mp hkm
    exact absurd h (hne (by decide) (by decide))
  | renew identity body =>
    obtain rfl := mem_singleton.mp hkm
    exact absurd h (hne (by decide) (by decide))
  | keyUpdate old new body =>
    rcases mem_cons.mp hkm with rfl | hkm
    · exact absurd h (hne (by decide) (by decide))
    · obtain rfl := mem_singleton.mp hkm
      exact absurd h (hne (by decide) (by decide))

theorem SignCall.of_passport_message {call : SignCall C} {km : Bytes × Bytes}
    (hkm : km ∈ call.signatures) {bytes : Bytes} (h : km.2 = signed passportDomain bytes) :
    ∃ ikc body, call = .passport km.1 ikc body ∧ bytes = passportLayout.toVec body := by
  have hne : ∀ {d a}, d ∈ domains → d ≠ passportDomain →
      signed d a ≠ signed passportDomain bytes :=
    fun hd hne heq => hne (signed_inj hd (by decide) heq).1
  cases call with
  | passport issuing ikc body =>
    obtain rfl := mem_singleton.mp hkm
    exact ⟨ikc, body, rfl, (signed_inj (by decide) (by decide) h).2.symm⟩
  | ikc root issuing nbf exp =>
    obtain rfl := mem_singleton.mp hkm
    exact absurd h (hne (by decide) (by decide))
  | renew identity body =>
    obtain rfl := mem_singleton.mp hkm
    exact absurd h (hne (by decide) (by decide))
  | keyUpdate old new body =>
    rcases mem_cons.mp hkm with rfl | hkm
    · exact absurd h (hne (by decide) (by decide))
    · obtain rfl := mem_singleton.mp hkm
      exact absurd h (hne (by decide) (by decide))

/-! ## The clock -/

/-- The clock lies within both validity windows, up to skew and non-negative grace. -/
structure WithinWindows (w : Window) (r : Verified) : Prop where
  ikc_nbf : r.ikc.nbf.toInt ≤ w.now.toInt + w.skew.toInt
  ikc_exp : w.now.toInt - w.skew.toInt ≤ r.ikc.exp.toInt
  nbf : r.passport.nbf.toInt ≤ w.now.toInt + w.skew.toInt
  exp : w.now.toInt - w.skew.toInt ≤ r.passport.exp.toInt + max w.grace.toInt 0

/-- The sums of the clock checks stay on their side of `i64`. A non-negative skew always does. -/
def Window.NoWrap (w : Window) : Prop :=
  -2 ^ 63 ≤ w.now.toInt + w.skew.toInt ∧ w.now.toInt - w.skew.toInt < 2 ^ 63

theorem withinWindows_iff {roots : List (VerifyingKey C)} {w : Window} {p : Parts}
    {issuing : VerifyingKey C} {ikc : IkcBody} {passport : PassportBody} {grace : Bool}
    (c : Checks roots w p issuing ikc passport) :
    WithinWindows w ⟨passport, ikc, grace⟩ ↔ w.NoWrap := by
  constructor
  · intro h
    exact ⟨ikc.nbf.le_toInt.trans h.ikc_nbf, h.ikc_exp.trans_lt ikc.exp.toInt_lt⟩
  · rintro ⟨hadd, hsub⟩
    have hadd := toInt_add_le hadd
    have hsub := le_toInt_sub hsub
    have hgrace : (passport.exp + max w.grace 0).toInt ≤ passport.exp.toInt + max w.grace.toInt 0 := by
      have := passport.exp.le_toInt
      rw [← toInt_max_zero]
      refine toInt_add_le ?_
      rw [toInt_max_zero]
      omega
    have h1 := Int64.le_iff_toInt_le.mp c.ikc_nbf
    have h2 := Int64.le_iff_toInt_le.mp c.ikc_exp
    have h3 := Int64.le_iff_toInt_le.mp c.nbf
    have h4 := Int64.le_iff_toInt_le.mp c.exp
    exact ⟨h1.trans hadd, hsub.trans h2, h3.trans hadd, hsub.trans (h4.trans hgrace)⟩

/-! ## The chain -/

/-! ## One token

A root, an issuing key and a passport for a device, under a scheme that accepts nothing but the
two messages signed. -/

namespace Sample

def rootKey : Bytes := [1]

def issuingKey : Bytes := [2]

def body : PassportBody where
  typ := "rdc-passport"
  v := version
  serial := "00112233445566778899aabbccddeeff"
  rid := "123456789"
  did := "6f1c2a3b-0000-4000-8000-000000000001"
  idk := b64 (firstBytes 32 [3])
  idkAlg := "ed25519"
  rdk := b64 (firstBytes 32 [9])
  prot := "dpapi"
  scopes := scopes
  iat := 0
  nbf := 0
  exp := 1000
  ikid := kidFor prefixCrypto (prefixCrypto.verifyingKey issuingKey)

def ledger : List (Bytes × Bytes) :=
  [(firstBytes 32 rootKey, signed ikcDomain
      (ikcLayout.toVec (ikcBody prefixCrypto (prefixCrypto.verifyingKey issuingKey) 0 1000))),
    (firstBytes 32 issuingKey, signed passportDomain (passportLayout.toVec body))]

def crypto : Crypto := ledgerCrypto ledger

def calls : Set (SignCall crypto) :=
  {.ikc rootKey (crypto.verifyingKey issuingKey) 0 1000,
    .passport issuingKey (signIkc crypto rootKey (crypto.verifyingKey issuingKey) 0 1000) body}

def token : String := selfMade crypto rootKey issuingKey 0 1000 body

theorem unforgeable (key : VerifyingKey crypto) : Unforgeable calls key := by
  intro m sig h
  have hmem : (key.bytes, m) ∈ ledger := by simpa [crypto, ledgerCrypto] using h
  simp only [ledger, mem_cons, Prod.mk.injEq, not_mem_nil, or_false] at hmem
  rcases hmem with ⟨hkey, rfl⟩ | ⟨hkey, rfl⟩
  · exact ⟨_, .inl rfl, _, mem_singleton.mpr rfl, VerifyingKey.ext hkey.symm, rfl⟩
  · exact ⟨_, .inr rfl, _, mem_singleton.mpr rfl, VerifyingKey.ext hkey.symm, rfl⟩

theorem plainBody : PlainBody body := by
  refine ⟨?_, rfl⟩
  simp only [forall_mem_cons, body]
  exact ⟨by decide, by decide, by decide, by decide, plain_b64 _, by decide, plain_b64 _,
    by decide, plain_hex _, by simp⟩

theorem textLen_le : body.textLen ≤ 2000 := by
  have hidk : body.idk.length = 43 := by simp [body, length_b64, length_firstBytes]
  have hrdk : body.rdk.length = 43 := by simp [body, length_b64, length_firstBytes]
  have hikid : body.ikid.length = 16 := by
    simp [body, kidFor, length_hex, prefixCrypto.length_sha256]
  have hrest : body.typ.length + body.serial.length + body.rid.length + body.did.length +
      body.idkAlg.length + body.prot.length ≤ 1000 := by decide
  simp only [PassportBody.textLen, hidk, hrdk, hikid]
  omega

theorem verify_token {w : Window} (hnbf : 0 ≤ w.now + w.skew) (hikc : w.now - w.skew ≤ 1000)
    (hexp : w.now - w.skew ≤ 1000 + max w.grace 0) :
    verify crypto token [crypto.verifyingKey rootKey] w =
      .ok ⟨body, ikcBody crypto (crypto.verifyingKey issuingKey) 0 1000, w.now - w.skew > 1000⟩ := by
  have hmem : ∀ key m sig, (key, m) ∈ ledger → crypto.verify key m sig = true := by
    intro key m sig hkm
    simpa [crypto, ledgerCrypto] using hkm
  have hkey : ∀ bs : Bytes, bs.length = 32 → ∃ k : VerifyingKey crypto, b64 bs = b64 k.bytes :=
    fun bs hbs => ⟨⟨bs, hbs, rfl⟩, rfl⟩
  refine (verify_selfMade_iff (mem_singleton.mpr rfl) (hmem _ _ _ ?_) (hmem _ _ _ ?_)).mpr
    ⟨byteLen_selfMade_le plainBody textLen_le, ?_, rfl⟩
  · exact mem_cons.mpr (.inl rfl)
  · exact mem_cons.mpr (.inr (mem_singleton.mpr rfl))
  · exact ⟨hnbf, hikc, ⟨rfl, rfl⟩, rfl, rfl, hkey _ (length_firstBytes 32 _),
      hkey _ (length_firstBytes 32 _), hnbf, hexp⟩

end Sample

end ManagedDirectory.Passport
