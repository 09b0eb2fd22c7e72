import ManagedDirectory.Rds.Wire
import ManagedDirectory.Signer.RateLimit

/-!
# A key update on both sides

RDS checks a key update with Python before it queues it, the signer checks it again with Rust.
`key_update_agrees`: where both accept, the key and the protection RDS expects back are those the
signer puts on file, into its answer and into the passport, and RDS takes the answer. The signer
is one that has been running since it was set up (`Honest`).
-/

namespace ManagedDirectory.Link

open Codec Lib Passport
open Rds (Platform sec8VerifyKeyUpdate passportMismatch IkcShape)
open CaSigner (Signer Env State Device Act ActStep process)

variable {C : Crypto} {root : Bytes} {s s' : Signer}

/-! ## The signer's tables -/

def Keyed (st : State) : Prop := ∀ k d, st.devices k = some d → d.did = k

theorem Keyed.insert {st : State} (h : Keyed st) {did : String} {d : Device} (hd : d.did = did) :
    Keyed (st.insert did d) := by
  intro k d' hd'
  by_cases hk : k = did
  · subst hk
    rw [State.insert_devices_same, Option.some_inj] at hd'
    exact hd' ▸ hd
  · rw [State.insert_devices_of_ne _ _ hk] at hd'
    exact h k d' hd'

theorem Keyed.modify {st : State} (h : Keyed st) (did : String) {f : Device → Device}
    (hf : ∀ d, (f d).did = d.did) : Keyed (st.modify did f) := by
  intro k d' hd'
  by_cases hk : k = did
  · subst hk
    rw [State.modify_devices_same, Option.map_eq_some_iff] at hd'
    obtain ⟨d, hd, rfl⟩ := hd'
    exact (hf d).trans (h k d hd)
  · rw [State.modify_devices_of_ne _ _ hk] at hd'
    exact h k d' hd'

theorem Keyed.noted (h : Keyed s.state) (did nonce : String) (t : Int64) :
    Keyed (s.noted did nonce t) := by
  intro k d hd
  rw [Signer.noted, State.nonceSeen_devices] at hd
  exact h k d hd

theorem onFile_did {d d' : Device} (h : d'.onFile = d.onFile) : d'.did = d.did := by
  have := congrArg Device.did h
  exact this

theorem keyed_of_effect {job : CaSigner.Job} {env : Env} {res : Option CaSigner.JobResult}
    (h : CaSigner.Effect C job env s res s') (hs : Keyed s.state) : Keyed s'.state := by
  cases h with
  | quiet _ h =>
    intro k d' hd'
    have hfile := h.onFile k
    rw [hd', Option.map_some, eq_comm, Option.map_eq_some_iff] at hfile
    obtain ⟨d, hd, heq⟩ := hfile
    exact (onFile_did heq.symm).trans (hs k d hd)
  | issued _ _ h =>
    rw [h.state]
    exact hs.insert rfl
  | issueHalf _ _ _ h =>
    obtain ⟨d, hd, hstate⟩ := h.state
    rw [hstate]
    exact hs.insert (onFile_did hd)
  | renewed _ _ h =>
    rw [h.state]
    exact (hs.noted _ _ _).modify _ fun _ => rfl
  | keyUpdated _ _ h =>
    rw [h.state]
    exact (hs.noted _ _ _).modify _ fun _ => rfl
  | keyUpdateHalf _ _ _ h =>
    obtain ⟨f, hf, hstate⟩ := h.state
    rw [hstate]
    exact (hs.noted _ _ _).modify _ fun d => (onFile_did (hf d)).trans rfl
  | revoked _ _ h =>
    rw [h.state]
    exact hs.modify _ fun _ => rfl
  | revokeHalf _ _ _ h =>
    rw [h.state]
    exact hs.modify _ fun _ => rfl

structure Honest (s : Signer) : Prop where
  state : Keyed s.state
  saved : Keyed s.saved
  ikc : IkcShape s.keys.ikc

theorem Honest.step {act : Act} (h : Honest s) (hstep : ActStep C root s act s') : Honest s' := by
  cases act with
  | job p =>
    have heffect := CaSigner.JobStep.effect hstep
    have hstate := keyed_of_effect heffect h.state
    refine ⟨hstate, ?_, heffect.setup.keys ▸ h.ikc⟩
    rcases heffect.saved with heq | heq
    · rw [heq]
      exact h.saved
    · rw [heq]
      exact hstate
  | rotate env =>
    obtain rfl : s' = CaSigner.rotateIfNeeded C root env s := hstep
    rcases CaSigner.rotateIfNeeded_eq C root env s with ⟨⟨log, heq⟩, -⟩ | ⟨heq, -⟩
    · rw [heq]
      exact ⟨h.state, h.saved, Rds.ikcShape_signIkc _ _ _ _⟩
    · rw [heq]
      exact h
  | restart env =>
    obtain rfl : s' = CaSigner.restart C root env s := hstep
    exact ⟨h.saved, h.saved, Rds.ikcShape_signIkc _ _ _ _⟩

theorem honest_of_run {s₀ : Signer} {es : List (Event Signer Act)}
    (hrun : Run (ActStep C root) s₀ es s) (h0 : Honest s₀) : Honest s :=
  hrun.invariant Honest h0 fun h hstep => h.step hstep

/-! ## Agreement -/

theorem take_keyUpdateProt {prot : String} (h : prot ∈ CaSigner.keyUpdateProts) :
    (codePoints prot).take 16 = codePoints prot := by
  have hall : ∀ p ∈ CaSigner.keyUpdateProts, (codePoints p).take 16 = codePoints p := by decide
  exact hall prot h

theorem b64_ne_empty (key : VerifyingKey C) : b64 key.bytes ≠ "" := by
  intro hempty
  have hlen := congrArg String.length hempty
  rw [length_b64, key.length_eq] at hlen
  exact absurd hlen (by decide)

/-- **Two checks, one key.** If RDS and the signer both accept a key update of a device, then the
signer files, answers and certifies the key and the protection RDS expects, and RDS takes the
answer. -/
theorem key_update_agrees {P : Platform} {s₀ : Signer} {es : List (Event Signer Act)}
    {request onFile rid did new : String} {prot : List Nat} {now : Int} {days : Int64}
    {job : CaSigner.Job} {env : Env} {r : CaSigner.JobResult} (h0 : Honest s₀)
    (hrun : Run (ActStep C root) s₀ es s)
    (hrds : sec8VerifyKeyUpdate P request onFile rid did now = .ok (new, prot))
    (hkind : job.kind = "keyupdate")
    (hjob : CaSigner.decodeSignedJob job.payload = some ⟨rid, did, request, days⟩)
    (hca : (process C job env s).1 = some r) (hok : r.ok = true) :
    ∃ protText d body, ofCodePoints prot = some protText ∧
      (process C job env s).2.state.devices did = some d ∧ d.idk = new ∧ d.prot = protText ∧
      r.idk = some new ∧ r.prot = some protText ∧
      r.passport = some (signPassport C s.keys.issuing s.keys.ikc body) ∧
      body.idk = new ∧ body.prot = protText ∧
      ∀ queued key, passportMismatch P (.keyupdate queued ⟨new, protText⟩)
        ⟨key, some rid, some did⟩ (Rds.JobResult.ofSigner r) = .ok () := by
  have honest := honest_of_run hrun h0
  have heffect := CaSigner.process_effect C job env s
  generalize hres : (process C job env s).1 = res at heffect hca
  generalize (process C job env s).2 = s' at heffect ⊢
  subst hca
  generalize hr : some r = res at heffect
  cases heffect with
  | quiet hrefused | issueHalf hrefused | keyUpdateHalf hrefused | revokeHalf hrefused =>
    rw [hrefused.ok_eq_false r hr.symm] at hok
    cases hok
  | issued hother | renewed hother | revoked hother =>
    rw [hother] at hkind
    exact absurd hkind (by decide)
  | @keyUpdated j result s' device old newKey bytes body _ hj h =>
    cases hr
    obtain rfl := Option.some.inj (hjob.symm.trans hj)
    obtain ⟨-, hnew, hprot⟩ := Rds.body_agrees hrds h.passed.checks
    rw [take_keyUpdateProt h.passed.prot] at hprot
    have hidk : new = b64 newKey.bytes := hnew.trans h.passed.checks.newKey
    subst hidk hprot
    have hdid : device.did = did := honest.state did device h.passed.known.found
    have hrid : device.rid = rid := h.passed.known.rid
    subst hdid hrid
    rw [h.result]
    -- the record after the update, and the passport for it
    let record := device.rekey (b64 newKey.bytes) body.prot
    let passport := CaSigner.passportFor s.keys record env.serial env.issue
      (CaSigner.clampDays days s.cfg.maxLifetimeDays)
    refine ⟨body.prot, record.issuedAt env.issue, passport, ofCodePoints_codePoints _, ?_, rfl, rfl,
      rfl, rfl, rfl, rfl, rfl, fun queued key => ?_⟩
    · rw [h.state, State.modify_devices_same, Signer.noted, State.nonceSeen_devices,
        h.passed.known.found, Option.map_some]
      rfl
    · exact @Rds.passportMismatch_issued C P _ key s.keys.issuing s.keys.ikc passport honest.ikc
        (Rds.expectedIdk_eq_ok.mpr ⟨b64_ne_empty newKey, rfl⟩) _ rfl rfl rfl

section Sample

open CaSigner.Sample

theorem strictSigner_honest : Honest strictSigner := by
  have hkeyed : Keyed strictSigner.state := by
    refine Keyed.insert (fun k d hd => ?_) rfl
    cases hd
  exact ⟨hkeyed, hkeyed, Rds.ikcShape_signIkc _ _ _ _⟩

theorem move_verified_by_rds (old new : Bytes) (nonce : String) :
    sec8VerifyKeyUpdate Rds.plainPlatform (moveSigned old new nonce).request
      (b64 (prefixCrypto.publicKey old)) "123456789" did 1000 =
        .ok (b64 (prefixCrypto.publicKey new), (codePoints "dpapi").take 16) := by
  have hfresh : |(1000 : Int) - (moveBody old new nonce).ts.toInt| ≤ Rds.sec8RequestMaxAge :=
    show |(1000 : Int) - (1000 : Int64).toInt| ≤ Rds.sec8RequestMaxAge by decide
  have h := @Rds.sec8VerifyKeyUpdate_signKeyUpdate prefixCrypto Rds.plainPlatform old new
    (moveBody old new nonce) 1000 rfl prefixCrypto_correct ⟨rfl, rfl, rfl⟩ rfl rfl hfresh
  exact h

/-- The sample device's update: RDS takes the answer, which is for the key it expects. -/
theorem sample_key_update_agrees : ∃ r,
    (process prefixCrypto (moveJob [3] [4] "n1") (envAt 1000) strictSigner).1 = some r ∧
      r.idk = some (b64 (prefixCrypto.publicKey [4])) ∧
      ∀ queued key, passportMismatch Rds.plainPlatform
        (.keyupdate queued ⟨b64 (prefixCrypto.publicKey [4]), "dpapi"⟩)
        ⟨key, some "123456789", some did⟩ (Rds.JobResult.ofSigner r) = .ok () := by
  obtain ⟨d, st, hfirst, -⟩ := firstMove_succeeds
  have hanswer := (CaSigner.process_of_succeeds hfirst).1
  refine ⟨_, hanswer, ?_⟩
  have hrun : Run (ActStep prefixCrypto [1]) strictSigner [] strictSigner := .nil
  obtain ⟨protText, d, body, hprot, -, -, -, hidk, -, -, -, -, htaken⟩ :=
    key_update_agrees strictSigner_honest hrun (move_verified_by_rds [3] [4] "n1") rfl
      (decode_moveJob [3] [4] "n1") hanswer rfl
  obtain rfl : "dpapi" = protText := by
    have htake : (codePoints "dpapi").take 16 = codePoints "dpapi" := rfl
    rw [htake, ofCodePoints_codePoints, Option.some_inj] at hprot
    exact hprot
  exact ⟨hidk, htaken⟩

end Sample

end ManagedDirectory.Link
