import ManagedDirectory.Signer.Payloads
import ManagedDirectory.Signer.Custody
import ManagedDirectory.Signer.Progress
import ManagedDirectory.Lib.MachineInt

/-!
# A passport is as good as its issuing key

A passport is accepted while both it and the certificate of its issuing key are valid. The
certificate ends five days after the key is due for rotation, but a passport may last seven days:
one issued shortly before a rotation is refused before it expires (`refused_before_expiry`).
`valid_through_lifetime_iff` says exactly which passports are accepted for as long as they say:
those issued no later than their lifetime before the end of the key's certificate (`Covered`).
-/

namespace ManagedDirectory.CaSigner

open Codec Lib Passport List

variable {C : Crypto} {root : Bytes} {job : Job} {env : Env} {s s' : Signer}
  {res : Option JobResult}

/-! ## Records -/

/-- A record that passes the checks of `handle_issue`. -/
structure Device.Sound (C : Crypto) (d : Device) : Prop where
  rid : validRid d.rid = true
  did : validDid d.did = true
  alg : d.idkAlg = "ed25519"
  prot : d.prot ∈ issueProts
  idk : ∃ k : VerifyingKey C, d.idk = b64 k.bytes
  rdk : ∃ k : VerifyingKey C, d.rdk = b64 k.bytes

theorem Device.Sound.of_onFile {d d' : Device} (hd : d.Sound C) (h : d'.onFile = d.onFile) :
    d'.Sound C := by
  simp only [Device.onFile, Device.mk.injEq] at h
  obtain ⟨hrid, hdid, -, hidk, halg, hrdk, hprot, -⟩ := h
  exact ⟨hrid ▸ hd.rid, hdid ▸ hd.did, halg ▸ hd.alg, hprot ▸ hd.prot, hidk ▸ hd.idk,
    hrdk ▸ hd.rdk⟩

theorem IssueChecks.sound {j : IssueJob} (h : IssueChecks C j) (existing : Option Device)
    (t : Int64) : (issueRecord j existing t).Sound C :=
  ⟨h.rid, h.did, h.alg, h.prot, h.idk, h.rdk⟩

theorem Device.Sound.rekey {d : Device} (hd : d.Sound C) (new : VerifyingKey C) {prot : String}
    (hprot : prot ∈ keyUpdateProts) : (d.rekey (b64 new.bytes) prot).Sound C := by
  refine ⟨hd.rid, hd.did, hd.alg, ?_, ⟨new, rfl⟩, hd.rdk⟩
  have hsub : ∀ p ∈ keyUpdateProts, p ∈ issueProts := by decide
  exact hsub prot hprot

def SoundTable (C : Crypto) (st : State) : Prop := ∀ k d, st.devices k = some d → d.Sound C

theorem SoundTable.of_onFile {st st' : State} (hst : SoundTable C st)
    (h : ∀ k, (st'.devices k).map Device.onFile = (st.devices k).map Device.onFile) :
    SoundTable C st' := by
  intro k d' hd'
  have := h k
  rw [hd', Option.map_some, eq_comm, Option.map_eq_some_iff] at this
  obtain ⟨d, hd, heq⟩ := this
  exact (hst k d hd).of_onFile heq.symm

theorem SoundTable.insert {st : State} (hst : SoundTable C st) (did : String) {d : Device}
    (hd : d.Sound C) : SoundTable C (st.insert did d) := by
  intro k d' hd'
  by_cases hk : k = did
  · subst hk
    rw [State.insert_devices_same, Option.some_inj] at hd'
    exact hd' ▸ hd
  · rw [State.insert_devices_of_ne _ _ hk] at hd'
    exact hst k d' hd'

theorem SoundTable.modify {st : State} (hst : SoundTable C st) (did : String)
    {f : Device → Device} (hf : ∀ d, d.Sound C → (f d).Sound C) :
    SoundTable C (st.modify did f) := by
  intro k d' hd'
  by_cases hk : k = did
  · subst hk
    rw [State.modify_devices_same, Option.map_eq_some_iff] at hd'
    obtain ⟨d, hd, rfl⟩ := hd'
    exact hf d (hst k d hd)
  · rw [State.modify_devices_of_ne _ _ hk] at hd'
    exact hst k d' hd'

theorem SoundTable.noted (h : SoundTable C s.state) (did nonce : String) (t : Int64) :
    SoundTable C (s.noted did nonce t) := by
  intro k d hd
  rw [Signer.noted, State.nonceSeen_devices] at hd
  exact h k d hd

theorem Effect.soundTable (h : Effect C job env s res s') (hs : SoundTable C s.state) :
    SoundTable C s'.state := by
  have hrevoke : ∀ d : Device, d.Sound C → d.revoke.Sound C :=
    fun d hd => ⟨hd.rid, hd.did, hd.alg, hd.prot, hd.idk, hd.rdk⟩
  cases h with
  | quiet _ h => exact hs.of_onFile h.onFile
  | issued _ _ h =>
    rw [h.state]
    exact hs.insert _ ((h.checks.sound _ _).of_onFile (Device.onFile_issuedAt _ _))
  | issueHalf _ _ _ h =>
    obtain ⟨d, hd, hstate⟩ := h.state
    rw [hstate]
    exact hs.insert _ ((h.checks.sound _ _).of_onFile hd)
  | renewed _ _ h =>
    rw [h.state]
    exact (hs.noted _ _ _).modify _ fun d hd => hd.of_onFile (Device.onFile_comp
      (Device.onFile_pruneIssues _) (Device.onFile_issuedAt _) d)
  | keyUpdated _ _ h =>
    rw [h.state]
    exact (hs.noted _ _ _).modify _ fun d hd =>
      (hd.rekey _ h.passed.prot).of_onFile (Device.onFile_issuedAt _ _)
  | keyUpdateHalf _ _ _ h =>
    obtain ⟨f, hf, hstate⟩ := h.state
    rw [hstate]
    exact (hs.noted _ _ _).modify _ fun d hd => (hd.rekey _ h.passed.prot).of_onFile (hf d)
  | revoked _ _ h =>
    rw [h.state]
    exact hs.modify _ hrevoke
  | revokeHalf _ _ _ h =>
    rw [h.state]
    exact hs.modify _ hrevoke

/-! ## The signer in operation -/

/-- What holds from the start of the process on: its issuing key was certified by the root at some
time, and its records are sound. -/
structure InOperation (C : Crypto) (root : Bytes) (s : Signer) : Prop where
  keys : ∃ seed created, (0 ≤ created.toInt ∧ created.toInt < 2 ^ 62) ∧
    s.keys = Keys.new C root seed created s.cfg.issuingKeyDays
  state : SoundTable C s.state
  saved : SoundTable C s.saved

theorem rotateIfNeeded_eq (C : Crypto) (root : Bytes) (env : RotateEnv) (s : Signer) :
    (∃ log, rotateIfNeeded C root env s =
      { s with keys := Keys.new C root env.seed env.created s.cfg.issuingKeyDays, log := log }) ∧
        env.now - s.keys.created ≥ s.cfg.issuingKeyDays * 86400 ∨
    rotateIfNeeded C root env s = s ∧
      ¬ env.now - s.keys.created ≥ s.cfg.issuingKeyDays * 86400 := by
  unfold rotateIfNeeded
  split_ifs with hdue
  · refine .inl ⟨?_, hdue⟩
    cases env.append with
    | none => exact ⟨_, rfl⟩
    | some e => exact ⟨s.log, rfl⟩
  · exact .inr ⟨rfl, hdue⟩

theorem InOperation.step {a : Act} (h : InOperation C root s) (hstep : ActStep C root s a s')
    (hclock : ∀ t ∈ a.readings, 0 ≤ t ∧ t < 2 ^ 62) :
    InOperation C root s' ∧ s'.cfg = s.cfg := by
  cases a with
  | job p =>
    have heffect := hstep.effect
    have hstate := heffect.soundTable h.state
    refine ⟨⟨?_, hstate, ?_⟩, heffect.setup.cfg⟩
    · rw [heffect.setup.keys, heffect.setup.cfg]
      exact h.keys
    · rcases heffect.saved with heq | heq
      · rw [heq]
        exact h.saved
      · rwa [heq]
  | rotate env =>
    obtain rfl := hstep
    rcases rotateIfNeeded_eq C root env s with ⟨⟨log, heq⟩, -⟩ | ⟨heq, -⟩
    · rw [heq]
      have hcreated := hclock env.created.toInt (by simp [Act.readings])
      exact ⟨⟨⟨env.seed, env.created, hcreated, rfl⟩, h.state, h.saved⟩, rfl⟩
    · rw [heq]
      exact ⟨h, rfl⟩
  | restart env =>
    obtain rfl := hstep
    have hcreated := hclock env.created.toInt (by simp [Act.readings])
    exact ⟨⟨⟨env.seed, env.created, hcreated, rfl⟩, h.saved, h.saved⟩, rfl⟩

theorem inOperation_of_run {s₀ : Signer} {es : List (Event Signer Act)}
    (h : Run (ActStep C root) s₀ es s) (h0 : InOperation C root s₀)
    (hclock : ∀ t ∈ readings es, 0 ≤ t ∧ t < 2 ^ 62) :
    InOperation C root s ∧ s.cfg = s₀.cfg := by
  induction h with
  | nil => exact ⟨h0, rfl⟩
  | @snoc es s s' a h hstep ih =>
    rw [readings_snoc] at hclock
    obtain ⟨hs, hcfg⟩ := ih fun t ht => hclock t (mem_append_left _ ht)
    obtain ⟨hs', hcfg'⟩ := hs.step hstep fun t ht => hclock t (mem_append_right _ ht)
    exact ⟨hs', hcfg'.trans hcfg⟩

/-! ## Passports -/

theorem plainChar_of_range {a b c : Char} (h : (a ≤ c && c ≤ b) = true)
    (hab : 0x2D ≤ a.toNat ∧ b.toNat < 0x7B ∧ (b.toNat < 0x5C ∨ 0x5C < a.toNat)) : PlainChar c := by
  simp only [Bool.and_eq_true, decide_eq_true_eq, Char.le_def, UInt32.le_iff_toNat_le] at h
  simp only [Char.toNat] at hab
  simp only [PlainChar, Char.toNat]
  omega

theorem plainChar_alphanumeric {c : Char} (h : asciiAlphanumeric c = true) : PlainChar c := by
  unfold asciiAlphanumeric at h
  rw [Bool.or_eq_true, Bool.or_eq_true] at h
  rcases h with (h | h) | h
  · exact plainChar_of_range h (by decide)
  · exact plainChar_of_range h (by decide)
  · exact plainChar_of_range h (by decide)

theorem plainChar_hexdigit {c : Char} (h : asciiHexdigit c = true) : PlainChar c := by
  unfold asciiHexdigit at h
  rw [Bool.or_eq_true, Bool.or_eq_true] at h
  rcases h with (h | h) | h
  · exact plainChar_of_range h (by decide)
  · exact plainChar_of_range h (by decide)
  · exact plainChar_of_range h (by decide)

theorem plain_of_validRid {rid : String} (h : validRid rid = true) :
    Plain rid ∧ rid.length ≤ 32 := by
  simp only [validRid, Bool.and_eq_true, decide_eq_true_eq, all_eq_true, Bool.or_eq_true,
    beq_iff_eq] at h
  obtain ⟨⟨-, hlen⟩, hchars⟩ := h
  have hplain : Plain rid := by
    intro c hc
    rcases hchars c hc with (h | rfl) | rfl
    · exact plainChar_alphanumeric h
    · decide
    · decide
  exact ⟨hplain, byteLen_plain hplain ▸ hlen⟩

theorem plain_of_validDid {did : String} (h : validDid did = true) :
    Plain did ∧ did.length = 36 := by
  simp only [validDid, Bool.and_eq_true, beq_iff_eq, all_eq_true, Bool.or_eq_true] at h
  obtain ⟨hlen, hchars⟩ := h
  have hplain : Plain did := by
    intro c hc
    rcases hchars c hc with h | rfl
    · exact plainChar_hexdigit h
    · decide
  exact ⟨hplain, byteLen_plain hplain ▸ hlen⟩

theorem plain_of_prot : ∀ prot ∈ issueProts, Plain prot ∧ prot.length ≤ 8 := by decide

section
variable {seed serial : Bytes} {created keyDays t days : Int64} {device : Device}

theorem plainBody_passportFor (hd : device.Sound C) :
    PlainBody (passportFor (Keys.new C root seed created keyDays) device serial t days) := by
  refine ⟨?_, rfl⟩
  obtain ⟨idk, hidk⟩ := hd.idk
  obtain ⟨rdk, hrdk⟩ := hd.rdk
  simp only [forall_mem_cons, passportFor, Keys.new, hidk, hrdk, hd.alg]
  exact ⟨by decide, plain_hex _, (plain_of_validRid hd.rid).1, (plain_of_validDid hd.did).1,
    plain_b64 _, by decide, plain_b64 _, (plain_of_prot _ hd.prot).1, plain_hex _, by simp⟩

theorem textLen_passportFor (hd : device.Sound C) (hserial : serial.length = 16) :
    (passportFor (Keys.new C root seed created keyDays) device serial t days).textLen ≤ 2000 := by
  obtain ⟨idk, hidk⟩ := hd.idk
  obtain ⟨rdk, hrdk⟩ := hd.rdk
  have hrid := (plain_of_validRid hd.rid).2
  have hdid := (plain_of_validDid hd.did).2
  have hprot := (plain_of_prot _ hd.prot).2
  have htyp : "rdc-passport".length = 12 := by decide
  have halg : "ed25519".length = 7 := by decide
  have hkid : (kidFor C (C.verifyingKey seed)).length = 16 := by
    simp [kidFor, length_hex, C.length_sha256]
  simp only [PassportBody.textLen, passportFor, Keys.new, hidk, hrdk, hd.alg, htyp, halg, hkid,
    length_hex, hserial, length_b64, idk.length_eq, rdk.length_eq]
  omega

theorem issued_verifies_iff (hcorrect : C.Correct) (hd : device.Sound C)
    (hserial : serial.length = 16) (now : Int64) :
    let keys := Keys.new C root seed created keyDays
    let body := passportFor keys device serial t days
    (∃ v, verify C (signPassport C keys.issuing keys.ikc body) [C.verifyingKey root] ⟨now, 0, 0⟩ =
      .ok v) ↔ (created - 300 ≤ now ∧ now ≤ keys.exp) ∧ t - 300 ≤ now ∧ now ≤ t + days * 86400 := by
  intro keys body
  have hmade : signPassport C keys.issuing keys.ikc body =
      selfMade C root seed (created - 300) keys.exp body := rfl
  have hlen : byteLen (selfMade C root seed (created - 300) keys.exp body) ≤ maxTokenLen :=
    byteLen_selfMade_le (plainBody_passportFor hd) (textLen_passportFor hd hserial)
  have hroot : C.verifyingKey root ∈ [C.verifyingKey root] := mem_singleton.mpr rfl
  have hzero : max (0 : Int64) 0 = 0 := rfl
  rw [hmade]
  constructor
  · rintro ⟨v, hv⟩
    rw [verify_selfMade_iff hroot (hcorrect _ _) (hcorrect _ _)] at hv
    obtain ⟨-, c, -⟩ := hv
    have hnbf := c.ikc_nbf
    have hexp := c.ikc_exp
    have hnbf' := c.nbf
    have hexp' := c.exp
    simp only [hzero, Int64.add_zero, Int64.sub_zero] at hnbf hexp hnbf' hexp'
    exact ⟨⟨hnbf, hexp⟩, hnbf', hexp'⟩
  · rintro ⟨⟨hnbf, hexp⟩, hnbf', hexp'⟩
    refine ⟨_, (verify_selfMade_iff hroot (hcorrect _ _) (hcorrect _ _)).mpr ⟨hlen, ?_, rfl⟩⟩
    refine ⟨?_, ?_, ⟨rfl, rfl⟩, rfl, hd.alg, hd.idk, hd.rdk, ?_, ?_⟩
    · simp only [Int64.add_zero]
      exact hnbf
    · simp only [Int64.sub_zero]
      exact hexp
    · simp only [Int64.add_zero]
      exact hnbf'
    · simp only [hzero, Int64.sub_zero, Int64.add_zero]
      exact hexp'

theorem toInt_days {d : Int64} (hd : 0 ≤ d.toInt ∧ d.toInt < 2 ^ 41) :
    (d * 86400).toInt = d.toInt * 86400 := by
  have hday : (86400 : Int64).toInt = 86400 := rfl
  rw [toInt_mul_of_fits, hday]
  · rw [hday]
    omega
  · rw [hday]
    omega

theorem toInt_add_days {u d : Int64} (hu : 0 ≤ u.toInt ∧ u.toInt < 2 ^ 62)
    (hd : 0 ≤ d.toInt ∧ d.toInt < 2 ^ 41) : (u + d * 86400).toInt = u.toInt + d.toInt * 86400 := by
  rw [toInt_add_of_fits, toInt_days hd]
  · rw [toInt_days hd]
    omega
  · rw [toInt_days hd]
    omega

theorem toInt_sub_margin {u : Int64} (hu : 0 ≤ u.toInt) : (u - 300).toInt = u.toInt - 300 := by
  have h300 : (300 : Int64).toInt = 300 := rfl
  have := u.toInt_lt
  rw [toInt_sub_of_fits, h300]
  · rw [h300]
    omega
  · rw [h300]
    omega

/-- The issuing key outlasts a passport of `days` days issued at `t`. -/
structure Covered (keys : Keys) (t days : Int64) : Prop where
  started : keys.created.toInt ≤ t.toInt
  lasts : t.toInt + days.toInt * 86400 ≤ keys.exp.toInt

theorem accepted_iff_covered (hcorrect : C.Correct) (hd : device.Sound C)
    (hserial : serial.length = 16) (hcreated : 0 ≤ created.toInt ∧ created.toInt < 2 ^ 62)
    (ht : 0 ≤ t.toInt ∧ t.toInt < 2 ^ 62) (hdays : 1 ≤ days.toInt ∧ days.toInt ≤ 7) :
    let keys := Keys.new C root seed created keyDays
    let body := passportFor keys device serial t days
    (∀ now, body.nbf ≤ now → now ≤ body.exp → ∃ v, verify C
      (signPassport C keys.issuing keys.ikc body) [C.verifyingKey root] ⟨now, 0, 0⟩ = .ok v) ↔
        Covered keys t days := by
  intro keys body
  have hnbf : body.nbf.toInt = t.toInt - 300 := toInt_sub_margin ht.1
  have hexp : body.exp.toInt = t.toInt + days.toInt * 86400 := toInt_add_days ht (by omega)
  have hkey : (created - 300).toInt = created.toInt - 300 := toInt_sub_margin hcreated.1
  constructor
  · intro h
    have hnonempty : body.nbf ≤ body.exp := Int64.le_iff_toInt_le.mpr (by omega)
    -- the two ends of the passport's window
    have hfirst := (issued_verifies_iff hcorrect hd hserial body.nbf).mp
      (h _ Int64.le_rfl hnonempty)
    have hlast := (issued_verifies_iff hcorrect hd hserial body.exp).mp
      (h _ hnonempty Int64.le_rfl)
    have hstart := Int64.le_iff_toInt_le.mp hfirst.1.1
    have hend := Int64.le_iff_toInt_le.mp hlast.1.2
    rw [hkey, hnbf] at hstart
    rw [hexp] at hend
    refine ⟨?_, hend⟩
    have : keys.created = created := rfl
    rw [this]
    omega
  · intro hcov now hlo hhi
    have hstart : created.toInt ≤ t.toInt := hcov.started
    have hend := hcov.lasts
    have hlo' := Int64.le_iff_toInt_le.mp hlo
    have hhi' := Int64.le_iff_toInt_le.mp hhi
    refine (issued_verifies_iff hcorrect hd hserial now).mpr ⟨⟨?_, ?_⟩, hlo, hhi⟩
    · exact Int64.le_iff_toInt_le.mpr (by omega)
    · exact Int64.le_iff_toInt_le.mpr (show now.toInt ≤ keys.exp.toInt by omega)

end

/-! ## Runs -/

def Job.lifetimeDays (job : Job) : Option Int64 :=
  if job.kind = "issue" then (decodeIssueJob job.payload).map IssueJob.lifetimeDays
  else (decodeSignedJob job.payload).map SignedJob.lifetimeDays

theorem Effect.issuance (h : Effect C job env s res s') (hs : SoundTable C s.state)
    {r : JobResult} (hr : res = some r) (hpass : r.passport ≠ none) :
    ∃ device l, job.lifetimeDays = some l ∧ device.Sound C ∧ ¬ s.cfg.maxLifetimeDays < 1 ∧
      r = { issuedFor C s env device l with id := job.id } := by
  cases h with
  | quiet hres | issueHalf hres | keyUpdateHalf hres | revokeHalf hres =>
    exact absurd (hres.passport_none hr) hpass
  | issued hkind hjob hdone =>
    rw [hdone.result] at hr
    obtain rfl := Option.some.inj hr
    refine ⟨_, _, ?_, hdone.checks.sound _ _, hdone.days, rfl⟩
    rw [Job.lifetimeDays, if_pos hkind, hjob, Option.map_some]
  | renewed hkind hjob hdone =>
    rw [hdone.result] at hr
    obtain rfl := Option.some.inj hr
    refine ⟨_, _, ?_, hs _ _ hdone.known.found, hdone.days, rfl⟩
    rw [Job.lifetimeDays, if_neg (by rw [hkind]; decide), hjob, Option.map_some]
  | keyUpdated hkind hjob hdone =>
    rw [hdone.result] at hr
    obtain rfl := Option.some.inj hr
    refine ⟨_, _, ?_, (hs _ _ hdone.passed.known.found).rekey _ hdone.passed.prot, hdone.days, rfl⟩
    rw [Job.lifetimeDays, if_neg (by rw [hkind]; decide), hjob, Option.map_some]
  | revoked _ _ hdone =>
    rw [hdone.result] at hr
    obtain rfl := Option.some.inj hr
    exact absurd rfl hpass

theorem clampDays_range {l max : Int64} (hmax : ¬ max < 1) (h7 : max ≤ 7) :
    1 ≤ (clampDays l max).toInt ∧ (clampDays l max).toInt ≤ 7 := by
  have h1 : (1 : Int64).toInt = 1 := rfl
  have h7' : (7 : Int64).toInt = 7 := rfl
  have hmax' := Int64.le_iff_toInt_le.mp (Int64.not_lt.mp hmax)
  have h7 := Int64.le_iff_toInt_le.mp h7
  unfold clampDays
  split_ifs with hlow hhigh
  · omega
  · omega
  · have := Int64.le_iff_toInt_le.mp (Int64.not_lt.mp hlow)
    have := Int64.le_iff_toInt_le.mp (Int64.not_lt.mp hhigh)
    omega

/-- **Which passports are accepted until they expire.** In every run of a signer in operation: a
passport is accepted at every time of its own window exactly when it was issued after its issuing
key was created and at least its lifetime before the key's certificate ends. -/
theorem valid_through_lifetime_iff {s₀ : Signer} {es : List (Event Signer Act)}
    (hcorrect : C.Correct) (hmax : s₀.cfg.maxLifetimeDays ≤ 7) (h0 : InOperation C root s₀)
    (h : Run (ActStep C root) s₀ es s) (hclock : ∀ t ∈ readings es, 0 ≤ t ∧ t < 2 ^ 62)
    {e : Event Signer Act} (he : e ∈ es) {p : Processed} (hp : e.label = .job p) {r : JobResult}
    (hr : p.answer = some r) {token : String} {nbf exp : Int64} (htoken : r.passport = some token)
    (hnbf : r.nbf = some nbf) (hexp : r.exp = some exp) {l : Int64}
    (hl : p.job.lifetimeDays = some l) :
    (∀ now, nbf ≤ now → now ≤ exp →
      ∃ v, verify C token [C.verifyingKey root] ⟨now, 0, 0⟩ = .ok v) ↔
    Covered e.before.keys p.env.issue (clampDays l s₀.cfg.maxLifetimeDays) := by
  obtain ⟨pre, post, rfl⟩ := append_of_mem he
  obtain ⟨hpre, hstep, -⟩ := h.split
  have hbefore := inOperation_of_run hpre h0 fun t ht =>
    hclock t (by simp only [readings, flatMap_append, mem_append]; exact .inl ht)
  obtain ⟨⟨⟨seed, created, hcreated, hkeys⟩, hstate, -⟩, hcfg⟩ := hbefore
  have hissue : p.env.issue.toInt ∈ e.label.readings := by
    rw [hp]
    simp [Act.readings, Env.readings]
  have ht := hclock _ (mem_flatMap.mpr ⟨e, he, hissue⟩)
  rw [hp] at hstep
  have heffect := JobStep.effect hstep
  obtain ⟨device, l', hl', hsound, hdays, rfl⟩ :=
    heffect.issuance hstate hr (by rw [htoken]; simp)
  obtain rfl := Option.some.inj (hl.symm.trans hl')
  obtain rfl := Option.some.inj htoken
  obtain rfl := Option.some.inj hnbf
  obtain rfl := Option.some.inj hexp
  rw [hcfg] at hdays
  rw [hkeys, hcfg]
  exact accepted_iff_covered hcorrect hsound p.env.serial_length hcreated ht
    (clampDays_range hdays hmax)

/-! ## A passport issued a second before the rotation -/

namespace Sample

def issueJob : IssueJob where
  device := ⟨"123456789", did, "workshop", b64 (firstBytes 32 [3]), "ed25519",
    b64 (firstBytes 32 [9]), "legacy"⟩
  approver := ⟨"owner", "owner", "panel"⟩
  lifetimeDays := 7
  reason := "approve"

def approveJob : Job := ⟨1, "issue", issueJob.payload⟩

theorem issueChecks : IssueChecks prefixCrypto issueJob where
  rid := by decide
  did := by decide
  alg := rfl
  prot := by decide
  idk := ⟨prefixCrypto.verifyingKey [3], rfl⟩
  rdk := ⟨prefixCrypto.verifyingKey [9], rfl⟩
  reason := by decide

theorem inOperation : InOperation prefixCrypto [1] signer := by
  have hsound : SoundTable prefixCrypto signer.state := by
    refine SoundTable.insert (fun k d hd => ?_) did ?_
    · cases hd
    · exact ⟨by decide, by decide, rfl, by decide, issueChecks.idk, issueChecks.rdk⟩
  exact ⟨⟨[2], 1000, by decide, rfl⟩, hsound, hsound⟩

def approved (t : Int64) : Device := issueRecord issueJob (some device) t

theorem approve_succeeds_at {s : Signer} (hcfg : s.cfg = config) (hstate : s.state = signer.state)
    (t : Int64) :
    Succeeds (handle prefixCrypto approveJob (envAt t)) s
      (issuedFor prefixCrypto s (envAt t) (approved t) 7)
      (s.state.insert did ((approved t).issuedAt t)) := by
  have hd : s.state.devices issueJob.device.did = some device := by
    rw [hstate]
    exact State.insert_devices_same _ _ _
  have hpolicy : IssuePolicy issueJob (s.state.devices issueJob.device.did) := by
    rw [hd]
    exact ⟨by simp [issueJob, device], by simp [issueJob], by simp [device]⟩
  have hrate : WithinRate s issueJob.device.did (envAt t).rate := by
    intro d hd'
    obtain rfl := Option.some.inj (hd.symm.trans hd')
    rw [hcfg]
    exact (by decide : 0 < 10)
  have hdays : ¬ s.cfg.maxLifetimeDays < 1 := by
    rw [hcfg]
    decide
  have hkind : approveJob.kind = "issue" := rfl
  have h := handle_issue_succeeds hkind (decodeIssueJob_payload issueJob)
    (handleIssue_succeeds issueChecks hpolicy hrate ⟨hdays, rfl, rfl⟩)
  rwa [hd] at h

theorem approve_succeeds (t : Int64) :
    Succeeds (handle prefixCrypto approveJob (envAt t)) signer
      (issuedFor prefixCrypto signer (envAt t) (approved t) 7)
      (signer.state.insert did ((approved t).issuedAt t)) :=
  approve_succeeds_at rfl rfl t

theorem approved_sound (t : Int64) : (approved t).Sound prefixCrypto := issueChecks.sound _ _

def late : Int64 := 1000 + 30 * 86400 - 1

def lateCheck : RotateEnv := ⟨late, late, [4], late, none⟩

def lateEvents : List (Event Signer Act) :=
  [⟨signer, .rotate lateCheck, signer⟩, jobEvent prefixCrypto approveJob (envAt late) signer]

theorem run_late : Run (ActStep prefixCrypto [1]) signer lateEvents
    (jobEvent prefixCrypto approveJob (envAt late) signer).after := by
  have hcheck : Run (ActStep prefixCrypto [1]) signer [⟨signer, .rotate lateCheck, signer⟩] signer :=
    Run.snoc (l := Act.rotate lateCheck) .nil (if_neg (by decide)).symm
  exact run_jobEvent hcheck approveJob (envAt late)

end Sample

open Sample in
/-- Checked for rotation and approved at the same second, for seven days: at its own expiry the
passport is refused, because the certificate of its issuing key ended two days earlier. -/
theorem refused_before_expiry :
    ∃ (e : Event Signer Act) (p : Processed) (r : JobResult) (token : String) (nbf exp : Int64),
      InOperation prefixCrypto [1] signer ∧ signer.cfg = ⟨7, 30, 10⟩ ∧
      Run (ActStep prefixCrypto [1]) signer lateEvents e.after ∧
      SteadyClock lateEvents ∧ e ∈ lateEvents ∧
      e.label = .job p ∧ p.answer = some r ∧ r.passport = some token ∧ r.nbf = some nbf ∧
      r.exp = some exp ∧ nbf ≤ exp ∧
      ∀ v, verify prefixCrypto token [prefixCrypto.verifyingKey [1]] ⟨exp, 0, 0⟩ ≠ .ok v := by
  refine ⟨jobEvent prefixCrypto approveJob (envAt late) signer, _, _, _,
    _, _, inOperation, rfl, run_late, ⟨by decide, by decide⟩,
    mem_cons_of_mem _ (mem_singleton.mpr rfl), rfl,
    (process_of_succeeds (approve_succeeds late)).1, rfl, rfl, rfl, ?_, ?_⟩
  · decide
  · intro v hv
    have hbounds := (issued_verifies_iff prefixCrypto_correct (approved_sound late)
      (envAt late).serial_length _).mp ⟨v, hv⟩
    exact absurd hbounds.1.2 (by decide)

open Sample in
/-- The same approval, made when the key is new, is accepted to its last second. -/
theorem sample_valid_through_lifetime :
    ∃ v, verify prefixCrypto ((issuedFor prefixCrypto signer (envAt 1000)
      (approved 1000) 7).passport.getD "") [prefixCrypto.verifyingKey [1]]
      ⟨605800, 0, 0⟩ = .ok v :=
  (valid_through_lifetime_iff prefixCrypto_correct (by decide) inOperation
    (run_jobEvent .nil approveJob (envAt 1000)) (by decide)
    (mem_singleton.mpr rfl) rfl
    (process_of_succeeds (approve_succeeds 1000)).1 rfl rfl rfl rfl).mpr
    ⟨by decide, by decide⟩ 605800 (by decide) (by decide)

end ManagedDirectory.CaSigner
