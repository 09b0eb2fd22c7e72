import ManagedDirectory.Rds.Acceptance
import ManagedDirectory.Sealed.Call

/-!
# Sealed transport: the gate and the route agree on the device

The gate takes the token of the first `Bearer` authorization of the envelope; the route takes the
first authorization there is, through FastAPI's `HTTPBearer`, and validates it later.
`bearer_of_httpBearer`: a call that a route authenticates carries its token where the gate looks.
With `Rds.accepted_before` the gate has seen the same device, so a call that reports an interceptor
is executed for a device only where its network was not denied and the device not set to strict
(`inspected_identity`).
-/

namespace ManagedDirectory.Sealed

open Codec Lib List
open Rds (Issuer ManagedDevice Credential Record Failure validateDeviceCredential unauthorized)

/-! ## The route -/

/-- `HTTPBearer(auto_error=False)`: scheme and credentials of the first authorization.
`strips` tells whether this FastAPI strips the credentials. -/
def httpBearer (R : Runtime) (strips : Bool) (headers : Headers) : Option (Text × Text) :=
  match (values headers (codePoints "authorization")).head? with
  | none => none
  | some value =>
    let scheme := value.takeWhile (· ≠ ' '.toNat)
    let rest := (value.dropWhile (· ≠ ' '.toNat)).drop 1
    let credentials := if strips then R.unicode.strip rest else rest
    if scheme = [] ∨ credentials = [] ∨ R.unicode.lower scheme ≠ codePoints "bearer" then none
    else some (scheme, credentials)

/-- `require_device`. -/
def requireDevice (R : Runtime) (strips : Bool) (I : Issuer) (records : String → Record) (now : Int)
    (headers : Headers) : Except Failure (ManagedDevice × Credential) := do
  let (scheme, credentials) ← orRefuse (httpBearer R strips headers) unauthorized
  refuseIf (R.unicode.lower scheme ≠ codePoints "bearer") unauthorized
  let credential ← orRefuse (ofCodePoints credentials) unauthorized
  validateDeviceCredential I records now credential

/-! ## The token -/

/-- `str.lower` of ASCII. -/
def LowersAscii (R : Runtime) : Prop :=
  ∀ text, isAscii text = true → R.unicode.lower text = text.map asciiLower

/-- PyJWT reads a token with blanks around it as it reads the token, if it reads it. -/
def IgnoresBlanks (R : Runtime) (I : Issuer) : Prop :=
  ∀ {now text credential claims}, ofCodePoints text = some credential →
    I.decode now credential = some claims →
    R.unicode.strip text ≠ [] ∧ ∃ stripped, ofCodePoints (R.unicode.strip text) = some stripped ∧
      I.decode now stripped = some claims

section Bearer

variable {R : Runtime} {strips : Bool} {headers : Headers} {scheme credentials value : Text}

theorem find_of_values {name : Text} {p : Text → Bool} (h : (values headers name).head? = some value)
    (hp : p value = true) :
    headers.find? (fun x => x.1 == name && p x.2) = some (name, value) := by
  induction headers with
  | nil => cases h
  | cons x rest ih =>
    obtain ⟨n, v⟩ := x
    by_cases hn : n = name
    · subst hn
      obtain rfl : v = value := by simpa [values] using h
      simp [hp]
    · have hrest : (values rest name).head? = some value := by simpa [values, hn] using h
      rw [List.find?_cons, beq_false_of_ne hn, Bool.false_and]
      exact ih hrest

theorem bearer_value (hlower : LowersAscii R) (hascii : isAscii value = true)
    (hscheme : R.unicode.lower (value.takeWhile (· ≠ ' '.toNat)) = codePoints "bearer")
    (hrest : (value.dropWhile (· ≠ ' '.toNat)).drop 1 ≠ []) :
    R.unicode.lower (value.take 7) = codePoints "bearer " ∧
      value.drop 7 = (value.dropWhile (· ≠ ' '.toNat)).drop 1 := by
  obtain ⟨c, rest, htail⟩ : ∃ c rest, value.dropWhile (· ≠ ' '.toNat) = c :: rest := by
    cases htail : value.dropWhile (· ≠ ' '.toNat) with
    | nil => exact absurd (by rw [htail]; rfl) hrest
    | cons c rest => exact ⟨c, rest, rfl⟩
  have hblank : c = ' '.toNat := by
    have hhead := List.head?_dropWhile_not (fun c => decide (c ≠ ' '.toNat)) value
    rw [htail] at hhead
    simpa using hhead
  have hvalue : value = value.takeWhile (· ≠ ' '.toNat) ++ ' '.toNat :: rest := by
    subst hblank
    rw [← htail, takeWhile_append_dropWhile]
  rw [htail, drop_one, tail_cons]
  generalize value.takeWhile (· ≠ ' '.toNat) = scheme at hscheme hvalue
  subst hvalue
  have hparts : isAscii scheme = true := by
    simp only [isAscii, all_append, Bool.and_eq_true] at hascii
    exact hascii.1
  rw [hlower scheme hparts] at hscheme
  have hlength : scheme.length = 6 := by
    have hsame := congrArg List.length hscheme
    rw [length_map] at hsame
    exact hsame
  have htake : (scheme ++ ' '.toNat :: rest).take 7 = scheme ++ [' '.toNat] := by
    rw [take_append, take_of_length_le (by omega), hlength]
    rfl
  have hdrop : (scheme ++ ' '.toNat :: rest).drop 7 = rest := by
    rw [drop_append, drop_eq_nil_of_le (by omega), hlength]
    rfl
  refine ⟨?_, hdrop⟩
  rw [htake, hlower, map_append, hscheme]
  · decide
  · simp only [isAscii, all_append, Bool.and_eq_true]
    exact ⟨hparts, by decide⟩

/-- **What a route authenticates is what the gate looks at.** -/
theorem bearer_of_httpBearer (hlower : LowersAscii R)
    (hascii : ∀ x ∈ headers, isAscii x.2 = true)
    (h : httpBearer R strips headers = some (scheme, credentials)) :
    ∃ rest, bearer R headers = some (R.unicode.strip rest) ∧ credentials ≠ [] ∧
      credentials = if strips then R.unicode.strip rest else rest := by
  unfold httpBearer at h
  split at h
  · cases h
  · rename_i value hvalue
    simp only [Option.ite_none_left_eq_some, not_or, not_not] at h
    obtain ⟨⟨-, hcredentials, hscheme⟩, h⟩ := h
    obtain ⟨rfl, rfl⟩ := Prod.mk.inj (Option.some.inj h)
    have hmem : (codePoints "authorization", value) ∈ headers := by
      obtain ⟨x, hx, rfl⟩ := mem_map.mp (List.mem_of_mem_head? hvalue)
      obtain ⟨hx, hname⟩ := mem_filter.mp hx
      rw [← beq_iff_eq.mp hname]
      exact hx
    have hrest : (value.dropWhile (· ≠ ' '.toNat)).drop 1 ≠ [] := by
      intro hnil
      rw [hnil] at hcredentials
      cases strips <;> exact hcredentials rfl
    obtain ⟨hbearer, hdrop⟩ := bearer_value hlower (hascii _ hmem) hscheme hrest
    refine ⟨_, ?_, hcredentials, rfl⟩
    rw [bearer, find_of_values hvalue (p := fun v => R.unicode.lower (v.take 7) ==
      codePoints "bearer ") (beq_iff_eq.mpr hbearer), Option.map_some, hdrop]

end Bearer

/-! ## The gate -/

section Gate

variable {R : Runtime} {I : Issuer} {requireEdgeCert : Bool} {newId : String} {now : Int} {q : Query}
  {db db' : Database} {d : Decision} {o : Outer} {t : Target} {body : Bytes} {inspected : Bool}
  {call : InnerCall}

theorem decideDevice_allowed {verified bootstrap : Bool} {status : NetworkStatus} {policy : Policy}
    {holdsCert : Bool}
    (h : (decideDevice requireEdgeCert verified bootstrap status policy holdsCert).1 = true) :
    status ≠ .denied ∧ policy ≠ .strict := by
  unfold decideDevice at h
  constructor <;> rintro rfl
  · cases h
  · cases status <;> cases h

theorem noteNetwork_found {address : Address} {network n : Network} {isNew : Bool}
    (h : noteNetwork newId q address now db = .ok (network, isNew, db'))
    (hn : mostSpecific Network.cidr db.networks address = some n) : network = n := by
  simp only [noteNetwork, bind_ok_iff, exists_unit, hn] at h
  obtain ⟨-, h⟩ := h
  cases h
  rfl

/-- An accepted device passes the gate only on a network that is not denied, and not if it is set to
strict. -/
theorem gate_allowed {device : ManagedDevice} {c : Credential}
    (h : gate I requireEdgeCert newId now q db = .ok (d, db')) (hallowed : d.allowed = true)
    (hdevice : tokenDevice I db now q.token = some (device, c)) :
    db.policy device.id ≠ .strict ∧ ∀ address n, ipAddress q.ip = some address →
      mostSpecific Network.cidr db.networks address = some n → n.status ≠ .denied := by
  have hknown : gateKnown requireEdgeCert newId now q (some (device, c)) db = .ok (d, db') := by
    rw [gate, hdevice] at h
    exact h
  simp only [gateKnown, bind_ok_iff, exists_unit, orRefuse_eq_ok, Prod.exists, pure_ok_iff] at hknown
  obtain ⟨address, haddress, -, network, isNew, db₁, hnote, hgate⟩ := hknown
  obtain ⟨-, hrecords, hpolicies, -⟩ := noteNetwork_ok hnote
  have hdecided : (gateDevice requireEdgeCert q now network isNew device.id db₁).1.allowed = true := by
    rw [hgate]
    exact hallowed
  obtain ⟨hstatus, hpolicy⟩ := decideDevice_allowed hdecided
  have hsame : db₁.policy device.id = db.policy device.id := by
    rw [Database.policy, Database.policy, hrecords, hpolicies]
  refine ⟨hsame ▸ hpolicy, fun address' n haddress' hn => ?_⟩
  obtain rfl : address = address' := Option.some.inj (haddress.symm.trans haddress')
  exact noteNetwork_found hnote hn ▸ hstatus

theorem not_authorization_of_added {x : Text × Text}
    (hx : x ∈ forwardedHeaders o ++ ownHeaders o inspected) : x.1 ≠ codePoints "authorization" := by
  have hnames : ∀ n ∈ outerForwardedHeaders ++ ["host", "x-rds-sealed", "x-rds-sealed-inspected"],
      codePoints n ≠ codePoints "authorization" := by decide
  rcases mem_append.mp hx with hx | hx
  · obtain ⟨n, hn, hx⟩ := mem_filterMap.mp hx
    obtain ⟨v, -, rfl⟩ := Option.map_eq_some_iff.mp hx
    exact hnames n (mem_append_left _ hn)
  · simp only [ownHeaders, mem_cons, not_mem_nil, or_false] at hx
    rcases hx with rfl | rfl | rfl
    · exact hnames "host" (by simp)
    · exact hnames "x-rds-sealed" (by simp)
    · exact hnames "x-rds-sealed-inspected" (by simp)

theorem bearer_of_forward (h : forward R o t body inspected = .executed call) :
    bearer R call.headers = bearer R t.headers ∧ ∀ x ∈ call.headers, isAscii x.2 = true := by
  unfold forward at h
  simp only at h
  split_ifs at h with hok
  cases h
  rw [Bool.and_eq_true, all_eq_true] at hok
  refine ⟨?_, hok.1⟩
  have hadded : (forwardedHeaders o ++ ownHeaders o inspected).find? (fun h =>
      h.1 == codePoints "authorization" && R.unicode.lower (h.2.take 7) == codePoints "bearer ") =
      none := by
    rw [List.find?_eq_none]
    intro x hx
    rw [beq_false_of_ne (not_authorization_of_added hx), Bool.false_and]
    exact Bool.false_ne_true
  unfold bearer
  rw [append_assoc, List.find?_append, hadded, Option.or_none]

theorem serveInspected_executed {cfg : Config} {r : Readings} {info : Info}
    (h : (serveInspected R I cfg r o t info body db).1.outcome = .executed call) :
    ∃ d db', gate I cfg.requireEdgeCert r.newNetworkId r.gateAt (query R cfg o t info) db =
      .ok (d, db') ∧ d.allowed = true ∧ forward R o t body true = .executed call := by
  unfold serveInspected at h
  split at h
  · cases h
  · cases h
  · rename_i d db' hgate
    simp only at h
    split_ifs at h with hallowed
    exact ⟨d, db', hgate, hallowed, h⟩

end Gate

/-! ## The call -/

section Call

variable {P : Rds.Platform} {I : Issuer} {g : Rds.Outside} {pre es : List Rds.Ev} {m s : Rds.State}
  {R : Runtime} {strips : Bool} {cfg : Config} {r : Readings} {o : Outer} {blob : Bytes}
  {e : Opened} {info : Info} {db : Database} {call : InnerCall} {d : ManagedDevice} {c : Credential}

theorem tokenDevice_of_requireDevice {headers : Headers} (hlower : LowersAscii R)
    (hstrips : strips = true ∨ IgnoresBlanks R I) (htimely : Rds.Timely I)
    (hm : Run (Rds.TxStep P I) (Rds.noDevices g) pre m) (hs : Run (Rds.TxStep P I) m es s)
    (hdb : db.records = m.cells)
    (hascii : ∀ x ∈ headers, isAscii x.2 = true)
    (h : requireDevice R strips I s.cells s.outside.clock headers = .ok (d, c))
    (hsigned : ∀ text claims, bearer R headers = some text →
      (ofCodePoints text).bind (I.decode s.outside.clock) = some claims → Rds.SignedIn I pre claims) :
    ∃ d₁ c₁, tokenDevice I db m.outside.clock (bearer R headers) = some (d₁, c₁) ∧ d₁.id = d.id := by
  simp only [requireDevice, bind_ok_iff, orRefuse_eq_ok, exists_unit, Prod.exists] at h
  obtain ⟨scheme, credentials, hbearer, -, credential, hcredential, hvalid⟩ := h
  obtain ⟨rest, htoken, hne, hcredentials⟩ := bearer_of_httpBearer hlower hascii hbearer
  -- what the route validates, the gate would validate at that time
  obtain ⟨text, hne', htext, hvalid'⟩ : ∃ text, R.unicode.strip rest ≠ [] ∧
      ofCodePoints (R.unicode.strip rest) = some text ∧
      validateDeviceCredential I s.cells s.outside.clock text = .ok (d, c) := by
    cases strips with
    | true =>
      subst hcredentials
      exact ⟨credential, hne, hcredential, hvalid⟩
    | false =>
      subst hcredentials
      obtain ⟨claims, hdecode, hchecks⟩ := Rds.validate_ok_iff.mp hvalid
      have hblanks : IgnoresBlanks R I := hstrips.resolve_left (by decide)
      obtain ⟨hne', text, htext, hdecode'⟩ := hblanks hcredential hdecode
      exact ⟨text, hne', htext, Rds.validate_ok_iff.mpr ⟨claims, hdecode', hchecks⟩⟩
  obtain ⟨d₁, c₁, hbefore, hid⟩ := Rds.accepted_before htimely hm hs hvalid' fun claims hclaims =>
    hsigned _ claims htoken (by rw [htext]; exact hclaims)
  refine ⟨d₁, c₁, ?_, hid⟩
  rw [tokenDevice, htoken, Option.filter_some, if_pos (decide_eq_true hne'), hdb]
  simp only [htext, hbefore, Option.bind_eq_bind, Option.bind_some, Except.toOption]

/-- **A call that reports an interceptor and is authenticated** by a route is executed only if, when
the gate ran, the network was not denied and the device not set to strict. The gate ran in state `m`
of the directory, the route in a later state `s`; the token had been signed by then. -/
theorem inspected_identity (hlower : LowersAscii R) (hstrips : strips = true ∨ IgnoresBlanks R I)
    (htimely : Rds.Timely I) (hm : Run (Rds.TxStep P I) (Rds.noDevices g) pre m)
    (hs : Run (Rds.TxStep P I) m es s) (hdb : db.records = m.cells)
    (hclock : r.gateAt = m.outside.clock) (hopen : openRequest R cfg.keys blob = .ok e)
    (hreport : inspectionInfo R e.metadata = some info)
    (hexecuted : (sealedCall R I cfg r o blob db).1.outcome = .executed call)
    (hauthenticated : requireDevice R strips I s.cells s.outside.clock call.headers = .ok (d, c))
    (hsigned : ∀ text claims, bearer R call.headers = some text →
      (ofCodePoints text).bind (I.decode s.outside.clock) = some claims →
        Rds.SignedIn I pre claims) :
    db.policy d.id ≠ .strict ∧ ∀ address n, ipAddress o.clientOr.1 = some address →
      mostSpecific Network.cidr db.networks address = some n → n.status ≠ .denied := by
  obtain ⟨e', hopen', -, -, hcall⟩ := sealedCall_executed hexecuted
  obtain rfl : e = e' := Except.ok.inj (hopen.symm.trans hopen')
  rw [hcall] at hexecuted
  obtain ⟨t, ht, hfresh⟩ := callOpened_executed hexecuted
  rw [callOpened_answer ht, if_pos hfresh, hreport] at hexecuted
  obtain ⟨decision, db', hgate, hallowed, hforward⟩ := serveInspected_executed hexecuted
  obtain ⟨hbearer, hascii⟩ := bearer_of_forward hforward
  obtain ⟨d₁, c₁, hdevice, hid⟩ := tokenDevice_of_requireDevice hlower hstrips htimely hm hs hdb
    hascii hauthenticated hsigned
  rw [hbearer, ← hclock] at hdevice
  rw [← hid]
  exact gate_allowed hgate hallowed hdevice

end Call

open CallSample in
theorem sample_inspected_identity :
    (sealedCall runtime issuer (config true) readings (outer []) (sealText (authorizedText reportText))
      database).1.outcome =
        .executed (innerCall (outer []) [(codePoints "authorization", codePoints "Bearer t")] true) ∧
    database.policy "d" ≠ .strict ∧ ∀ address n, ipAddress (codePoints "10.0.0.1") = some address →
      mostSpecific Network.cidr database.networks address = some n → n.status ≠ .denied := by
  have hexecuted : (sealedCall runtime issuer (config true) readings (outer [])
      (sealText (authorizedText reportText)) database).1.outcome =
        .executed (innerCall (outer []) [(codePoints "authorization", codePoints "Bearer t")]
          true) := by
    decide +kernel
  have hopen : openRequest runtime (config true).keys (sealText (authorizedText reportText)) =
      .ok (opened [(codePoints "i", .obj [])]) :=
    openRequest_sealText (by decide +kernel) (by decide +kernel) rfl
  obtain ⟨pre, hm, hcommits⟩ := ((Rds.sample_enrolled (P := Rds.plainPlatform) (I := issuer)).trans
    Rds.sample_approved).trans (Rds.run_tick (show (2 : Int) ≤ 3 by decide))
  have hsigned : Rds.SignedIn issuer pre claims := by
    obtain ⟨before, x, after, rfl, -, -, hx⟩ := Rds.committed_split
      (show Rds.committed pre = [_] ++ Rds.sampleCommit _ Rds.sampleEnrolled 2 Rds.sampleApproved :: _
        from hcommits)
    obtain ⟨hlabel, -, hafter⟩ := Rds.commitOf_eq_some hx
    change x.after.cells claims.sub = _ at hafter
    exact ⟨x, by simp, .inl ⟨_, _, _, _, _, _, hlabel, rfl, by rw [hafter]; rfl,
      by rw [hafter]; rfl, rfl⟩⟩
  have hauthenticated : requireDevice runtime true issuer (Rds.sampleAt 3 Rds.sampleApproved).cells 3
      (innerCall (outer []) [(codePoints "authorization", codePoints "Bearer t")] true).headers =
        .ok (((Rds.newDevice ⟨Rds.sampleEnrollment 1 "t1" 1, none, "d"⟩).approve none),
          ⟨"c1", 2, none, false⟩) := by
    rfl
  refine ⟨hexecuted, inspected_identity (fun text _ => rfl) (.inl rfl) (fun h _ _ => h)
    hm .nil ?_ rfl hopen rfl hexecuted hauthenticated ?_⟩
  · funext did
    exact (Function.update_apply (fun _ => Record.empty) "d" Rds.sampleApproved did).symm
  · intro text claims' _ hdecode
    obtain ⟨token, -, hdecode⟩ := Option.bind_eq_some_iff.mp hdecode
    simp only [issuer, Option.ite_none_right_eq_some, Option.some.injEq] at hdecode
    exact hdecode.2 ▸ hsigned

end ManagedDirectory.Sealed
