import ManagedDirectory.Rds.Credentials

/-!
# RDS: work of a device and its cut-off

A relay lease, an edge certificate or a signed request for the CA is made in two transactions: the
first validates the credential, the second writes. `inFlight_of_run` says what the first is worth to
the second: while a request is between the two, its device is approved, provided that no device is
blocked or revoked while one of its requests is there. Then nothing is made for a blocked or revoked
device (`no_work_after_close`); otherwise the request that was let in before the block finishes its
work after it (`lease_after_block`).
-/

namespace ManagedDirectory.Rds

open Codec Lib List

/-! ## What a transaction makes -/

/-- Record `r'` has an unrevoked lease, an unrevoked edge certificate or a signed request that `r`
has not. -/
def MakesWork (r r' : Record) : Prop :=
  (∃ l ∈ r'.leases, l.revoked = false ∧ l ∉ r.leases) ∨
    (∃ c ∈ r'.edgeCerts, c.revoked = false ∧ c ∉ r.edgeCerts) ∨
    r.requests.length < r'.requests.length

section Changes

variable {g : Outside} {t : Tx} {did : String} {r r' : Record} {startedAt : Int}

/-- Nothing new: leases and certificates are as they were or revoked, and no request was added. -/
structure NoNewWork (r r' : Record) : Prop where
  leases : ∀ l ∈ r'.leases, l ∈ r.leases ∨ l.revoked = true
  edgeCerts : ∀ c ∈ r'.edgeCerts, c ∈ r.edgeCerts ∨ c.revoked = true
  requests : r'.requests.length ≤ r.requests.length

theorem NoNewWork.not_makesWork (h : NoNewWork r r') : ¬ MakesWork r r' := by
  rintro (⟨l, hl, hactive, hnew⟩ | ⟨c, hc, hactive, hnew⟩ | hlt)
  · simp [(h.leases l hl).resolve_left hnew] at hactive
  · simp [(h.edgeCerts c hc).resolve_left hnew] at hactive
  · exact absurd h.requests (Nat.not_le.mpr hlt)

theorem noNewWork_of_eq (hl : r'.leases = r.leases) (hc : r'.edgeCerts = r.edgeCerts)
    (hq : r'.requests.length = r.requests.length) : NoNewWork r r' :=
  ⟨fun _ h => .inl (hl ▸ h), fun _ h => .inl (hc ▸ h), hq.le⟩

theorem revoked_of_mem_leases {ls : List Lease} : ∀ l ∈ ls.map Lease.revoke, l.revoked = true := by
  intro l hl
  obtain ⟨l', -, rfl⟩ := mem_map.mp hl
  rfl

def Record.work (r : Record) : List Lease × List EdgeCert × List SignedRequest :=
  (r.leases, r.edgeCerts, r.requests)

theorem work_setRow (d d' : ManagedDevice) : (r.setRow startedAt d d').work = r.work := by
  unfold Record.setRow
  split_ifs <;> rfl

theorem work_credentialed (h : Credentialed startedAt r r') : r'.work = r.work := by
  cases h <;> rfl

theorem noNewWork_congr {r₁ : Record} (h : r'.work = r₁.work) (hr₁ : NoNewWork r r₁) :
    NoNewWork r r' := by
  obtain ⟨hl, hc, hq⟩ : r'.leases = r₁.leases ∧ r'.edgeCerts = r₁.edgeCerts ∧
      r'.requests = r₁.requests := by
    simpa [Record.work] using h
  exact ⟨hl ▸ hr₁.leases, hc ▸ hr₁.edgeCerts, hq ▸ hr₁.requests⟩

theorem noNewWork_withdraw (cloudflare : EdgeCert → Bool) : NoNewWork r (r.withdraw cloudflare) := by
  refine ⟨fun l hl => .inr (revoked_of_mem_leases l hl), fun c hc => ?_, le_rfl⟩
  obtain ⟨c', hc', rfl⟩ := mem_map.mp hc
  split_ifs
  · exact .inr rfl
  · exact .inl hc'

@[simp] theorem length_touch_requests (u : Touch) (qs : List SignedRequest) :
    (u.requests qs).length = qs.length := by
  unfold Touch.requests
  split <;> simp

theorem work_of_makes (h : RecordChange g t did r r') (hnew : MakesWork r r') :
    ∃ w, t.request = .work did w := by
  by_contra hother
  refine NoNewWork.not_makesWork ?_ hnew
  have hsame : NoNewWork r r := noNewWork_of_eq rfl rfl rfl
  cases h with
  | readmitted hreq hrow hopen ha =>
    refine noNewWork_congr (work_setRow _ _) ⟨fun l hl => .inr (revoked_of_mem_leases l hl), ?_, ?_⟩
    · exact fun c hc => .inl hc
    · exact le_rfl
  | approved hreq hrow hopen hcredential =>
    exact noNewWork_congr ((work_credentialed hcredential).trans (work_setRow _ _)) hsame
  | renamed hreq hrow happroved hcredential =>
    exact noNewWork_congr (work_credentialed hcredential) (noNewWork_of_eq rfl rfl rfl)
  | @changed account change cloudflare d hreq hrow hfrom hcheck =>
    refine noNewWork_congr (work_setRow _ _) ?_
    split_ifs
    · exact hsame
    · exact noNewWork_withdraw cloudflare
  | unchanged hreq hrow hsame' => exact hsame
  | deleted hreq hrow hclosed => constructor <;> simp [Record.empty]
  | touched hreq hrow => exact noNewWork_of_eq rfl rfl (length_touch_requests _ _)
  | worked hreq hrow hdone => exact absurd ⟨_, hreq⟩ hother
  | _ => exact noNewWork_of_eq rfl rfl rfl

theorem target_of_plan {P : Platform} {I : Issuer} {k : String} {w : Work}
    (h : (rules P I).plan g t k r = some r') (hw : t.request = .work did w) : k = did := by
  have hrun := toOption_eq_some h
  simp only [Tx.run, hw, Request.target, bind_ok_iff, refuseIf_eq_ok, exists_unit] at hrun
  have htarget : did = k := by simpa using hrun.1
  exact htarget.symm

end Changes

/-! ## Requests between their validation and their work -/

/-- Requests of device `did` that were let in and have not finished. -/
def InFlight (did : String) (s : State) : Prop :=
  ∃ t w, t.request = .work did w ∧ (t ∈ s.waiting ∨ ∃ h ∈ s.held, h.op = t)

/-- `e` blocks or revokes device `did`. -/
def Closes (did : String) (e : Ev) : Prop :=
  StatusChanged did e ∧
    ((e.after.cells did).status = some .blocked ∨ (e.after.cells did).status = some .revoked)

/-- If `e` blocks or revokes device `did`, then none of its requests waits to do its work. -/
def ClosesIdle (did : String) (e : Ev) : Prop :=
  Closes did e → ∀ t ∈ e.before.waiting, ∀ w, t.request ≠ .work did w

section Runs

variable {P : Platform} {I : Issuer} {g : Outside} {s s' : State} {l : Locks.Label String Tx}
  {es pre post : List Ev} {e : Ev} {did : String}

theorem approved_of_validate {records : String → Record} {now : Int} {text : String}
    {d : ManagedDevice} {c : Credential}
    (hids : ∀ k d, (records k).row = some d → d.id = k)
    (h : validateDeviceCredential I records now text = .ok (d, c)) :
    (records d.id).status = some .approved := by
  simp only [validateDeviceCredential, bind_ok_iff, orRefuse_eq_ok, refuseIf_eq_ok, exists_unit,
    pure_ok_iff, Prod.mk.injEq] at h
  obtain ⟨claims, -, d', hd', c', -, -, -, rfl, rfl⟩ := h
  obtain ⟨hrow, hok⟩ := Option.filter_eq_some_iff.mp hd'
  simp only [Bool.and_eq_true, beq_iff_eq] at hok
  rw [hids _ _ hrow, status_of_row hrow, hok.2]

theorem approved_of_authenticated {w : Work}
    (hids : ∀ k d, (s.cells k).row = some d → d.id = k) (h : Authenticated I s did w) :
    (s.cells did).status = some .approved := by
  cases w with
  | lease leaseId credentialSerial expiresAt =>
    obtain ⟨now, text, d, c, hvalid, rfl, -⟩ := h
    exact approved_of_validate hids hvalid
  | edgeCert cfCertId now cloudflare =>
    obtain ⟨now, text, d, c, hvalid, rfl⟩ := h
    exact approved_of_validate hids hvalid
  | signed device kind text now =>
    obtain ⟨now, text, c, hvalid, rfl⟩ := h
    exact approved_of_validate hids hvalid

theorem closes_of_change {r r' : Record} {t : Tx} (h : RecordChange g t did r r')
    (hbefore : r.status = some .approved) (hafter : r'.status ≠ some .approved) :
    r'.status = some .blocked ∨ r'.status = some .revoked := by
  have hmove := status_moves h
  rw [hbefore] at hmove
  generalize hx : r'.status = x at hmove hafter
  cases hmove with
  | same => exact absurd rfl hafter
  | readmitted hreq hfrom => exact absurd rfl hfrom.1
  | approved hreq hfrom => exact absurd rfl hafter
  | @changed _ _ change _ hreq hmove =>
    revert hmove
    cases change <;> decide
  | deleted hreq hclosed => simp at hclosed

theorem inFlight_step (hs : Locks.Valid (rules P I) s)
    (hids : ∀ k d, (s.cells k).row = some d → d.id = k)
    (hinv : InFlight did s → (s.cells did).status = some .approved)
    (hidle : ClosesIdle did ⟨s, l, s'⟩) (hstep : TxStep P I s l s') :
    InFlight did s' → (s'.cells did).status = some .approved := by
  rintro ⟨t, w, hw, hwhere⟩
  cases hstep with
  | @start op h =>
    rcases hwhere with hwaiting | hheld
    · rcases mem_cons.mp hwaiting with rfl | hwaiting
      · exact approved_of_authenticated hids (h.work did w hw)
      · exact hinv ⟨t, w, hw, .inl hwaiting⟩
    · exact hinv ⟨t, w, hw, .inr hheld⟩
  | @lock l₁ l₂ op key new hwaiting hfree hplan =>
    refine hinv ⟨t, w, hw, ?_⟩
    rcases hwhere with hmem | ⟨h, hh, hop⟩
    · left
      rw [hwaiting]
      simp only [mem_append, mem_cons] at hmem ⊢
      tauto
    · rcases mem_cons.mp hh with rfl | hh
      · left
        simp [hwaiting, ← hop]
      · exact .inr ⟨h, hh, hop⟩
  | @commit l₁ l₂ h₀ hheld =>
    obtain ⟨hold, g, hplan⟩ := hs.fresh h₀ (by simp [hheld])
    have hbefore : (s.cells did).status = some .approved := by
      refine hinv ⟨t, w, hw, hwhere.imp_right ?_⟩
      rintro ⟨h, hh, hop⟩
      exact ⟨h, ((hs.release hheld).2 h hh).1, hop⟩
    by_cases hkey : did = h₀.key
    · -- The transaction on `did` itself: had it closed the device, nothing would be in flight.
      by_contra hnot
      have hnew : (Function.update s.cells h₀.key h₀.new) did = h₀.new := by
        rw [hkey, Function.update_self]
      have hchange : RecordChange g h₀.op did (s.cells did) h₀.new := by
        rw [hkey, hold]
        exact run_ok (toOption_eq_some hplan)
      simp only [hnew] at hnot
      have hcloses : Closes did ⟨s, .commit h₀.key h₀.op,
          { s with cells := Function.update s.cells h₀.key h₀.new, held := l₁ ++ l₂ }⟩ := by
        simp only [Closes, StatusChanged, hnew, hbefore]
        exact ⟨hnot, closes_of_change hchange hbefore hnot⟩
      rcases hwhere with hmem | ⟨h, hh, rfl⟩
      · exact hidle hcloses t hmem w hw
      · obtain ⟨hh, hne⟩ := (hs.release hheld).2 h hh
        obtain ⟨-, g', hplan'⟩ := hs.fresh h hh
        exact hne ((target_of_plan hplan' hw).trans hkey)
    · simpa only [Function.update_of_ne hkey] using hbefore
  | @refuse l₁ l₂ op hwaiting =>
    refine hinv ⟨t, w, hw, hwhere.imp_left fun hmem => ?_⟩
    rw [hwaiting]
    simp only [mem_append, mem_cons] at hmem ⊢
    tauto
  | abort hheld =>
    refine hinv ⟨t, w, hw, hwhere.imp_right ?_⟩
    rintro ⟨h, hh, hop⟩
    exact ⟨h, ((hs.release hheld).2 h hh).1, hop⟩
  | outside h => exact hinv ⟨t, w, hw, hwhere⟩

theorem inFlight_of_run (h : Run (TxStep P I) (noDevices g) es s)
    (hidle : ∀ x ∈ es, ClosesIdle did x) (hflight : InFlight did s) :
    (s.cells did).status = some .approved := by
  revert hflight hidle
  induction h with
  | nil =>
    rintro - ⟨t, w, -, hwhere⟩
    simp [noDevices] at hwhere
  | snoc h hstep ih =>
    intro hidle
    have hbefore := ih fun x hx => hidle x (mem_append_left _ hx)
    exact inFlight_step (valid_noDevices h) (fun k d hd => id_of_run h hd) hbefore
      (hidle _ (by simp)) hstep

/-- `y` approves device `did`. -/
def ApprovedBy (did : String) (y : Ev) : Prop :=
  ∃ t account name serial, y.label = .commit did t ∧ t.request = .approve did account name serial ∧
    (y.after.cells did).status = some .approved

theorem approved_since {m : State} (hm : Locks.Valid (rules P I) m) (h : Run (TxStep P I) m es s)
    (hbefore : (m.cells did).status ≠ some .approved)
    (hafter : (s.cells did).status = some .approved) : ∃ y ∈ es, ApprovedBy did y := by
  have hinv := record_history hm h
    (fun es r => (∃ y ∈ es, ApprovedBy did y) ∨ r.status ≠ some .approved) (.inr hbefore) ?_
  · exact hinv.resolve_right fun hne => hne hafter
  · intro es e hinv hstep
    rcases hinv with ⟨y, hy, happroved⟩ | hne
    · exact .inl ⟨y, mem_append_left _ hy, happroved⟩
    rcases hstep.same_or_commit with hsame | ⟨g, t, hlabel, hchange⟩
    · exact .inr (hsame ▸ hne)
    by_cases hnow : (e.after.cells did).status = some .approved
    · have hmove := status_moves hchange
      rw [hnow] at hmove
      generalize (e.before.cells did).status = x at hne hmove
      refine .inl ⟨e, by simp, ?_⟩
      generalize hx : some DeviceStatus.approved = o at hmove
      cases hmove with
      | same => exact absurd hx.symm hne
      | approved hreq hfrom =>
        obtain ⟨account, name, serial, hreq⟩ := hreq
        exact ⟨t, account, name, serial, hlabel, hreq, hnow⟩
      | @changed _ _ change _ hreq hmove => cases change <;> cases hx
      | _ => cases hx
    · exact .inr hnow

/-- **Work stops with the device**: where a device is blocked or revoked only while none of its
requests is in flight, a transaction makes nothing for it after that, until it is approved
again. -/
theorem no_work_after_close {mid : List Ev} {x : Ev}
    (h : Run (TxStep P I) (noDevices g) (pre ++ e :: (mid ++ x :: post)) s)
    (hidle : ∀ y ∈ pre ++ e :: (mid ++ x :: post), ClosesIdle did y) (hcloses : Closes did e)
    (hmakes : MakesWork (x.before.cells did) (x.after.cells did)) :
    ∃ y ∈ mid, ApprovedBy did y := by
  obtain ⟨hpre, hstep, hrest⟩ := h.split
  obtain ⟨hmid, hxstep, -⟩ := hrest.split
  have hbefore := (Run.snoc hpre hstep).trans hmid
  have hvalid := valid_noDevices hbefore
  refine approved_since (valid_noDevices (.snoc hpre hstep)) hmid ?_ ?_
  · rcases hcloses.2 with hstatus | hstatus <;> simp [hstatus]
  rcases (recordStep_of_change (Locks.step_change hvalid hxstep did)).same_or_commit with
    hsame | ⟨g', t, hlabel, hchange⟩
  · exact absurd hmakes (hsame ▸ (noNewWork_of_eq rfl rfl rfl).not_makesWork)
  · obtain ⟨w, hw⟩ := work_of_makes hchange hmakes
    rw [hlabel] at hxstep
    obtain ⟨held, hheld, -, hop⟩ := Locks.held_of_commit hxstep
    refine inFlight_of_run hbefore (fun y hy => hidle y ?_) ⟨t, w, hw, .inr ⟨held, hheld, hop⟩⟩
    simp only [append_assoc, singleton_append, mem_append, mem_cons] at hy ⊢
    tauto

theorem closesIdle_of_committed (did : String) (h : Run (TxStep P I) (noDevices g) es s)
    (hall : ∀ c ∈ committed es, c.did = did → c.after.status ≠ c.before.status →
      ∀ t ∈ c.waiting, t.request.isWork = false) : ∀ y ∈ es, ClosesIdle did y := by
  intro y hy hcloses t ht w hw
  rcases (recordStep_of_run rfl h hy did).same_or_commit with hsame | ⟨g, u, hlabel, -⟩
  · exact hcloses.1 (by rw [hsame])
  · have hidle := hall _ (mem_committed hy hlabel) rfl hcloses.1 t ht
    rw [hw] at hidle
    cases hidle

theorem validate_signed {records : String → Record} {now : Int} {d : ManagedDevice}
    {c : Credential}
    (hdecode : I.decode now (I.encode (signDeviceCredential I d c)) =
      some (signDeviceCredential I d c))
    (hrow : (records d.id).row = some d) (happroved : d.status = .approved)
    (hfind : ((records d.id).credentials.find? fun b =>
      b.serial == c.serial && !b.revoked && b.expiresAt.all (now < ·)) = some c) :
    validateDeviceCredential I records now (I.encode (signDeviceCredential I d c)) = .ok (d, c) := by
  simp only [validateDeviceCredential, bind_ok_iff, orRefuse_eq_ok, refuseIf_eq_ok, exists_unit,
    pure_ok_iff]
  refine ⟨_, hdecode, d, ?_, c, hfind, ?_⟩
  · simp [signDeviceCredential, hrow, happroved]
  · simp [signDeviceCredential]

end Runs

/-! ## A lease, before and after a block -/

def sampleLease (serial : String) : Request := .work "d" (.lease "l1" serial 1000)

def sampleLeased : Record :=
  { sampleReapproved with leases := [⟨"l1", "c2", 1000, false⟩] }

def sampleLeak : Record :=
  { sampleBlocked with leases := [⟨"l1", "c1", 1000, false⟩] }

theorem sample_starts (now : Int) (r : Record) (c : Credential) {serial : String}
    {d : ManagedDevice} (hid : d.id = "d") (hserial : c.serial = serial)
    (hrow : r.row = some d) (happroved : d.status = .approved)
    (hfind : (r.credentials.find? fun b =>
      b.serial == c.serial && !b.revoked && b.expiresAt.all (now < ·)) = some c) :
    Starts plainIssuer (sampleAt now r) ⟨sampleLease serial, now⟩ := by
  refine ⟨rfl, ?_⟩
  intro did w hw
  cases hw
  refine ⟨now, _, d, c, validate_signed (plainIssuer_decode _ _) ?_ happroved ?_, hid, hserial⟩
  · rw [hid, cells_oneDevice]
    exact hrow
  · rw [hid, cells_oneDevice]
    exact hfind

theorem sample_leased : Serves plainPlatform plainIssuer (sampleAt 6 sampleReapproved)
    [sampleCommit (sampleLease "c2") sampleReapproved 6 sampleLeased] (sampleAt 6 sampleLeased) := by
  have hstart := run_start (P := plainPlatform) (sample_starts 6 sampleReapproved
    ⟨"c2", 6, none, false⟩ rfl rfl rfl rfl rfl)
  exact hstart.trans (run_commit rfl)

theorem sample_no_work_after_close : ∃ pre e mid x post s y,
    Run (TxStep plainPlatform plainIssuer) (noDevices sampleOutside)
      (pre ++ e :: (mid ++ x :: post)) s ∧ Closes "d" e ∧
    MakesWork (x.before.cells "d") (x.after.cells "d") ∧ y ∈ mid ∧ ApprovedBy "d" y := by
  obtain ⟨es, hrun, hcommits⟩ := ((sample_return (P := plainPlatform) (I := plainIssuer)).trans
    sample_reapproved).trans sample_leased
  have hidle := closesIdle_of_committed "d" hrun (by rw [hcommits]; simp)
  obtain ⟨pre, e, rest, rfl, -, hrest, he⟩ := committed_split
    (show committed es = [_, _] ++ sampleCommit sampleBlock _ 3 _ :: _ from hcommits)
  obtain ⟨mid, x, post, rfl, -, -, hx⟩ := committed_split
    (show committed rest = [_, _, _] ++ sampleCommit (sampleLease "c2") _ 6 _ :: [] from hrest)
  obtain ⟨-, hbefore, hafter⟩ := commitOf_eq_some he
  obtain ⟨-, hxbefore, hxafter⟩ := commitOf_eq_some hx
  have hcloses : Closes "d" e := by
    rw [Closes, StatusChanged, hbefore, hafter]
    decide
  have hmakes : MakesWork (x.before.cells "d") (x.after.cells "d") := by
    rw [hxbefore, hxafter]
    exact .inl ⟨⟨"l1", "c2", 1000, false⟩, by decide, rfl, by decide⟩
  obtain ⟨y, hy, happroved⟩ := no_work_after_close hrun hidle hcloses hmakes
  exact ⟨pre, e, mid, x, post, _, y, hrun, hcloses, hmakes, hy, happroved⟩

theorem sample_leak : Serves plainPlatform plainIssuer (noDevices sampleOutside)
    ([sampleCommit sampleEnroll .empty 1 sampleEnrolled] ++
      [sampleCommit (.approve "d" "owner" none "c1") sampleEnrolled 2 sampleApproved] ++ [] ++
      [⟨"d", ⟨sampleBlock, 3⟩, sampleApproved, sampleBlocked, [⟨sampleLease "c1", 2⟩]⟩] ++
      [⟨"d", ⟨sampleLease "c1", 2⟩, sampleBlocked, sampleLeak, []⟩])
    (sampleAt 3 sampleLeak) := by
  have hstart := run_start (P := plainPlatform) (sample_starts 2 sampleApproved
    ⟨"c1", 2, none, false⟩ rfl rfl rfl rfl rfl)
  exact (((sample_enrolled.trans sample_approved).trans hstart).trans
    (run_request rfl (by decide) rfl)).trans (run_commit rfl)

theorem lease_after_block : ∃ pre e mid x post s,
    Run (TxStep plainPlatform plainIssuer) (noDevices sampleOutside)
      (pre ++ e :: (mid ++ x :: post)) s ∧ Closes "d" e ∧
    MakesWork (x.before.cells "d") (x.after.cells "d") ∧ ¬ ∃ y ∈ mid, ApprovedBy "d" y := by
  obtain ⟨es, hrun, hcommits⟩ := sample_leak
  obtain ⟨pre, e, rest, rfl, -, hrest, he⟩ := committed_split
    (show committed es = [_, _] ++ ⟨"d", ⟨sampleBlock, 3⟩, _, sampleBlocked, _⟩ :: _ from hcommits)
  obtain ⟨mid, x, post, rfl, hmid, -, hx⟩ := committed_split
    (show committed rest = [] ++ ⟨"d", ⟨sampleLease "c1", 2⟩, _, sampleLeak, _⟩ :: [] from hrest)
  obtain ⟨-, hbefore, hafter⟩ := commitOf_eq_some he
  obtain ⟨-, hxbefore, hxafter⟩ := commitOf_eq_some hx
  refine ⟨pre, e, mid, x, post, _, hrun, ?_, ?_, ?_⟩
  · rw [Closes, StatusChanged, hbefore, hafter]
    decide
  · rw [hxbefore, hxafter]
    exact .inl ⟨⟨"l1", "c1", 1000, false⟩, by decide, rfl, by decide⟩
  · rintro ⟨y, hy, t, account, name, serial, hlabel, -⟩
    have hmem := mem_committed hy hlabel
    simp [hmid] at hmem

end ManagedDirectory.Rds
