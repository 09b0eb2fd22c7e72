import ManagedDirectory.Rds.Transactions

/-!
# RDS: the life of a device record

`status_moves` lists where one transaction can take the status of a record. `device_lifecycle` is
the whole life: in every interleaving the status moves along these edges only, a revoked record
stays revoked until it is deleted, and a blocked one is approved only after a re-enrollment made it
pending.
-/

namespace ManagedDirectory.Rds

open Codec Lib

def lifecycleMoves : List (DeviceStatus × DeviceStatus) :=
  [(.pending, .approved), (.denied, .approved), (.pending, .denied), (.pending, .blocked),
    (.approved, .blocked), (.approved, .revoked), (.denied, .pending), (.blocked, .pending)]

section Moves

variable {P : Platform} {I : Issuer} {g : Outside} {t : Tx} {did : String} {r r' : Record}
  {startedAt : Int}

@[simp] theorem row_setRow (d d' : ManagedDevice) : (r.setRow startedAt d d').row = some d' := by
  unfold Record.setRow
  split_ifs <;> rfl

theorem row_credentialed (h : Credentialed startedAt r r') : r'.row = r.row := by
  cases h <;> rfl

@[simp] theorem status_touch (u : Touch) (d : ManagedDevice) : (u.row d).status = d.status := by
  unfold Touch.row
  split <;> rfl

theorem move_of_checkStatusChange {status : DeviceStatus} {change : StatusChange}
    (h : checkStatusChange status change = .ok ()) (hne : status ≠ change.status) :
    (status, change.status) ∈ lifecycleMoves := by
  cases change <;> cases status <;> revert h hne <;> decide

/-- What a transaction does to the status: it keeps it, moves it along an edge, makes a new record
pending or deletes a closed one. -/
inductive StatusStep (t : Tx) (did : String) : Option DeviceStatus → Option DeviceStatus → Prop where
  | same {x : Option DeviceStatus} : StatusStep t did x x
  | new : StatusStep t did none (some .pending)
  | readmitted {x : DeviceStatus} {e : Enrollment} (hreq : t.request.enrollment = some e)
      (hfrom : x ≠ .approved ∧ x ≠ .revoked) : StatusStep t did (some x) (some .pending)
  | approved {x : DeviceStatus} (hreq : ∃ account name serial,
        t.request = .approve did account name serial)
      (hfrom : x = .pending ∨ x = .denied) : StatusStep t did (some x) (some .approved)
  | changed {x : DeviceStatus} {account : String} {change : StatusChange}
      {cloudflare : EdgeCert → Bool}
      (hreq : t.request = .changeStatus did account change cloudflare)
      (hmove : (x, change.status) ∈ lifecycleMoves) :
    StatusStep t did (some x) (some change.status)
  | deleted {x : DeviceStatus} (hreq : t.request = .delete did)
      (hclosed : x = .blocked ∨ x = .revoked) : StatusStep t did (some x) none

theorem status_moves (h : RecordChange g t did r r') : StatusStep t did r.status r'.status := by
  cases h with
  | enrolled hreq hrow hfresh hid =>
    simp only [Record.status, hrow]
    exact .new
  | readmitted hreq hrow hopen ha =>
    simp only [Record.status, hrow, row_setRow]
    exact .readmitted hreq hopen
  | authorized hreq hrow hopen hfresh hd' =>
    simp only [Record.status, hrow]
    rcases hd' with rfl | rfl <;> exact .same
  | approved hreq hrow hopen hcredential =>
    simp only [Record.status, hrow, row_credentialed hcredential, row_setRow]
    exact .approved ⟨_, _, _, hreq⟩ hopen
  | renamed hreq hrow happroved hcredential =>
    simp only [Record.status, hrow, row_credentialed hcredential]
    exact .same
  | changed hreq hrow hfrom hcheck =>
    simp only [Record.status, hrow, row_setRow]
    exact .changed hreq (move_of_checkStatusChange hcheck hfrom)
  | unchanged hreq hrow hsame => exact .same
  | deleted hreq hrow hclosed =>
    simp only [Record.status, hrow]
    exact .deleted hreq hclosed
  | touched hreq hrow =>
    simp only [Record.status, hrow, Option.map_some, status_touch]
    exact .same
  | worked hreq hrow hdone => cases hdone <;> exact .same

theorem StatusStep.move {x y : DeviceStatus} (h : StatusStep t did (some x) (some y))
    (hne : x ≠ y) : (x, y) ∈ lifecycleMoves := by
  generalize hx : some x = ox at h
  generalize hy : some y = oy at h
  cases h with
  | same => exact absurd (Option.some.inj (hx.trans hy.symm)) hne
  | new => cases hx
  | readmitted hreq hfrom =>
    cases hx
    cases hy
    revert hfrom hne
    cases x <;> decide
  | approved hreq hfrom =>
    cases hx
    cases hy
    rcases hfrom with rfl | rfl <;> decide
  | changed hreq hmove =>
    cases hx
    cases hy
    exact hmove
  | deleted hreq hclosed => cases hy

def Record.Gone (r : Record) : Prop := r.row = none ∧ r.deleted = true

theorem gone_unchanged (hgone : r.Gone) (h : RecordChange g t did r r') : False := by
  obtain ⟨hnone, hdeleted⟩ := hgone
  cases h with
  | enrolled hreq hrow hfresh hid => simp [hdeleted] at hfresh
  | _ => simp_all

theorem gone_of_change {x : DeviceStatus} (hx : r.status = some x) (hnone : r'.status = none)
    (h : RecordChange g t did r r') : r'.Gone := by
  have hstep := status_moves h
  rw [hx, hnone] at hstep
  cases hstep with
  | deleted hreq hclosed =>
    cases h with
    | deleted _ _ _ => exact ⟨rfl, rfl⟩
    | _ => simp_all [Request.enrollment]

/-! ## Whole lives -/

variable {s : State} {es : List Ev}

def ReenrolledBy (did : String) (e : Ev) : Prop :=
  ∃ t enrollment, e.label = .commit did t ∧ t.request.enrollment = some enrollment ∧
    (e.after.cells did).status = some .pending

theorem closed_until {x : DeviceStatus} (hclosed : x = .blocked ∨ x = .revoked) {m : State}
    (hm : Locks.Valid (rules P I) m) (h : Run (TxStep P I) m es s)
    (hx : (m.cells did).status = some x) :
    (x = .blocked ∧ ∃ e ∈ es, ReenrolledBy did e) ∨ (s.cells did).status = some x ∨
      (s.cells did).Gone := by
  refine record_history hm h (fun es r => (x = .blocked ∧ ∃ e ∈ es, ReenrolledBy did e) ∨
    r.status = some x ∨ r.Gone) (.inr (.inl hx)) ?_
  intro es e hinv hstep
  rcases hinv with ⟨hblocked, y, hy, hback⟩ | hx | hgone
  · exact .inl ⟨hblocked, y, List.mem_append_left _ hy, hback⟩
  · rcases hstep.same_or_commit with hsame | ⟨g, t, hlabel, hchange⟩
    · exact .inr (.inl (hsame ▸ hx))
    · have hmove := status_moves hchange
      rw [hx] at hmove
      generalize hstatus : (e.after.cells did).status = o at hmove
      cases hmove with
      | same => exact .inr (.inl rfl)
      | readmitted hreq hfrom =>
        exact .inl ⟨hclosed.resolve_right hfrom.2, e, by simp, _, _, hlabel, hreq, hstatus⟩
      | approved hreq hfrom => rcases hclosed with rfl | rfl <;> simp at hfrom
      | @changed _ _ change _ hreq hmove =>
        exfalso
        revert hmove
        rcases hclosed with rfl | rfl <;> cases change <;> decide
      | deleted hreq hclosed => exact .inr (.inr (gone_of_change hx hstatus hchange))
  · rcases hstep.same_or_commit with hsame | ⟨g, t, hlabel, hchange⟩
    · exact .inr (.inr (hsame ▸ hgone))
    · exact (gone_unchanged hgone hchange).elim

/-- **The device lifecycle**: the edges, and what follows for revoked and blocked records. -/
theorem device_lifecycle (h : Run (TxStep P I) (noDevices g) es s) (did : String) :
    (∀ e ∈ es, ∀ x y, (e.before.cells did).status = some x → (e.after.cells did).status = some y →
      x ≠ y → (x, y) ∈ lifecycleMoves) ∧
    (∀ pre e post, es = pre ++ e :: post → (e.after.cells did).status = some .revoked →
      (s.cells did).status = some .revoked ∨ (s.cells did).Gone) ∧
    (∀ pre e post, es = pre ++ e :: post → (e.after.cells did).status = some .blocked →
      (s.cells did).status = some .approved → ∃ x ∈ post, ReenrolledBy did x) := by
  have hafter : ∀ {pre e post}, es = pre ++ e :: post →
      Locks.Valid (rules P I) e.after ∧ Run (TxStep P I) e.after post s := by
    rintro pre e post rfl
    obtain ⟨hpre, hstep, hpost⟩ := h.split
    exact ⟨Locks.step_valid (valid_noDevices hpre) hstep, hpost⟩
  refine ⟨?_, ?_, ?_⟩
  · intro e he x y hx hy hne
    rcases (recordStep_of_run rfl h he did).same_or_commit with hsame | ⟨g, t, -, hchange⟩
    · rw [hsame] at hy
      exact absurd (Option.some.inj (hx.symm.trans hy)) hne
    · have hmove := status_moves hchange
      rw [hx, hy] at hmove
      exact hmove.move hne
  · intro pre e post hes hrevoked
    obtain ⟨hvalid, hpost⟩ := hafter hes
    rcases closed_until (.inr rfl) hvalid hpost hrevoked with ⟨hne, -⟩ | hstay
    · cases hne
    · exact hstay
  · intro pre e post hes hblocked happroved
    obtain ⟨hvalid, hpost⟩ := hafter hes
    rcases closed_until (.inl rfl) hvalid hpost hblocked with ⟨-, hback⟩ | hstay | hgone
    · exact hback
    · simp [happroved] at hstay
    · simp [Record.status, hgone.1] at happroved

end Moves

/-! ## A life -/

def sampleOutside : Outside :=
  ⟨0, ["owner"], [], fun _ => false, fun _ => false, fun _ => false, ⟨none, 7⟩⟩

def sampleEnrollment (n : UInt8) (token : String) (now : Int) : Enrollment :=
  ⟨"1", "pc", none, List.replicate 32 n, token, now⟩

def sampleEnroll : Request := .enroll ⟨sampleEnrollment 1 "t1" 1, none, "d"⟩

def sampleReenroll : Request := .reenroll ⟨sampleEnrollment 2 "t2" 5, "d", "t1"⟩

def sampleBlock : Request := .changeStatus "d" "owner" .blocked fun _ => true

def sampleEnrolled : Record :=
  { Record.empty with
    row := some (newDevice ⟨sampleEnrollment 1 "t1" 1, none, "d"⟩)
    history := [⟨none, .pending, 1⟩] }

def sampleApproved : Record :=
  { sampleEnrolled with
    row := sampleEnrolled.row.map (ManagedDevice.approve none)
    credentials := [⟨"c1", 2, none, false⟩]
    history := sampleEnrolled.history ++ [⟨some .pending, .approved, 2⟩] }

def sampleBlocked : Record :=
  { sampleApproved with
    row := sampleApproved.row.map (ManagedDevice.setStatus .blocked)
    credentials := [⟨"c1", 2, none, true⟩]
    history := sampleApproved.history ++ [⟨some .approved, .blocked, 3⟩] }

def sampleAuthorized : Record :=
  { sampleBlocked with
    row := sampleBlocked.row.map (ManagedDevice.extendPoll 4)
    authorizations := [⟨"a1", "d", "owner", 4 + 30 * 60 * 1000000, false, false⟩] }

def sampleReturned : Record :=
  { sampleAuthorized with
    row := sampleAuthorized.row.map (ManagedDevice.reenroll (sampleEnrollment 2 "t2" 5))
    authorizations := [⟨"a1", "d", "owner", 4 + 30 * 60 * 1000000, true, false⟩]
    history := sampleAuthorized.history ++ [⟨some .blocked, .pending, 5⟩] }

def sampleReapproved : Record :=
  { sampleReturned with
    row := sampleReturned.row.map (ManagedDevice.approve none)
    credentials := [⟨"c1", 2, none, true⟩, ⟨"c2", 6, none, false⟩]
    history := sampleReturned.history ++ [⟨some .pending, .approved, 6⟩] }

section Sample

variable {P : Platform} {I : Issuer}

abbrev sampleAt (now : Int) (r : Record) : State := oneDevice sampleOutside "d" now r []

abbrev sampleCommit (req : Request) (r : Record) (now : Int) (r' : Record) : Commit :=
  ⟨"d", ⟨req, now⟩, r, r', []⟩

theorem sample_enrolled : Serves P I (noDevices sampleOutside)
    [sampleCommit sampleEnroll .empty 1 sampleEnrolled] (sampleAt 1 sampleEnrolled) := by
  rw [noDevices_eq sampleOutside "d"]
  exact run_request rfl (by decide) rfl

theorem sample_approved : Serves P I (sampleAt 1 sampleEnrolled)
    [sampleCommit (.approve "d" "owner" none "c1") sampleEnrolled 2 sampleApproved]
    (sampleAt 2 sampleApproved) :=
  run_request rfl (by decide) rfl

theorem sample_blocked : Serves P I (sampleAt 2 sampleApproved)
    [sampleCommit sampleBlock sampleApproved 3 sampleBlocked] (sampleAt 3 sampleBlocked) :=
  run_request rfl (by decide) rfl

theorem sample_authorized : Serves P I (sampleAt 3 sampleBlocked)
    [sampleCommit (.authorize "d" "owner" "a1" 30 4) sampleBlocked 4 sampleAuthorized]
    (sampleAt 4 sampleAuthorized) :=
  run_request rfl (by decide) rfl

theorem sample_returned : Serves P I (sampleAt 4 sampleAuthorized)
    [sampleCommit sampleReenroll sampleAuthorized 5 sampleReturned] (sampleAt 5 sampleReturned) :=
  run_request rfl (by decide) rfl

theorem sample_reapproved : Serves P I (sampleAt 5 sampleReturned)
    [sampleCommit (.approve "d" "owner" none "c2") sampleReturned 6 sampleReapproved]
    (sampleAt 6 sampleReapproved) :=
  run_request rfl (by decide) rfl

theorem sample_return : Serves P I (noDevices sampleOutside)
    ([sampleCommit sampleEnroll .empty 1 sampleEnrolled,
      sampleCommit (.approve "d" "owner" none "c1") sampleEnrolled 2 sampleApproved,
      sampleCommit sampleBlock sampleApproved 3 sampleBlocked,
      sampleCommit (.authorize "d" "owner" "a1" 30 4) sampleBlocked 4 sampleAuthorized] ++
      [sampleCommit sampleReenroll sampleAuthorized 5 sampleReturned])
    (sampleAt 5 sampleReturned) :=
  (((sample_enrolled.trans sample_approved).trans sample_blocked).trans sample_authorized).trans
    sample_returned

end Sample

theorem sample_device_lifecycle : ∃ es, ∃ e ∈ es,
    Run (TxStep plainPlatform plainIssuer) (noDevices sampleOutside) es
      (sampleAt 6 sampleReapproved) ∧ ReenrolledBy "d" e := by
  obtain ⟨es, hrun, hcommits⟩ := (sample_return (P := plainPlatform) (I := plainIssuer)).trans
    sample_reapproved
  have hmem : sampleCommit sampleBlock sampleApproved 3 sampleBlocked ∈ committed es := by
    simp [hcommits]
  obtain ⟨e, he, hcommit⟩ := List.mem_filterMap.mp hmem
  obtain ⟨pre, post, rfl⟩ := List.append_of_mem he
  obtain ⟨-, -, hafter⟩ := commitOf_eq_some hcommit
  obtain ⟨x, hx, hback⟩ := (device_lifecycle hrun "d").2.2 pre e post rfl (by rw [hafter]; rfl) rfl
  exact ⟨_, x, List.mem_append_right _ (List.mem_cons_of_mem _ hx), hrun, hback⟩

end ManagedDirectory.Rds
