import ManagedDirectory.Rds.Chat

/-!
# RDS: chat and a blocked device

Blocking or revoking a device does not close its websocket, and `ConnectionManager.push` asks for no
status: a body that is sent to the device afterwards still reaches it (`body_after_block`). Where a
device leaves `approved` only while nothing can reach it, it gets no body until it is approved again
(`no_body_after_close`).
-/

namespace ManagedDirectory.Rds

open Codec Lib List

/-- If the device leaves `approved` in `e`, then it has no socket and no request under way. -/
def LeavesUnreachable (did : String) (e : ChatEv) : Prop :=
  e.before.status did = some .approved → e.after.status did ≠ some .approved →
    Unreachable did e.before

section Runs

variable {P : Platform} {I : Issuer} {g : Outside} {s s' : ChatState} {l : ChatLabel}
  {es pre post : List ChatEv} {e : ChatEv} {did : String}

theorem chatStep_unreachable (hun : Unreachable did s) (hrefused : ∀ k, Validated I s.directory k → k ≠ did)
    (hstep : ChatStep P I s l s') : Unreachable did s' ∧ ∀ ms, l ≠ .deliver did ms := by
  obtain ⟨hsocket, htasks⟩ := id hun
  cases hstep with
  | directory hstep => exact ⟨hun, fun _ => by simp⟩
  | request hauth hnew =>
    exact ⟨⟨hsocket, forall_mem_cons.mpr ⟨hrefused _ hauth, htasks⟩⟩, fun _ => by simp⟩
  | connect hauth =>
    exact ⟨⟨hsocket, forall_mem_cons.mpr ⟨hrefused _ hauth, htasks⟩⟩, fun _ => by simp⟩
  | @disconnect k =>
    refine ⟨⟨?_, htasks⟩, fun _ => by simp⟩
    by_cases hk : did = k
    · simp [hk]
    · simpa [Function.update_of_ne hk] using hsocket
  | sweep => exact ⟨hun, fun _ => by simp⟩
  | task hlist hstep =>
    rw [hlist] at htasks
    refine taskStep_unreachable hstep ⟨hsocket, fun t ht => htasks t ?_⟩ (htasks _ (by simp))
    simp only [mem_append, mem_cons] at ht ⊢
    tauto

theorem chatStep_directory (hstep : ChatStep P I s l s') :
    s'.directory = s.directory ∨ s'.sockets = s.sockets ∧ s'.tasks = s.tasks := by
  cases hstep with
  | directory hstep => exact .inr ⟨rfl, rfl⟩
  | task hlist hstep => cases hstep <;> exact .inl rfl
  | _ => exact .inl rfl

theorem refused_of_not_approved (h : Run (ChatStep P I) (noChat g) es s)
    (hstatus : s.status did ≠ some .approved) : ∀ k, Validated I s.directory k → k ≠ did := by
  rintro k ⟨now, text, d, c, hvalid, rfl⟩ rfl
  obtain ⟨es', hrun⟩ := directory_of_run h
  exact hstatus (approved_of_validate (fun k d hd => id_of_run hrun hd) hvalid)

theorem unreachable_of_run (h : Run (ChatStep P I) (noChat g) es s)
    (hleaves : ∀ x ∈ es, LeavesUnreachable did x) (hstatus : s.status did ≠ some .approved) :
    Unreachable did s := by
  revert hleaves hstatus
  induction h with
  | nil => exact fun _ _ => ⟨rfl, by simp [noChat]⟩
  | @snoc es m s' l h hstep ih =>
    intro hleaves hafter
    by_cases hbefore : m.status did = some .approved
    · have hun := hleaves ⟨m, l, s'⟩ (by simp) hbefore hafter
      rcases chatStep_directory hstep with hsame | ⟨hsockets, htasks⟩
      · exact absurd (show s'.status did = _ by rw [ChatState.status, hsame]; exact hbefore) hafter
      · exact ⟨by rw [hsockets]; exact hun.1, by rw [htasks]; exact hun.2⟩
    · have hun := ih (fun x hx => hleaves x (mem_append_left _ hx)) hbefore
      exact (chatStep_unreachable hun (refused_of_not_approved h hbefore) hstep).1

/-- **Chat stops with the device**: where a device leaves `approved` only while nothing can reach
it, no body is sent or returned to it after that, until it is approved again. -/
theorem no_body_after_close {mid : List ChatEv} {x : ChatEv}
    (h : Run (ChatStep P I) (noChat g) (pre ++ e :: (mid ++ x :: post)) s)
    (hleaves : ∀ y ∈ pre ++ e :: (mid ++ x :: post), LeavesUnreachable did y)
    (hcloses : e.before.status did = some .approved ∧
      (e.after.status did = some .blocked ∨ e.after.status did = some .revoked))
    (hdelivers : Delivers did x) :
    ∃ y ∈ mid, y.before.status did ≠ some .approved ∧ y.after.status did = some .approved := by
  obtain ⟨hpre, hstep, hrest⟩ := h.split
  obtain ⟨hmid, hxstep, -⟩ := hrest.split
  have hbefore := (Run.snoc hpre hstep).trans hmid
  have hnow : x.before.status did = some .approved := by
    by_contra hnot
    obtain ⟨ms, -, hlabel⟩ := hdelivers
    have hun := unreachable_of_run hbefore (fun y hy => hleaves y (by
      simp only [append_assoc, singleton_append, mem_append, mem_cons] at hy ⊢
      tauto)) hnot
    exact (chatStep_unreachable hun (refused_of_not_approved hbefore hnot) hxstep).2 ms hlabel
  refine hmid.turn (p := fun s => s.status did = some .approved) ?_ hnow
  rcases hcloses.2 with hstatus | hstatus <;> simp [hstatus]

/-! ## Two devices that talk -/

/-- An event of the directory, beside the chat of `s`. -/
def besideChat (s : ChatState) (e : Ev) : ChatEv :=
  ⟨{ s with directory := e.before }, .directory e.label, { s with directory := e.after }⟩

theorem run_besideChat (s : ChatState) {m m' : State} {es : List Ev}
    (h : Run (TxStep P I) m es m') (hkeep : ∀ c ∈ committed es, c.after.row.isNone = false) :
    Run (ChatStep P I) { s with directory := m } (es.map (besideChat s))
      { s with directory := m' } := by
  induction h with
  | nil => exact .nil
  | @snoc es n m' l h hstep ih =>
    have hlast : s.chat.afterDirectory m' l = s.chat := by
      cases l with
      | commit k t =>
        have hrow := hkeep _ (mem_committed (e := ⟨n, .commit k t, m'⟩) (by simp) rfl)
        simp only [Chat.afterDirectory, hrow, Bool.false_eq_true, if_false]
      | _ => rfl
    rw [map_append]
    refine .snoc (ih fun c hc => hkeep c ?_) ?_
    · rw [committed, filterMap_append]
      exact mem_append_left _ hc
    · have hdir : ChatStep P I { s with directory := n } (.directory l) _ := .directory hstep
      simpa only [hlast] using hdir

end Runs

def sampleOtherEnroll : EnrollRequest :=
  ⟨⟨"2", "laptop", none, List.replicate 32 3, "t3", 7⟩, none, "e"⟩

def sampleOtherEnrolled : Record :=
  { Record.empty with
    row := some (newDevice sampleOtherEnroll)
    history := [⟨none, .pending, 7⟩] }

def sampleOther : Record :=
  { sampleOtherEnrolled with
    row := some ((newDevice sampleOtherEnroll).approve none)
    credentials := [⟨"c3", 8, none, false⟩]
    history := sampleOtherEnrolled.history ++ [⟨some .pending, .approved, 8⟩] }

def sampleBlockedLast : Record :=
  { sampleApproved with
    row := sampleApproved.row.map (ManagedDevice.setStatus .blocked)
    credentials := [⟨"c1", 2, none, true⟩]
    history := sampleApproved.history ++ [⟨some .approved, .blocked, 9⟩] }

def sampleBoth (now : Int) (r : Record) : State :=
  idle sampleOutside now
    (Function.update (Function.update (fun _ => .empty) "d" r) "e" sampleOther) []

section Sample

variable {P : Platform} {r : Record}

theorem sample_other {I : Issuer} {now : Int} (hle : now ≤ 7) : Serves P I (sampleAt now r)
    ([⟨"e", ⟨.enroll sampleOtherEnroll, 7⟩, .empty, sampleOtherEnrolled, []⟩] ++
      [⟨"e", ⟨.approve "e" "owner" none "c3", 8⟩, sampleOtherEnrolled, sampleOther, []⟩])
    (sampleBoth 8 r) := by
  have hempty : Function.update (fun _ : String => Record.empty) "d" r "e" = .empty :=
    Function.update_of_ne (by decide) _ _
  let cells := Function.update (fun _ : String => Record.empty) "d" r
  have henroll : Serves P I (sampleAt now r)
      [⟨"e", ⟨.enroll sampleOtherEnroll, 7⟩, .empty, sampleOtherEnrolled, []⟩]
      (idle sampleOutside 7 (Function.update cells "e" sampleOtherEnrolled) []) :=
    idle_request rfl hle hempty rfl
  have happrove : Serves P I
      (idle sampleOutside 7 (Function.update cells "e" sampleOtherEnrolled) [])
      [⟨"e", ⟨.approve "e" "owner" none "c3", 8⟩, sampleOtherEnrolled, sampleOther, []⟩] _ :=
    idle_request rfl (by decide) (Function.update_self _ _ _) rfl
  rw [Function.update_idem] at happrove
  exact henroll.trans happrove

theorem sample_blockedLast {I : Issuer} : Serves P I (sampleBoth 8 sampleApproved)
    [⟨"d", ⟨sampleBlock, 9⟩, sampleApproved, sampleBlockedLast, []⟩]
    (sampleBoth 9 sampleBlockedLast) := by
  have hcell : Function.update (Function.update (fun _ : String => Record.empty) "d"
      sampleApproved) "e" sampleOther "d" = sampleApproved := by
    rw [Function.update_of_ne (by decide), Function.update_self]
  have hblock : Serves P I (sampleBoth 8 sampleApproved)
      [⟨"d", ⟨sampleBlock, 9⟩, sampleApproved, sampleBlockedLast, []⟩] _ :=
    idle_request rfl (by decide) hcell rfl
  rw [Function.update_comm (by decide), Function.update_idem] at hblock
  exact hblock

theorem cells_sampleBoth (now : Int) :
    (sampleBoth now r).cells "d" = r ∧ (sampleBoth now r).cells "e" = sampleOther := by
  simp [sampleBoth, idle]

theorem validated_of_row (did : String) (c : Credential) {s : State} {d : ManagedDevice}
    (hcell : s.cells did = r) (hrow : r.row = some d) (hid : d.id = did)
    (happroved : d.status = .approved)
    (hfind : (r.credentials.find? fun b =>
      b.serial == c.serial && !b.revoked && b.expiresAt.all ((9 : Int) < ·)) = some c) :
    Validated plainIssuer s did := by
  subst hid
  refine ⟨9, _, d, c, validate_signed (plainIssuer_decode _ _) ?_ happroved ?_, rfl⟩
  · rw [hcell]
    exact hrow
  · rw [hcell]
    exact hfind

theorem validated_other {s : State} (h : s.cells "e" = sampleOther) :
    Validated plainIssuer s "e" :=
  validated_of_row "e" ⟨"c3", 8, none, false⟩ h rfl rfl rfl rfl

def sampleConnected (D : State) : ChatState :=
  ⟨D, Chat.empty.startConversation "e" "d", Function.update (fun _ => none) "d" (some 1),
    [.drain "d"]⟩

def sampleHello : ChatMessage := ⟨1, 0, "e", "hello", 9⟩

theorem sample_connected (D : State) (hd : Validated plainIssuer D "d")
    (happroved : (D.cells "d").status = some .approved) (he : D.cells "e" = sampleOther) :
    ∃ es, Run (ChatStep P plainIssuer) ⟨D, .empty, fun _ => none, []⟩ es (sampleConnected D) ∧
      ∀ y ∈ es, y.before.directory = D ∧ y.after.directory = D := by
  have hauth : Validated plainIssuer D (Task.start "e" "d").owner := validated_other he
  have hstart : ChatStep P plainIssuer ⟨D, .empty, fun _ => none, []⟩ .quiet
      ⟨D, .empty, fun _ => none, [.start "e" "d"]⟩ := .request hauth rfl
  have htalk : ChatStep P plainIssuer ⟨D, .empty, fun _ => none, [.start "e" "d"]⟩ .quiet
      ⟨D, Chat.empty.startConversation "e" "d", fun _ => none, []⟩ :=
    .task (show _ = [] ++ Task.start "e" "d" :: [] from rfl) (.start happroved (by decide))
  have hconnect : ChatStep P plainIssuer
      ⟨D, Chat.empty.startConversation "e" "d", fun _ => none, []⟩ .quiet
      ⟨D, Chat.empty.startConversation "e" "d", fun _ => none, [.register "d" 1]⟩ := .connect hd
  have hregister : ChatStep P plainIssuer
      ⟨D, Chat.empty.startConversation "e" "d", fun _ => none, [.register "d" 1]⟩ .quiet
      (sampleConnected D) :=
    .task (show _ = [] ++ Task.register "d" 1 :: [] from rfl) .register
  exact ⟨_, .snoc (.snoc (.snoc (.snoc .nil hstart) htalk) hconnect) hregister,
    by simp [sampleConnected]⟩

theorem sample_delivered (D : State) (he : D.cells "e" = sampleOther) : ∃ es x s',
    Run (ChatStep P plainIssuer) (sampleConnected D) (es ++ [x]) s' ∧ Delivers "d" x ∧
      ∀ y ∈ es ++ [x], y.before.directory = D ∧ y.after.directory = D := by
  have hauth : Validated plainIssuer D (Task.send "e" 0 "hello").owner := validated_other he
  have hrequest : ChatStep P plainIssuer (sampleConnected D) .quiet
      { sampleConnected D with tasks := [.send "e" 0 "hello", .drain "d"] } := .request hauth rfl
  have hsend : ChatStep P plainIssuer
      { sampleConnected D with tasks := [.send "e" 0 "hello", .drain "d"] } .quiet
      { sampleConnected D with
        chat := (sampleConnected D).chat.insertMessage sampleHello ["d"]
        tasks := [.push "e" sampleHello ["d"] [], .drain "d"] } :=
    .task (show _ = [] ++ Task.send "e" 0 "hello" :: [.drain "d"] from rfl) (.send rfl rfl)
  have hpush : ChatStep P plainIssuer
      { sampleConnected D with
        chat := (sampleConnected D).chat.insertMessage sampleHello ["d"]
        tasks := [.push "e" sampleHello ["d"] [], .drain "d"] } (.deliver "d" [sampleHello]) _ :=
    .task (show _ = [] ++ Task.push "e" sampleHello ["d"] [] :: [.drain "d"] from rfl)
      (.push (show (sampleConnected D).sockets "d" = some 1 from rfl))
  refine ⟨_, _, _, .snoc (.snoc (.snoc .nil hrequest) hsend) hpush, ⟨[sampleHello], by simp, rfl⟩, ?_⟩
  simp [sampleConnected]

end Sample

/-- The sample device is approved again and connects; then it gets a body. -/
theorem sample_no_body_after_close : ∃ pre e mid x s y,
    Run (ChatStep plainPlatform plainIssuer) (noChat sampleOutside) (pre ++ e :: (mid ++ [x])) s ∧
      e.after.status "d" = some .blocked ∧ Delivers "d" x ∧ y ∈ mid ∧
      y.after.status "d" = some .approved := by
  obtain ⟨es, hrun, hcommits⟩ := ((sample_return (P := plainPlatform) (I := plainIssuer)).trans
    sample_reapproved).trans (sample_other (show (6 : Int) ≤ 7 by decide))
  obtain ⟨hd, he⟩ := cells_sampleBoth (r := sampleReapproved) 8
  obtain ⟨es₂, hrun₂, hquiet₂⟩ := sample_connected (P := plainPlatform) (sampleBoth 8 sampleReapproved)
    (validated_of_row "d" ⟨"c2", 6, none, false⟩ hd rfl rfl rfl rfl) (by rw [hd]; rfl) he
  obtain ⟨es₃, x, s', hrun₃, hdelivers, hquiet₃⟩ := sample_delivered (P := plainPlatform) _ he
  obtain ⟨pre, e, post, rfl, -, -, hcommit⟩ := committed_split
    (show committed es = [_, _] ++ sampleCommit sampleBlock _ 3 sampleBlocked :: _ from hcommits)
  obtain ⟨-, hbefore, hafter⟩ := commitOf_eq_some hcommit
  have hall := ((run_besideChat (noChat sampleOutside) hrun (by rw [hcommits]; decide)).trans
    hrun₂).trans hrun₃
  have hleaves : ∀ y ∈ (pre ++ e :: post).map (besideChat (noChat sampleOutside)) ++ es₂ ++
      (es₃ ++ [x]), LeavesUnreachable "d" y := by
    have hsame : ∀ y : ChatEv, y.before.directory = sampleBoth 8 sampleReapproved ∧
        y.after.directory = sampleBoth 8 sampleReapproved → LeavesUnreachable "d" y := by
      rintro y ⟨hbefore, hafter⟩ happroved hleft
      rw [ChatState.status, hbefore, ← hafter] at happroved
      exact absurd happroved hleft
    intro y hy
    rcases mem_append.mp hy with hy | hy
    · rcases mem_append.mp hy with hy | hy
      · obtain ⟨z, -, rfl⟩ := mem_map.mp hy
        exact fun _ _ => ⟨rfl, by simp [besideChat, noChat]⟩
      · exact hsame y (hquiet₂ y hy)
    · exact hsame y (hquiet₃ y hy)
  have hlist : (pre ++ e :: post).map (besideChat (noChat sampleOutside)) ++ es₂ ++ (es₃ ++ [x]) =
      pre.map (besideChat (noChat sampleOutside)) ++ besideChat (noChat sampleOutside) e ::
        ((post.map (besideChat (noChat sampleOutside)) ++ es₂ ++ es₃) ++ [x]) := by
    simp
  rw [hlist] at hall hleaves
  have hclosed : (besideChat (noChat sampleOutside) e).after.status "d" = some .blocked :=
    congrArg Record.status hafter
  obtain ⟨y, hy, -, happroved⟩ := no_body_after_close hall hleaves
    ⟨congrArg Record.status hbefore, .inl hclosed⟩ hdelivers
  exact ⟨_, _, _, x, _, y, hall, hclosed, hdelivers, hy, happroved⟩

theorem body_after_block : ∃ pre e mid x s,
    Run (ChatStep plainPlatform plainIssuer) (noChat sampleOutside) (pre ++ e :: (mid ++ [x])) s ∧
      e.before.status "d" = some .approved ∧ e.after.status "d" = some .blocked ∧
      Delivers "d" x ∧ ¬ ∃ y ∈ mid, y.after.status "d" = some .approved := by
  obtain ⟨es₁, hrun₁, hcommits₁⟩ := ((sample_enrolled (P := plainPlatform)
    (I := plainIssuer)).trans sample_approved).trans (sample_other (show (2 : Int) ≤ 7 by decide))
  obtain ⟨hd, he⟩ := cells_sampleBoth (r := sampleApproved) 8
  obtain ⟨hd', he'⟩ := cells_sampleBoth (r := sampleBlockedLast) 9
  obtain ⟨es₂, hrun₂, -⟩ := sample_connected (P := plainPlatform) (sampleBoth 8 sampleApproved)
    (validated_of_row "d" ⟨"c1", 2, none, false⟩ hd rfl rfl rfl rfl) (by rw [hd]; rfl) he
  obtain ⟨es₃, hrun₃, hcommits₃⟩ := sample_blockedLast (P := plainPlatform) (I := plainIssuer)
  obtain ⟨es₄, x, s', hrun₄, hdelivers, hquiet⟩ := sample_delivered (P := plainPlatform) _ he'
  have hall := (((run_besideChat (noChat sampleOutside) hrun₁ (by rw [hcommits₁]; decide)).trans
    hrun₂).trans (run_besideChat (sampleConnected (sampleBoth 8 sampleApproved)) hrun₃ (by rw [hcommits₃]; decide))).trans hrun₄
  obtain ⟨pre, e, post, rfl, -, hpost, hcommit⟩ := committed_split
    (show committed es₃ = [] ++ ⟨"d", ⟨sampleBlock, 9⟩, _, sampleBlockedLast, _⟩ :: [] from hcommits₃)
  obtain ⟨-, hbefore, hafter⟩ := commitOf_eq_some hcommit
  have hclosed : ∀ y ∈ post.map (besideChat (sampleConnected (sampleBoth 8 sampleApproved))) ++ es₄,
      y.after.status "d" = some .blocked := by
    intro y hy
    rcases mem_append.mp hy with hy | hy
    · obtain ⟨z, hz, rfl⟩ := mem_map.mp hy
      obtain ⟨-, hcells⟩ := cells_of_no_commit hrun₃.split.2.2 hpost
      exact congrArg Record.status ((congrFun (hcells z hz) "d").trans hafter)
    · rw [ChatState.status, (hquiet y (mem_append_left _ hy)).2, hd']
      rfl
  have hlist : es₁.map (besideChat (noChat sampleOutside)) ++ es₂ ++
      (pre ++ e :: post).map (besideChat (sampleConnected (sampleBoth 8 sampleApproved))) ++
      (es₄ ++ [x]) = (es₁.map (besideChat (noChat sampleOutside)) ++ es₂ ++
        pre.map (besideChat (sampleConnected (sampleBoth 8 sampleApproved)))) ++
      besideChat (sampleConnected (sampleBoth 8 sampleApproved)) e ::
        ((post.map (besideChat (sampleConnected (sampleBoth 8 sampleApproved))) ++ es₄) ++ [x]) := by
    simp
  rw [hlist] at hall
  refine ⟨_, _, _, x, s', hall, congrArg Record.status hbefore, congrArg Record.status hafter,
    hdelivers, ?_⟩
  rintro ⟨y, hy, happroved⟩
  simp [hclosed y hy] at happroved

end ManagedDirectory.Rds
