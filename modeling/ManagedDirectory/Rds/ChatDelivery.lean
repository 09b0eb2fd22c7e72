import ManagedDirectory.Rds.ChatCutoff
import ManagedDirectory.Rds.ChatReceipts

/-!
# RDS: no chat message is lost

`_fetch_and_ack_pending` marks what it finds as delivered and may purge it, and its transaction is
committed before a body is handed over. `Arrived` says that a body was handed to the device, or is
with a request that will hand it over; a delivered receipt is never without it (`accounted_of_run`)
unless such a request is cut off, and then the message is gone (`drained_and_lost`). Where none is,
a receipt and a message only go for a reason (`no_message_lost`).
-/

namespace ManagedDirectory.Rds

open Codec Lib List

/-! ## What a device gets -/

/-- The stage of a request runs in `e`, and `rest` is left of the request. -/
def Ran (e : ChatEv) (task : Task) (rest : List Task) : Prop :=
  ∃ l₁ l₂, e.before.tasks = l₁ ++ task :: l₂ ∧ e.after.tasks = rest ++ (l₁ ++ l₂)

theorem Ran.mem {e : ChatEv} {task : Task} {rest : List Task} (h : Ran e task rest) :
    task ∈ e.before.tasks := by
  obtain ⟨l₁, l₂, htasks, -⟩ := h
  rw [htasks]
  simp

def Given (es : List ChatEv) (did : String) (messageId : Nat) : Prop :=
  ∃ e ∈ es, ∃ ms, e.label = .deliver did ms ∧ messageId ∈ ms.map ChatMessage.id

def Arrived (es : List ChatEv) (s : ChatState) (did : String) (messageId : Nat) : Prop :=
  Given es did messageId ∨ s.Owed did messageId

/-- A request ends before it hands over what it fetched: the push of a catch-up fails, or its
client is gone. -/
def CutOff (e : ChatEv) : Prop :=
  e.label = .quiet ∧ ∃ did m ms,
    Ran e (.catchUp did (m :: ms)) [.catchUp did ms] ∨ Ran e (.catchUp did (m :: ms)) [] ∨
      Ran e (.answer did (m :: ms)) []

/-- The reasons for a message to go that is not delivered: it is older than 30 days, or it goes with
a device. -/
def Expired (e : ChatEv) (messageId : Nat) : Prop :=
  (∃ did t, e.label = .directory (.commit did t) ∧ (e.after.directory.cells did).row = none) ∨
    ∃ now, e.after = { e.before with chat := e.before.chat.sweepStaleMessages now } ∧
      ∃ m ∈ e.before.chat.messages, m.id = messageId ∧ m.sentAt < now - chatMessageMaxAge

/-- What holds of the receipts after the events `es`. -/
structure Accounted (es : List ChatEv) (s : ChatState) : Prop where
  whole : s.chat.Whole
  delivered : ∀ {messageId did}, s.chat.Delivered messageId did → Arrived es s did messageId
  pushed : ∀ {messageId did}, (∃ task ∈ s.tasks, task.Pushed did messageId) →
    Given es did messageId

section Runs

variable {P : Platform} {I : Issuer} {g : Outside} {s s' : ChatState} {l : ChatLabel}
  {es es' : List ChatEv} {e : ChatEv} {did : String} {messageId : Nat} {task : Task}

theorem Given.mono (h : Given es did messageId) (hsub : es ⊆ es') : Given es' did messageId :=
  h.imp fun _ he => ⟨hsub he.1, he.2⟩

theorem given_last (h : ∃ ms, e.label = .deliver did ms ∧ messageId ∈ ms.map ChatMessage.id) :
    Given (es ++ [e]) did messageId := ⟨e, by simp, h⟩

theorem subset_of_taskStep (hstep : TaskStep s task l s') : s.tasks ⊆ s'.tasks := by
  cases hstep <;> simp [subset_def] <;> tauto

theorem owes_of_taskStep (howes : task.Owes did messageId) (hstep : TaskStep s task l s') :
    (∃ ms, l = .deliver did ms ∧ messageId ∈ ms.map ChatMessage.id) ∨ s'.Owed did messageId ∨
      (l = .quiet ∧ ∃ m ms, task = .catchUp did (m :: ms) ∧
        (s'.tasks = .catchUp did ms :: s.tasks ∨ s'.tasks = s.tasks)) ∨
      (l = .quiet ∧ ∃ m ms, task = .answer did (m :: ms) ∧ s'.tasks = s.tasks) := by
  cases hstep with
  | answer =>
    obtain ⟨rfl, hid⟩ := howes
    exact .inl ⟨_, rfl, hid⟩
  | @catchUp _ m ms =>
    obtain ⟨rfl, hid⟩ := howes
    rcases mem_cons.mp hid with hid | hid
    · exact .inl ⟨_, rfl, by simp [hid]⟩
    · exact .inr (.inl ⟨_, mem_cons_self, rfl, hid⟩)
  | @catchUpFails _ m ms =>
    obtain ⟨rfl, -⟩ := howes
    exact .inr (.inr (.inl ⟨rfl, m, ms, rfl, .inl rfl⟩))
  | stop =>
    cases task with
    | answer d ms =>
      obtain ⟨rfl, hid⟩ := howes
      obtain ⟨m, hm, -⟩ := mem_map.mp hid
      obtain ⟨m', ms', rfl⟩ := exists_cons_of_ne_nil (ne_nil_of_mem hm)
      exact .inr (.inr (.inr ⟨rfl, m', ms', rfl, rfl⟩))
    | catchUp d ms =>
      obtain ⟨rfl, hid⟩ := howes
      obtain ⟨m, hm, -⟩ := mem_map.mp hid
      obtain ⟨m', ms', rfl⟩ := exists_cons_of_ne_nil (ne_nil_of_mem hm)
      exact .inr (.inr (.inl ⟨rfl, m', ms', rfl, .inr rfl⟩))
    | _ => exact howes.elim
  | _ => exact howes.elim

theorem Arrived.step (h : Arrived es s did messageId) (hstep : ChatStep P I s l s')
    (hcut : ¬ CutOff ⟨s, l, s'⟩) : Arrived (es ++ [⟨s, l, s'⟩]) s' did messageId := by
  rcases h with hgiven | ⟨owing, hmem, howes⟩
  · exact .inl (hgiven.mono (subset_append_left _ _))
  have hkept : owing ∈ s'.tasks → Arrived (es ++ [⟨s, l, s'⟩]) s' did messageId :=
    fun hmem => .inr ⟨owing, hmem, howes⟩
  cases hstep with
  | directory | disconnect | sweep => exact hkept hmem
  | request | connect => exact hkept (mem_cons_of_mem _ hmem)
  | @task l₁ l₂ task _ _ htasks hstep =>
    rw [htasks] at hmem
    have hcases : owing = task ∨ owing ∈ l₁ ++ l₂ := by
      simp only [mem_append, mem_cons] at hmem ⊢
      tauto
    rcases hcases with rfl | hmem
    · rcases owes_of_taskStep howes hstep with hgiven | howed | ⟨hl, m, ms, rfl, hrest⟩ |
        ⟨hl, m, ms, rfl, hrest⟩
      · exact .inl (given_last hgiven)
      · exact .inr howed
      · refine absurd ⟨hl, did, m, ms, ?_⟩ hcut
        rcases hrest with hrest | hrest
        · exact .inl ⟨l₁, l₂, htasks, hrest⟩
        · exact .inr (.inl ⟨l₁, l₂, htasks, hrest⟩)
      · exact absurd ⟨hl, did, m, ms, .inr (.inr ⟨l₁, l₂, htasks, hrest⟩)⟩ hcut
    · exact hkept (subset_of_taskStep hstep hmem)

theorem Arrived.run (h : Arrived es s did messageId) (hrun : Run (ChatStep P I) s es' s')
    (hcut : ∀ e ∈ es', ¬ CutOff e) : Arrived (es ++ es') s' did messageId := by
  refine (hrun.restrict (C := fun e => ¬ CutOff e) hcut).history
    (fun es' s' => Arrived (es ++ es') s' did messageId) (by simpa using h) ?_
  intro es' s l s' h ⟨hstep, hcut⟩
  rw [← append_assoc]
  exact h.step hstep hcut

theorem pushed_of_step (h : Accounted es s) (hstep : ChatStep P I s l s')
    (hpushed : ∃ task ∈ s'.tasks, task.Pushed did messageId) :
    Given (es ++ [⟨s, l, s'⟩]) did messageId := by
  obtain ⟨t, ht, hpushed⟩ := hpushed
  have hold : t ∈ s.tasks → Given (es ++ [⟨s, l, s'⟩]) did messageId :=
    fun hmem => (h.pushed ⟨t, hmem, hpushed⟩).mono (subset_append_left _ _)
  cases hstep with
  | directory | disconnect | sweep => exact hold ht
  | @request task hauth hnew =>
    rcases mem_cons.mp ht with rfl | ht
    · cases t with
      | push => cases hnew
      | _ => exact hpushed.elim
    · exact hold ht
  | connect =>
    rcases mem_cons.mp ht with rfl | ht
    · exact hpushed.elim
    · exact hold ht
  | @task l₁ l₂ task _ _ htasks hstep =>
    have hrest : t ∈ l₁ ++ l₂ → Given (es ++ [⟨s, l, s'⟩]) did messageId := by
      intro hmem
      refine hold ?_
      rw [htasks]
      simp only [mem_append, mem_cons] at hmem ⊢
      tauto
    have htask : ∀ {done m todo d}, task = .push d m todo done → m.id = messageId → did ∈ done →
        Given (es ++ [⟨s, l, s'⟩]) did messageId := fun heq hid hdone =>
      (h.pushed ⟨task, by rw [htasks]; simp, by rw [heq]; exact ⟨hid, hdone⟩⟩).mono
        (subset_append_left _ _)
    cases hstep with
    | start | reply | answer | stop => exact hrest ht
    | send =>
      rcases mem_cons.mp ht with rfl | ht
      · cases hpushed.2
      · exact hrest ht
    | @push _ r m =>
      rcases mem_cons.mp ht with rfl | ht
      · obtain ⟨hid, hdone⟩ := hpushed
        rcases mem_append.mp hdone with hdone | hdone
        · exact htask rfl hid hdone
        · exact given_last ⟨[m], by rw [mem_singleton.mp hdone], by simp [hid]⟩
      · exact hrest ht
    | pushFails =>
      rcases mem_cons.mp ht with rfl | ht
      · exact htask rfl hpushed.1 hpushed.2
      · exact hrest ht
    | pushed | fetch | register | drain | catchUp | catchUpFails =>
      rcases mem_cons.mp ht with rfl | ht
      · exact hpushed.elim
      · exact hrest ht

theorem Accounted.step (h : Accounted es s) (hstep : ChatStep P I s l s')
    (hcut : ¬ CutOff ⟨s, l, s'⟩) : Accounted (es ++ [⟨s, l, s'⟩]) s' := by
  have hchange := change_of_step h.whole hstep
  have hold : ∀ {messageId did}, s.chat.Delivered messageId did →
      Arrived (es ++ [⟨s, l, s'⟩]) s' did messageId :=
    fun hdelivered => (h.delivered hdelivered).step hstep hcut
  refine ⟨whole_of_change h.whole hchange, ?_, pushed_of_step h hstep⟩
  intro messageId did hdelivered
  cases hchange with
  | acked acks hacked hacks =>
    rcases hacked.delivered hdelivered with hdelivered | hack
    · exact hold hdelivered
    · rcases hacks _ _ hack with howed | hpushed
      · exact .inr howed
      · exact .inl ((h.pushed hpushed).mono (subset_append_left _ _))
  | deleted hremoved => exact hold (hremoved.receipts.subset hdelivered)
  | swept now hswept =>
    rw [hswept] at hdelivered
    exact hold ((removed_keepMessages _).receipts.subset hdelivered)
  | sent m hm hsent =>
    rw [hsent] at hdelivered
    rcases mem_append.mp hdelivered with hdelivered | hdelivered
    · exact hold hdelivered
    · obtain ⟨d, -, hd⟩ := mem_map.mp hdelivered
      cases hd
  | started self peer _ hstarted =>
    refine hold ?_
    rw [hstarted, Chat.Delivered, Chat.receipts_startConversation] at hdelivered
    exact hdelivered

theorem accounted_of_run (h : Run (ChatStep P I) (noChat g) es s)
    (hcut : ∀ e ∈ es, ¬ CutOff e) : Accounted es s :=
  (h.restrict (C := fun e => ¬ CutOff e) hcut).history _
    ⟨fun _ hr => (by cases hr), fun hr => (by cases hr), fun ⟨_, ht, _⟩ => (by cases ht)⟩
    fun h ⟨hstep, hcut⟩ => h.step hstep hcut

theorem old_of_swept {m : ChatMessage} {now : Int} (hm : m ∈ s.chat.messages)
    (hgone : m ∉ (s.chat.sweepStaleMessages now).messages) :
    m.sentAt < now - chatMessageMaxAge := by
  by_contra hyoung
  exact hgone (mem_filter.mpr ⟨hm, by simpa using hyoung⟩)

theorem waits_gone_of_step (h : Accounted es s) (hstep : ChatStep P I s l s')
    (hwaits : s.chat.Waits messageId did) (hgone : ¬ s'.chat.Waits messageId did) :
    Expired ⟨s, l, s'⟩ messageId ∨ Arrived (es ++ [⟨s, l, s'⟩]) s' did messageId := by
  cases change_of_step h.whole hstep with
  | acked acks hacked hacks =>
    have hack : acks messageId did := by
      by_contra hnot
      exact hgone (hacked.waits.mpr ⟨hwaits, hnot⟩)
    rcases hacks _ _ hack with howed | hpushed
    · exact .inr (.inr howed)
    · exact .inr (.inl ((h.pushed hpushed).mono (subset_append_left _ _)))
  | deleted _ did t hl hrow => exact .inl (.inl ⟨did, t, hl, hrow⟩)
  | swept now hswept =>
    obtain ⟨m, hm, hid⟩ := h.whole _ hwaits
    refine .inl (.inr ⟨now, hswept, m, hm, hid, old_of_swept hm fun hkept => hgone ?_⟩)
    rw [hswept]
    exact mem_filter.mpr ⟨hwaits, any_eq_true.mpr ⟨m, hkept, by simpa using hid⟩⟩
  | sent m hm hsent =>
    rw [hsent] at hgone
    exact absurd (mem_append_left _ hwaits) hgone
  | started self peer _ hstarted =>
    refine absurd ?_ hgone
    rw [hstarted, Chat.Waits, Chat.receipts_startConversation]
    exact hwaits

theorem message_gone_of_step {m : ChatMessage} (h : Accounted es s) (hstep : ChatStep P I s l s')
    (hcut : ¬ CutOff ⟨s, l, s'⟩) (hm : m ∈ s.chat.messages) (hgone : m ∉ s'.chat.messages) :
    Expired ⟨s, l, s'⟩ m.id ∨ ∀ r ∈ s.chat.receipts, r.messageId = m.id →
      Arrived (es ++ [⟨s, l, s'⟩]) s' r.deviceId m.id := by
  cases change_of_step h.whole hstep with
  | acked acks hacked hacks =>
    refine .inr ?_
    rintro ⟨messageId, did, delivered⟩ hr rfl
    cases delivered with
    | true => exact (h.delivered hr).step hstep hcut
    | false =>
      rcases hacks _ _ (hacked.purged hm hgone did hr) with howed | hpushed
      · exact .inr howed
      · exact .inl ((h.pushed hpushed).mono (subset_append_left _ _))
  | deleted _ did t hl hrow => exact .inl (.inl ⟨did, t, hl, hrow⟩)
  | swept now hswept =>
    rw [hswept] at hgone
    exact .inl (.inr ⟨now, hswept, m, hm, rfl, old_of_swept hm hgone⟩)
  | sent m' hm' hsent =>
    rw [hsent] at hgone
    exact absurd (mem_append_left _ hm) hgone
  | started self peer _ hstarted =>
    refine absurd ?_ hgone
    rw [hstarted, Chat.messages_startConversation]
    exact hm

/-- **No message is lost**: in a run that cuts no request off, a receipt is marked only when the
body was handed to its device, or is with a request that will hand it over. A receipt stops waiting
otherwise, and a message is purged without having reached every device it has a receipt of, only
when it is older than 30 days or goes with a device. -/
theorem no_message_lost (h : Run (ChatStep P I) (noChat g) es s) (hcut : ∀ e ∈ es, ¬ CutOff e)
    (he : e ∈ es) :
    (∀ messageId did, e.after.chat.Delivered messageId did → Arrived es s did messageId) ∧
    (∀ messageId did, e.before.chat.Waits messageId did → ¬ e.after.chat.Waits messageId did →
      Expired e messageId ∨ Arrived es s did messageId) ∧
    ∀ m ∈ e.before.chat.messages, m ∉ e.after.chat.messages →
      Expired e m.id ∨ ∀ r ∈ e.before.chat.receipts, r.messageId = m.id →
        Arrived es s r.deviceId m.id := by
  obtain ⟨pre, post, rfl⟩ := append_of_mem he
  obtain ⟨hpre, hstep, hpost⟩ := h.split
  have haccounted := accounted_of_run hpre fun e he => hcut e (mem_append_left _ he)
  have hlater : ∀ {did messageId}, Arrived (pre ++ [e]) e.after did messageId →
      Arrived (pre ++ e :: post) s did messageId := by
    intro did messageId harrived
    have hrun := harrived.run hpost fun x hx =>
      hcut x (mem_append_right _ (mem_cons_of_mem _ hx))
    rwa [append_assoc] at hrun
  refine ⟨fun messageId did hdelivered => ?_, ?_, ?_⟩
  · exact hlater ((haccounted.step hstep (hcut e he)).delivered hdelivered)
  · intro messageId did hwaits hgone
    exact (waits_gone_of_step haccounted hstep hwaits hgone).imp_right hlater
  · intro m hm hgone
    refine (message_gone_of_step haccounted hstep (hcut e he) hm hgone).imp_right ?_
    exact fun hall r hr hid => hlater (hall r hr hid)

theorem not_cutOff_of_tasks
    (h : ∀ did ms, Task.catchUp did ms ∉ e.before.tasks ∧ Task.answer did ms ∉ e.before.tasks) :
    ¬ CutOff e := by
  rintro ⟨-, did, m, ms, hran | hran | hran⟩
  · exact (h _ _).1 hran.mem
  · exact (h _ _).1 hran.mem
  · exact (h _ _).2 hran.mem

end Runs

/-! ## A message that waits -/

def sampleMailbox : Chat := (Chat.empty.startConversation "e" "d").insertMessage sampleHello ["d"]

def sampleRead : Chat := { Chat.empty.startConversation "e" "d" with next := 2 }

theorem fetch_mailbox : sampleMailbox.fetchAndAckPending 0 "d" = (sampleRead, [sampleHello]) := by
  have hpending : sampleMailbox.pending 0 "d" = [sampleHello] :=
    mergeSort_singleton sampleHello
  rw [Chat.fetchAndAckPending, hpending]
  rfl

theorem drain_mailbox : sampleMailbox.drain "d" = (sampleRead, [sampleHello]) := by
  change ((sampleMailbox.fetchAndAckPending 0 "d").1,
    [] ++ (sampleMailbox.fetchAndAckPending 0 "d").2) = _
  rw [fetch_mailbox]
  rfl

def sampleUnread (D : State) : ChatState :=
  ⟨D, sampleMailbox, Function.update (fun _ => none) "d" none, []⟩

def sampleSending : List Task :=
  [.start "e" "d", .send "e" 0 "hello", .push "e" sampleHello ["d"] [], .push "e" sampleHello [] [],
    .reply "e" sampleHello]

/-- Nothing but the sending runs in `y`. -/
def OnlySends (y : ChatEv) : Prop :=
  (∀ t ∈ y.before.tasks, t ∈ sampleSending) ∧ ∀ ms, y.label ≠ .deliver "d" ms

theorem not_cutOff_of_onlySends {y : ChatEv} (h : OnlySends y) : ¬ CutOff y :=
  not_cutOff_of_tasks fun did ms =>
    ⟨fun hmem => by simpa [sampleSending] using h.1 _ hmem,
      fun hmem => by simpa [sampleSending] using h.1 _ hmem⟩

section Sample

variable {P : Platform}

theorem sample_unread (D : State) (happroved : (D.cells "d").status = some .approved)
    (he : D.cells "e" = sampleOther) :
    ∃ es, Run (ChatStep P plainIssuer) ⟨D, .empty, fun _ => none, []⟩ es (sampleUnread D) ∧
      ∀ y ∈ es, OnlySends y := by
  have hauth : ∀ task : Task, task.owner = "e" → Validated plainIssuer D task.owner :=
    fun task howner => howner ▸ validated_other he
  let talk := Chat.empty.startConversation "e" "d"
  let chat := sampleMailbox
  let sockets : String → Option Nat := Function.update (fun _ => none) "d" none
  have h₁ : ChatStep P plainIssuer ⟨D, .empty, fun _ => none, []⟩ .quiet
      ⟨D, .empty, fun _ => none, [.start "e" "d"]⟩ := .request (hauth (.start "e" "d") rfl) rfl
  have h₂ : ChatStep P plainIssuer ⟨D, .empty, fun _ => none, [.start "e" "d"]⟩ .quiet
      ⟨D, talk, fun _ => none, []⟩ :=
    .task (show _ = [] ++ Task.start "e" "d" :: [] from rfl) (.start happroved (by decide))
  have h₃ : ChatStep P plainIssuer ⟨D, talk, fun _ => none, []⟩ .quiet
      ⟨D, talk, fun _ => none, [.send "e" 0 "hello"]⟩ :=
    .request (hauth (.send "e" 0 "hello") rfl) rfl
  have h₄ : ChatStep P plainIssuer ⟨D, talk, fun _ => none, [.send "e" 0 "hello"]⟩ .quiet
      ⟨D, chat, fun _ => none, [.push "e" sampleHello ["d"] []]⟩ :=
    .task (show _ = [] ++ Task.send "e" 0 "hello" :: [] from rfl) (.send rfl rfl)
  have h₅ : ChatStep P plainIssuer ⟨D, chat, fun _ => none, [.push "e" sampleHello ["d"] []]⟩
      .quiet ⟨D, chat, sockets, [.push "e" sampleHello [] []]⟩ :=
    .task (show _ = [] ++ Task.push "e" sampleHello ["d"] [] :: [] from rfl) .pushFails
  have h₆ : ChatStep P plainIssuer ⟨D, chat, sockets, [.push "e" sampleHello [] []]⟩ .quiet
      ⟨D, chat, sockets, [.reply "e" sampleHello]⟩ :=
    .task (show _ = [] ++ Task.push "e" sampleHello [] [] :: [] from rfl) .pushed
  have h₇ : ChatStep P plainIssuer ⟨D, chat, sockets, [.reply "e" sampleHello]⟩
      (.deliver "e" [sampleHello]) (sampleUnread D) :=
    .task (show _ = [] ++ Task.reply "e" sampleHello :: [] from rfl) .reply
  refine ⟨_, .snoc (.snoc (.snoc (.snoc (.snoc (.snoc (.snoc .nil h₁) h₂) h₃) h₄) h₅) h₆) h₇, ?_⟩
  intro y hy
  simp only [nil_append, cons_append, mem_cons, not_mem_nil, or_false] at hy
  rcases hy with rfl | rfl | rfl | rfl | rfl | rfl | rfl <;>
    exact ⟨by simp [sampleSending], by simp⟩

end Sample

theorem sample_waiting : ∃ es, Run (ChatStep plainPlatform plainIssuer) (noChat sampleOutside) es
    (sampleUnread (sampleBoth 8 sampleApproved)) ∧
      ∀ y ∈ es, OnlySends y := by
  obtain ⟨es₁, hrun₁, hcommits⟩ := ((sample_enrolled (P := plainPlatform)
    (I := plainIssuer)).trans sample_approved).trans (sample_other (show (2 : Int) ≤ 7 by decide))
  obtain ⟨hd, he⟩ := cells_sampleBoth (r := sampleApproved) 8
  obtain ⟨es₂, hrun₂, hquiet⟩ := sample_unread (P := plainPlatform) (sampleBoth 8 sampleApproved)
    (by rw [hd]; rfl) he
  have hbeside := run_besideChat (noChat sampleOutside) hrun₁ (by rw [hcommits]; decide)
  refine ⟨_, hbeside.trans hrun₂, fun y hy => ?_⟩
  rcases mem_append.mp hy with hy | hy
  · obtain ⟨z, -, rfl⟩ := mem_map.mp hy
    exact ⟨by simp [besideChat, noChat], by simp [besideChat]⟩
  · exact hquiet y hy

theorem sample_device : Validated plainIssuer (sampleBoth 8 sampleApproved) "d" :=
  validated_of_row "d" ⟨"c1", 2, none, false⟩ (cells_sampleBoth 8).1 rfl rfl rfl rfl

theorem sample_fetch {P : Platform} {I : Issuer} {D : State} {sockets : String → Option Nat}
    {rest : List Task} : ChatStep P I ⟨D, sampleMailbox, sockets, .fetch "d" 0 :: rest⟩ .quiet
      ⟨D, sampleRead, sockets, .answer "d" [sampleHello] :: rest⟩ := by
  have hstep : ChatStep P I ⟨D, sampleMailbox, sockets, .fetch "d" 0 :: rest⟩ .quiet _ :=
    .task (show _ = [] ++ Task.fetch "d" 0 :: rest from rfl) (.fetch rfl)
  rw [fetch_mailbox] at hstep
  exact hstep

theorem sample_drain {P : Platform} {I : Issuer} {D : State} {sockets : String → Option Nat} :
    ChatStep P I ⟨D, sampleMailbox, sockets, [.drain "d"]⟩ .quiet
      ⟨D, sampleRead, sockets, [.catchUp "d" [sampleHello]]⟩ := by
  have hstep : ChatStep P I ⟨D, sampleMailbox, sockets, [.drain "d"]⟩ .quiet _ :=
    .task (show _ = [] ++ Task.drain "d" :: [] from rfl) .drain
  rw [drain_mailbox] at hstep
  exact hstep

theorem sample_no_message_lost : ∃ es e s,
    Run (ChatStep plainPlatform plainIssuer) (noChat sampleOutside) es s ∧ e ∈ es ∧
      e.before.chat.Waits 1 "d" ∧ e.after.chat.messages = [] ∧
      (Expired e 1 ∨ Arrived es s "d" 1) := by
  obtain ⟨es, hrun, hsends⟩ := sample_waiting
  have hauth : Validated plainIssuer (sampleBoth 8 sampleApproved) (Task.fetch "d" 0).owner :=
    sample_device
  have hall := (hrun.snoc (.request hauth rfl)).snoc sample_fetch
  have hwaits : sampleMailbox.Waits 1 "d" := by decide
  refine ⟨_, _, _, hall, mem_append_right _ mem_cons_self, hwaits, rfl,
    (no_message_lost hall ?_ (mem_append_right _ mem_cons_self)).2.1 1 "d" hwaits
      (show ¬ sampleRead.Waits 1 "d" by decide)⟩
  simp only [mem_append, mem_singleton]
  rintro y ((hy | rfl) | rfl)
  · exact not_cutOff_of_onlySends (hsends y hy)
  · exact not_cutOff_of_tasks (by simp [sampleUnread])
  · exact not_cutOff_of_tasks (by simp [sampleUnread])

/-- The sample device connects and its catch-up takes the message, but the socket fails before
the message is pushed. -/
theorem drained_and_lost : ∃ es e s,
    Run (ChatStep plainPlatform plainIssuer) (noChat sampleOutside) es s ∧ e ∈ es ∧
      e.before.chat.Waits 1 "d" ∧ ¬ e.after.chat.Waits 1 "d" ∧ e.after.chat.messages = [] ∧
      ¬ Expired e 1 ∧ ¬ Arrived es s "d" 1 := by
  obtain ⟨es, hrun, hsends⟩ := sample_waiting
  let sockets := Function.update (sampleUnread (sampleBoth 8 sampleApproved)).sockets "d" (some 1)
  have hfails : ChatStep plainPlatform plainIssuer
      ⟨sampleBoth 8 sampleApproved, sampleRead, sockets, [.catchUp "d" [sampleHello]]⟩ .quiet
      ⟨sampleBoth 8 sampleApproved, sampleRead, Function.update sockets "d" none,
        [.catchUp "d" []]⟩ :=
    .task (show _ = [] ++ Task.catchUp "d" [sampleHello] :: [] from rfl) .catchUpFails
  have hregister : ChatStep plainPlatform plainIssuer
      ⟨sampleBoth 8 sampleApproved, sampleMailbox,
        (sampleUnread (sampleBoth 8 sampleApproved)).sockets, [.register "d" 1]⟩ .quiet
      ⟨sampleBoth 8 sampleApproved, sampleMailbox, sockets, [.drain "d"]⟩ :=
    .task (show _ = [] ++ Task.register "d" 1 :: [] from rfl) .register
  have hall := (((hrun.snoc (.connect sample_device)).snoc hregister).snoc sample_drain).snoc hfails
  refine ⟨_, _, _, hall, mem_append_left _ (mem_append_right _ mem_cons_self),
    show sampleMailbox.Waits 1 "d" by decide, show ¬ sampleRead.Waits 1 "d" by decide, rfl, ?_, ?_⟩
  · rintro (⟨did, t, hl, -⟩ | ⟨now, hnow, -⟩)
    · cases hl
    · have htasks := congrArg ChatState.tasks hnow
      simp at htasks
  · rintro (⟨y, hy, ms, hl, -⟩ | ⟨task, htask, howes⟩)
    · simp only [mem_append, mem_singleton] at hy
      rcases hy with (((hy | rfl) | rfl) | rfl) | rfl
      · exact (hsends y hy).2 ms hl
      all_goals cases hl
    · rw [mem_singleton.mp htask] at howes
      cases howes.2

end ManagedDirectory.Rds
