import ManagedDirectory.Rds.ChatDelivery

/-!
# RDS: a chat message is handed over once

`send_message` pushes a message first and marks the receipts of those who got it afterwards, in a
transaction of its own. A fetch or a new socket of the recipient in between finds the receipt
waiting and hands the message over a second time (`handed_twice`). Where a device takes its messages
only while no `send_message` to it is under way, it gets each of them once (`handed_once`).

`Tidy` and `Paced` are invariants of the state alone; `Fair` relates it to the number of times a
message was handed to a device so far.
-/

namespace ManagedDirectory.Rds

open Codec Lib List

/-! ## How often -/

def copies (did : String) (messageId : Nat) (ms : List ChatMessage) : Nat :=
  ms.countP fun m => m.id == messageId && m.senderDeviceId != did

def ChatLabel.handed (did : String) (messageId : Nat) : ChatLabel → Nat
  | .deliver d ms => if d = did then copies did messageId ms else 0
  | _ => 0

/-- How often the message was handed to a device it was sent to, in pushes and in responses. -/
def handings (es : List ChatEv) (did : String) (messageId : Nat) : Nat :=
  (es.map fun e => e.label.handed did messageId).sum

def Task.owed (did : String) (messageId : Nat) : Task → Nat
  | .answer d ms => if d = did then copies did messageId ms else 0
  | .catchUp d ms => if d = did then copies did messageId ms else 0
  | _ => 0

def owed (did : String) (messageId : Nat) (tasks : List Task) : Nat :=
  (tasks.map (Task.owed did messageId)).sum

/-- `send_message` is still to push the message to the device. -/
def Task.Awaits (did : String) (messageId : Nat) : Task → Prop
  | .push _ m todo _ => m.id = messageId ∧ did ∈ todo
  | _ => False

/-- A `send_message` to the device. -/
def Task.SendsTo (did : String) : Task → Prop
  | .push _ _ todo done => did ∈ todo ++ done
  | _ => False

/-- A device takes its messages while a `send_message` to it is under way. -/
def Overlaps (e : ChatEv) : Prop :=
  ∃ did ms, (Ran e (.drain did) [.catchUp did ms] ∨ ∃ c, Ran e (.fetch did c) [.answer did ms]) ∧
    ∃ task ∈ e.before.tasks, task.SendsTo did

/-- A `send_message` ends after a push, and before it marks the receipt. -/
def LeavesUnmarked (e : ChatEv) : Prop :=
  ∃ did m todo done, done ≠ [] ∧ Ran e (.push did m todo done) []

section Counts

variable {did : String} {messageId : Nat} {ms : List ChatMessage} {m : ChatMessage} {task : Task}
  {tasks l₁ l₂ : List Task}

theorem copies_cons : copies did messageId (m :: ms) =
    copies did messageId [m] + copies did messageId ms := by
  simp only [copies, countP_cons, countP_nil]
  omega

theorem copies_le (did : String) (messageId : Nat) (h : (ms.map ChatMessage.id).Nodup) :
    copies did messageId ms ≤ 1 := by
  refine le_trans ?_ (nodup_iff_count_le_one.mp h messageId)
  rw [count, countP_map]
  refine countP_mono_left fun m _ hm => ?_
  exact (Bool.and_eq_true_iff.mp hm).1

theorem mem_of_copies (h : 0 < copies did messageId ms) : messageId ∈ ms.map ChatMessage.id := by
  obtain ⟨m, hm, hid⟩ := countP_pos_iff.mp h
  exact mem_map.mpr ⟨m, hm, by simpa using (Bool.and_eq_true_iff.mp hid).1⟩

@[simp] theorem owed_cons : owed did messageId (task :: tasks) =
    task.owed did messageId + owed did messageId tasks := by
  simp [owed]

@[simp] theorem owed_nil : owed did messageId [] = 0 := rfl

theorem owed_append : owed did messageId (l₁ ++ l₂) =
    owed did messageId l₁ + owed did messageId l₂ := by
  simp [owed]

end Counts

/-! ## Invariants of the state -/

structure Chat.Tidy (chat : Chat) : Prop where
  whole : chat.Whole
  ids : (chat.messages.map ChatMessage.id).Nodup
  known : ∀ m ∈ chat.messages, m.id < chat.next
  members : chat.participants.Nodup
  conversations : ∀ p ∈ chat.participants, p.1 < chat.next

def Task.pushId : Task → Option Nat
  | .push _ m _ _ => some m.id
  | _ => none

def Task.Paced (next : Nat) : Task → Prop
  | .push did m todo _ => m.senderDeviceId = did ∧ m.id < next ∧ todo.Nodup
  | .reply did m => m.senderDeviceId = did
  | _ => True

structure Paced (next : Nat) (tasks : List Task) : Prop where
  each : ∀ task ∈ tasks, task.Paced next
  pushIds : (tasks.filterMap Task.pushId).Nodup

section Tidy

variable {P : Platform} {I : Issuer} {chat chat' : Chat} {s s' : ChatState} {l : ChatLabel}
  {m : ChatMessage} {task : Task} {tasks l₁ l₂ : List Task} {next next' : Nat}

theorem nodup_recipients (h : chat.Tidy) (conversationId : Nat) (self : String) :
    (chat.recipients conversationId self).Nodup := by
  refine List.Nodup.map_on ?_ (h.members.filter _)
  rintro ⟨a, b⟩ ha ⟨a', b'⟩ ha' heq
  have hfirst := (mem_filter.mp ha).2
  have hsecond := (mem_filter.mp ha').2
  simp only [Bool.and_eq_true, beq_iff_eq] at hfirst hsecond
  rw [Prod.mk.injEq]
  exact ⟨hfirst.1.trans hsecond.1.symm, heq⟩

theorem Chat.Tidy.sublist (h : chat.Tidy) (hwhole : chat'.Whole)
    (hmessages : chat'.messages.Sublist chat.messages)
    (hparticipants : chat'.participants.Sublist chat.participants)
    (hnext : chat'.next = chat.next) : chat'.Tidy := by
  refine ⟨hwhole, h.ids.sublist (hmessages.map _), fun m hm => ?_, h.members.sublist hparticipants,
    fun p hp => ?_⟩
  · exact hnext ▸ h.known m (hmessages.subset hm)
  · exact hnext ▸ h.conversations p (hparticipants.subset hp)

theorem tidy_insert (h : chat.Tidy) (hm : m.id = chat.next) {recipients : List String}
    (hwhole : (chat.insertMessage m recipients).Whole) :
    (chat.insertMessage m recipients).Tidy := by
  refine ⟨hwhole, ?_, ?_, h.members, fun p hp => Nat.lt_succ_of_lt (h.conversations p hp)⟩
  · simp only [Chat.insertMessage, map_append, map_cons, map_nil]
    refine h.ids.append (nodup_singleton _) ?_
    intro id hid hlast
    obtain ⟨m', hm', rfl⟩ := mem_map.mp hid
    have hlt := h.known m' hm'
    rw [mem_singleton.mp hlast, hm] at hlt
    exact lt_irrefl _ hlt
  · intro m' hm'
    rcases mem_append.mp hm' with hm' | hm'
    · exact Nat.lt_succ_of_lt (h.known m' hm')
    · rw [mem_singleton.mp hm', hm]
      exact Nat.lt_succ_self _

theorem tidy_start (h : chat.Tidy) {self peer : String} (hother : peer ≠ self) :
    (chat.startConversation self peer).Tidy := by
  unfold Chat.startConversation
  simp only
  split_ifs with hexists
  · exact h
  refine ⟨h.whole, h.ids, fun m hm => Nat.lt_succ_of_lt (h.known m hm), ?_, ?_⟩
  · refine h.members.append (by simpa using hother.symm) ?_
    intro p hp hnew
    have hlt := h.conversations p hp
    have hfst : p.1 = chat.next := by
      simp only [mem_cons, not_mem_nil, or_false] at hnew
      rcases hnew with rfl | rfl <;> rfl
    rw [hfst] at hlt
    exact lt_irrefl _ hlt
  · intro p hp
    simp only [mem_append, mem_cons, not_mem_nil, or_false] at hp
    rcases hp with hp | rfl | rfl
    · exact Nat.lt_succ_of_lt (h.conversations p hp)
    · exact Nat.lt_succ_self _
    · exact Nat.lt_succ_self _

theorem tidy_of_change (h : s.chat.Tidy) (hchange : ChatChange s l s') : s'.chat.Tidy := by
  have hwhole := whole_of_change h.whole hchange
  cases hchange with
  | acked acks hacked _ =>
    exact h.sublist hwhole hacked.messages (by rw [hacked.participants]) hacked.next
  | deleted hremoved => exact h.sublist hwhole hremoved.messages hremoved.participants hremoved.next
  | swept now hswept =>
    subst hswept
    exact h.sublist hwhole filter_sublist (.refl _) rfl
  | sent m hm hsent =>
    rw [hsent] at hwhole ⊢
    exact tidy_insert h hm hwhole
  | started self peer hother hstarted =>
    rw [hstarted]
    exact tidy_start h hother

theorem next_of_change (hchange : ChatChange s l s') : s.chat.next ≤ s'.chat.next := by
  cases hchange with
  | acked acks hacked _ => exact hacked.next.ge
  | deleted hremoved => exact hremoved.next.ge
  | swept now hswept =>
    subst hswept
    exact le_rfl
  | sent m hm hsent =>
    rw [hsent]
    exact Nat.le_succ _
  | started self peer hother hstarted =>
    rw [hstarted]
    unfold Chat.startConversation
    simp only
    split_ifs
    · exact le_rfl
    · exact Nat.le_succ _

theorem Task.Paced.mono (h : task.Paced next) (hle : next ≤ next') : task.Paced next' := by
  cases task with
  | push => exact ⟨h.1, h.2.1.trans_le hle, h.2.2⟩
  | reply => exact h
  | _ => trivial

theorem paced_cons : Paced next (task :: tasks) ↔ task.Paced next ∧ Paced next tasks ∧
    ∀ id ∈ task.pushId, id ∉ tasks.filterMap Task.pushId := by
  constructor
  · rintro ⟨heach, hids⟩
    obtain ⟨hfirst, hrest⟩ := forall_mem_cons.mp heach
    cases hid : task.pushId with
    | none =>
      rw [filterMap_cons_none hid] at hids
      exact ⟨hfirst, ⟨hrest, hids⟩, by simp⟩
    | some id =>
      rw [filterMap_cons_some hid, nodup_cons] at hids
      exact ⟨hfirst, ⟨hrest, hids.2⟩, by simpa using hids.1⟩
  · rintro ⟨hfirst, ⟨hrest, hids⟩, hnew⟩
    refine ⟨forall_mem_cons.mpr ⟨hfirst, hrest⟩, ?_⟩
    cases hid : task.pushId with
    | none => rwa [filterMap_cons_none hid]
    | some id =>
      rw [filterMap_cons_some hid, nodup_cons]
      exact ⟨hnew id hid, hids⟩

theorem Paced.perm (h : Paced next tasks) {tasks' : List Task} (hperm : tasks.Perm tasks') :
    Paced next tasks' :=
  ⟨fun t ht => h.each t (hperm.mem_iff.mpr ht), (hperm.filterMap _).nodup_iff.mp h.pushIds⟩

theorem Paced.mono (h : Paced next tasks) (hle : next ≤ next') : Paced next' tasks :=
  ⟨fun t ht => (h.each t ht).mono hle, h.pushIds⟩

theorem Paced.cons (h : Paced next tasks) (htask : task.Paced next) (hnone : task.pushId = none) :
    Paced next (task :: tasks) := paced_cons.mpr ⟨htask, h, by simp [hnone]⟩

theorem paced_of_taskStep (h : s.chat.Tidy) (hpaced : Paced s.chat.next (task :: s.tasks))
    (hstep : TaskStep s task l s') (hnext : s.chat.next ≤ s'.chat.next) :
    Paced s'.chat.next s'.tasks := by
  obtain ⟨htask, hrest, hids⟩ := paced_cons.mp hpaced
  cases hstep with
  | start | reply | answer | stop => exact hrest.mono hnext
  | @send did body conversationId sentAt m hmember hm =>
    subst hm
    refine paced_cons.mpr ⟨⟨rfl, Nat.lt_succ_self _, nodup_recipients h _ _⟩, hrest.mono hnext, ?_⟩
    -- no earlier request pushes a message with the new id
    intro id hnew hmem
    obtain ⟨t, ht, hid⟩ := mem_filterMap.mp hmem
    cases t with
    | push =>
      have hlt := (hrest.each _ ht).2.1
      rw [Option.some.inj hid, ← Option.some.inj hnew] at hlt
      exact lt_irrefl _ hlt
    | _ => cases hid
  | push => exact paced_cons.mpr ⟨⟨htask.1, htask.2.1, htask.2.2.of_cons⟩, hrest, hids⟩
  | pushFails => exact paced_cons.mpr ⟨⟨htask.1, htask.2.1, htask.2.2.of_cons⟩, hrest, hids⟩
  | pushed => exact (hrest.mono hnext).cons htask.1 rfl
  | fetch | register | drain | catchUp | catchUpFails =>
    exact (hrest.mono hnext).cons trivial rfl

theorem paced_of_step (h : s.chat.Tidy) (hpaced : Paced s.chat.next s.tasks)
    (hstep : ChatStep P I s l s') : Paced s'.chat.next s'.tasks := by
  have hnext := next_of_change (change_of_step h.whole hstep)
  cases hstep with
  | directory | disconnect | sweep => exact hpaced.mono hnext
  | @request task hauth hnew =>
    cases task with
    | start | send | fetch => exact hpaced.cons trivial rfl
    | _ => cases hnew
  | connect => exact hpaced.cons trivial rfl
  | @task l₁ l₂ task _ _ htasks hstep =>
    rw [htasks] at hpaced
    exact paced_of_taskStep (s := { s with tasks := l₁ ++ l₂ }) h (hpaced.perm perm_middle)
      hstep hnext

end Tidy

/-! ## The count so far -/

/-- The message was handed to the device `n` times so far, and requests have still to hand over what
is owed. -/
structure Fair (did : String) (messageId n : Nat) (s : ChatState) : Prop where
  once : n + owed did messageId s.tasks ≤ 1
  /-- A message that was handed over, or will be, waits only until its push is marked. -/
  marked : 0 < n + owed did messageId s.tasks → s.chat.Waits messageId did →
    ∃ task ∈ s.tasks, task.Pushed did messageId
  ahead : 0 < n + owed did messageId s.tasks → ∀ task ∈ s.tasks, ¬ task.Awaits did messageId
  known : 0 < n + owed did messageId s.tasks → messageId < s.chat.next

section Fair

variable {P : Platform} {I : Issuer} {g : Outside} {s s' : ChatState} {l : ChatLabel}
  {es : List ChatEv} {e : ChatEv} {did : String} {messageId n n' : Nat} {task : Task}
  {l₁ l₂ : List Task}

theorem Fair.zero (h : n + owed did messageId s.tasks = 0) : Fair did messageId n s :=
  ⟨by omega, fun hpos => absurd hpos (by omega), fun hpos => absurd hpos (by omega),
    fun hpos => absurd hpos (by omega)⟩

theorem Fair.mono (h : Fair did messageId n s)
    (hle : n' + owed did messageId s'.tasks ≤ n + owed did messageId s.tasks)
    (hwaits : s'.chat.Waits messageId did → s.chat.Waits messageId did ∧
      ((∃ task ∈ s.tasks, task.Pushed did messageId) →
        ∃ task ∈ s'.tasks, task.Pushed did messageId))
    (hahead : ∀ task ∈ s'.tasks, task.Awaits did messageId →
      ∃ task ∈ s.tasks, task.Awaits did messageId)
    (hnext : s.chat.next ≤ s'.chat.next) : Fair did messageId n' s' where
  once := hle.trans h.once
  marked hpos hw := by
    obtain ⟨hw, hpushed⟩ := hwaits hw
    exact hpushed (h.marked (hpos.trans_le hle) hw)
  ahead hpos task htask hawaits := by
    obtain ⟨task, htask, hawaits⟩ := hahead task htask hawaits
    exact h.ahead (hpos.trans_le hle) task htask hawaits
  known hpos := (h.known (hpos.trans_le hle)).trans_le hnext

theorem Fair.join (h : Fair did messageId n s) (howed : task.owed did messageId = 0)
    (hawaits : ¬ task.Awaits did messageId) :
    Fair did messageId n { s with tasks := task :: s.tasks } := by
  refine h.mono ?_ (fun hw => ⟨hw, ?_⟩) ?_ le_rfl
  · rw [owed_cons, howed, zero_add]
  · exact fun ⟨t, ht, hpushed⟩ => ⟨t, mem_cons_of_mem _ ht, hpushed⟩
  · intro t ht hp
    rcases mem_cons.mp ht with rfl | ht
    · exact absurd hp hawaits
    · exact ⟨t, ht, hp⟩

theorem Fair.perm (h : Fair did messageId n s) {tasks : List Task} (hperm : s.tasks.Perm tasks) :
    Fair did messageId n { s with tasks := tasks } := by
  refine h.mono ?_ (fun hw => ⟨hw, ?_⟩) ?_ le_rfl
  · exact (Nat.add_left_cancel_iff.mpr (hperm.map _).sum_eq).ge
  · exact fun ⟨t, ht, hpushed⟩ => ⟨t, hperm.mem_iff.mp ht, hpushed⟩
  · exact fun t ht hp => ⟨t, hperm.mem_iff.mpr ht, hp⟩

theorem Fair.take (h : Fair did messageId n s) (htidy : s.chat.Tidy) {ms : List ChatMessage}
    (htakes : Takes did s.chat ms s'.chat)
    (howed : owed did messageId s'.tasks = copies did messageId ms + owed did messageId s.tasks)
    (hfree : ∀ task ∈ s.tasks, ¬ task.Pushed did messageId)
    (hfree' : ∀ task ∈ s'.tasks, ¬ task.Awaits did messageId) : Fair did messageId n s' := by
  by_cases hcopies : copies did messageId ms = 0
  · refine h.mono (by omega) (fun hw => ⟨(htakes.acked.waits.mp hw).1, ?_⟩) ?_ htakes.acked.next.ge
    · rintro ⟨task, htask, hpushed⟩
      exact absurd hpushed (hfree task htask)
    · exact fun task htask hawaits => absurd hawaits (hfree' task htask)
  · have htaken := mem_of_copies (Nat.pos_of_ne_zero hcopies)
    obtain ⟨m, hm, rfl⟩ := mem_map.mp htaken
    obtain ⟨hmem, hwaited⟩ := htakes.waited m hm
    have hzero : n + owed did m.id s.tasks = 0 := by
      by_contra hpos
      obtain ⟨task, htask, hpushed⟩ := h.marked (Nat.pos_of_ne_zero hpos) hwaited
      exact hfree task htask hpushed
    refine ⟨?_, fun _ hw => ?_, fun _ => hfree', fun _ => ?_⟩
    · have hle := copies_le did m.id (htakes.nodup htidy.ids)
      omega
    · exact absurd ⟨htaken, rfl⟩ (htakes.acked.waits.mp hw).2
    · exact (htidy.known m hmem).trans_le htakes.acked.next.ge

theorem Fair.stage (h : Fair did messageId n { s with tasks := task :: s.tasks }) (rest : List Task)
    (htasks : s'.tasks = rest ++ s.tasks)
    (hle : n' + owed did messageId rest ≤ n + task.owed did messageId)
    (hwaits : s'.chat.Waits messageId did → s.chat.Waits messageId did ∧
      (task.Pushed did messageId → ∃ t ∈ rest, t.Pushed did messageId))
    (hahead : ∀ t ∈ rest, t.Awaits did messageId → task.Awaits did messageId)
    (hnext : s.chat.next ≤ s'.chat.next) : Fair did messageId n' s' := by
  refine h.mono ?_ (fun hw => ⟨(hwaits hw).1, ?_⟩) ?_ hnext
  · rw [htasks, owed_append, owed_cons]
    omega
  · rw [htasks]
    rintro ⟨t, ht, hpushed⟩
    rcases mem_cons.mp ht with rfl | ht
    · obtain ⟨t, ht, hpushed⟩ := (hwaits hw).2 hpushed
      exact ⟨t, mem_append_left _ ht, hpushed⟩
    · exact ⟨t, mem_append_right _ ht, hpushed⟩
  · rw [htasks]
    intro t ht hawaits
    rcases mem_append.mp ht with ht | ht
    · exact ⟨task, mem_cons_self, hahead t ht hawaits⟩
    · exact ⟨t, mem_cons_of_mem _ ht, hawaits⟩

theorem fair_push {r sender : String} {m : ChatMessage} {todo done : List String}
    (hpaced : Paced s.chat.next (.push sender m (r :: todo) done :: s.tasks))
    (h : Fair did messageId n { s with tasks := .push sender m (r :: todo) done :: s.tasks }) :
    Fair did messageId (n + (ChatLabel.deliver r [m]).handed did messageId)
      { s with tasks := .push sender m todo (done ++ [r]) :: s.tasks } := by
  by_cases hpushed : did = r ∧ m.id = messageId
  · obtain ⟨rfl, rfl⟩ := hpushed
    obtain ⟨⟨-, hknown, hnodup⟩, -, hids⟩ := paced_cons.mp hpaced
    have hzero : n + owed did m.id s.tasks = 0 := by
      by_contra hpos
      exact h.ahead (by simpa [Task.owed] using Nat.pos_of_ne_zero hpos) _ mem_cons_self
        ⟨rfl, mem_cons_self⟩
    have hone : (ChatLabel.deliver did [m]).handed did m.id ≤ 1 := by
      simp only [ChatLabel.handed, if_true]
      exact copies_le did m.id (by simp)
    refine ⟨?_, fun _ _ => ⟨_, mem_cons_self, rfl, by simp⟩, fun _ t ht hawaits => ?_,
      fun _ => hknown⟩
    · simp only [owed_cons, Task.owed]
      omega
    · rcases mem_cons.mp ht with rfl | ht
      · exact (nodup_cons.mp hnodup).1 hawaits.2
      · -- nobody else pushes this message
        cases t with
        | push => exact hids m.id rfl (mem_filterMap.mpr ⟨_, ht, congrArg some hawaits.1⟩)
        | _ => exact hawaits.elim
  · have hnone : (ChatLabel.deliver r [m]).handed did messageId = 0 := by
      simp only [ChatLabel.handed]
      split_ifs with hr
      · have hid : m.id ≠ messageId := fun hid => hpushed ⟨hr.symm, hid⟩
        simp [copies, hid]
      · rfl
    refine h.stage [_] rfl ?_ (fun hw => ⟨hw, ?_⟩) ?_ le_rfl
    · simp [hnone, Task.owed]
    · rintro ⟨hid, hdone⟩
      exact ⟨_, mem_cons_self, hid, mem_append_left _ hdone⟩
    · rintro t ht hawaits
      rw [mem_singleton.mp ht] at hawaits
      exact ⟨hawaits.1, mem_cons_of_mem _ hawaits.2⟩

theorem fair_pushed {sender : String} {m : ChatMessage} {done : List String}
    (hwhole : s.chat.Whole)
    (h : Fair did messageId n { s with tasks := .push sender m [] done :: s.tasks }) :
    Fair did messageId n { s with
      chat := if done = [] then s.chat
        else (s.chat.markDelivered [m.id] done).purgeIfFullyDelivered m.id
      tasks := .reply sender m :: s.tasks } := by
  have hmark := acked_mark [m.id] done hwhole
  have hacked := hmark.trans (acked_purge m.id hmark.whole)
  refine h.stage [_] rfl (by simp [Task.owed]) ?_ ?_ ?_
  · intro hw
    simp only at hw
    split_ifs at hw with hdone
    · refine ⟨hw, ?_⟩
      rintro ⟨-, hmem⟩
      rw [hdone] at hmem
      cases hmem
    · obtain ⟨hold, hnot⟩ := hacked.waits.mp hw
      refine ⟨hold, ?_⟩
      rintro ⟨rfl, hmem⟩
      exact absurd (.inl ⟨mem_cons_self, hmem⟩) hnot
  · rintro t ht hawaits
    rw [mem_singleton.mp ht] at hawaits
    exact hawaits.elim
  · simp only
    split_ifs
    · exact le_rfl
    · exact hacked.next.ge

theorem fair_take {d : String} {ms : List ChatMessage} {chat' : Chat} {next : Task}
    (htidy : s.chat.Tidy) (h : Fair did messageId n { s with tasks := task :: s.tasks })
    (htakes : Takes d s.chat ms chat') (htask : task = .drain d ∨ ∃ c, task = .fetch d c)
    (hnext : next = .answer d ms ∨ next = .catchUp d ms)
    (hfree : ∀ t ∈ s.tasks, ¬ t.SendsTo d) :
    Fair did messageId n { s with chat := chat', tasks := next :: s.tasks } := by
  have howed : next.owed did messageId = if d = did then copies did messageId ms else 0 := by
    rcases hnext with rfl | rfl <;> rfl
  have hquiet : ¬ next.Awaits did messageId := by
    rcases hnext with rfl | rfl <;> exact id
  have hquiet' : ¬ task.Pushed did messageId := by
    rcases htask with rfl | ⟨c, rfl⟩ <;> exact id
  have hnone : task.owed did messageId = 0 := by
    rcases htask with rfl | ⟨c, rfl⟩ <;> rfl
  by_cases hd : d = did
  · subst hd
    refine Fair.take (s := { s with tasks := task :: s.tasks }) h htidy htakes ?_ ?_ ?_
    · rw [owed_cons, owed_cons, howed, if_pos rfl, hnone, zero_add]
    · refine forall_mem_cons.mpr ⟨hquiet', fun t ht hpushed => hfree t ht ?_⟩
      cases t with
      | push => exact mem_append_right _ hpushed.2
      | _ => exact hpushed
    · refine forall_mem_cons.mpr ⟨hquiet, fun t ht hawaits => hfree t ht ?_⟩
      cases t with
      | push => exact mem_append_left _ hawaits.2
      | _ => exact hawaits
  · refine h.stage [next] rfl ?_ ?_ ?_ htakes.acked.next.ge
    · simp [howed, hd]
    · exact fun hw => ⟨(htakes.acked.waits.mp hw).1, fun hpushed => absurd hpushed hquiet'⟩
    · intro t ht hawaits
      rw [mem_singleton.mp ht] at hawaits
      exact absurd hawaits hquiet

theorem fair_of_taskStep (htidy : s.chat.Tidy) (hpaced : Paced s.chat.next (task :: s.tasks))
    (h : Fair did messageId n { s with tasks := task :: s.tasks }) (hstep : TaskStep s task l s')
    (hfree : ∀ d ms, (task = .drain d ∧ s'.tasks = .catchUp d ms :: s.tasks ∨
      (∃ c, task = .fetch d c) ∧ s'.tasks = .answer d ms :: s.tasks) →
        ∀ t ∈ s.tasks, ¬ t.SendsTo d)
    (hmarked : ∀ sender m todo done, task = .push sender m todo done → s'.tasks = s.tasks →
      done = []) :
    Fair did messageId (n + l.handed did messageId) s' := by
  cases hstep with
  | @start self peer _ hother =>
    refine h.stage [] rfl (by simp [ChatLabel.handed]) (fun hw => ⟨?_, fun hp => hp.elim⟩) (by simp)
      (next_of_change (l := .quiet) (.started self peer hother rfl))
    rwa [Chat.Waits, Chat.receipts_startConversation] at hw
  | @send sender body conversationId sentAt m hmember hm =>
    have hid : m.id = s.chat.next := by rw [hm]
    by_cases hnew : messageId = m.id
    · refine .zero ?_
      by_contra hpos
      have hlt := h.known (by simpa [Task.owed, ChatLabel.handed] using Nat.pos_of_ne_zero hpos)
      rw [hnew, hid] at hlt
      exact lt_irrefl _ hlt
    · refine h.stage [_] rfl (by simp [ChatLabel.handed, Task.owed])
        (fun hw => ⟨?_, fun hp => hp.elim⟩) ?_ (Nat.le_succ _)
      · rcases mem_append.mp hw with hw | hw
        · exact hw
        · obtain ⟨d, -, hd⟩ := mem_map.mp hw
          cases hd
          exact absurd rfl hnew
      · intro t ht hawaits
        rw [mem_singleton.mp ht] at hawaits
        exact absurd hawaits.1.symm hnew
  | push => exact fair_push hpaced h
  | pushFails =>
    refine h.stage [_] rfl (by simp [ChatLabel.handed, Task.owed]) (fun hw => ⟨hw, fun hp => ?_⟩) ?_
      le_rfl
    · exact ⟨_, mem_cons_self, hp⟩
    · intro t ht hawaits
      rw [mem_singleton.mp ht] at hawaits
      exact ⟨hawaits.1, mem_cons_of_mem _ hawaits.2⟩
  | pushed => exact fair_pushed htidy.whole h
  | @reply sender m =>
    have hself : m.senderDeviceId = sender := (paced_cons.mp hpaced).1
    refine h.stage [] rfl ?_ (fun hw => ⟨hw, fun hp => hp.elim⟩) (by simp) le_rfl
    have hnone : (ChatLabel.deliver sender [m]).handed did messageId = 0 := by
      simp only [ChatLabel.handed]
      split_ifs with hd
      · simp [copies, hself, hd]
      · rfl
    simp [hnone, Task.owed]
  | @fetch d conversationId =>
    exact fair_take htidy h (takes_fetch conversationId d htidy.whole) (.inr ⟨_, rfl⟩) (.inl rfl)
      (hfree d _ (.inr ⟨⟨_, rfl⟩, rfl⟩))
  | answer =>
    exact h.stage [] rfl le_rfl (fun hw => ⟨hw, fun hp => hp.elim⟩) (by simp) le_rfl
  | register =>
    exact h.stage [_] rfl (by simp [ChatLabel.handed, Task.owed])
      (fun hw => ⟨hw, fun hp => hp.elim⟩) (by simp [Task.Awaits]) le_rfl
  | @drain d =>
    exact fair_take htidy h (takes_drain d htidy.whole) (.inl rfl) (.inr rfl)
      (hfree d _ (.inl ⟨rfl, rfl⟩))
  | @catchUp d m ms =>
    refine h.stage [_] rfl ?_ (fun hw => ⟨hw, fun hp => hp.elim⟩) (by simp [Task.Awaits]) le_rfl
    have hcons : copies did messageId (m :: ms) = _ := copies_cons
    simp only [ChatLabel.handed, owed_cons, owed_nil, Task.owed]
    split_ifs <;> omega
  | @catchUpFails d m ms =>
    refine h.stage [_] rfl ?_ (fun hw => ⟨hw, fun hp => hp.elim⟩) (by simp [Task.Awaits]) le_rfl
    have hcons : copies did messageId (m :: ms) = _ := copies_cons
    simp only [ChatLabel.handed, owed_cons, owed_nil, Task.owed]
    split_ifs <;> omega
  | stop =>
    refine h.stage [] rfl (by simp [ChatLabel.handed]) (fun hw => ⟨hw, fun hp => ?_⟩) (by simp)
      le_rfl
    cases task with
    | push sender m todo done =>
      have hmem := hp.2
      rw [hmarked sender m todo done rfl rfl] at hmem
      cases hmem
    | _ => exact hp.elim

theorem waits_of_directory {chat : Chat} {directory : State} {l : Locks.Label String Tx}
    (h : (chat.afterDirectory directory l).Waits messageId did) : chat.Waits messageId did := by
  unfold Chat.afterDirectory at h
  split at h
  · split_ifs at h
    · exact (removed_removeDevice _).receipts.subset h
    · exact h
  · exact h

theorem fair_of_step (htidy : s.chat.Tidy) (hpaced : Paced s.chat.next s.tasks)
    (h : Fair did messageId n s) (hstep : ChatStep P I s l s')
    (hoverlaps : ¬ Overlaps ⟨s, l, s'⟩) (hunmarked : ¬ LeavesUnmarked ⟨s, l, s'⟩) :
    Fair did messageId (n + l.handed did messageId) s' := by
  have hnext := next_of_change (change_of_step htidy.whole hstep)
  cases hstep with
  | directory =>
    exact h.mono le_rfl (fun hw => ⟨waits_of_directory hw, id⟩) (fun t ht hp => ⟨t, ht, hp⟩) hnext
  | disconnect => exact h.mono le_rfl (fun hw => ⟨hw, id⟩) (fun t ht hp => ⟨t, ht, hp⟩) hnext
  | sweep =>
    exact h.mono le_rfl (fun hw => ⟨(removed_keepMessages _).receipts.subset hw, id⟩)
      (fun t ht hp => ⟨t, ht, hp⟩) hnext
  | @request task hauth hnew =>
    have hquiet : task.owed did messageId = 0 ∧ ¬ task.Awaits did messageId := by
      cases task with
      | start | send | fetch => exact ⟨rfl, id⟩
      | _ => cases hnew
    exact h.join hquiet.1 hquiet.2
  | connect => exact h.join rfl id
  | @task l₁ l₂ task _ _ htasks hstep =>
    have hrest : ∀ t ∈ l₁ ++ l₂, t ∈ s.tasks := by
      rw [htasks]
      intro t ht
      simp only [mem_append, mem_cons] at ht ⊢
      tauto
    have hperm : s.tasks.Perm (task :: (l₁ ++ l₂)) := htasks ▸ perm_middle
    refine fair_of_taskStep (s := { s with tasks := l₁ ++ l₂ }) htidy (hpaced.perm hperm)
      (h.perm hperm) hstep ?_ ?_
    · intro d ms htakes t ht hsends
      refine hoverlaps ⟨d, ms, ?_, t, hrest t ht, hsends⟩
      rcases htakes with ⟨rfl, hafter⟩ | ⟨⟨c, rfl⟩, hafter⟩
      · exact .inl ⟨l₁, l₂, htasks, hafter⟩
      · exact .inr ⟨c, l₁, l₂, htasks, hafter⟩
    · rintro sender m todo done rfl hafter
      by_contra hdone
      exact hunmarked ⟨sender, m, todo, done, hdone, l₁, l₂, htasks, hafter⟩

/-- In a run in which no device takes its messages during a `send_message` to it, and no
`send_message` ends between a push and its mark. -/
theorem fair_of_run (h : Run (ChatStep P I) (noChat g) es s)
    (hok : ∀ e ∈ es, ¬ Overlaps e ∧ ¬ LeavesUnmarked e) (did : String) (messageId : Nat) :
    s.chat.Tidy ∧ Paced s.chat.next s.tasks ∧ Fair did messageId (handings es did messageId) s := by
  refine (h.restrict (C := fun e => ¬ Overlaps e ∧ ¬ LeavesUnmarked e) hok).history
    (fun es s => s.chat.Tidy ∧ Paced s.chat.next s.tasks ∧
      Fair did messageId (handings es did messageId) s) ?_ ?_
  · refine ⟨⟨?_, ?_, ?_, ?_, ?_⟩, ⟨?_, ?_⟩, .zero rfl⟩
    all_goals simp [noChat, Chat.empty, Chat.Whole]
  · rintro es s l s' ⟨htidy, hpaced, hfair⟩ ⟨hstep, hoverlaps, hunmarked⟩
    refine ⟨tidy_of_change htidy (change_of_step htidy.whole hstep),
      paced_of_step htidy hpaced hstep, ?_⟩
    rw [handings, map_append, sum_append, map_singleton, sum_singleton]
    exact fair_of_step htidy hpaced hfair hstep hoverlaps hunmarked

/-- **A message is handed over once**: where a device takes its messages only while no
`send_message` to it is under way, and no `send_message` ends between a push and its mark, each
message is handed to each device it was sent to at most once, over all sockets and responses. -/
theorem handed_once (h : Run (ChatStep P I) (noChat g) es s)
    (hok : ∀ e ∈ es, ¬ Overlaps e ∧ ¬ LeavesUnmarked e) (did : String) (messageId : Nat) :
    handings es did messageId ≤ 1 := by
  obtain ⟨-, -, hfair⟩ := fair_of_run h hok did messageId
  exact (Nat.le_add_right _ _).trans hfair.once

theorem not_overlaps_of_tasks
    (h : (∀ did, Task.drain did ∉ e.before.tasks ∧ ∀ c, Task.fetch did c ∉ e.before.tasks) ∨
      ∀ task ∈ e.before.tasks, ∀ did, ¬ task.SendsTo did) : ¬ Overlaps e := by
  rintro ⟨did, ms, htakes, task, htask, hsends⟩
  rcases h with h | h
  · rcases htakes with hran | ⟨c, hran⟩
    · exact (h did).1 hran.mem
    · exact (h did).2 c hran.mem
  · exact h task htask did hsends

theorem not_leavesUnmarked_of_tasks
    (h : ∀ did m todo done, Task.push did m todo done ∈ e.before.tasks → done = []) :
    ¬ LeavesUnmarked e := by
  rintro ⟨did, m, todo, done, hdone, hran⟩
  exact hdone (h _ _ _ _ hran.mem)

end Fair

/-! ## A message that is fetched while it is pushed -/

theorem apart_of_onlySends {y : ChatEv} (h : OnlySends y) : ¬ Overlaps y ∧ ¬ LeavesUnmarked y := by
  refine ⟨not_overlaps_of_tasks (.inl fun did => ⟨fun hmem => ?_, fun c hmem => ?_⟩),
    not_leavesUnmarked_of_tasks fun did m todo done hmem => ?_⟩
  · simpa [sampleSending] using h.1 _ hmem
  · simpa [sampleSending] using h.1 _ hmem
  · have hsending := h.1 _ hmem
    simp only [sampleSending, mem_cons, Task.push.injEq, not_mem_nil, or_false,
      reduceCtorEq, false_or] at hsending
    rcases hsending with ⟨-, -, -, hdone⟩ | ⟨-, -, -, hdone⟩ <;> exact hdone

/-- The sample device fetches its message after the sending, and gets it once. -/
theorem sample_handed_once : ∃ es s,
    Run (ChatStep plainPlatform plainIssuer) (noChat sampleOutside) es s ∧ Given es "d" 1 ∧
      handings es "d" 1 ≤ 1 := by
  obtain ⟨es, hrun, hsends⟩ := sample_waiting
  have hauth : Validated plainIssuer (sampleBoth 8 sampleApproved) (Task.fetch "d" 0).owner :=
    sample_device
  have hall := ((hrun.snoc (.request hauth rfl)).snoc sample_fetch).snoc
    (.task (show _ = [] ++ Task.answer "d" [sampleHello] :: [] from rfl) .answer)
  refine ⟨_, _, hall, given_last ⟨[sampleHello], rfl, by simp [sampleHello]⟩,
    handed_once hall ?_ "d" 1⟩
  simp only [mem_append, mem_singleton]
  rintro y (((hy | rfl) | rfl) | rfl)
  · exact apart_of_onlySends (hsends y hy)
  all_goals
    exact ⟨not_overlaps_of_tasks (.inr (by simp [sampleUnread, Task.SendsTo])),
      not_leavesUnmarked_of_tasks (by simp [sampleUnread])⟩

/-- The sample device has a socket and gets the message; before `send_message` marks the receipt,
the device fetches, and gets it again. -/
theorem handed_twice : ∃ es s,
    Run (ChatStep plainPlatform plainIssuer) (noChat sampleOutside) es s ∧
      2 ≤ handings es "d" 1 := by
  obtain ⟨es₁, hrun₁, hcommits⟩ := ((sample_enrolled (P := plainPlatform)
    (I := plainIssuer)).trans sample_approved).trans (sample_other (show (2 : Int) ≤ 7 by decide))
  obtain ⟨hd, he⟩ := cells_sampleBoth (r := sampleApproved) 8
  have hbeside := run_besideChat (noChat sampleOutside) hrun₁ (by rw [hcommits]; decide)
  let D := sampleBoth 8 sampleApproved
  obtain ⟨es₂, hrun₂, -⟩ :=
    sample_connected (P := plainPlatform) D sample_device (by rw [hd]; rfl) he
  let talk := Chat.empty.startConversation "e" "d"
  let sockets : String → Option Nat := Function.update (fun _ => none) "d" (some 1)
  -- the catch-up of the new socket finds nothing
  have hdrain : ChatStep plainPlatform plainIssuer (sampleConnected D) .quiet
      ⟨D, talk, sockets, [.catchUp "d" []]⟩ := by
    have hpending : talk.pending 0 "d" = [] := mergeSort_nil
    have hempty : talk.drain "d" = (talk, []) := by
      change ((talk.fetchAndAckPending 0 "d").1, [] ++ (talk.fetchAndAckPending 0 "d").2) = _
      rw [Chat.fetchAndAckPending, hpending]
      rfl
    have hstep : ChatStep plainPlatform plainIssuer ⟨D, talk, sockets, [.drain "d"]⟩ .quiet _ :=
      .task (show _ = [] ++ Task.drain "d" :: [] from rfl) .drain
    rw [hempty] at hstep
    exact hstep
  have hstop : ChatStep plainPlatform plainIssuer ⟨D, talk, sockets, [.catchUp "d" []]⟩ .quiet
      ⟨D, talk, sockets, []⟩ :=
    .task (show _ = [] ++ Task.catchUp "d" [] :: [] from rfl) .stop
  have hrequest : ChatStep plainPlatform plainIssuer ⟨D, talk, sockets, []⟩ .quiet
      ⟨D, talk, sockets, [.send "e" 0 "hello"]⟩ :=
    .request (show Validated plainIssuer D "e" from validated_other he) rfl
  have hsend : ChatStep plainPlatform plainIssuer ⟨D, talk, sockets, [.send "e" 0 "hello"]⟩ .quiet
      ⟨D, sampleMailbox, sockets, [.push "e" sampleHello ["d"] []]⟩ :=
    .task (show _ = [] ++ Task.send "e" 0 "hello" :: [] from rfl) (.send rfl rfl)
  have hpush : ChatStep plainPlatform plainIssuer
      ⟨D, sampleMailbox, sockets, [.push "e" sampleHello ["d"] []]⟩ (.deliver "d" [sampleHello])
      ⟨D, sampleMailbox, sockets, [.push "e" sampleHello [] ["d"]]⟩ :=
    .task (show _ = [] ++ Task.push "e" sampleHello ["d"] [] :: [] from rfl)
      (.push (show sockets "d" = some 1 from rfl))
  have hfetch : ChatStep plainPlatform plainIssuer
      ⟨D, sampleMailbox, sockets, [.push "e" sampleHello [] ["d"]]⟩ .quiet
      ⟨D, sampleMailbox, sockets, [.fetch "d" 0, .push "e" sampleHello [] ["d"]]⟩ :=
    .request (show Validated plainIssuer D "d" from sample_device) rfl
  have hanswer : ChatStep plainPlatform plainIssuer
      ⟨D, sampleRead, sockets, [.answer "d" [sampleHello], .push "e" sampleHello [] ["d"]]⟩
      (.deliver "d" [sampleHello]) ⟨D, sampleRead, sockets, [.push "e" sampleHello [] ["d"]]⟩ :=
    .task (show _ = [] ++ Task.answer "d" [sampleHello] :: [_] from rfl) .answer
  refine ⟨_, _, (hbeside.trans hrun₂).trans ((((((((Run.nil.snoc hdrain).snoc hstop).snoc
    hrequest).snoc hsend).snoc hpush).snoc hfetch).snoc sample_fetch).snoc hanswer), ?_⟩
  rw [handings, map_append, sum_append]
  exact le_add_of_nonneg_of_le (Nat.zero_le _) (by decide)

end ManagedDirectory.Rds
