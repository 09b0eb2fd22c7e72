import ManagedDirectory.Rds.Chat

/-!
# RDS: receipts of chat messages

`Acked acks chat chat'` says what a transaction of `managed_chat.py` does to the receipts it finds:
those in `acks` are delivered, the others wait as before, and a message is purged only with nobody
left to wait for it. `acked_mark` and `acked_purge` are its two statements; `Takes` is what a device
gets out of the transactions made of them (`takes_fetch`, `takes_drain`). `change_of_step` says what
a step of the whole system does to the chat.
-/

namespace ManagedDirectory.Rds

open Codec Lib List

def Chat.Waits (chat : Chat) (messageId : Nat) (did : String) : Prop :=
  (⟨messageId, did, false⟩ : Receipt) ∈ chat.receipts

instance (chat : Chat) (messageId : Nat) (did : String) : Decidable (chat.Waits messageId did) :=
  inferInstanceAs (Decidable (_ ∈ _))

def Chat.Delivered (chat : Chat) (messageId : Nat) (did : String) : Prop :=
  (⟨messageId, did, true⟩ : Receipt) ∈ chat.receipts

def Chat.Whole (chat : Chat) : Prop := ∀ r ∈ chat.receipts, ∃ m ∈ chat.messages, m.id = r.messageId

structure Acked (acks : Nat → String → Prop) (chat chat' : Chat) : Prop where
  whole : chat'.Whole
  messages : chat'.messages.Sublist chat.messages
  waits : ∀ {messageId did}, chat'.Waits messageId did ↔
    chat.Waits messageId did ∧ ¬ acks messageId did
  delivered : ∀ {messageId did}, chat'.Delivered messageId did →
    chat.Delivered messageId did ∨ acks messageId did
  purged : ∀ {m}, m ∈ chat.messages → m ∉ chat'.messages →
    ∀ did, chat.Waits m.id did → acks m.id did
  participants : chat'.participants = chat.participants
  next : chat'.next = chat.next

section Acked

variable {chat chat' chat'' : Chat} {acks acks' : Nat → String → Prop} {ids : List Nat}
  {dids : List String} {did : String} {messageId conversationId : Nat}

theorem Acked.refl (h : chat.Whole) : Acked (fun _ _ => False) chat chat :=
  ⟨h, .refl _, by simp, .inl, fun hm hnot => absurd hm hnot, rfl, rfl⟩

theorem Acked.trans (h : Acked acks chat chat') (h' : Acked acks' chat' chat'') :
    Acked (fun messageId did => acks messageId did ∨ acks' messageId did) chat chat'' := by
  refine ⟨h'.whole, h'.messages.trans h.messages, ?_, ?_, ?_,
    h'.participants.trans h.participants, h'.next.trans h.next⟩
  · intro messageId did
    rw [h'.waits, h.waits, not_or, and_assoc]
  · intro messageId did hdelivered
    rcases h'.delivered hdelivered with hdelivered | hacks
    · exact (h.delivered hdelivered).imp_right .inl
    · exact .inr (.inr hacks)
  · intro m hm hgone did hwaits
    by_cases hm' : m ∈ chat'.messages
    · by_cases hacks : acks m.id did
      · exact .inl hacks
      · exact .inr (h'.purged hm' hgone did (h.waits.mpr ⟨hwaits, hacks⟩))
    · exact .inl (h.purged hm hm' did hwaits)

theorem Acked.congr (h : Acked acks chat chat')
    (hacks : ∀ messageId did, acks messageId did ↔ acks' messageId did) :
    Acked acks' chat chat' := by
  have heq : acks = acks' := by
    funext messageId did
    exact propext (hacks messageId did)
  exact heq ▸ h

/-- A receipt after `UPDATE … SET delivered_at = now()`. -/
def Receipt.mark (ids : List Nat) (dids : List String) (r : Receipt) : Receipt :=
  if ids.contains r.messageId && dids.contains r.deviceId then { r with delivered := true } else r

theorem receipts_mark :
    (chat.markDelivered ids dids).receipts = chat.receipts.map (Receipt.mark ids dids) := rfl

theorem mark_eq_waiting {r : Receipt} : r.mark ids dids = ⟨messageId, did, false⟩ ↔
    r = ⟨messageId, did, false⟩ ∧ ¬ (messageId ∈ ids ∧ did ∈ dids) := by
  obtain ⟨a, b, c⟩ := r
  by_cases hmarked : a ∈ ids ∧ b ∈ dids
  · have hmark : (⟨a, b, c⟩ : Receipt).mark ids dids = ⟨a, b, true⟩ := by
      simp [Receipt.mark, hmarked]
    rw [hmark]
    constructor
    · intro heq
      cases heq
    · rintro ⟨heq, hnot⟩
      cases heq
      exact absurd hmarked hnot
  · have hmark : (⟨a, b, c⟩ : Receipt).mark ids dids = ⟨a, b, c⟩ := by
      simp only [Receipt.mark, contains_iff_mem, Bool.and_eq_true]
      rw [if_neg hmarked]
    rw [hmark]
    constructor
    · intro heq
      cases heq
      exact ⟨rfl, hmarked⟩
    · exact fun h => h.1

theorem acked_mark (ids : List Nat) (dids : List String) (h : chat.Whole) :
    Acked (fun messageId did => messageId ∈ ids ∧ did ∈ dids) chat
      (chat.markDelivered ids dids) where
  whole := by
    intro r' hr'
    obtain ⟨r, hr, rfl⟩ := mem_map.mp hr'
    obtain ⟨m, hm, hid⟩ := h r hr
    refine ⟨m, hm, hid.trans ?_⟩
    split_ifs <;> rfl
  messages := .refl _
  waits := by
    intro messageId did
    rw [Chat.Waits, receipts_mark, mem_map]
    constructor
    · rintro ⟨r, hr, hmark⟩
      obtain ⟨rfl, hnot⟩ := mark_eq_waiting.mp hmark
      exact ⟨hr, hnot⟩
    · rintro ⟨hwaits, hnot⟩
      exact ⟨_, hwaits, mark_eq_waiting.mpr ⟨rfl, hnot⟩⟩
  delivered := by
    intro messageId did hdelivered
    rw [Chat.Delivered, receipts_mark, mem_map] at hdelivered
    obtain ⟨r, hr, hmark⟩ := hdelivered
    simp only [Receipt.mark, contains_iff_mem, Bool.and_eq_true] at hmark
    split_ifs at hmark with hacks
    · cases hmark
      exact .inr hacks
    · subst hmark
      exact .inl hr
  purged := fun hm hnot => absurd hm hnot
  participants := rfl
  next := rfl

theorem acked_purge (messageId : Nat) (h : chat.Whole) :
    Acked (fun _ _ => False) chat (chat.purgeIfFullyDelivered messageId) := by
  unfold Chat.purgeIfFullyDelivered
  split_ifs with hopen
  · exact .refl h
  have hdone : ∀ did, ¬ chat.Waits messageId did := by
    intro did hwaits
    exact hopen (any_eq_true.mpr ⟨_, hwaits, by simp⟩)
  have hkept : ∀ {r : Receipt}, r ∈ chat.receipts → r.messageId ≠ messageId →
      (chat.messages.filter (·.id != messageId)).any (·.id == r.messageId) = true := by
    intro r hr hne
    obtain ⟨m, hm, hid⟩ := h r hr
    refine any_eq_true.mpr ⟨m, mem_filter.mpr ⟨hm, ?_⟩, by simpa using hid⟩
    simpa [hid] using hne
  refine ⟨?_, filter_sublist, ?_, ?_, ?_, rfl, rfl⟩
  · intro r hr
    obtain ⟨-, hany⟩ := mem_filter.mp hr
    obtain ⟨m, hm, hid⟩ := any_eq_true.mp hany
    exact ⟨m, hm, by simpa using hid⟩
  · intro messageId' did
    simp only [not_false_eq_true, and_true]
    constructor
    · exact fun hwaits => (mem_filter.mp hwaits).1
    · intro hwaits
      refine mem_filter.mpr ⟨hwaits, hkept hwaits ?_⟩
      rintro rfl
      exact hdone did hwaits
  · intro messageId' did hdelivered
    exact .inl (mem_filter.mp hdelivered).1
  · intro m hm hgone did hwaits
    have hid : m.id = messageId := by
      by_contra hne
      exact hgone (mem_filter.mpr ⟨hm, by simpa using hne⟩)
    exact hdone did (hid ▸ hwaits)

theorem acked_purges (ids : List Nat) (h : chat.Whole) :
    Acked (fun _ _ => False) chat (ids.foldl Chat.purgeIfFullyDelivered chat) := by
  induction ids generalizing chat with
  | nil => exact .refl h
  | cons messageId ids ih =>
    have hfirst := acked_purge messageId h
    exact (hfirst.trans (ih hfirst.whole)).congr fun _ _ => or_self_iff

theorem acked_fetch (conversationId : Nat) (did : String) (h : chat.Whole) :
    Acked (fun messageId d => messageId ∈ (chat.pending conversationId did).map ChatMessage.id ∧
      d = did) chat (chat.fetchAndAckPending conversationId did).1 := by
  have hmark := acked_mark ((chat.pending conversationId did).map ChatMessage.id) [did] h
  refine (hmark.trans (acked_purges _ hmark.whole)).congr fun messageId d => ?_
  simp

theorem waits_of_pending {m : ChatMessage} (hm : m ∈ chat.pending conversationId did) :
    m ∈ chat.messages ∧ chat.Waits m.id did := by
  obtain ⟨hmem, hpending⟩ := mem_filter.mp (mem_mergeSort.mp hm)
  obtain ⟨-, hany⟩ := Bool.and_eq_true_iff.mp hpending
  obtain ⟨⟨a, b, c⟩, hr, hr'⟩ := any_eq_true.mp hany
  simp only [Bool.and_eq_true, beq_iff_eq, Bool.not_eq_true'] at hr'
  obtain ⟨⟨rfl, rfl⟩, rfl⟩ := hr'
  exact ⟨hmem, hr⟩

def Chat.drainStep (did : String) (acc : Chat × List ChatMessage) (conversationId : Nat) :
    Chat × List ChatMessage :=
  ((acc.1.fetchAndAckPending conversationId did).1,
    acc.2 ++ (acc.1.fetchAndAckPending conversationId did).2)

theorem drain_eq : chat.drain did =
    ((chat.participants.filter (·.2 == did)).map Prod.fst).foldl (Chat.drainStep did)
      (chat, []) := rfl

/-- What a device takes out of its mailbox: messages that waited for it, each once. -/
structure Takes (did : String) (chat : Chat) (ms : List ChatMessage) (chat' : Chat) : Prop where
  acked : Acked (fun messageId d => messageId ∈ ms.map ChatMessage.id ∧ d = did) chat chat'
  waited : ∀ m ∈ ms, m ∈ chat.messages ∧ chat.Waits m.id did
  nodup : (chat.messages.map ChatMessage.id).Nodup → (ms.map ChatMessage.id).Nodup

theorem takes_fetch (conversationId : Nat) (did : String) (h : chat.Whole) :
    Takes did chat (chat.pending conversationId did)
      (chat.fetchAndAckPending conversationId did).1 where
  acked := acked_fetch conversationId did h
  waited := fun _ hm => waits_of_pending hm
  nodup hids := by
    have hperm := (mergeSort_perm (chat.messages.filter fun m =>
      m.conversationId == conversationId && chat.receipts.any fun r =>
        r.messageId == m.id && r.deviceId == did && !r.delivered) (·.sentAt ≤ ·.sentAt)).map
      ChatMessage.id
    exact hperm.nodup_iff.mpr (hids.sublist (filter_sublist.map _))

theorem Takes.trans {ms ms' : List ChatMessage} (h : Takes did chat ms chat')
    (h' : Takes did chat' ms' chat'') : Takes did chat (ms ++ ms') chat'' where
  acked := by
    refine (h.acked.trans h'.acked).congr fun messageId d => ?_
    rw [map_append, mem_append, ← or_and_right]
  waited m hm := by
    rcases mem_append.mp hm with hm | hm
    · exact h.waited m hm
    · obtain ⟨hmem, hwaits⟩ := h'.waited m hm
      exact ⟨h.acked.messages.subset hmem, (h.acked.waits.mp hwaits).1⟩
  nodup hids := by
    rw [map_append]
    refine (h.nodup hids).append (h'.nodup (hids.sublist (h.acked.messages.map _))) ?_
    -- what the first turn took does not wait any more
    intro messageId hfirst hsecond
    obtain ⟨m, hm, rfl⟩ := mem_map.mp hsecond
    exact (h.acked.waits.mp (h'.waited m hm).2).2 ⟨hfirst, rfl⟩

theorem takes_nil (did : String) (h : chat.Whole) : Takes did chat [] chat :=
  ⟨(Acked.refl h).congr (by simp), by simp, by simp⟩

theorem takes_drainSteps (did : String) (ms : List ChatMessage) (conversations : List Nat)
    (h : chat.Whole) :
    ∃ new, (conversations.foldl (Chat.drainStep did) (chat, ms)).2 = ms ++ new ∧
      Takes did chat new (conversations.foldl (Chat.drainStep did) (chat, ms)).1 := by
  induction conversations generalizing chat ms with
  | nil => exact ⟨[], by simp, takes_nil did h⟩
  | cons conversationId conversations ih =>
    have hfirst := takes_fetch conversationId did h
    obtain ⟨new, hnew, hrest⟩ := ih (ms ++ (chat.fetchAndAckPending conversationId did).2)
      hfirst.acked.whole
    refine ⟨(chat.fetchAndAckPending conversationId did).2 ++ new, ?_, hfirst.trans hrest⟩
    rw [foldl_cons, ← append_assoc]
    exact hnew

theorem takes_drain (did : String) (h : chat.Whole) :
    Takes did chat (chat.drain did).2 (chat.drain did).1 := by
  obtain ⟨new, hnew, htakes⟩ := takes_drainSteps did []
    ((chat.participants.filter (·.2 == did)).map Prod.fst) h
  rw [drain_eq, hnew]
  exact htakes

end Acked

/-! ## What a step does to the chat -/

structure Removed (chat chat' : Chat) : Prop where
  whole : chat'.Whole
  messages : chat'.messages.Sublist chat.messages
  receipts : chat'.receipts.Sublist chat.receipts
  participants : chat'.participants.Sublist chat.participants
  next : chat'.next = chat.next

section Removals

variable {chat : Chat}

theorem whole_keepMessages (p : ChatMessage → Bool) : (chat.keepMessages p).Whole := by
  intro r hr
  obtain ⟨m, hm, hid⟩ := any_eq_true.mp (mem_filter.mp hr).2
  exact ⟨m, hm, by simpa using hid⟩

theorem removed_keepMessages (p : ChatMessage → Bool) : Removed chat (chat.keepMessages p) :=
  ⟨whole_keepMessages p, filter_sublist, filter_sublist, .refl _, rfl⟩

theorem removed_removeDevice (did : String) : Removed chat (chat.removeDevice did) :=
  ⟨whole_keepMessages _, filter_sublist, filter_sublist.trans filter_sublist,
    filter_sublist, rfl⟩

end Removals

/-- The message is in what a request has still to hand to the device. -/
def Task.Owes (did : String) (messageId : Nat) : Task → Prop
  | .answer d ms => d = did ∧ messageId ∈ ms.map ChatMessage.id
  | .catchUp d ms => d = did ∧ messageId ∈ ms.map ChatMessage.id
  | _ => False

/-- `send_message` has pushed the message to the device. -/
def Task.Pushed (did : String) (messageId : Nat) : Task → Prop
  | .push _ m _ done => m.id = messageId ∧ did ∈ done
  | _ => False

def ChatState.Owed (s : ChatState) (did : String) (messageId : Nat) : Prop :=
  ∃ task ∈ s.tasks, task.Owes did messageId

inductive ChatChange (s : ChatState) (l : ChatLabel) (s' : ChatState) : Prop where
  | acked (acks : Nat → String → Prop) (h : Acked acks s.chat s'.chat)
      (hacks : ∀ messageId did, acks messageId did →
        s'.Owed did messageId ∨ ∃ task ∈ s.tasks, task.Pushed did messageId)
  | deleted (h : Removed s.chat s'.chat) (did : String) (t : Tx)
      (hl : l = .directory (.commit did t)) (hrow : (s'.directory.cells did).row = none)
  | swept (now : Int) (h : s' = { s with chat := s.chat.sweepStaleMessages now })
  | sent (m : ChatMessage) (hm : m.id = s.chat.next)
      (h : s'.chat =
        s.chat.insertMessage m (s.chat.recipients m.conversationId m.senderDeviceId))
  | started (self peer : String) (hother : peer ≠ self)
      (h : s'.chat = s.chat.startConversation self peer)

section Steps

variable {P : Platform} {I : Issuer} {s s' : ChatState} {l : ChatLabel} {task : Task}

theorem change_same (h : s.chat.Whole) (hchat : s'.chat = s.chat) : ChatChange s l s' :=
  .acked (fun _ _ => False) (by rw [hchat]; exact .refl h) fun _ _ hfalse => hfalse.elim

theorem change_of_taskStep {tasks : List Task} (h : s.chat.Whole) (htask : task ∈ s.tasks)
    (hstep : TaskStep { s with tasks := tasks } task l s') : ChatChange s l s' := by
  cases hstep with
  | @start did peer hpeer hother => exact .started did peer hother rfl
  | @send did body conversationId sentAt m hmember hm =>
    exact .sent m (by rw [hm]) (by rw [hm])
  | @pushed did m done =>
    by_cases hdone : done = []
    · exact change_same h (if_pos hdone)
    · have hmark := acked_mark [m.id] done h
      have hacked := hmark.trans (acked_purge m.id hmark.whole)
      refine .acked _ (Eq.mpr (congrArg _ (if_neg hdone)) hacked) ?_
      rintro messageId d (⟨hid, hd⟩ | hfalse)
      · exact .inr ⟨_, htask, (mem_singleton.mp hid).symm, hd⟩
      · exact hfalse.elim
  | @fetch did conversationId hmember =>
    refine .acked _ (acked_fetch conversationId did h) ?_
    rintro messageId d ⟨hid, rfl⟩
    exact .inl ⟨_, mem_cons_self, rfl, hid⟩
  | @drain did =>
    refine .acked _ (takes_drain did h).acked ?_
    rintro messageId d ⟨hid, rfl⟩
    exact .inl ⟨_, mem_cons_self, rfl, hid⟩
  | push | pushFails | reply | answer | register | catchUp | catchUpFails | stop =>
    exact change_same h rfl

theorem change_of_step (h : s.chat.Whole) (hstep : ChatStep P I s l s') : ChatChange s l s' := by
  cases hstep with
  | @directory l directory hstep =>
    by_cases hgone : ∃ did t, l = .commit did t ∧ (directory.cells did).row.isNone = true
    · obtain ⟨did, t, rfl, hrow⟩ := hgone
      refine .deleted ?_ did t rfl (Option.isNone_iff_eq_none.mp hrow)
      change Removed s.chat (if (directory.cells did).row.isNone = true then _ else _)
      rw [if_pos hrow]
      exact removed_removeDevice did
    · refine change_same h ?_
      cases l with
      | commit did t =>
        change (if (directory.cells did).row.isNone = true then _ else _) = s.chat
        exact if_neg fun hrow => hgone ⟨did, t, rfl, hrow⟩
      | _ => rfl
  | @sweep now => exact .swept now rfl
  | @task l₁ l₂ task _ _ htasks hstep =>
    exact change_of_taskStep h (by rw [htasks]; simp) hstep
  | request | connect | disconnect => exact change_same h rfl

theorem Chat.messages_startConversation (chat : Chat) (self peer : String) :
    (chat.startConversation self peer).messages = chat.messages := by
  unfold Chat.startConversation
  simp only
  split_ifs <;> rfl

theorem Chat.receipts_startConversation (chat : Chat) (self peer : String) :
    (chat.startConversation self peer).receipts = chat.receipts := by
  unfold Chat.startConversation
  simp only
  split_ifs <;> rfl

theorem whole_of_change (h : s.chat.Whole) (hchange : ChatChange s l s') : s'.chat.Whole := by
  cases hchange with
  | acked acks h _ => exact h.whole
  | deleted h => exact h.whole
  | swept now h =>
    rw [h]
    exact whole_keepMessages _
  | sent m hm hs' =>
    rw [hs']
    intro r hr
    rcases mem_append.mp hr with hr | hr
    · obtain ⟨m', hm', hid⟩ := h r hr
      exact ⟨m', mem_append_left _ hm', hid⟩
    · obtain ⟨d, -, rfl⟩ := mem_map.mp hr
      exact ⟨m, mem_append_right _ mem_cons_self, rfl⟩
  | started self peer _ hs' =>
    rw [hs', Chat.Whole, Chat.messages_startConversation, Chat.receipts_startConversation]
    exact h

end Steps

end ManagedDirectory.Rds
