import ManagedDirectory.Rds.DeviceWork

/-!
# RDS: chat between devices

`Chat` holds the tables of `managed_chat.py`, with the transactions of its endpoints. A request of a
device validates its credential first and then goes through the stages of its endpoint (`Task`);
between two stages everything else may run. A websocket is validated once, when it is opened, and
`ConnectionManager` keeps it until it is replaced, disconnects or a send on it fails.

`ChatStep` is the whole system: the directory (`TxStep`), the requests and the sockets. Its label
names the message bodies that a step hands to a device.
-/

namespace ManagedDirectory.Rds

open Codec Lib

/-! ## Tables -/

structure Conversation where
  id : Nat
  directPairKey : String
  createdBy : String
  deriving DecidableEq

structure ChatMessage where
  id : Nat
  conversationId : Nat
  senderDeviceId : String
  body : String
  sentAt : Int
  deriving DecidableEq

structure Receipt where
  messageId : Nat
  deviceId : String
  delivered : Bool
  deriving DecidableEq

structure Chat where
  conversations : List Conversation
  participants : List (Nat × String)
  messages : List ChatMessage
  receipts : List Receipt
  /-- The next id; `gen_random_uuid` never gives one twice. -/
  next : Nat

def Chat.empty : Chat := ⟨[], [], [], [], 0⟩

def directPairKey (a b : String) : String := if b < a then b ++ ":" ++ a else a ++ ":" ++ b

def Chat.isParticipant (chat : Chat) (conversationId : Nat) (did : String) : Bool :=
  chat.participants.contains (conversationId, did)

/-- A row of `chat_messages` goes with its receipts. -/
def Chat.keepMessages (p : ChatMessage → Bool) (chat : Chat) : Chat :=
  let kept := chat.messages.filter p
  { chat with
    messages := kept
    receipts := chat.receipts.filter fun r => kept.any (·.id == r.messageId) }

def Chat.startConversation (chat : Chat) (self peer : String) : Chat :=
  let key := directPairKey self peer
  if chat.conversations.any (·.directPairKey == key) then chat
  else
    { chat with
      conversations := chat.conversations ++ [⟨chat.next, key, self⟩]
      participants := chat.participants ++ [(chat.next, self), (chat.next, peer)]
      next := chat.next + 1 }

def Chat.recipients (chat : Chat) (conversationId : Nat) (self : String) : List String :=
  (chat.participants.filter fun p => p.1 == conversationId && p.2 != self).map Prod.snd

def Chat.insertMessage (chat : Chat) (m : ChatMessage) (recipients : List String) : Chat :=
  { chat with
    messages := chat.messages ++ [m]
    receipts := chat.receipts ++ recipients.map fun r => ⟨m.id, r, false⟩
    next := chat.next + 1 }

def Chat.markDelivered (chat : Chat) (messageIds : List Nat) (dids : List String) : Chat :=
  { chat with
    receipts := chat.receipts.map fun r =>
      if messageIds.contains r.messageId && dids.contains r.deviceId then { r with delivered := true }
      else r }

def Chat.purgeIfFullyDelivered (chat : Chat) (messageId : Nat) : Chat :=
  if chat.receipts.any fun r => r.messageId == messageId && !r.delivered then chat
  else chat.keepMessages (·.id != messageId)

/-- Messages that wait for a device in a conversation, oldest first. -/
def Chat.pending (chat : Chat) (conversationId : Nat) (did : String) : List ChatMessage :=
  (chat.messages.filter fun m => m.conversationId == conversationId &&
    chat.receipts.any fun r => r.messageId == m.id && r.deviceId == did && !r.delivered).mergeSort
      (·.sentAt ≤ ·.sentAt)

def Chat.fetchAndAckPending (chat : Chat) (conversationId : Nat) (did : String) :
    Chat × List ChatMessage :=
  let pending := chat.pending conversationId did
  let ids := pending.map ChatMessage.id
  (ids.foldl Chat.purgeIfFullyDelivered (chat.markDelivered ids [did]), pending)

/-- The catch-up of a new socket, over all conversations of the device. -/
def Chat.drain (chat : Chat) (did : String) : Chat × List ChatMessage :=
  ((chat.participants.filter (·.2 == did)).map Prod.fst).foldl
    (fun acc conversationId =>
      let (chat, ms) := acc.1.fetchAndAckPending conversationId did
      (chat, acc.2 ++ ms))
    (chat, [])

def chatMessageMaxAge : Int := 30 * 86400 * 1000000

def Chat.sweepStaleMessages (chat : Chat) (now : Int) : Chat :=
  chat.keepMessages fun m => now - chatMessageMaxAge ≤ m.sentAt

/-- The cascades of a deleted device: what it created, took part in, sent and was sent. -/
def Chat.removeDevice (chat : Chat) (did : String) : Chat :=
  let conversations := chat.conversations.filter (·.createdBy != did)
  let chat := { chat with
    conversations := conversations
    participants := chat.participants.filter fun p =>
      p.2 != did && conversations.any (·.id == p.1)
    receipts := chat.receipts.filter (·.deviceId != did) }
  chat.keepMessages fun m => m.senderDeviceId != did && conversations.any (·.id == m.conversationId)

/-! ## Requests -/

/-- A request of a device, after its validation: the stage of its endpoint it is at. -/
inductive Task where
  | start (did peer : String)
  | send (did : String) (conversationId : Nat) (body : String)
  /-- `send_message` pushes its message: whom still, and who got it. -/
  | push (did : String) (m : ChatMessage) (todo done : List String)
  | reply (did : String) (m : ChatMessage)
  | fetch (did : String) (conversationId : Nat)
  | answer (did : String) (ms : List ChatMessage)
  /-- `ConnectionManager.connect`, once the socket it replaces is closed. -/
  | register (did : String) (socket : Nat)
  | drain (did : String)
  /-- `chat_websocket` pushes what it drained. -/
  | catchUp (did : String) (ms : List ChatMessage)

def Task.owner : Task → String
  | .start did _ => did
  | .send did _ _ => did
  | .push did _ _ _ => did
  | .reply did _ => did
  | .fetch did _ => did
  | .answer did _ => did
  | .register did _ => did
  | .drain did => did
  | .catchUp did _ => did

def Task.isNew : Task → Bool
  | .start _ _ => true
  | .send _ _ _ => true
  | .fetch _ _ => true
  | _ => false

structure ChatState where
  directory : State
  chat : Chat
  /-- `ConnectionManager._connections`. -/
  sockets : String → Option Nat
  tasks : List Task

inductive ChatLabel where
  | directory (l : Locks.Label String Tx)
  | deliver (did : String) (ms : List ChatMessage)
  | quiet

inductive TaskStep (s : ChatState) : Task → ChatLabel → ChatState → Prop where
  | start {did peer : String} (hpeer : (s.directory.cells peer).status = some .approved)
      (hother : peer ≠ did) :
    TaskStep s (.start did peer) .quiet { s with chat := s.chat.startConversation did peer }
  | send {did body : String} {conversationId : Nat} {sentAt : Int} {m : ChatMessage}
      (hmember : s.chat.isParticipant conversationId did = true)
      (hm : m = ⟨s.chat.next, conversationId, did, body, sentAt⟩) :
    TaskStep s (.send did conversationId body) .quiet
      { s with
        chat := s.chat.insertMessage m (s.chat.recipients conversationId did)
        tasks := .push did m (s.chat.recipients conversationId did) [] :: s.tasks }
  | push {did r : String} {m : ChatMessage} {todo done : List String} {socket : Nat}
      (hsocket : s.sockets r = some socket) :
    TaskStep s (.push did m (r :: todo) done) (.deliver r [m])
      { s with tasks := .push did m todo (done ++ [r]) :: s.tasks }
  | pushFails {did r : String} {m : ChatMessage} {todo done : List String} :
    TaskStep s (.push did m (r :: todo) done) .quiet
      { s with
        sockets := Function.update s.sockets r none
        tasks := .push did m todo done :: s.tasks }
  | pushed {did : String} {m : ChatMessage} {done : List String} :
    TaskStep s (.push did m [] done) .quiet
      { s with
        chat := if done = [] then s.chat
          else (s.chat.markDelivered [m.id] done).purgeIfFullyDelivered m.id
        tasks := .reply did m :: s.tasks }
  | reply {did : String} {m : ChatMessage} : TaskStep s (.reply did m) (.deliver did [m]) s
  | fetch {did : String} {conversationId : Nat}
      (hmember : s.chat.isParticipant conversationId did = true) :
    TaskStep s (.fetch did conversationId) .quiet
      { s with
        chat := (s.chat.fetchAndAckPending conversationId did).1
        tasks := .answer did (s.chat.fetchAndAckPending conversationId did).2 :: s.tasks }
  | answer {did : String} {ms : List ChatMessage} : TaskStep s (.answer did ms) (.deliver did ms) s
  | register {did : String} {socket : Nat} :
    TaskStep s (.register did socket) .quiet
      { s with
        sockets := Function.update s.sockets did (some socket)
        tasks := .drain did :: s.tasks }
  | drain {did : String} :
    TaskStep s (.drain did) .quiet
      { s with
        chat := (s.chat.drain did).1
        tasks := .catchUp did (s.chat.drain did).2 :: s.tasks }
  | catchUp {did : String} {m : ChatMessage} {ms : List ChatMessage} {socket : Nat}
      (hsocket : s.sockets did = some socket) :
    TaskStep s (.catchUp did (m :: ms)) (.deliver did [m])
      { s with tasks := .catchUp did ms :: s.tasks }
  | catchUpFails {did : String} {m : ChatMessage} {ms : List ChatMessage} :
    TaskStep s (.catchUp did (m :: ms)) .quiet
      { s with
        sockets := Function.update s.sockets did none
        tasks := .catchUp did ms :: s.tasks }
  | stop {task : Task} : TaskStep s task .quiet s

def Chat.afterDirectory (chat : Chat) (directory : State) : Locks.Label String Tx → Chat
  | .commit did _ => if (directory.cells did).row.isNone then chat.removeDevice did else chat
  | _ => chat

inductive ChatStep (P : Platform) (I : Issuer) (s : ChatState) : ChatLabel → ChatState → Prop where
  | directory {l : Locks.Label String Tx} {directory : State}
      (hstep : TxStep P I s.directory l directory) :
    ChatStep P I s (.directory l)
      { s with directory := directory, chat := s.chat.afterDirectory directory l }
  | request {task : Task} (hauth : Validated I s.directory task.owner) (hnew : task.isNew = true) :
    ChatStep P I s .quiet { s with tasks := task :: s.tasks }
  | connect {did : String} {socket : Nat} (hauth : Validated I s.directory did) :
    ChatStep P I s .quiet { s with tasks := .register did socket :: s.tasks }
  | disconnect {did : String} :
    ChatStep P I s .quiet { s with sockets := Function.update s.sockets did none }
  | sweep {now : Int} : ChatStep P I s .quiet { s with chat := s.chat.sweepStaleMessages now }
  | task {l₁ l₂ : List Task} {task : Task} {l : ChatLabel} {s' : ChatState}
      (htasks : s.tasks = l₁ ++ task :: l₂)
      (hstep : TaskStep { s with tasks := l₁ ++ l₂ } task l s') : ChatStep P I s l s'

abbrev ChatEv := Event ChatState ChatLabel

def noChat (g : Outside) : ChatState := ⟨noDevices g, .empty, fun _ => none, []⟩

/-! ## Who gets a body -/

/-- Nothing can reach the device: it has no socket and no request under way. -/
def Unreachable (did : String) (s : ChatState) : Prop :=
  s.sockets did = none ∧ ∀ task ∈ s.tasks, task.owner ≠ did

def Delivers (did : String) (e : ChatEv) : Prop := ∃ ms, ms ≠ [] ∧ e.label = .deliver did ms

def ChatState.status (s : ChatState) (did : String) : Option DeviceStatus :=
  (s.directory.cells did).status

section Steps

variable {P : Platform} {I : Issuer} {s s' : ChatState} {l : ChatLabel} {did : String}

theorem taskStep_unreachable {task : Task} (hstep : TaskStep s task l s')
    (hun : Unreachable did s) (howner : task.owner ≠ did) :
    Unreachable did s' ∧ ∀ ms, l ≠ .deliver did ms := by
  obtain ⟨hsocket, htasks⟩ := hun
  have hcons : ∀ next : Task, next.owner ≠ did → ∀ t ∈ next :: s.tasks, t.owner ≠ did := by
    intro next hnext t ht
    rcases List.mem_cons.mp ht with rfl | ht
    · exact hnext
    · exact htasks t ht
  have hdrop : ∀ r, Function.update s.sockets r none did = none := by
    intro r
    by_cases hr : did = r
    · rw [hr, Function.update_self]
    · rw [Function.update_of_ne hr, hsocket]
  cases hstep with
  | start _ _ => exact ⟨⟨hsocket, htasks⟩, fun _ => by simp⟩
  | send _ _ => exact ⟨⟨hsocket, hcons _ howner⟩, fun _ => by simp⟩
  | @push _ r _ _ _ socket hsock =>
    refine ⟨⟨hsocket, hcons _ howner⟩, fun ms hl => ?_⟩
    cases hl
    simp [hsocket] at hsock
  | pushFails => exact ⟨⟨hdrop _, hcons _ howner⟩, fun _ => by simp⟩
  | pushed => exact ⟨⟨hsocket, hcons _ howner⟩, fun _ => by simp⟩
  | reply => exact ⟨⟨hsocket, htasks⟩, fun ms hl => by cases hl; exact howner rfl⟩
  | fetch _ => exact ⟨⟨hsocket, hcons _ howner⟩, fun _ => by simp⟩
  | answer => exact ⟨⟨hsocket, htasks⟩, fun ms hl => by cases hl; exact howner rfl⟩
  | register =>
    refine ⟨⟨?_, hcons _ howner⟩, fun _ => by simp⟩
    exact (Function.update_of_ne (Ne.symm howner) _ _).trans hsocket
  | drain => exact ⟨⟨hsocket, hcons _ howner⟩, fun _ => by simp⟩
  | catchUp _ => exact ⟨⟨hsocket, hcons _ howner⟩, fun ms hl => by cases hl; exact howner rfl⟩
  | catchUpFails => exact ⟨⟨hdrop _, hcons _ howner⟩, fun _ => by simp⟩
  | stop => exact ⟨⟨hsocket, htasks⟩, fun _ => by simp⟩

theorem directory_of_run {g : Outside} {es : List ChatEv}
    (h : Run (ChatStep P I) (noChat g) es s) :
    ∃ es', Run (TxStep P I) (noDevices g) es' s.directory := by
  induction h with
  | nil => exact ⟨[], .nil⟩
  | snoc _ hstep ih =>
    obtain ⟨es', hrun⟩ := ih
    cases hstep with
    | directory hstep => exact ⟨_, .snoc hrun hstep⟩
    | task htasks hstep => cases hstep <;> exact ⟨es', hrun⟩
    | _ => exact ⟨es', hrun⟩

end Steps

end ManagedDirectory.Rds
