import ManagedDirectory.Lib.Tasks
import ManagedDirectory.Rds.Drops

/-!
# RustDrop: the endpoints, stage by stage

A file goes from one device to another as a row of `filedrop_drops` and a blob of the storage
service. `Task` lists the stages of the requests of `rustdrop.py`: a look-up, what the storage does
with a body, one writing transaction, one deletion. Between two stages of a request everything else
may run (`dropRules`).

The storage is any service that keeps what it is sent, drops what it is told to, and appends a part
only at the length it has (`Stores`); what it answers is open (`Answers`). Times are microseconds;
the `now()` of a transaction is some time up to the moment it takes effect.
-/

namespace ManagedDirectory.RustDrop

open Lib Lib.Tasks List
open Rds (Failure DropStatus dropNotFound)

/-! ## Rows -/

/-- A row of `filedrop_drops`. -/
structure Drop where
  id : Nat
  sender : String
  recipient : String
  declaredSize : Nat
  bytesUploaded : Int
  contentSha256 : Option String
  storageKey : Nat
  status : DropStatus
  updatedAt : Int
  expiresAt : Option Int
  deriving DecidableEq

/-- A row of `filedrop_transfer_events`. -/
structure Transfer where
  dropId : Nat
  sender : String
  recipient : String
  bytes : Int
  deriving DecidableEq

structure Settings where
  maxDropSize : Nat
  ttl : Nat
  stuckUploadBackstop : Nat

structure Store where
  clock : Int
  settings : Settings
  drops : Table Drop Drop.id
  transfers : List Transfer
  blobs : Nat → Option Nat
  /-- The next id; `gen_random_uuid` never gives one twice. -/
  next : Nat

def Store.empty (clock : Int) (settings : Settings) : Store :=
  ⟨clock, settings, .empty _, [], fun _ => none, 0⟩

def fetchDrop (dropId : Nat) (s : Store) : Except Failure Drop :=
  orRefuse (s.drops.find dropId) dropNotFound

/-! ## Requests -/

/-- What a sender sends: `Upload-Offset` and `Content-Length`, where they are there, and the sizes of
the chunks its body arrives in. -/
structure Upload where
  offset : Option Int
  contentLength : Option Int
  chunks : List Nat

inductive Task where
  | upload (self : String) (dropId : Nat) (req : Upload)
  /-- `upload_drop` hands the body on to the storage. -/
  | relay (dropId storageKey limit : Nat) (req : Upload)
  | finish (dropId : Nat) (bytes : Int) (sha256 : Option String)
  | touch (dropId : Nat)
  | markFailed (dropId : Nat)
  | download (self : String) (dropId : Nat) (range : Option String)
  | renewTtl (dropId : Nat)
  | complete (self : String) (dropId : Nat)
  | deliver (dropId : Nat)
  | decline (self : String) (dropId : Nat)
  /-- `decline_drop` deletes the row. -/
  | remove (dropId storageKey : Nat)
  | sweep
  /-- The sweep deletes what it selected: ids and storage keys, with the backstop it read. -/
  | purge (found : List (Nat × Nat)) (backstop : Nat)
  | deleteBlobs (storageKeys : List Nat)

/-! ## Uploads -/

/-- `upload_drop` up to the storage: the storage key and the limit. -/
def uploadDrop (self : String) (dropId : Nat) (s : Store) : Except Failure (Nat × Nat) := do
  let d ← fetchDrop dropId s
  refuseIf (d.sender ≠ self) dropNotFound
  refuseIf (d.status ≠ .uploading)
    (.http 409 ("Drop is not accepting an upload (status=" ++ d.status.text ++ ")"))
  pure (d.storageKey, min d.declaredSize s.settings.maxDropSize)

/-- `_bounded_request_stream` from a running total on: the bytes it yields, and whether it comes to
the end of the body. -/
def boundedRequestStream (limit total : Nat) : List Nat → Nat × Bool
  | [] => (total, true)
  | chunk :: rest =>
    if limit < total + chunk then (total, false) else boundedRequestStream limit (total + chunk) rest

def Upload.sent (req : Upload) (limit : Nat) : Nat := (boundedRequestStream limit 0 req.chunks).1

def Upload.fits (req : Upload) (limit : Nat) : Bool := (boundedRequestStream limit 0 req.chunks).2

def Upload.refused (req : Upload) (limit : Nat) : Bool :=
  req.offset.any fun offset => req.contentLength.any fun length => (limit : Int) < offset + length

/-- What the storage makes of a blob when it is sent up to `sent` bytes. -/
inductive Stores (offset : Option Int) (sent : Nat) (blob : Option Nat) : Option Nat → Prop where
  | kept : Stores offset sent blob blob
  | replaced {n : Nat} (hlegacy : offset = none) (hn : n ≤ sent) : Stores offset sent blob (some n)
  | appended {n : Nat} (hpart : offset = some (blob.getD 0 : Nat)) (hn : n ≤ sent) :
    Stores offset sent blob (some (blob.getD 0 + n))

inductive Answers (dropId limit : Nat) (req : Upload) : Option Task → Prop where
  /-- A part that is refused or fails, or an exception nobody handles. -/
  | nothing : Answers dropId limit req none
  | failed (h : req.offset = none ∨ req.fits limit = true) :
    Answers dropId limit req (some (.markFailed dropId))
  | progress (hpart : req.offset ≠ none) (hfits : req.fits limit = true) :
    Answers dropId limit req (some (.touch dropId))
  | finished {bytes : Int} {sha256 : Option String} (hfits : req.fits limit = true) :
    Answers dropId limit req (some (.finish dropId bytes sha256))

/-! ## Downloads -/

/-- White space of `str.strip`, among the characters of a header. -/
def isBlank (c : Char) : Bool :=
  (9 ≤ c.toNat && c.toNat ≤ 13) || (28 ≤ c.toNat && c.toNat ≤ 32) || c.toNat == 0x85 ||
    c.toNat == 0xA0

def strip (text : List Char) : List Char :=
  ((text.dropWhile isBlank).reverse.dropWhile isBlank).reverse

def isDownloadStart (range : Option String) : Bool :=
  range.all fun text => "bytes=0-".toList.isPrefixOf ((strip text.toList).map Char.toLower)

def downloadDrop (self : String) (dropId : Nat) (s : Store) : Except Failure Drop := do
  let d ← fetchDrop dropId s
  refuseIf (d.recipient ≠ self) dropNotFound
  refuseIf (d.status ≠ .uploading ∧ d.status ≠ .complete)
    (.http 409 ("Drop is not downloadable (status=" ++ d.status.text ++ ")"))
  pure d

/-! ## The end of a drop -/

/-- `complete_drop` up to its update: whether there is one to make. -/
def completeDrop (self : String) (dropId : Nat) (s : Store) : Except Failure Bool := do
  let d ← fetchDrop dropId s
  refuseIf (d.recipient ≠ self) dropNotFound
  if d.status = .delivered then pure false
  else
    refuseIf (d.status ≠ .complete)
      (.http 409 ("Drop cannot be marked delivered (status=" ++ d.status.text ++ ")"))
    pure true

def declineDrop (self : String) (dropId : Nat) (s : Store) : Except Failure Nat := do
  let d ← fetchDrop dropId s
  refuseIf (d.recipient ≠ self) dropNotFound
  pure d.storageKey

def Drop.expired (now : Int) (backstop : Nat) (d : Drop) : Bool :=
  d.expiresAt.any (· < now) ||
    ((d.status == .uploading || d.status == .failed) && d.updatedAt < now - backstop)

def Store.expired (now : Int) (s : Store) : List (Nat × Nat) :=
  (s.drops.rows.filter (Drop.expired now s.settings.stuckUploadBackstop)).map
    fun d => (d.id, d.storageKey)

/-! ## Writes -/

/-- `_renew_ttl`: only of a drop that is complete. -/
def Drop.renewTtl (now : Int) (ttl : Nat) (d : Drop) : Drop :=
  if d.status = .complete then { d with expiresAt := some (now + ttl), updatedAt := now } else d

/-- What the `UPDATE` of a stage assigns. -/
def Task.assign (now : Int) (ttl : Nat) : Task → Drop → Drop
  | .finish _ bytes sha256, d =>
    { d with
      status := .complete, bytesUploaded := bytes, contentSha256 := sha256
      expiresAt := some (now + ttl), updatedAt := now }
  | .touch _, d => { d with updatedAt := now }
  | .markFailed _, d => { d with status := .failed, updatedAt := now }
  | .renewTtl _, d => d.renewTtl now ttl
  | .deliver _, d => { d with status := .delivered, updatedAt := now }
  | _, d => d

def Task.target : Task → Option Nat
  | .finish dropId _ _ => some dropId
  | .touch dropId => some dropId
  | .markFailed dropId => some dropId
  | .renewTtl dropId => some dropId
  | .deliver dropId => some dropId
  | _ => none

section Assign

variable (now : Int) (ttl : Nat) (t : Task) (d : Drop)

theorem renewTtl_fields : d.renewTtl now ttl =
    { d with
      expiresAt := (d.renewTtl now ttl).expiresAt, updatedAt := (d.renewTtl now ttl).updatedAt } := by
  unfold Drop.renewTtl
  split_ifs <;> rfl

theorem assign_id : (t.assign now ttl d).id = d.id := by
  cases t with
  | renewTtl _ => exact (congrArg Drop.id (renewTtl_fields now ttl d) :)
  | _ => rfl

theorem assign_storageKey : (t.assign now ttl d).storageKey = d.storageKey := by
  cases t with
  | renewTtl _ => exact (congrArg Drop.storageKey (renewTtl_fields now ttl d) :)
  | _ => rfl

theorem assign_declaredSize : (t.assign now ttl d).declaredSize = d.declaredSize := by
  cases t with
  | renewTtl _ => exact (congrArg Drop.declaredSize (renewTtl_fields now ttl d) :)
  | _ => rfl

end Assign

def Store.update (dropId : Nat) (now : Int) (t : Task) (s : Store) : Store :=
  { s with drops := s.drops.update (·.id == dropId) (t.assign now s.settings.ttl) (assign_id _ _ _) }

/-- `UPDATE … RETURNING` and the `INSERT` of the transfer, in one transaction. -/
def Store.deliver (d : Drop) (now : Int) (s : Store) : Store :=
  { s.update d.id now (.deliver d.id) with
    transfers := s.transfers ++ [⟨d.id, d.sender, d.recipient, d.bytesUploaded⟩] }

def Store.delete (ids : List Nat) (s : Store) : Store :=
  { s with drops := s.drops.delete fun d => ids.contains d.id }

def Store.deleteBlob (storageKey : Nat) (s : Store) : Store :=
  { s with blobs := Function.update s.blobs storageKey none }

/-! ## The system -/

def Task.isNew : Task → Bool
  | .upload _ _ _ => true
  | .download _ _ _ => true
  | .complete _ _ => true
  | .decline _ _ => true
  | .sweep => true
  | _ => false

def Task.isUpdate : Task → Bool
  | .finish _ _ _ => true
  | .touch _ => true
  | .markFailed _ => true
  | .renewTtl _ => true
  | _ => false

inductive Advances (s : Store) : Task → Store → Option Task → Prop where
  | upload {self : String} {dropId storageKey limit : Nat} {req : Upload}
      (h : uploadDrop self dropId s = .ok (storageKey, limit)) :
    Advances s (.upload self dropId req) s (some (.relay dropId storageKey limit req))
  | relay {dropId storageKey limit : Nat} {req : Upload} {blob : Option Nat} {next : Option Task}
      (hfits : req.refused limit = false)
      (hstores : Stores req.offset (req.sent limit) (s.blobs storageKey) blob)
      (hanswers : Answers dropId limit req next) :
    Advances s (.relay dropId storageKey limit req)
      { s with blobs := Function.update s.blobs storageKey blob } next
  | update {t : Task} {dropId : Nat} {now : Int} (hupdate : t.isUpdate = true)
      (htarget : t.target = some dropId) (hnow : now ≤ s.clock) :
    Advances s t (s.update dropId now t) none
  | download {self : String} {dropId : Nat} {range : Option String} {d : Drop}
      (h : downloadDrop self dropId s = .ok d) :
    Advances s (.download self dropId range) s
      (if isDownloadStart range && d.status == .complete then some (.renewTtl dropId) else none)
  | complete {self : String} {dropId : Nat} (h : completeDrop self dropId s = .ok true) :
    Advances s (.complete self dropId) s (some (.deliver dropId))
  /-- `filedrop_transfer_events` takes no negative size. -/
  | deliver {d : Drop} {dropId : Nat} {now : Int} (hd : s.drops.find dropId = some d)
      (hbytes : 0 ≤ d.bytesUploaded) (hnow : now ≤ s.clock) :
    Advances s (.deliver dropId) (s.deliver d now) none
  | decline {self : String} {dropId storageKey : Nat} (h : declineDrop self dropId s = .ok storageKey) :
    Advances s (.decline self dropId) s (some (.remove dropId storageKey))
  | remove {dropId storageKey : Nat} :
    Advances s (.remove dropId storageKey) (s.delete [dropId]) (some (.deleteBlobs [storageKey]))
  | sweep {now : Int} (hnow : now ≤ s.clock) :
    Advances s .sweep s (some (.purge (s.expired now) s.settings.stuckUploadBackstop))
  | purge {found : List (Nat × Nat)} {backstop : Nat} :
    Advances s (.purge found backstop) (s.delete (found.map Prod.fst))
      (some (.deleteBlobs (found.map Prod.snd)))
  | deleteBlob {storageKey : Nat} {storageKeys : List Nat} :
    Advances s (.deleteBlobs (storageKey :: storageKeys)) (s.deleteBlob storageKey)
      (some (.deleteBlobs storageKeys))
  | deleted : Advances s (.deleteBlobs []) s none
  | stop {t : Task} (h : ∀ storageKeys, t ≠ .deleteBlobs storageKeys) : Advances s t s none

def newDrop (dropId storageKey : Nat) (self recipient : String) (declaredSize : Nat) (now : Int) :
    Drop :=
  ⟨dropId, self, recipient, declaredSize, 0, none, storageKey, .uploading, now, none⟩

def Store.create (self recipient : String) (declaredSize : Nat) (now : Int) (s : Store) : Store :=
  { s with
    drops := s.drops.insert (newDrop s.next (s.next + 1) self recipient declaredSize now)
    next := s.next + 2 }

/-- `create_drop`, for a recipient that is available. -/
def createDrop (self recipient : String) (declaredSize : Nat) (now : Int) (s : Store) :
    Except Failure Store := do
  refuseIf (recipient = self) (.http 400 "Cannot send a drop to yourself")
  refuseIf (s.settings.maxDropSize < declaredSize) (.http 400
    ("declared_size exceeds the current max drop size (" ++ toString s.settings.maxDropSize ++
      " bytes)"))
  pure (s.create self recipient declaredSize now)

inductive Moves (s : Store) : Store → Prop where
  | tick {clock : Int} (h : s.clock ≤ clock) : Moves s { s with clock := clock }
  | configure {settings : Settings} : Moves s { s with settings := settings }
  | create {self recipient : String} {declaredSize : Nat} {now : Int} {s' : Store}
      (hnow : now ≤ s.clock) (h : createDrop self recipient declaredSize now s = .ok s') : Moves s s'

def dropRules : Rules Store Task where
  starts _ t := t.isNew = true
  advances := Advances
  moves := Moves

abbrev DropSys := Sys Store Task

abbrev DropEv := Ev Store Task

def idle (s : Store) : DropSys := ⟨s, []⟩

/-! ## What a step does to a row -/

section Rows

variable {s s' : Store} {t : Task} {rest : Option Task} {d d' : Drop} {dropId : Nat}

variable {now : Int} {storageKey : Nat} {self : String}

theorem find_update (dropId' : Nat) (now : Int) :
    (s.update dropId' now t).drops.find dropId = (s.drops.find dropId).map fun d =>
      if dropId = dropId' then t.assign now s.settings.ttl d else d := by
  rw [Store.update, Table.find_update]
  refine Option.map_congr fun d hd => ?_
  rw [Table.key_of_find hd]
  simp only [beq_iff_eq]

theorem find_delete (ids : List Nat) :
    (s.delete ids).drops.find dropId = if dropId ∈ ids then none else s.drops.find dropId := by
  rw [Store.delete, Table.find_delete]
  cases hd : s.drops.find dropId with
  | none => simp
  | some d => simp [Option.filter_some, Table.key_of_find hd]

theorem row_of_advance (h : Advances s t s' rest) (hd' : s'.drops.find dropId = some d') :
    ∃ d, s.drops.find dropId = some d ∧
      (d' = d ∨ t.target = some dropId ∧ ∃ now ≤ s.clock, d' = t.assign now s.settings.ttl d) := by
  have hwritten : ∀ {k now}, t.target = some k → now ≤ s.clock →
      (s.drops.find dropId).map (fun d => if dropId = k then t.assign now s.settings.ttl d else d) =
        some d' →
      ∃ d, s.drops.find dropId = some d ∧
        (d' = d ∨ t.target = some dropId ∧ ∃ now ≤ s.clock, d' = t.assign now s.settings.ttl d) := by
    intro k now htarget hnow hmap
    obtain ⟨d, hd, rfl⟩ := Option.map_eq_some_iff.mp hmap
    refine ⟨d, hd, ?_⟩
    split_ifs with hk
    · exact .inr ⟨hk ▸ htarget, now, hnow, rfl⟩
    · exact .inl rfl
  have hkept : ∀ {ids}, (s.delete ids).drops.find dropId = some d' →
      ∃ d, s.drops.find dropId = some d ∧
        (d' = d ∨ t.target = some dropId ∧ ∃ now ≤ s.clock, d' = t.assign now s.settings.ttl d) := by
    intro ids hfind
    rw [find_delete] at hfind
    split_ifs at hfind
    exact ⟨d', hfind, .inl rfl⟩
  cases h with
  | update hupdate htarget hnow =>
    rw [find_update] at hd'
    exact hwritten htarget hnow hd'
  | @deliver d k now hd hbytes hnow =>
    obtain rfl := Table.key_of_find hd
    exact hwritten rfl hnow (find_update d.id now ▸ hd')
  | remove => exact hkept hd'
  | purge => exact hkept hd'
  | _ => exact ⟨d', hd', .inl rfl⟩

theorem find_none_of_advance (h : Advances s t s' rest) (hnone : s.drops.find dropId = none) :
    s'.drops.find dropId = none := by
  cases hd' : s'.drops.find dropId with
  | none => rfl
  | some d' =>
    obtain ⟨d, hd, -⟩ := row_of_advance h hd'
    rw [hnone] at hd
    cases hd

theorem createDrop_ok {recipient : String} {declaredSize : Nat}
    (h : createDrop self recipient declaredSize now s = .ok s') :
    declaredSize ≤ s.settings.maxDropSize ∧ s' = s.create self recipient declaredSize now := by
  simp only [createDrop, bind_ok_iff, refuseIf_eq_ok, exists_unit, pure_ok_iff] at h
  exact ⟨Nat.not_lt.mp h.2.1, h.2.2.symm⟩

theorem find_create {recipient : String} {declaredSize : Nat} :
    (s.create self recipient declaredSize now).drops.find dropId =
      if s.next = dropId ∧ s.drops.find dropId = none then
        some (newDrop s.next (s.next + 1) self recipient declaredSize now)
      else s.drops.find dropId :=
  Table.find_insert

theorem row_of_move (h : Moves s s') (hd' : s'.drops.find dropId = some d') :
    s.drops.find dropId = some d' ∨ dropId = s.next ∧ s.drops.find dropId = none ∧
      ∃ self recipient declaredSize now, s' = s.create self recipient declaredSize now ∧
        d' = newDrop s.next (s.next + 1) self recipient declaredSize now := by
  cases h with
  | tick _ => exact .inl hd'
  | configure => exact .inl hd'
  | create hnow h =>
    obtain ⟨-, rfl⟩ := createDrop_ok h
    rw [find_create] at hd'
    split_ifs at hd' with hnew
    · cases hd'
      exact .inr ⟨hnew.1.symm, hnew.2, _, _, _, _, rfl, rfl⟩
    · exact .inl hd'

/-! ## Ids -/

def Task.about : Task → List Nat
  | .relay dropId _ _ _ => [dropId]
  | .finish dropId _ _ => [dropId]
  | .touch dropId => [dropId]
  | .markFailed dropId => [dropId]
  | .renewTtl dropId => [dropId]
  | .deliver dropId => [dropId]
  | .remove dropId _ => [dropId]
  | .purge found _ => found.map Prod.fst
  | _ => []

theorem next_of_advance (h : Advances s t s' rest) : s'.next = s.next := by
  cases h <;> rfl

theorem next_of_move (h : Moves s s') : s.next ≤ s'.next := by
  cases h with
  | tick _ => exact le_rfl
  | configure => exact le_rfl
  | create hnow h =>
    obtain ⟨-, rfl⟩ := createDrop_ok h
    exact Nat.le_add_right _ _

theorem fetchDrop_ok (h : fetchDrop dropId s = .ok d) : s.drops.find dropId = some d := by
  simpa [fetchDrop] using h

theorem uploadDrop_ok {limit : Nat} (h : uploadDrop self dropId s = .ok (storageKey, limit)) :
    ∃ d, s.drops.find dropId = some d ∧ d.status = .uploading ∧ d.storageKey = storageKey ∧
      limit = min d.declaredSize s.settings.maxDropSize := by
  simp only [uploadDrop, bind_ok_iff, refuseIf_eq_ok, exists_unit, pure_ok_iff, not_not] at h
  obtain ⟨d, hd, -, hstatus, heq⟩ := h
  cases heq
  exact ⟨d, fetchDrop_ok hd, hstatus, rfl, rfl⟩

theorem downloadDrop_ok (h : downloadDrop self dropId s = .ok d) :
    s.drops.find dropId = some d := by
  simp only [downloadDrop, bind_ok_iff, refuseIf_eq_ok, exists_unit, pure_ok_iff] at h
  obtain ⟨d', hd, -, -, rfl⟩ := h
  exact fetchDrop_ok hd

theorem completeDrop_ok (h : completeDrop self dropId s = .ok true) :
    ∃ d, s.drops.find dropId = some d ∧ d.status = .complete := by
  simp only [completeDrop, bind_ok_iff, refuseIf_eq_ok, exists_unit] at h
  obtain ⟨d, hd, -, h⟩ := h
  split_ifs at h with hdelivered
  · cases h
  · simp only [bind_ok_iff, refuseIf_eq_ok, exists_unit, not_not] at h
    exact ⟨d, fetchDrop_ok hd, h.1⟩

theorem declineDrop_ok (h : declineDrop self dropId s = .ok storageKey) :
    ∃ d, s.drops.find dropId = some d ∧ d.storageKey = storageKey := by
  simp only [declineDrop, bind_ok_iff, refuseIf_eq_ok, exists_unit, pure_ok_iff] at h
  obtain ⟨d, hd, -, hkey⟩ := h
  exact ⟨d, fetchDrop_ok hd, hkey⟩

theorem mem_expired (h : (dropId, storageKey) ∈ s.expired now) :
    ∃ d, s.drops.find dropId = some d ∧ d.storageKey = storageKey ∧
      d.expired now s.settings.stuckUploadBackstop = true := by
  obtain ⟨d, hd, heq⟩ := mem_map.mp h
  obtain ⟨hmem, hexpired⟩ := mem_filter.mp hd
  cases heq
  exact ⟨d, Table.find_key_iff_mem.mpr hmem, rfl, hexpired⟩

/-- A row has an id that was given out, and the storage key that came with it. -/
structure Known (s : Store) : Prop where
  rows : ∀ dropId d, s.drops.find dropId = some d →
    dropId + 1 < s.next ∧ d.storageKey = dropId + 1

theorem known_of_advance (hs : Known s) (h : Advances s t s' rest) : Known s' := by
  refine ⟨fun k d' hd' => ?_⟩
  rw [next_of_advance h]
  obtain ⟨d, hd, rfl | ⟨-, now, -, rfl⟩⟩ := row_of_advance h hd'
  · exact hs.rows k _ hd
  · rw [assign_storageKey]
    exact hs.rows k d hd

theorem known_of_move (hs : Known s) (h : Moves s s') : Known s' := by
  refine ⟨fun k d' hd' => ?_⟩
  rcases row_of_move h hd' with hd | ⟨rfl, -, self, recipient, declaredSize, now, rfl, rfl⟩
  · have hnext := next_of_move h
    have hrow := hs.rows k d' hd
    exact ⟨by omega, hrow.2⟩
  · simp [Store.create, newDrop]

theorem about_of_advance (hs : Known s) (h : Advances s t s' rest) (ht : ∀ k ∈ t.about, k < s.next) :
    ∀ r, rest = some r → ∀ k ∈ r.about, k < s'.next := by
  have hrow : ∀ {k d}, s.drops.find k = some d → k < s.next :=
    fun hd => (Nat.lt_succ_self _).trans (hs.rows _ _ hd).1
  intro r hr k hk
  cases h with
  | upload h =>
    cases hr
    obtain ⟨d, hd, -⟩ := uploadDrop_ok h
    exact mem_singleton.mp hk ▸ hrow hd
  | relay hfits hstores hanswers =>
    subst hr
    cases hanswers <;> exact ht k hk
  | download h =>
    split_ifs at hr
    cases hr
    exact mem_singleton.mp hk ▸ hrow (downloadDrop_ok h)
  | complete h =>
    cases hr
    obtain ⟨d, hd, -⟩ := completeDrop_ok h
    exact mem_singleton.mp hk ▸ hrow hd
  | decline h =>
    cases hr
    obtain ⟨d, hd, -⟩ := declineDrop_ok h
    exact mem_singleton.mp hk ▸ hrow hd
  | sweep hnow =>
    cases hr
    obtain ⟨⟨k', key⟩, hmem, rfl⟩ := mem_map.mp hk
    obtain ⟨d, hd, -⟩ := mem_expired hmem
    exact hrow hd
  | remove | purge | deleteBlob =>
    cases hr
    cases hk
  | update | deliver | deleted | stop => cases hr

end Rows

/-! ## A small file -/

def sampleSettings : Settings := ⟨10, 5, 7⟩

def sampleDrop (status : DropStatus) (bytes : Int) (sha256 : Option String) (updatedAt : Int)
    (expiresAt : Option Int) : Drop :=
  ⟨0, "a", "b", 4, bytes, sha256, 1, status, updatedAt, expiresAt⟩

def sampleStore (clock : Int) (d : Drop) (transfers : List Transfer) (blobs : Nat → Option Nat) :
    Store :=
  ⟨clock, sampleSettings, ⟨[d], nodup_singleton _⟩, transfers, blobs, 2⟩

def sampleUpload (n : Nat) : Upload := ⟨none, some n, [n]⟩

abbrev sampleEmpty : DropSys := idle (.empty 0 sampleSettings)

abbrev sampleNew : Drop := sampleDrop .uploading 0 none 0 none

/-- An event beside at most `n` tasks, under the settings above, that brings in no part. -/
structure Sampled (n : Nat) (e : DropEv) : Prop where
  alone : e.before.tasks.length ≤ n
  settings : e.before.shared.settings = sampleSettings ∧ e.after.shared.settings = sampleSettings
  whole : ∀ self k req, e.label = .start (.upload self k req) → req.offset = none

section Samples

variable {C : DropEv → Prop} {s₀ : DropSys} {ts : List Task} {blobs : Nat → Option Nat}

abbrev sampleComplete : Drop := sampleDrop .complete 4 (some "four") 0 (some 5)

abbrev sampleDelivered : Drop := sampleDrop .delivered 4 (some "four") 0 (some 5)

abbrev sampleTransfer : Transfer := ⟨0, "a", "b", 4⟩

abbrev sampleBlobs (n : Nat) : Nat → Option Nat := Function.update (fun _ => none) 1 (some n)

theorem createDrop_sample : createDrop "a" "b" 4 0 (.empty 0 sampleSettings) =
    .ok (sampleStore 0 sampleNew [] fun _ => none) := rfl

theorem reaches_created (hC : ∀ e, Sampled 1 e → C e) :
    Reaches dropRules C sampleEmpty ⟨sampleStore 0 sampleNew [] fun _ => none, []⟩ :=
  (Reaches.refl _).move (Moves.create le_rfl createDrop_sample)
    (hC _ ⟨Nat.zero_le _, ⟨rfl, rfl⟩, by rintro _ _ _ ⟨⟩⟩)

theorem uploadDrop_sample : uploadDrop "a" 0 (sampleStore 0 sampleNew [] blobs) = .ok (1, 4) := rfl

theorem reaches_relay (h : Reaches dropRules C s₀ ⟨sampleStore 0 sampleNew [] blobs, ts⟩)
    {req : Upload} (hwhole : req.offset = none) (hC : ∀ e, Sampled (ts.length + 1) e → C e) :
    Reaches dropRules C s₀ ⟨sampleStore 0 sampleNew [] blobs, .relay 0 1 4 req :: ts⟩ := by
  have hasked := h.start (t := Task.upload "a" 0 req) rfl
    (hC _ ⟨Nat.le_succ _, ⟨rfl, rfl⟩, by rintro _ _ _ ⟨⟩; exact hwhole⟩)
  exact hasked.first (Advances.upload uploadDrop_sample)
    (hC _ ⟨le_rfl, ⟨rfl, rfl⟩, by rintro _ _ _ ⟨⟩⟩)

theorem answers_sample : Answers 0 4 (sampleUpload 4) (some (.finish 0 4 (some "four"))) :=
  .finished rfl

theorem reaches_finish
    (h : Reaches dropRules C s₀
      ⟨sampleStore 0 sampleNew [] fun _ => none, .relay 0 1 4 (sampleUpload 4) :: ts⟩)
    (hC : ∀ e, Sampled (ts.length + 1) e → C e) :
    Reaches dropRules C s₀
      ⟨sampleStore 0 sampleNew [] (sampleBlobs 4), .finish 0 4 (some "four") :: ts⟩ :=
  h.first (Advances.relay rfl (.replaced rfl le_rfl) answers_sample)
    (hC _ ⟨le_rfl, ⟨rfl, rfl⟩, by rintro _ _ _ ⟨⟩⟩)

theorem reaches_complete
    (h : Reaches dropRules C s₀
      ⟨sampleStore 0 sampleNew [] fun _ => none, .relay 0 1 4 (sampleUpload 4) :: ts⟩)
    (hC : ∀ e, Sampled (ts.length + 1) e → C e) :
    Reaches dropRules C s₀ ⟨sampleStore 0 sampleComplete [] (sampleBlobs 4), ts⟩ :=
  (reaches_finish h hC).first (Advances.update rfl rfl le_rfl)
    (hC _ ⟨le_rfl, ⟨rfl, rfl⟩, by rintro _ _ _ ⟨⟩⟩)

theorem completeDrop_sample :
    completeDrop "b" 0 (sampleStore 0 sampleComplete [] blobs) = .ok true := rfl

theorem reaches_delivered (h : Reaches dropRules C s₀ ⟨sampleStore 0 sampleComplete [] blobs, ts⟩)
    (hC : ∀ e, Sampled (ts.length + 1) e → C e) :
    Reaches dropRules C s₀ ⟨sampleStore 0 sampleDelivered [sampleTransfer] blobs, ts⟩ := by
  have hasked := h.start (t := Task.complete "b" 0) rfl
    (hC _ ⟨Nat.le_succ _, ⟨rfl, rfl⟩, by rintro _ _ _ ⟨⟩⟩)
  have hfound := hasked.first (Advances.complete completeDrop_sample)
    (hC _ ⟨le_rfl, ⟨rfl, rfl⟩, by rintro _ _ _ ⟨⟩⟩)
  exact hfound.first (Advances.deliver rfl (by decide) le_rfl)
    (hC _ ⟨le_rfl, ⟨rfl, rfl⟩, by rintro _ _ _ ⟨⟩⟩)

end Samples

end ManagedDirectory.RustDrop
