import ManagedDirectory.Lib.Tasks
import ManagedDirectory.Sealed.Gate

/-!
# Inspected networks under concurrent requests

The entries of `inspection_networks` with the transactions that read and write them: a gate looks up
the address (`lookUp`) and then notes the report in the entry it found, or inserts one for the
address alone; `decide_network` takes an entry `FOR UPDATE`, deletes pending entries inside the block
(`collect`, `purge`) and commits; `_classify_and_alert` and `forget_network` are one statement each.
A statement sees what is committed when it starts; a row that a decision has locked waits for it.

An entry for a single address wins over the block around it. `slipped_in`: a gate that found nothing
before the block was denied inserts a pending entry into it afterwards. Where no such gate is in
flight at the commit, and no other pending entry is left inside the block, the block is denied until
somebody decides otherwise (`deny_netblock`).
-/

namespace ManagedDirectory.Sealed

open Lib Lib.Tasks List

/-! ## Blocks -/

def Cidr.width (n : Cidr) : Nat := if n.v6 then 128 else 32

/-- No bit after the mask is set, as PostgreSQL's `cidr` demands. -/
structure Cidr.IsValid (n : Cidr) : Prop where
  masklen : n.masklen ≤ n.width
  host : n.network % 2 ^ (n.width - n.masklen) = 0

/-- PostgreSQL's `n << block`. -/
def Cidr.within (n block : Cidr) : Bool :=
  n.v6 == block.v6 && block.masklen < n.masklen &&
    n.network / 2 ^ (block.width - block.masklen) == block.network / 2 ^ (block.width - block.masklen)

section Blocks

variable {n block : Cidr} {a : Address}

theorem contains_iff : n.contains a = true ↔ n.v6 = a.v6 ∧ n.masklen ≤ n.width ∧
    n.network / 2 ^ (n.width - n.masklen) = a.value / 2 ^ (n.width - n.masklen) := by
  simp only [Cidr.contains, Bool.and_eq_true, beq_iff_eq, decide_eq_true_eq, and_assoc]
  refine and_congr_right fun hv6 => ?_
  rw [show a.width = n.width by rw [Address.width, Cidr.width, hv6]]

theorem within_of_contains (hn : n.contains a = true) (hblock : block.contains a = true)
    (hlt : block.masklen < n.masklen) : n.within block = true := by
  obtain ⟨hv6, hle, hbits⟩ := contains_iff.mp hn
  obtain ⟨hv6', -, hbits'⟩ := contains_iff.mp hblock
  have hwidth : n.width = block.width := by rw [Cidr.width, Cidr.width, hv6, hv6']
  simp only [Cidr.within, Bool.and_eq_true, beq_iff_eq, decide_eq_true_eq]
  refine ⟨⟨hv6.trans hv6'.symm, hlt⟩, ?_⟩
  have hsplit : block.width - block.masklen =
      (n.width - n.masklen) + (n.masklen - block.masklen) := by omega
  rw [hbits', hsplit, pow_add, ← Nat.div_div_eq_div_mul, ← Nat.div_div_eq_div_mul, hbits]

theorem eq_of_contains (hn : n.contains a = true) (hblock : block.contains a = true)
    (hvalid : n.IsValid) (hvalid' : block.IsValid) (heq : n.masklen = block.masklen) :
    n = block := by
  obtain ⟨hv6, -, hbits⟩ := contains_iff.mp hn
  obtain ⟨hv6', -, hbits'⟩ := contains_iff.mp hblock
  have hwidth : n.width = block.width := by rw [Cidr.width, Cidr.width, hv6, hv6']
  have hnetwork : n.network = block.network := by
    rw [← Nat.div_add_mod n.network (2 ^ (n.width - n.masklen)), hvalid.host, hbits,
      ← Nat.div_add_mod block.network (2 ^ (block.width - block.masklen)), hvalid'.host, hbits',
      hwidth, heq]
  obtain ⟨v6, network, masklen⟩ := n
  obtain ⟨v6', network', masklen'⟩ := block
  exact Cidr.mk.injEq .. ▸ ⟨hv6.trans hv6'.symm, hnetwork, heq⟩

theorem single_valid : a.single.IsValid :=
  ⟨le_rfl, by rw [show a.single.width - a.single.masklen = 0 from Nat.sub_self _]; exact Nat.mod_one _⟩

theorem contains_of_single (h : a.single.within block = true) (hvalid : block.IsValid) :
    block.contains a = true := by
  simp only [Cidr.within, Bool.and_eq_true, beq_iff_eq] at h
  exact contains_iff.mpr ⟨h.1.1.symm, hvalid.masklen, h.2.symm⟩

end Blocks

/-! ## Entries -/

/-- A row of `inspection_networks` with the block it is registered in, once that is known. -/
structure Entry extends Network where
  rdapNetblock : Option Cidr

structure Networks where
  entries : Table Entry fun e => e.id
  locks : List String

def Networks.empty : Networks := ⟨.empty _, []⟩

def Networks.lookUp (s : Networks) (a : Address) : Option Entry :=
  mostSpecific (·.cidr) s.entries.rows a

inductive Verdict where
  | approve
  | deny
  | reset
  deriving DecidableEq, Repr

def Verdict.status : Verdict → NetworkStatus
  | .approve => .approved
  | .deny => .denied
  | .reset => .pending

inductive Scope where
  | address
  | netblock
  deriving DecidableEq, Repr

/-- The stages of the requests. `counted` says that the gate has accepted no device and counts a
bootstrap request. -/
inductive NetworkTask where
  | lookUp (q : Query) (counted : Bool) (a : Address)
  | insert (q : Query) (counted : Bool) (a : Address)
  | note (q : Query) (counted : Bool) (e : Entry)
  | classify (id : String)
  | decide (id : String) (verdict : Verdict) (scope : Scope)
  /-- The entry is locked; the pending ones inside the block are about to be deleted. -/
  | collect (id : String) (verdict : Verdict) (block : Cidr)
  /-- `todo` are still to be locked and looked at again, `gone` are deleted. -/
  | purge (id : String) (verdict : Verdict) (scope : Scope) (cidr : Cidr) (todo gone : List String)
  | decided (verdict : Verdict) (scope : Scope) (cidr : Cidr)
  | forget (id : String)
  | forgotten

namespace NetworkTask

/-- The rows a decision keeps locked until it is committed or rolled back. -/
def held : NetworkTask → List String
  | .collect id _ _ => [id]
  | .purge id _ _ _ _ gone => id :: gone
  | _ => []

def isNew : NetworkTask → Bool
  | .lookUp .. => true
  | .classify _ => true
  | .decide .. => true
  | .forget _ => true
  | _ => false

end NetworkTask

/-! ## Writes -/

namespace Entry

/-- The gate's `UPDATE` of the entry it found. -/
def note (info : Info) (now : Int) (e : Entry) : Entry :=
  { e with toNetwork := e.toNetwork.note info now }

/-- `ON CONFLICT (cidr) DO UPDATE SET last_seen_at = now()`. -/
def seen (now : Int) (e : Entry) : Entry := { e with lastSeenAt := now }

def count (counted : Bool) (e : Entry) : Entry :=
  { e with toNetwork := if counted then e.toNetwork.countBootstrap else e.toNetwork }

/-- The `UPDATE` of `_classify_and_alert`. -/
def classify (auto : Bool) (netblock : Option Cidr) (country : Option Codec.Text) (e : Entry) :
    Entry :=
  { e with
    rdapNetblock := netblock
    country := country.or e.country
    status := if auto && e.status == .pending then .approved else e.status }

/-- The `UPDATE` of `decide_network`. -/
def decided (status : NetworkStatus) (cidr : Cidr) (e : Entry) : Entry :=
  { e with status := status, cidr := cidr }

end Entry

namespace Networks

def update (s : Networks) (id : String) (f : Entry → Entry) (hf : ∀ e, (f e).id = e.id) : Networks :=
  { s with entries := s.entries.update (fun e => decide (e.id = id)) f hf }

def lock (s : Networks) (id : String) : Networks := { s with locks := id :: s.locks }

def release (s : Networks) (ids : List String) : Networks :=
  { s with locks := s.locks.filter (· ∉ ids) }

def delete (s : Networks) (ids : List String) : Networks :=
  { s with entries := s.entries.delete fun e => decide (e.id ∈ ids) }

def insert (s : Networks) (newId : String) (q : Query) (a : Address) (now : Int) : Networks :=
  { s with entries := s.entries.insert ⟨newNetwork newId q a now, none⟩ }

def isInside (block : Cidr) (id : String) (e : Entry) : Bool :=
  e.cidr.within block && decide (e.id ≠ id) && e.status == .pending

/-- `DELETE … WHERE cidr << block AND id <> … AND status = 'pending'`: its candidates. -/
def inside (s : Networks) (block : Cidr) (id : String) : List String :=
  (s.entries.rows.filter (isInside block id)).map (·.id)

def stillInside (s : Networks) (block : Cidr) (id k : String) : Bool :=
  (s.entries.find k).any (isInside block id)

theorem entries_release {s : Networks} {ids : List String} :
    (s.release ids).entries = s.entries := rfl

end Networks

section Ids

variable {e : Entry}

theorem count_id {counted : Bool} : (e.count counted).id = e.id := by
  cases counted <;> rfl

theorem classify_id {auto : Bool} {netblock : Option Cidr} {country : Option Codec.Text} :
    (e.classify auto netblock country).id = e.id := rfl

theorem decided_id {status : NetworkStatus} {cidr : Cidr} : (e.decided status cidr).id = e.id := rfl

end Ids

/-- The commit of `decide_network`. -/
def Networks.decide (s : Networks) (id : String) (status : NetworkStatus) (cidr : Cidr)
    (gone : List String) : Networks :=
  ((s.delete gone).update id (Entry.decided status cidr) fun _ => decided_id).release (id :: gone)

/-! ## Requests -/

inductive NetworkStep (s : Networks) : NetworkTask → Networks → Option NetworkTask → Prop where
  | absent {q : Query} {counted : Bool} {a : Address} (h : s.lookUp a = none) :
    NetworkStep s (.lookUp q counted a) s (some (.insert q counted a))
  | present {q : Query} {counted : Bool} {a : Address} {e : Entry} (h : s.lookUp a = some e) :
    NetworkStep s (.lookUp q counted a) s (some (.note q counted e))
  | insert {q : Query} {counted : Bool} {a : Address} {newId : String} {now : Int}
      (hid : s.entries.find newId = none) (h : ∀ e ∈ s.entries.rows, e.cidr ≠ a.single) :
    NetworkStep s (.insert q counted a)
      ((s.insert newId q a now).update newId (Entry.count counted) fun _ => count_id) none
  | conflict {q : Query} {counted : Bool} {a : Address} {e : Entry} {now : Int}
      (he : e ∈ s.entries.rows) (h : e.cidr = a.single) (hlock : e.id ∉ s.locks) :
    NetworkStep s (.insert q counted a)
      (s.update e.id (fun e => (e.seen now).count counted) fun _ => count_id) none
  | note {q : Query} {counted : Bool} {e : Entry} {now : Int} (hlock : e.id ∉ s.locks) :
    NetworkStep s (.note q counted e)
      (s.update e.id (fun e => (e.note q.info now).count counted) fun _ => count_id) none
  | classify {id : String} {auto : Bool} {netblock : Option Cidr} {country : Option Codec.Text}
      (hlock : id ∉ s.locks) (h : ∀ block, netblock = some block → block.IsValid) :
    NetworkStep s (.classify id) (s.update id (Entry.classify auto netblock country) fun _ => classify_id)
      none
  | decideAddress {id : String} {verdict : Verdict} {e : Entry} (hlock : id ∉ s.locks)
      (h : s.entries.find id = some e) :
    NetworkStep s (.decide id verdict .address) (s.lock id)
      (some (.purge id verdict .address e.cidr [] []))
  | decideNetblock {id : String} {verdict : Verdict} {e : Entry} {block : Cidr}
      (hlock : id ∉ s.locks) (h : s.entries.find id = some e) (hblock : e.rdapNetblock = some block) :
    NetworkStep s (.decide id verdict .netblock) (s.lock id) (some (.collect id verdict block))
  | collect {id : String} {verdict : Verdict} {block : Cidr} :
    NetworkStep s (.collect id verdict block) s
      (some (.purge id verdict .netblock block (s.inside block id) []))
  | purge {id : String} {verdict : Verdict} {scope : Scope} {cidr : Cidr} {k : String}
      {todo gone : List String} (hlock : k ∉ s.locks) (h : s.stillInside cidr id k = true) :
    NetworkStep s (.purge id verdict scope cidr (k :: todo) gone) (s.lock k)
      (some (.purge id verdict scope cidr todo (k :: gone)))
  | skip {id : String} {verdict : Verdict} {scope : Scope} {cidr : Cidr} {k : String}
      {todo gone : List String} (hlock : k ∉ s.locks) (h : s.stillInside cidr id k = false) :
    NetworkStep s (.purge id verdict scope cidr (k :: todo) gone) s
      (some (.purge id verdict scope cidr todo gone))
  | commit {id : String} {verdict : Verdict} {scope : Scope} {cidr : Cidr} {gone : List String}
      (h : ∀ e ∈ s.entries.rows, e.cidr = cidr → e.id = id) :
    NetworkStep s (.purge id verdict scope cidr [] gone) (s.decide id verdict.status cidr gone)
      (some (.decided verdict scope cidr))
  | decided {verdict : Verdict} {scope : Scope} {cidr : Cidr} :
    NetworkStep s (.decided verdict scope cidr) s none
  | forget {id : String} (hlock : id ∉ s.locks) :
    NetworkStep s (.forget id) (s.delete [id]) (some .forgotten)
  | forgotten : NetworkStep s .forgotten s none
  | stop {t : NetworkTask} : NetworkStep s t (s.release t.held) none

def networkRules : Rules Networks NetworkTask where
  starts _ t := t.isNew = true
  advances := NetworkStep
  moves _ _ := False

abbrev NetworkSys := Sys Networks NetworkTask

abbrev NetworkEv := Ev Networks NetworkTask

abbrev NetworkRun (es : List NetworkEv) (s : NetworkSys) : Prop :=
  Run (Step networkRules) ⟨.empty, []⟩ es s

theorem networkLocking : Locking networkRules NetworkTask.held Networks.locks where
  start {_ t} h := by cases t <;> first | rfl | cases h
  takes {a t b r} h hown k hk := by
    generalize hrest : some r = rest at h
    cases h with
    | decideAddress hlock | decideNetblock hlock =>
      cases hrest
      obtain rfl := mem_singleton.mp hk
      exact ⟨mem_cons_self, .inr hlock⟩
    | collect | skip =>
      cases hrest
      exact ⟨hown k hk, .inl hk⟩
    | @purge id verdict scope cidr k' todo gone hlock h =>
      cases hrest
      change k ∈ id :: k' :: gone at hk
      by_cases hk' : k = k'
      · subst hk'
        exact ⟨mem_cons_self, .inr hlock⟩
      · have hheld : k ∈ id :: gone := by
          simp only [mem_cons, hk', false_or] at hk ⊢
          exact hk
        exact ⟨mem_cons_of_mem _ (hown k hheld), .inl hheld⟩
    | _ => cases hrest <;> cases hk
  keeps {a t b rest} h k hk hfree := by
    cases h with
    | decideAddress | decideNetblock | purge => exact mem_cons_of_mem _ hk
    | commit | stop => exact mem_filter.mpr ⟨hk, decide_eq_true hfree⟩
    | _ => exact hk
  move h := h.elim

/-! ## What a step changes -/

/-- A row that no decision was about: it may have been approved automatically. -/
structure Kept (e e' : Entry) : Prop where
  cidr : e'.cidr = e.cidr
  status : e'.status = e.status ∨ e.status = .pending ∧ e'.status = .approved
  netblock : e'.rdapNetblock = e.rdapNetblock ∨ ∀ block, e'.rdapNetblock = some block → block.IsValid

theorem Kept.refl (e : Entry) : Kept e e := ⟨rfl, .inl rfl, .inl rfl⟩

inductive Change (s : Networks) : NetworkTask → Networks → Option NetworkTask → Prop where
  | quiet {t : NetworkTask} {s' : Networks} {rest : Option NetworkTask}
      (h : ∀ k, Option.Rel Kept (s.entries.find k) (s'.entries.find k)) : Change s t s' rest
  | inserted {q : Query} {counted : Bool} {a : Address} {s' : Networks} (e' : Entry)
      (hnew : s.entries.find e'.id = none) (hfree : ∀ e ∈ s.entries.rows, e.cidr ≠ a.single)
      (he' : e'.cidr = a.single ∧ e'.status = .pending ∧ e'.rdapNetblock = none)
      (h : ∀ k, s'.entries.find k = if k = e'.id then some e' else s.entries.find k) :
    Change s (.insert q counted a) s' none
  | decided {id : String} {verdict : Verdict} {scope : Scope} {cidr : Cidr} {gone : List String}
      {s' : Networks} (hfree : ∀ e ∈ s.entries.rows, e.cidr = cidr → e.id = id)
      (h : ∀ k, s'.entries.find k = if k ∈ gone then none else
        (s.entries.find k).map fun e => if k = id then e.decided verdict.status cidr else e) :
    Change s (.purge id verdict scope cidr [] gone) s' (some (.decided verdict scope cidr))
  | forgotten {id : String} {s' : Networks} (hlock : id ∉ s.locks)
      (h : ∀ k, s'.entries.find k = if k = id then none else s.entries.find k) :
    Change s (.forget id) s' (some .forgotten)

section Changes

variable {s s' : Networks} {t : NetworkTask} {rest : Option NetworkTask} {id k : String}

theorem rel_refl (row : Option Entry) : Option.Rel Kept row row := by
  cases row with
  | none => exact .none
  | some e => exact .some (.refl e)

theorem kept_of_rel {row row' : Option Entry} {e : Entry} (h : Option.Rel Kept row row')
    (he : row = some e) : ∃ e', row' = some e' ∧ Kept e e' := by
  subst he
  cases h with
  | some hkept => exact ⟨_, rfl, hkept⟩

theorem kept_of_rel' {row row' : Option Entry} {e' : Entry} (h : Option.Rel Kept row row')
    (he' : row' = some e') : ∃ e, row = some e ∧ Kept e e' := by
  subst he'
  cases h with
  | some hkept => exact ⟨_, rfl, hkept⟩

theorem find_update {f : Entry → Entry} {hf : ∀ e, (f e).id = e.id} :
    (s.update id f hf).entries.find k =
      (s.entries.find k).map fun e => if k = id then f e else e := by
  unfold Networks.update
  rw [Table.find_update]
  cases hrow : s.entries.find k with
  | none => rfl
  | some e => simp [Table.key_of_find hrow]

theorem find_delete {ids : List String} :
    (s.delete ids).entries.find k = if k ∈ ids then none else s.entries.find k := by
  unfold Networks.delete
  rw [Table.find_delete]
  cases hrow : s.entries.find k with
  | none => simp
  | some e => by_cases hk : k ∈ ids <;> simp [Table.key_of_find hrow, hk]

theorem find_decide {status : NetworkStatus} {cidr : Cidr} {gone : List String} :
    (s.decide id status cidr gone).entries.find k = if k ∈ gone then none else
      (s.entries.find k).map fun e => if k = id then e.decided status cidr else e := by
  unfold Networks.decide
  rw [Networks.entries_release, find_update, find_delete]
  by_cases hk : k ∈ gone <;> simp [hk]

theorem rel_update {f : Entry → Entry} {hf : ∀ e, (f e).id = e.id} (h : ∀ e, Kept e (f e)) :
    Option.Rel Kept (s.entries.find k) ((s.update id f hf).entries.find k) := by
  rw [find_update]
  cases s.entries.find k with
  | none => exact .none
  | some e =>
    refine .some ?_
    split_ifs
    · exact h e
    · exact .refl e

theorem kept_count {counted : Bool} {e e' : Entry} (h : Kept e e') : Kept e (e'.count counted) := by
  cases counted with
  | false => exact ⟨h.cidr, h.status, h.netblock⟩
  | true => exact ⟨h.cidr, h.status, h.netblock⟩

theorem kept_classify {auto : Bool} {netblock : Option Cidr} {country : Option Codec.Text}
    (h : ∀ block, netblock = some block → block.IsValid) (e : Entry) :
    Kept e (e.classify auto netblock country) := by
  refine ⟨rfl, ?_, .inr h⟩
  simp only [Entry.classify, Bool.and_eq_true, beq_iff_eq]
  split_ifs with hauto
  · exact .inr ⟨hauto.2, rfl⟩
  · exact .inl rfl

theorem change_of_step (h : NetworkStep s t s' rest) : Change s t s' rest := by
  cases h with
  | @insert q counted a newId now hid h =>
    refine .inserted ((Entry.mk (newNetwork newId q a now) none).count counted) ?_ h ?_ fun k => ?_
    · rw [count_id]
      exact hid
    · cases counted <;> exact ⟨rfl, rfl, rfl⟩
    · rw [find_update, count_id, Networks.insert, Table.find_insert]
      change _ = if k = newId then _ else _
      by_cases hk : k = newId
      · subst hk
        simp [hid, newNetwork]
      · simp [hk, newNetwork, Ne.symm hk]
  | conflict he h hlock => exact .quiet fun k => rel_update fun e => kept_count ⟨rfl, .inl rfl, .inl rfl⟩
  | note hlock => exact .quiet fun k => rel_update fun e => kept_count ⟨rfl, .inl rfl, .inl rfl⟩
  | classify hlock h => exact .quiet fun k => rel_update (kept_classify h)
  | commit h => exact .decided h fun k => find_decide
  | forget hlock => exact .forgotten hlock fun k => by rw [find_delete]; simp
  | _ => exact .quiet fun k => rel_refl _

theorem row_of_change (h : Change s t s' rest) {e : Entry} (he : s.entries.find k = some e)
    (hlocked : k ∈ s.locks) (hheld : k ∉ t.held) : ∃ e', s'.entries.find k = some e' := by
  cases h with
  | quiet h =>
    obtain ⟨e', he', -⟩ := kept_of_rel (h k) he
    exact ⟨e', he'⟩
  | inserted e' hnew hfree he' h =>
    rw [h]
    split_ifs
    · exact ⟨_, rfl⟩
    · exact ⟨e, he⟩
  | decided hfree h =>
    rw [h, if_neg fun hgone => hheld (mem_cons_of_mem _ hgone), he]
    exact ⟨_, rfl⟩
  | forgotten hlock h =>
    rw [h, if_neg (by rintro rfl; exact hlock hlocked)]
    exact ⟨e, he⟩

end Changes

/-! ## A gate by itself -/

section Alone

variable {s : Networks} {a : Address}

end Alone

/-! ## Entries and decisions in progress -/

structure Valid (s : Networks) : Prop where
  unique : ∀ {k k' e e'}, s.entries.find k = some e → s.entries.find k' = some e' →
    e.cidr = e'.cidr → k = k'
  cidr : ∀ {k e}, s.entries.find k = some e → e.cidr.IsValid
  netblock : ∀ {k e block}, s.entries.find k = some e → e.rdapNetblock = some block → block.IsValid

def NetworkTask.deciding : NetworkTask → Option (String × Cidr)
  | .collect id _ block => some (id, block)
  | .purge id _ _ cidr _ _ => some (id, cidr)
  | _ => none

/-- The entry of a decision in progress is there, and is not among those it deletes. -/
structure Pinned (s : Networks) (t : NetworkTask) : Prop where
  row : ∀ {id cidr}, t.deciding = some (id, cidr) →
    cidr.IsValid ∧ id ∈ t.held ∧ ∃ e, s.entries.find id = some e
  apart : ∀ {id verdict scope cidr todo gone}, t = .purge id verdict scope cidr todo gone →
    id ∉ todo ∧ id ∉ gone

section Decisions

variable {s s' : Networks} {t u : NetworkTask} {rest : Option NetworkTask} {id k : String}

theorem valid_of_change (hs : Valid s) (ht : Pinned s t) (h : Change s t s' rest) : Valid s' := by
  cases h with
  | quiet h =>
    have hrow : ∀ {k e'}, s'.entries.find k = some e' →
        ∃ e, s.entries.find k = some e ∧ Kept e e' := fun he' => kept_of_rel' (h _) he'
    refine ⟨fun he he' heq => ?_, fun he => ?_, fun he hblock => ?_⟩
    · obtain ⟨d, hd, hkept⟩ := hrow he
      obtain ⟨d', hd', hkept'⟩ := hrow he'
      exact hs.unique hd hd' (hkept.cidr.symm.trans (heq.trans hkept'.cidr))
    · obtain ⟨d, hd, hkept⟩ := hrow he
      rw [hkept.cidr]
      exact hs.cidr hd
    · obtain ⟨d, hd, hkept⟩ := hrow he
      rcases hkept.netblock with hsame | hvalid
      · exact hs.netblock hd (hsame ▸ hblock)
      · exact hvalid _ hblock
  | @inserted q counted a _ new hnew hfree hfields h =>
    obtain ⟨hcidr, -, hnone⟩ := hfields
    have hrow : ∀ {k e}, s'.entries.find k = some e →
        s.entries.find k = some e ∨ k = new.id ∧ e = new := by
      intro k e he
      rw [h] at he
      split_ifs at he with hk
      · exact .inr ⟨hk, (Option.some.inj he).symm⟩
      · exact .inl he
    have hclash : ∀ {k e}, s.entries.find k = some e → e.cidr ≠ new.cidr := by
      intro k e he
      rw [hcidr]
      exact hfree e (Table.mem_of_find he)
    refine ⟨fun he he' heq => ?_, fun he => ?_, fun he hblock => ?_⟩
    · rcases hrow he with hd | ⟨hk, rfl⟩ <;> rcases hrow he' with hd' | ⟨hk', rfl⟩
      · exact hs.unique hd hd' heq
      · exact absurd heq (hclash hd)
      · exact absurd heq.symm (hclash hd')
      · exact hk.trans hk'.symm
    · rcases hrow he with hd | ⟨-, rfl⟩
      · exact hs.cidr hd
      · rw [hcidr]
        exact single_valid
    · rcases hrow he with hd | ⟨-, rfl⟩
      · exact hs.netblock hd hblock
      · rw [hnone] at hblock
        cases hblock
  | @decided id verdict scope cidr gone _ hfree h =>
    have hrow : ∀ {k e}, s'.entries.find k = some e → ∃ d, s.entries.find k = some d ∧
        (k ≠ id ∧ e = d ∨ k = id ∧ e = d.decided verdict.status cidr) := by
      intro k e he
      obtain ⟨-, d, hd, rfl⟩ : k ∉ gone ∧ ∃ d, s.entries.find k = some d ∧ _ = e := by
        simpa [h] using he
      by_cases hk : k = id
      · exact ⟨d, hd, .inr ⟨hk, if_pos hk⟩⟩
      · exact ⟨d, hd, .inl ⟨hk, if_neg hk⟩⟩
    have hclash : ∀ {k d}, s.entries.find k = some d → d.cidr = cidr → k = id := by
      intro k d hd heq
      rw [← Table.key_of_find hd]
      exact hfree d (Table.mem_of_find hd) heq
    refine ⟨fun he he' heq => ?_, fun he => ?_, fun he hblock => ?_⟩
    · obtain ⟨d, hd, ⟨hk, rfl⟩ | ⟨hk, rfl⟩⟩ := hrow he <;>
        obtain ⟨d', hd', ⟨hk', rfl⟩ | ⟨hk', rfl⟩⟩ := hrow he'
      · exact hs.unique hd hd' heq
      · exact absurd (hclash hd heq) hk
      · exact absurd (hclash hd' heq.symm) hk'
      · exact hk.trans hk'.symm
    · obtain ⟨d, hd, ⟨-, rfl⟩ | ⟨-, rfl⟩⟩ := hrow he
      · exact hs.cidr hd
      · exact (ht.row rfl).1
    · obtain ⟨d, hd, ⟨-, rfl⟩ | ⟨-, rfl⟩⟩ := hrow he
      · exact hs.netblock hd hblock
      · exact hs.netblock hd hblock
  | @forgotten id _ hlock h =>
    have hrow : ∀ {k e}, s'.entries.find k = some e → s.entries.find k = some e := by
      intro k e he
      rw [h] at he
      split_ifs at he
      exact he
    exact ⟨fun he he' => hs.unique (hrow he) (hrow he'), fun he => hs.cidr (hrow he),
      fun he => hs.netblock (hrow he)⟩

theorem pinned_new (h : t.isNew = true) : Pinned s t := by
  cases t <;> cases h <;> exact ⟨fun hdec => (by cases hdec), fun heq => (by cases heq)⟩

theorem mem_inside {block : Cidr} (h : k ∈ s.inside block id) : k ≠ id := by
  obtain ⟨e, he, rfl⟩ := mem_map.mp h
  have hinside := (mem_filter.mp he).2
  simp only [Networks.isInside, Bool.and_eq_true, decide_eq_true_eq] at hinside
  exact hinside.1.2

theorem pinned_rest (hs : Valid s) (ht : Pinned s t) (h : NetworkStep s t s' rest) :
    ∀ r, rest = some r → Pinned s' r := by
  rintro r rfl
  cases h with
  | decideAddress hlock h =>
    exact ⟨by rintro _ _ ⟨⟩; exact ⟨hs.cidr h, mem_cons_self, _, h⟩,
      by rintro _ _ _ _ _ _ ⟨⟩; exact ⟨not_mem_nil, not_mem_nil⟩⟩
  | decideNetblock hlock h hblock =>
    exact ⟨by rintro _ _ ⟨⟩; exact ⟨hs.netblock h hblock, mem_cons_self, _, h⟩,
      fun heq => (by cases heq)⟩
  | collect =>
    refine ⟨?_, ?_⟩
    · rintro _ _ ⟨⟩
      exact ht.row rfl
    · rintro _ _ _ _ _ _ ⟨⟩
      exact ⟨fun hmem => mem_inside hmem rfl, not_mem_nil⟩
  | purge hlock h =>
    obtain ⟨htodo, hgone⟩ := ht.apart rfl
    refine ⟨?_, ?_⟩
    · rintro _ _ ⟨⟩
      obtain ⟨hvalid, -, hrow⟩ := ht.row rfl
      exact ⟨hvalid, mem_cons_self, hrow⟩
    · rintro _ _ _ _ _ _ ⟨⟩
      simp only [mem_cons, not_or] at htodo ⊢
      exact ⟨htodo.2, htodo.1, hgone⟩
  | skip hlock h =>
    obtain ⟨htodo, hgone⟩ := ht.apart rfl
    refine ⟨?_, ?_⟩
    · rintro _ _ ⟨⟩
      exact ht.row rfl
    · rintro _ _ _ _ _ _ ⟨⟩
      exact ⟨fun hmem => htodo (mem_cons_of_mem _ hmem), hgone⟩
  | _ => exact ⟨fun hdec => (by cases hdec), fun heq => (by cases heq)⟩

theorem pinned_beside {sys : NetworkSys} (hexcl : Exclusive NetworkTask.held Networks.locks sys)
    (hbeside : Beside sys t u) (hu : Pinned sys.shared u) (h : Change sys.shared t s' rest) :
    Pinned s' u := by
  refine ⟨fun hdec => ?_, hu.apart⟩
  obtain ⟨hvalid, hheld, e, he⟩ := hu.row hdec
  refine ⟨hvalid, hheld, row_of_change h he ?_ fun ht => hexcl.beside hbeside ht hheld⟩
  exact hexcl.locked u (mem_of_beside hbeside) _ hheld

end Decisions

theorem exclusive_of_run {es : List NetworkEv} {s : NetworkSys} (h : NetworkRun es s) :
    ∀ e ∈ es, Exclusive NetworkTask.held Networks.locks e.before := by
  intro e he
  obtain ⟨pre, post, rfl⟩ := append_of_mem he
  exact networkLocking.exclusive h.split.1 rfl

theorem valid_of_run {es : List NetworkEv} {s : NetworkSys} (h : NetworkRun es s) :
    Valid s.shared ∧ ∀ t ∈ s.tasks, Pinned s.shared t := by
  refine Tasks.invariant h (exclusive_of_run h)
    ⟨fun he => (by cases he), fun he => (by cases he), fun he => (by cases he)⟩ (by simp)
    (fun _ _ => pinned_new) ?_ ?_
  · intro s s' t rest hexcl hvalid ht hadv
    have hchange := change_of_step hadv
    exact ⟨valid_of_change hvalid ht hchange, pinned_rest hvalid ht hadv,
      fun u hbeside hu => pinned_beside hexcl hbeside hu hchange⟩
  · intro s s' _ _ hmove
    exact hmove.elim

/-! ## A block that is denied -/

def Decides (e : NetworkEv) : Prop :=
  (∃ t verdict scope cidr, e.label = .advance t (some (.decided verdict scope cidr))) ∨
    ∃ t, e.label = .advance t (some .forgotten)

/-- The block is denied, and every entry inside it is one that had been approved or denied before. -/
structure Denied (block : Cidr) (s₁ s : Networks) : Prop where
  valid : Valid s
  row : ∃ k e, s.entries.find k = some e ∧ e.cidr = block ∧ e.status = .denied
  inside : ∀ {k e}, s.entries.find k = some e → e.cidr.within block = true →
    e.status ≠ .pending ∧ ∃ e₁ ∈ s₁.entries.rows, e₁.cidr = e.cidr ∧ e₁.status ≠ .pending

def Outside (block : Cidr) (t : NetworkTask) : Prop :=
  ∀ q counted a, t = .insert q counted a → block.contains a = false

section Denials

variable {s s' s₁ : Networks} {t : NetworkTask} {rest : Option NetworkTask} {block : Cidr}
  {a : Address}

theorem lookUp_of_denied (hs : Denied block s₁ s) (ha : block.contains a = true)
    (hcover : ∀ e ∈ s₁.entries.rows, e.status ≠ .pending → block.masklen < e.cidr.masklen →
      e.cidr.contains a = false) :
    ∃ e, s.lookUp a = some e ∧ e.status = .denied := by
  obtain ⟨k, b, hb, rfl, hdenied⟩ := hs.row
  have hmem := Table.mem_of_find hb
  cases hfound : s.lookUp a with
  | none =>
    have hnot := mostSpecific_eq_none hfound b hmem
    rw [ha] at hnot
    cases hnot
  | some e =>
    refine ⟨e, rfl, ?_⟩
    have hspec := mostSpecific_spec hfound
    have he := Table.find_key_iff_mem.mpr hspec.mem
    rcases (hspec.longest b hmem ha).lt_or_eq with hlt | heq
    · obtain ⟨-, e₁, he₁, hcidr, hdecided⟩ :=
        hs.inside he (within_of_contains hspec.contains ha hlt)
      have hnot := hcover e₁ he₁ hdecided (hcidr ▸ hlt)
      rw [hcidr, hspec.contains] at hnot
      cases hnot
    · have hsame := eq_of_contains hspec.contains ha (hs.valid.cidr he) (hs.valid.cidr hb) heq.symm
      obtain rfl := hs.valid.unique he hb hsame
      obtain rfl : e = b := Option.some.inj (he.symm.trans hb)
      exact hdenied

theorem denied_of_change (hs : Denied block s₁ s) (ht : Pinned s t) (hout : Outside block t)
    (h : Change s t s' rest) (hdecided : ∀ verdict scope cidr, rest ≠ some (.decided verdict scope cidr))
    (hforgotten : rest ≠ some .forgotten) : Denied block s₁ s' := by
  have hvalid := valid_of_change hs.valid ht h
  obtain ⟨k, b, hb, hcidr, hstatus⟩ := hs.row
  cases h with
  | quiet h =>
    refine ⟨hvalid, ?_, fun {k' e'} he' hwithin => ?_⟩
    · obtain ⟨b', hb', hkept⟩ := kept_of_rel (h k) hb
      refine ⟨k, b', hb', hkept.cidr.trans hcidr, ?_⟩
      rcases hkept.status with hsame | ⟨hpending, -⟩
      · exact hsame.trans hstatus
      · rw [hstatus] at hpending
        cases hpending
    · obtain ⟨e, he, hkept⟩ := kept_of_rel' (h k') he'
      rw [hkept.cidr] at hwithin ⊢
      obtain ⟨hnot, hcovered⟩ := hs.inside he hwithin
      refine ⟨?_, hcovered⟩
      rcases hkept.status with hsame | ⟨hpending, -⟩
      · rwa [hsame]
      · exact absurd hpending hnot
  | @inserted q counted a _ new hnew hfree hfields h =>
    refine ⟨hvalid, ⟨k, b, ?_, hcidr, hstatus⟩, fun {k' e'} he' hwithin => ?_⟩
    · rw [h, if_neg, hb]
      rintro rfl
      rw [hnew] at hb
      cases hb
    · rw [h] at he'
      split_ifs at he' with hk
      · obtain rfl := Option.some.inj he'
        rw [hfields.1] at hwithin
        have hin := contains_of_single hwithin (hcidr ▸ hs.valid.cidr hb)
        rw [hout q counted a rfl] at hin
        cases hin
      · exact hs.inside he' hwithin
  | decided => exact absurd rfl (hdecided _ _ _)
  | forgotten => exact absurd rfl hforgotten

theorem outside_rest (hs : Denied block s₁ s) (h : NetworkStep s t s' rest) :
    ∀ r, rest = some r → Outside block r := by
  rintro r rfl q counted a rfl
  cases h with
  | absent hnone =>
    obtain ⟨k, b, hb, rfl, -⟩ := hs.row
    exact mostSpecific_eq_none hnone b (Table.mem_of_find hb)

theorem commit_of_step {id : String} {verdict : Verdict} {scope : Scope} {cidr : Cidr}
    {gone : List String} {t' : NetworkTask}
    (h : NetworkStep s (.purge id verdict scope cidr [] gone) s' (some t')) :
    (∀ e ∈ s.entries.rows, e.cidr = cidr → e.id = id) ∧
      s' = s.decide id verdict.status cidr gone ∧ t' = .decided verdict scope cidr := by
  cases h with
  | commit h => exact ⟨h, rfl, rfl⟩

theorem denied_of_commit {id : String} {gone : List String} (hs : Valid s)
    (ht : Pinned s (.purge id .deny .netblock block [] gone))
    (h : ∀ e ∈ s.entries.rows, e.cidr = block → e.id = id)
    (hpending : ∀ e ∈ s.entries.rows, e.status = .pending → e.cidr.within block = true →
      e.id = id ∨ e.id ∈ gone) :
    Denied block (s.decide id .denied block gone) (s.decide id .denied block gone) := by
  refine ⟨valid_of_change hs ht (.decided h fun k => find_decide), ?_, fun {k e'} he' hwithin => ?_⟩
  · obtain ⟨-, -, e, he⟩ := ht.row rfl
    refine ⟨id, e.decided .denied block, ?_, rfl, rfl⟩
    rw [find_decide, if_neg (ht.apart rfl).2, he, Option.map_some, if_pos rfl]
  · refine ⟨?_, e', Table.mem_of_find he', rfl, ?_⟩ <;>
    · intro hstatus
      rw [find_decide] at he'
      obtain ⟨hgone, e, he, rfl⟩ : k ∉ gone ∧ ∃ e, s.entries.find k = some e ∧ _ = e' := by
        simpa using he'
      obtain rfl := Table.key_of_find he
      by_cases hk : e.id = id
      · simp only [hk, if_true] at hstatus
        cases hstatus
      · simp only [hk, if_false] at hstatus hwithin
        rcases hpending e (Table.mem_of_find he) hstatus hwithin with hid | hmem
        · exact hk hid
        · exact hgone hmem

end Denials

/-! ### A registered block -/

section Samples

def sampleReport : Query := ⟨[], none, [], none, ⟨none, none, none, none⟩, [], false⟩

def sampleBlock : Cidr := ⟨false, 0x0A000000, 24⟩

def sampleAddress (n : Nat) : Address := ⟨false, 0x0A000000 + n, false⟩

def sampleEntry (id : String) (n : Nat) (netblock : Option Cidr) : Entry :=
  ⟨newNetwork id sampleReport (sampleAddress n) 0, netblock⟩

def sampleNetworks (e : Entry) (locks : List String) : Networks :=
  ⟨⟨[e], nodup_singleton _⟩, locks⟩

abbrev sampleKnown : Entry := sampleEntry "n" 9 (some sampleBlock)

abbrev sampleDenied : Networks := sampleNetworks (sampleKnown.decided .denied sampleBlock) []

theorem sampleBlock_valid : sampleBlock.IsValid := ⟨by decide, by decide⟩

variable {C : NetworkEv → Prop} {s₀ : NetworkSys} {ts : List NetworkTask}

theorem reaches_known (hC : ∀ e, C e) :
    Reaches networkRules C ⟨.empty, []⟩ ⟨sampleNetworks sampleKnown [], []⟩ := by
  have hasked := (Reaches.refl (R := networkRules) (C := C) ⟨.empty, []⟩).start
    (t := NetworkTask.lookUp sampleReport false (sampleAddress 9)) rfl (hC _)
  have hlooked := hasked.first (.absent rfl) (hC _)
  have hmade := hlooked.first
    (@NetworkStep.insert _ sampleReport false (sampleAddress 9) "n" 0 rfl (by intro e he; cases he))
    (hC _)
  have hclassify := hmade.start (t := NetworkTask.classify "n") rfl (hC _)
  exact hclassify.first (@NetworkStep.classify _ "n" false (some sampleBlock) none
    not_mem_nil (by rintro _ ⟨⟩; exact sampleBlock_valid)) (hC _)

abbrev sampleDeny : NetworkTask := .purge "n" .deny .netblock sampleBlock [] []

theorem reaches_deny
    (h : Reaches networkRules C s₀ ⟨sampleNetworks sampleKnown [], ts⟩) (hC : ∀ e, C e) :
    Reaches networkRules C s₀ ⟨sampleNetworks sampleKnown ["n"], sampleDeny :: ts⟩ := by
  have hasked := h.start (t := NetworkTask.decide "n" .deny .netblock) rfl (hC _)
  have hlocked := hasked.first (.decideNetblock not_mem_nil rfl rfl) (hC _)
  exact hlocked.first .collect (hC _)

theorem step_deny : Step networkRules ⟨sampleNetworks sampleKnown ["n"], sampleDeny :: ts⟩
    (.advance sampleDeny (some (.decided .deny .netblock sampleBlock)))
    ⟨sampleDenied, .decided .deny .netblock sampleBlock :: ts⟩ :=
  step_first (R := networkRules) (NetworkStep.commit (by
    intro e he heq
    obtain rfl := mem_singleton.mp he
    rfl))

end Samples

/-- **A block that was denied stays denied**, to every look-up after the commit and until another
decision or removal, where at the commit no gate is about to insert an entry for an address of the
block and every other pending entry inside the block is among those the decision deletes. -/
theorem deny_netblock {pre post : List NetworkEv} {e : NetworkEv} {s : NetworkSys} {id : String}
    {block : Cidr} {gone : List String} (h : NetworkRun (pre ++ e :: post) s)
    (hcommit : e.label = .advance (.purge id .deny .netblock block [] gone)
      (some (.decided .deny .netblock block)))
    (huntil : ∀ x ∈ post, ¬ Decides x)
    (hgates : ∀ t ∈ e.before.tasks, Outside block t)
    (hpending : ∀ x ∈ e.before.shared.entries.rows, x.status = .pending →
      x.cidr.within block = true → x.id = id ∨ x.id ∈ gone) :
    ∀ a, block.contains a = true →
      (∀ x ∈ e.after.shared.entries.rows, x.status ≠ .pending → block.masklen < x.cidr.masklen →
        x.cidr.contains a = false) →
      ∃ found, s.shared.lookUp a = some found ∧ found.status = .denied := by
  obtain ⟨hpre, hstep, hpost⟩ := h.split
  obtain ⟨hvalid, hpinned⟩ := valid_of_run hpre
  have hafter := (valid_of_run (hpre.snoc hstep)).2
  suffices hdenied : Denied block e.after.shared s.shared from
    fun a ha hcover => lookUp_of_denied hdenied ha hcover
  have hstart : Denied block e.after.shared e.after.shared ∧
      ∀ t ∈ e.after.tasks, Outside block t := by
    rw [hcommit] at hstep
    generalize e.after = after at hstep
    cases hstep with
    | advance htasks hadv =>
      obtain ⟨hfree, rfl, -⟩ := commit_of_step hadv
      refine ⟨denied_of_commit hvalid (hpinned _ (by simp [htasks])) hfree hpending, fun t ht => ?_⟩
      rcases mem_advance htasks ht with heq | hbeside
      · cases heq
        rintro _ _ _ ⟨⟩
      · exact hgates t (mem_of_beside hbeside)
  have hevents : ∀ x ∈ post, Exclusive NetworkTask.held Networks.locks x.before ∧ ¬ Decides x :=
    fun x hx => ⟨exclusive_of_run h x (by simp [hx]), huntil x hx⟩
  refine (Tasks.invariant hpost hevents (I := Denied block e.after.shared)
    (J := fun s t => Pinned s t ∧ Outside block t) hstart.1
    (fun t ht => ⟨hafter t ht, hstart.2 t ht⟩) ?_ ?_ ?_).1
  · intro s s' t _ _ hnew
    refine ⟨pinned_new hnew, ?_⟩
    rintro q counted a rfl
    cases hnew
  · rintro s s' t rest ⟨hexcl, hundecided⟩ hdenied ⟨ht, hout⟩ hadv
    have hchange := change_of_step hadv
    refine ⟨denied_of_change hdenied ht hout hchange ?_ ?_, fun r hr =>
      ⟨pinned_rest hdenied.valid ht hadv r hr, outside_rest hdenied hadv r hr⟩,
      fun u hbeside hu => ⟨pinned_beside hexcl hbeside hu.1 hchange, hu.2⟩⟩
    · rintro verdict scope cidr rfl
      exact hundecided (.inl ⟨_, _, _, _, rfl⟩)
    · rintro rfl
      exact hundecided (.inr ⟨_, rfl⟩)
  · intro s s' _ _ hmove
    exact hmove.elim

/-- With nothing else in flight, 10.0.0.5 is denied as the block is. -/
theorem sample_deny_netblock : ∃ pre e post s, NetworkRun (pre ++ e :: post) s ∧
    e.label = .advance sampleDeny (some (.decided .deny .netblock sampleBlock)) ∧
    ∃ found, s.shared.lookUp (sampleAddress 5) = some found ∧ found.status = .denied := by
  obtain ⟨pre, hpre, -⟩ := reaches_deny (reaches_known fun _ => trivial) fun _ => trivial
  have hrun := hpre.snoc step_deny
  refine ⟨pre, _, [], _, hrun, rfl, ?_⟩
  refine deny_netblock hrun rfl (by simp) ?_ ?_ _ (by decide) ?_
  · intro t ht
    obtain rfl := mem_singleton.mp ht
    rintro _ _ _ ⟨⟩
  · intro x hx _ _
    obtain rfl := mem_singleton.mp hx
    exact .inl rfl
  · intro x hx _ hlt
    obtain rfl := mem_singleton.mp hx
    exact absurd hlt (by decide)

/-- A gate finds no entry for 10.0.0.5; the block is denied; the gate inserts its entry, and that is
pending. -/
theorem slipped_in : ¬ ∀ pre e post s id block gone, NetworkRun (pre ++ e :: post) s →
    e.label = .advance (.purge id .deny .netblock block [] gone)
      (some (.decided .deny .netblock block)) →
    (∀ x ∈ post, ¬ Decides x) →
    ∀ a, block.contains a = true →
      (∀ x ∈ e.after.shared.entries.rows, x.status ≠ .pending → block.masklen < x.cidr.masklen →
        x.cidr.contains a = false) →
      ∃ found, s.shared.lookUp a = some found ∧ found.status = .denied := by
  intro hall
  have hasked := (reaches_known (C := fun _ => True) fun _ => trivial).start
    (t := NetworkTask.lookUp sampleReport false (sampleAddress 5)) rfl trivial
  have hlooked := hasked.first (.absent (by decide +kernel)) trivial
  obtain ⟨pre, hpre, -⟩ := reaches_deny hlooked fun _ => trivial
  have hanswered := (Reaches.refl (R := networkRules) (C := fun e => ¬ Decides e)
    ⟨sampleDenied, .decided .deny .netblock sampleBlock ::
      [.insert sampleReport false (sampleAddress 5)]⟩).first .decided (by simp [Decides])
  obtain ⟨post, hpost, hundecided⟩ := hanswered.first
    (@NetworkStep.insert sampleDenied sampleReport false (sampleAddress 5) "m" 0 (by decide +kernel) (by
      intro e he
      obtain rfl := mem_singleton.mp he
      decide)) (by simp [Decides])
  have hrun := (hpre.snoc step_deny).trans hpost
  rw [append_assoc] at hrun
  obtain ⟨found, hfound, hdenied⟩ := hall pre _ post _ _ _ _ hrun rfl hundecided (sampleAddress 5)
    (by decide) (by
      intro x hx _ hlt
      obtain rfl := mem_singleton.mp hx
      exact absurd hlt (by decide))
  have hpending := congrArg (Option.map fun e : Entry => e.status) hfound
  rw [Option.map_some, hdenied] at hpending
  revert hpending
  decide +kernel

end ManagedDirectory.Sealed
