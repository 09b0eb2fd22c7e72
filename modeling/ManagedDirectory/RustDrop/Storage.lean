import ManagedDirectory.RustDrop.Lifecycle

/-!
# RustDrop: what the storage holds

RDS bounds every body by the limit of its drop, not by what is left of it: parts without a
`Content-Length` add up to more (`stored_beyond_limit`). Where every part carries a `Content-Length`
that covers it and the size setting is not lowered, a blob stays within the declared size and the
setting at the last upload (`stored_within_limit`).

A transfer in flight goes on after its drop was declined or swept, and leaves a blob that no row
names (`orphan_blob`). Where a blob is deleted only while no upload to it is in flight, there is no
orphan once nothing is in flight (`no_orphan_blobs`).
-/

namespace ManagedDirectory.RustDrop

open Lib Lib.Tasks List

/-! ## The size of a blob -/

/-- A part carries a `Content-Length` that covers its body. -/
def Upload.Framed (req : Upload) : Prop :=
  req.offset ≠ none → ∃ length, req.contentLength = some length ∧ (req.chunks.sum : Int) ≤ length

/-- Uploads that come in are framed, and the size setting is not lowered. -/
structure Capped (e : DropEv) : Prop where
  framed : ∀ self k req, e.label = .start (.upload self k req) → req.Framed
  raised : e.before.shared.settings.maxDropSize ≤ e.after.shared.settings.maxDropSize

theorem boundedRequestStream_le (limit total : Nat) (chunks : List Nat) (htotal : total ≤ limit) :
    (boundedRequestStream limit total chunks).1 ≤ limit ∧
      (boundedRequestStream limit total chunks).1 ≤ total + chunks.sum := by
  induction chunks generalizing total with
  | nil => exact ⟨htotal, le_rfl⟩
  | cons chunk rest ih =>
    unfold boundedRequestStream
    split_ifs with hover
    · exact ⟨htotal, Nat.le_add_right _ _⟩
    · have hrest := ih (total + chunk) (Nat.not_lt.mp hover)
      rw [sum_cons, ← Nat.add_assoc]
      exact hrest

theorem sent_le (req : Upload) (limit : Nat) :
    req.sent limit ≤ limit ∧ req.sent limit ≤ req.chunks.sum := by
  have h := boundedRequestStream_le limit 0 req.chunks (Nat.zero_le _)
  rwa [Nat.zero_add] at h

theorem stored_le {req : Upload} {limit bound : Nat} {blob : Option Nat} {n : Nat}
    (hframed : req.Framed) (hfits : req.refused limit = false) (hlimit : limit ≤ bound)
    (hold : ∀ m, blob = some m → m ≤ bound)
    (h : Stores req.offset (req.sent limit) blob (some n)) : n ≤ bound := by
  obtain ⟨hsent, hbody⟩ := sent_le req limit
  generalize hnew : some n = new at h
  cases h with
  | kept => exact hold n hnew.symm
  | replaced hlegacy hn =>
    cases hnew
    exact hn.trans (hsent.trans hlimit)
  | appended hpart hn =>
    cases hnew
    obtain ⟨length, hlength, hcovers⟩ := hframed (by simp [hpart])
    rw [Upload.refused, hpart, hlength] at hfits
    have hle := of_decide_eq_false hfits
    omega

/-- The blobs of a state are within the declared sizes and the setting. -/
structure Bounded (s : Store) : Prop where
  known : Known s
  size : ∀ k d n, s.drops.find k = some d → s.blobs (k + 1) = some n →
    n ≤ min d.declaredSize s.settings.maxDropSize
  fresh : ∀ key, s.next ≤ key → s.blobs key = none

/-- An upload in flight is framed and has a limit that is still good. -/
structure Limited (s : Store) (t : Task) : Prop where
  framed : ∀ self k req, t = .upload self k req → req.Framed
  relay : ∀ k key limit req, t = .relay k key limit req → req.Framed ∧ k + 1 < s.next ∧
    key = k + 1 ∧ limit ≤ s.settings.maxDropSize ∧
      ∀ d, s.drops.find k = some d → limit ≤ d.declaredSize

section Steps

variable {s s' : Store} {t u : Task} {rest : Option Task} {d d' : Drop} {k : Nat}

theorem declaredSize_of_advance (h : Advances s t s' rest) (hd' : s'.drops.find k = some d') :
    ∃ d, s.drops.find k = some d ∧ d'.declaredSize = d.declaredSize := by
  obtain ⟨d, hd, rfl | ⟨-, now, -, rfl⟩⟩ := row_of_advance h hd'
  · exact ⟨_, hd, rfl⟩
  · exact ⟨d, hd, assign_declaredSize _ _ _ _⟩

theorem settings_of_advance (h : Advances s t s' rest) : s'.settings = s.settings := by
  cases h <;> rfl

theorem blob_of_advance (key : Nat) (h : Advances s t s' rest) :
    s'.blobs key = s.blobs key ∨ s'.blobs key = none ∨ ∃ k limit req, t = .relay k key limit req ∧
      req.refused limit = false ∧ Stores req.offset (req.sent limit) (s.blobs key) (s'.blobs key) := by
  cases h with
  | @relay k storageKey limit req blob next hfits hstores hanswers =>
    by_cases hkey : key = storageKey
    · subst hkey
      refine .inr (.inr ⟨k, limit, req, rfl, hfits, ?_⟩)
      change Stores _ _ _ (Function.update s.blobs key blob key)
      rwa [Function.update_self]
    · exact .inl (Function.update_of_ne hkey _ _)
  | @deleteBlob storageKey storageKeys =>
    by_cases hkey : key = storageKey
    · subst hkey
      exact .inr (.inl (Function.update_self _ _ _))
    · exact .inl (Function.update_of_ne hkey _ _)
  | _ => exact .inl rfl

theorem bounded_of_advance (hs : Bounded s) (ht : Limited s t) (h : Advances s t s' rest) :
    Bounded s' := by
  refine ⟨known_of_advance hs.known h, fun k d' n hd' hn => ?_, fun key hkey => ?_⟩
  · obtain ⟨d, hd, hsize⟩ := declaredSize_of_advance h hd'
    rw [hsize, settings_of_advance h]
    rcases blob_of_advance (k + 1) h with hsame | hnone | ⟨k', limit, req, rfl, hfits, hstores⟩
    · exact hs.size k d n hd (hsame ▸ hn)
    · rw [hnone] at hn
      cases hn
    · obtain ⟨hframed, -, hkey, hmax, hdeclared⟩ := ht.relay k' _ limit req rfl
      obtain rfl : k = k' := Nat.succ.inj hkey
      rw [hn] at hstores
      exact stored_le hframed hfits (le_min (hdeclared d hd) hmax) (hs.size k d · hd) hstores
  · rw [next_of_advance h] at hkey
    rcases blob_of_advance key h with hsame | hnone | ⟨k', limit, req, rfl, -, -⟩
    · rw [hsame, hs.fresh key hkey]
    · exact hnone
    · obtain ⟨-, hlt, rfl, -⟩ := ht.relay k' _ limit req rfl
      omega

theorem limited_beside (hu : Limited s u) (h : Advances s t s' rest) : Limited s' u := by
  refine ⟨hu.framed, fun k key limit req hrelay => ?_⟩
  obtain ⟨hframed, hlt, hkey, hmax, hdeclared⟩ := hu.relay k key limit req hrelay
  rw [next_of_advance h, settings_of_advance h]
  refine ⟨hframed, hlt, hkey, hmax, fun d' hd' => ?_⟩
  obtain ⟨d, hd, hsize⟩ := declaredSize_of_advance h hd'
  exact hsize ▸ hdeclared d hd

theorem limited_later (hupload : ∀ self k req, t ≠ .upload self k req)
    (hrelay : ∀ k key limit req, t ≠ .relay k key limit req) : Limited s t :=
  ⟨fun self k req heq => absurd heq (hupload self k req),
    fun k key limit req heq => absurd heq (hrelay k key limit req)⟩

theorem limited_rest (hs : Bounded s) (ht : Limited s t) (h : Advances s t s' rest) :
    ∀ r, rest = some r → Limited s' r := by
  intro r hr
  cases h with
  | upload h =>
    cases hr
    obtain ⟨d, hd, -, hkey, hlimit⟩ := uploadDrop_ok h
    have hrow := hs.known.rows _ _ hd
    refine ⟨fun _ _ _ heq => (by cases heq), fun _ _ _ _ heq => ?_⟩
    cases heq
    refine ⟨ht.framed _ _ _ rfl, hrow.1, hkey.symm.trans hrow.2, ?_, fun d' hd' => ?_⟩
    · rw [hlimit]
      exact min_le_right _ _
    · rw [hd] at hd'
      cases hd'
      rw [hlimit]
      exact min_le_left _ _
  | relay hfits hstores hanswers =>
    subst hr
    cases hanswers <;> exact limited_later (by simp) (by simp)
  | download h =>
    split_ifs at hr
    cases hr
    exact limited_later (by simp) (by simp)
  | complete | decline | sweep | remove | purge | deleteBlob =>
    cases hr
    exact limited_later (by simp) (by simp)
  | update | deliver | deleted | stop => cases hr

theorem blobs_of_move (h : Moves s s') : s'.blobs = s.blobs := by
  cases h with
  | tick _ => rfl
  | configure => rfl
  | create hnow h =>
    obtain ⟨-, rfl⟩ := createDrop_ok h
    rfl

theorem bounded_of_move (hs : Bounded s) (h : Moves s s')
    (hraised : s.settings.maxDropSize ≤ s'.settings.maxDropSize) :
    Bounded s' ∧ ∀ u, Limited s u → Limited s' u := by
  have hblobs := blobs_of_move h
  have hnext := next_of_move h
  refine ⟨⟨known_of_move hs.known h, fun k d' n hd' hn => ?_, fun key hkey => ?_⟩, fun u hu => ?_⟩
  · rw [hblobs] at hn
    rcases row_of_move h hd' with hd | ⟨rfl, -⟩
    · exact (hs.size k d' n hd hn).trans (min_le_min_left _ hraised)
    · rw [hs.fresh _ (Nat.le_succ _)] at hn
      cases hn
  · rw [hblobs, hs.fresh key (hnext.trans hkey)]
  · refine ⟨hu.framed, fun k key limit req hrelay => ?_⟩
    obtain ⟨hframed, hlt, hkey, hmax, hdeclared⟩ := hu.relay k key limit req hrelay
    refine ⟨hframed, hlt.trans_le hnext, hkey, hmax.trans hraised, fun d' hd' => ?_⟩
    rcases row_of_move h hd' with hd | ⟨rfl, -⟩
    · exact hdeclared d' hd
    · omega

end Steps

section Runs

variable {clock : Int} {settings : Settings} {es : List DropEv} {s : DropSys}

theorem bounded_of_run (h : DropRun clock settings es s) (hcapped : ∀ e ∈ es, Capped e) :
    Bounded s.shared ∧ ∀ t ∈ s.tasks, Limited s.shared t := by
  refine Tasks.invariant h hcapped ?_ (by simp [idle]) ?_ ?_ ?_
  · exact ⟨known_empty, fun _ _ _ hd => (by cases hd), fun _ _ => rfl⟩
  · intro s s' t hc _ hnew
    refine ⟨fun self k req heq => hc.framed self k req (congrArg _ heq), fun k key limit req heq => ?_⟩
    subst heq
    cases hnew
  · intro s s' t rest _ hs ht hadv
    exact ⟨bounded_of_advance hs ht hadv, limited_rest hs ht hadv,
      fun u _ hu => limited_beside hu hadv⟩
  · intro s s' hc hs hmove
    obtain ⟨hs', hothers⟩ := bounded_of_move hs hmove hc.raised
    exact ⟨hs', fun u _ hu => hothers u hu⟩

def Relays (k : Nat) (e : DropEv) : Prop :=
  ∃ key limit req rest, e.label = .advance (.relay k key limit req) rest

theorem stored_before {s' : DropSys} {l : Label Task} {k n : Nat} {d : Drop}
    (hs : Bounded s.shared ∧ ∀ t ∈ s.tasks, Limited s.shared t) (hstep : Step dropRules s l s')
    (hrelays : ¬ Relays k ⟨s, l, s'⟩) (hd : s'.shared.drops.find k = some d)
    (hn : s'.shared.blobs (k + 1) = some n) :
    ∃ d₀, s.shared.drops.find k = some d₀ ∧ d.declaredSize = d₀.declaredSize ∧
      s.shared.blobs (k + 1) = some n := by
  cases hstep with
  | start _ => exact ⟨d, hd, rfl, hn⟩
  | @advance l₁ l₂ t shared rest htasks hadv =>
    obtain ⟨d₀, hd₀, hsize⟩ := declaredSize_of_advance hadv hd
    refine ⟨d₀, hd₀, hsize, ?_⟩
    rcases blob_of_advance (k + 1) hadv with hsame | hnone | ⟨k', limit, req, rfl, -, -⟩
    · exact hsame ▸ hn
    · rw [show shared.blobs (k + 1) = none from hnone] at hn
      cases hn
    · have hlimited := hs.2 (.relay k' (k + 1) limit req) (by simp [htasks])
      obtain ⟨-, -, hkey, -⟩ := hlimited.relay k' _ limit req rfl
      obtain rfl : k = k' := Nat.succ.inj hkey
      exact absurd ⟨_, limit, req, rest, rfl⟩ hrelays
  | @move shared hmove =>
    have hn₀ : s.shared.blobs (k + 1) = some n := blobs_of_move hmove ▸ hn
    rcases row_of_move hmove hd with hd₀ | ⟨rfl, -⟩
    · exact ⟨d, hd₀, rfl, hn₀⟩
    · rw [hs.1.fresh _ (Nat.le_succ _)] at hn₀
      cases hn₀

/-- **The size cap**, where parts carry a `Content-Length` that covers them and the setting is not
lowered: a blob is within the declared size of its drop and the setting at the last upload. -/
theorem stored_within_limit (h : DropRun clock settings es s) (hcapped : ∀ e ∈ es, Capped e)
    {k n : Nat} {d : Drop} (hd : s.shared.drops.find k = some d)
    (hn : s.shared.blobs d.storageKey = some n) :
    ∃ pre e post, es = pre ++ e :: post ∧ Relays k e ∧ (∀ x ∈ post, ¬ Relays k x) ∧
      n ≤ min d.declaredSize e.before.shared.settings.maxDropSize := by
  induction h generalizing d with
  | nil => cases hd
  | @snoc es m s' l h hstep ih =>
    have hrun := h.snoc hstep
    have hbounded := (bounded_of_run hrun hcapped).1
    have hbefore := fun e he => hcapped e (mem_append_left _ he)
    rw [(hbounded.known.rows k d hd).2] at hn
    by_cases hrelays : Relays k ⟨m, l, s'⟩
    · refine ⟨es, _, [], rfl, hrelays, by simp, ?_⟩
      obtain ⟨key, limit, req, rest, hl⟩ := hrelays
      cases hl
      cases hstep with
      | advance htasks hadv =>
        have hsize := hbounded.size k d n hd hn
        rwa [settings_of_advance hadv] at hsize
    · obtain ⟨d₀, hd₀, hsize, hn₀⟩ := stored_before (bounded_of_run h hbefore) hstep hrelays hd hn
      have hkey₀ := ((bounded_of_run h hbefore).1.known.rows k d₀ hd₀).2
      obtain ⟨pre, e, post, rfl, he, hpost, hle⟩ := ih hbefore hd₀ (hkey₀ ▸ hn₀)
      refine ⟨pre, e, post ++ [⟨m, l, s'⟩], by simp, he, ?_, hsize ▸ hle⟩
      intro x hx
      rcases mem_append.mp hx with hx | hx
      · exact hpost x hx
      · exact mem_singleton.mp hx ▸ hrelays

end Runs

theorem sample_stored_within_limit : ∃ es s, DropRun 0 sampleSettings es s ∧
    s.shared.blobs 1 = some 4 ∧ ∃ pre e post, es = pre ++ e :: post ∧ Relays 0 e ∧
      (∀ x ∈ post, ¬ Relays 0 x) ∧ 4 ≤ min 4 e.before.shared.settings.maxDropSize := by
  have hcapped : ∀ e, Sampled 1 e → Capped e := fun e he =>
    ⟨fun self k req hl hpart => absurd (he.whole self k req hl) hpart, by rw [he.settings.1, he.settings.2]⟩
  obtain ⟨es, hrun, hes⟩ := reaches_complete
    (reaches_relay (reaches_created hcapped) rfl hcapped) hcapped
  exact ⟨es, _, hrun, rfl, stored_within_limit hrun hes (d := sampleComplete) rfl rfl⟩

def sampleBarePart (offset : Int) (n : Nat) : Upload := ⟨some offset, none, [n]⟩

/-- Two parts without a `Content-Length`, each within the limit of four bytes, make seven. -/
theorem stored_beyond_limit : ¬ ∀ clock settings es s, DropRun clock settings es s →
    ∀ k n d, s.shared.drops.find k = some d → s.shared.blobs d.storageKey = some n →
      ∀ pre e post, es = pre ++ e :: post → Relays k e → (∀ x ∈ post, ¬ Relays k x) →
        n ≤ min d.declaredSize e.before.shared.settings.maxDropSize := by
  intro hall
  have hnew := reaches_created (C := fun _ => True) fun _ _ => trivial
  have hasked := hnew.start (t := Task.upload "a" 0 (sampleBarePart 0 3)) rfl trivial
  have hfound := hasked.first (Advances.upload uploadDrop_sample) trivial
  have hsent := hfound.first (Advances.relay rfl (.appended rfl le_rfl)
    (.progress (by decide) rfl)) trivial
  have htouched := hsent.first (Advances.update rfl rfl le_rfl) trivial
  have hasked₂ := htouched.start (t := Task.upload "a" 0 (sampleBarePart 3 4)) rfl trivial
  obtain ⟨es, hrun, -⟩ := hasked₂.first (Advances.upload uploadDrop_sample) trivial
  have hlast := hrun.snoc (step_first (Advances.relay rfl (.appended rfl le_rfl) .nothing))
  have hle := hall _ _ _ _ hlast 0 7 sampleNew rfl rfl _ _ [] rfl ⟨_, _, _, _, rfl⟩ (by simp)
  revert hle
  decide

/-! ## Orphans -/

def DeletesAlone (t u : Task) : Prop :=
  ∀ key keys, t = .deleteBlobs (key :: keys) → ∀ k limit req, u ≠ .relay k key limit req

def Owned (s : DropSys) (key : Nat) : Prop :=
  (∃ k d, s.shared.drops.find k = some d ∧ d.storageKey = key) ∨
    ∃ keys, Task.deleteBlobs keys ∈ s.tasks ∧ key ∈ keys

/-- A request that will delete a row has the storage key of that row. -/
structure Keyed (t : Task) : Prop where
  remove : ∀ k key, t = .remove k key → key = k + 1
  purge : ∀ found backstop, t = .purge found backstop → ∀ x ∈ found, x.2 = x.1 + 1

structure Tidy (s : DropSys) : Prop where
  known : Known s.shared
  keyed : ∀ t ∈ s.tasks, Keyed t
  blobs : ∀ key, s.shared.blobs key ≠ none → Owned s key
  relays : ∀ k key limit req, Task.relay k key limit req ∈ s.tasks → Owned s key

section Orphans

variable {s s' : Store} {t : Task} {rest : Option Task} {l₁ l₂ : List Task} {key : Nat}

theorem keyed_other (hremove : ∀ k key, t ≠ .remove k key)
    (hpurge : ∀ found backstop, t ≠ .purge found backstop) : Keyed t :=
  ⟨fun k key heq => absurd heq (hremove k key), fun found b heq => absurd heq (hpurge found b)⟩

theorem keyed_rest (hs : Known s) (h : Advances s t s' rest) : ∀ r, rest = some r → Keyed r := by
  intro r hr
  cases h with
  | decline h =>
    cases hr
    obtain ⟨d, hd, hkey⟩ := declineDrop_ok h
    refine ⟨fun k key heq => ?_, fun _ _ heq => (by cases heq)⟩
    cases heq
    exact hkey.symm.trans (hs.rows _ _ hd).2
  | sweep hnow =>
    cases hr
    refine ⟨fun _ _ heq => (by cases heq), fun found b heq x hx => ?_⟩
    cases heq
    obtain ⟨d, hd, hkey, -⟩ := mem_expired hx
    exact hkey.symm.trans (hs.rows _ _ hd).2
  | relay hfits hstores hanswers =>
    subst hr
    cases hanswers <;> exact keyed_other (by simp) (by simp)
  | download h =>
    split_ifs at hr
    cases hr
    exact keyed_other (by simp) (by simp)
  | upload | complete | remove | purge | deleteBlob =>
    cases hr
    exact keyed_other (by simp) (by simp)
  | update | deliver | deleted | stop => cases hr

theorem row_or_deleted (hs : Known s) (ht : Keyed t) (h : Advances s t s' rest) {k : Nat} {d : Drop}
    (hd : s.drops.find k = some d) :
    (∃ d', s'.drops.find k = some d' ∧ d'.storageKey = d.storageKey) ∨
      ∃ keys, rest = some (.deleteBlobs keys) ∧ d.storageKey ∈ keys := by
  have hkey := (hs.rows k d hd).2
  have hkept : ∀ ids, k ∉ ids → ∃ d', (s.delete ids).drops.find k = some d' ∧
      d'.storageKey = d.storageKey := by
    intro ids hk
    rw [find_delete, if_neg hk]
    exact ⟨d, hd, rfl⟩
  have hwritten : ∀ (k' : Nat) (now : Int) (t : Task), ∃ d', (s.update k' now t).drops.find k =
      some d' ∧ d'.storageKey = d.storageKey := by
    intro k' now t
    rw [find_update, hd]
    refine ⟨_, rfl, ?_⟩
    split_ifs
    · exact assign_storageKey _ _ _ _
    · rfl
  cases h with
  | update hupdate htarget hnow => exact .inl (hwritten _ _ _)
  | deliver hd hbytes hnow => exact .inl (hwritten _ _ _)
  | @remove k' key =>
    by_cases hk : k = k'
    · refine .inr ⟨_, rfl, ?_⟩
      rw [hkey, ht.remove k' key rfl, hk]
      exact mem_singleton_self _
    · exact .inl (hkept _ (by simpa using hk))
  | @purge found backstop =>
    by_cases hk : k ∈ found.map Prod.fst
    · obtain ⟨x, hx, rfl⟩ := mem_map.mp hk
      refine .inr ⟨_, rfl, ?_⟩
      rw [hkey, ← ht.purge found backstop rfl x hx]
      exact mem_map_of_mem hx
    · exact .inl (hkept _ hk)
  | _ => exact .inl ⟨d, hd, rfl⟩

theorem owned_of_advance {ts : List Task} (hs : Known s) (ht : Keyed t) (h : Advances s t s' rest)
    (htasks : ts = l₁ ++ t :: l₂) (howned : Owned ⟨s, ts⟩ key)
    (hother : ∀ keys, t ≠ .deleteBlobs (key :: keys)) : Owned ⟨s', l₁ ++ rest.toList ++ l₂⟩ key := by
  have hrest : ∀ {keys}, rest = some (.deleteBlobs keys) → key ∈ keys →
      Owned ⟨s', l₁ ++ rest.toList ++ l₂⟩ key := by
    rintro keys rfl hmem
    exact .inr ⟨keys, by simp, hmem⟩
  rcases howned with ⟨k, d, hd, rfl⟩ | ⟨keys, hpending, hmem⟩
  · rcases row_or_deleted hs ht h hd with ⟨d', hd', hkey⟩ | ⟨keys, hdelete, hmem⟩
    · exact .inl ⟨k, d', hd', hkey⟩
    · exact hrest hdelete hmem
  · subst htasks
    by_cases hsame : t = .deleteBlobs keys
    · subst hsame
      cases h with
      | deleteBlob =>
        rcases mem_cons.mp hmem with rfl | hmem
        · exact absurd rfl (hother _)
        · exact hrest rfl hmem
      | deleted => cases hmem
      | stop hstop => exact absurd rfl (hstop _)
      | update hupdate htarget hnow => cases hupdate
    · refine .inr ⟨keys, ?_, hmem⟩
      simp only [mem_append, mem_cons] at hpending ⊢
      rcases hpending with hpending | heq | hpending
      · exact .inl (.inl hpending)
      · exact absurd heq.symm hsame
      · exact .inr hpending

theorem row_of_relay (h : Advances s t s' rest) {k limit : Nat} {req : Upload}
    (hr : rest = some (.relay k key limit req)) :
    ∃ d, s'.drops.find k = some d ∧ d.storageKey = key := by
  cases h with
  | upload h =>
    cases hr
    obtain ⟨d, hd, -, hkey, -⟩ := uploadDrop_ok h
    exact ⟨d, hd, hkey⟩
  | relay hfits hstores hanswers =>
    subst hr
    cases hanswers
  | download h =>
    split_ifs at hr
    cases hr
  | _ => cases hr

theorem tidy_of_step {s s' : DropSys} {l : Label Task} (hs : Tidy s) (hstep : Step dropRules s l s')
    (halone : Undisturbed DeletesAlone ⟨s, l, s'⟩) : Tidy s' := by
  cases hstep with
  | @start t hnew =>
    have howned : ∀ {key}, Owned s key → Owned ⟨s.shared, t :: s.tasks⟩ key := by
      rintro key (hrow | ⟨keys, hpending, hmem⟩)
      · exact .inl hrow
      · exact .inr ⟨keys, mem_cons_of_mem _ hpending, hmem⟩
    have hnew' : t.isNew = true := hnew
    refine ⟨hs.known, forall_mem_cons.mpr ⟨?_, hs.keyed⟩, fun key hkey => howned (hs.blobs key hkey),
      fun k key limit req hmem => ?_⟩
    · refine keyed_other ?_ ?_ <;> intros <;> rintro rfl <;> cases hnew'
    · rcases mem_cons.mp hmem with rfl | hmem
      · cases hnew'
      · exact howned (hs.relays k key limit req hmem)
  | @advance l₁ l₂ t shared rest htasks hadv =>
    have ht := hs.keyed t (by simp [htasks])
    have howned : ∀ {key}, Owned s key → (∀ keys, t ≠ .deleteBlobs (key :: keys)) →
        Owned ⟨shared, l₁ ++ rest.toList ++ l₂⟩ key :=
      fun howned => owned_of_advance hs.known ht hadv htasks howned
    refine ⟨known_of_advance hs.known hadv, fun u hu => ?_, fun key hkey => ?_,
      fun k key limit req hmem => ?_⟩
    · rcases mem_advance htasks hu with hu | hu
      · exact keyed_rest hs.known hadv u hu
      · exact hs.keyed u (mem_of_beside hu)
    · have hother : ∀ keys, t ≠ .deleteBlobs (key :: keys) := by
        rintro keys rfl
        cases hadv with
        | deleteBlob => exact hkey (Function.update_self _ _ _)
        | stop hstop => exact hstop _ rfl
        | update hupdate htarget hnow => cases hupdate
      refine howned ?_ hother
      rcases blob_of_advance key hadv with hsame | hnone | ⟨k, limit, req, rfl, -, -⟩
      · exact hs.blobs key (hsame ▸ hkey)
      · exact absurd hnone hkey
      · exact hs.relays k key limit req (by simp [htasks])
    · rcases mem_advance htasks hmem with hmem | hmem
      · obtain ⟨d, hd, hkey⟩ := row_of_relay hadv hmem
        exact .inl ⟨k, d, hd, hkey⟩
      · refine howned (hs.relays k key limit req (mem_of_beside hmem)) ?_
        rintro keys rfl
        exact halone _ rest rfl _ hmem key keys rfl k limit req rfl
  | @move shared hmove =>
    have howned : ∀ {key}, Owned s key → Owned ⟨shared, s.tasks⟩ key := by
      rintro key (⟨k, d, hd, rfl⟩ | hpending)
      · refine .inl ⟨k, d, ?_, rfl⟩
        cases hmove with
        | tick _ => exact hd
        | configure => exact hd
        | create hnow h =>
          obtain ⟨-, rfl⟩ := createDrop_ok h
          change (Store.create _ _ _ _ _).drops.find k = some d
          rw [find_create, hd]
          simp
      · exact .inr hpending
    refine ⟨known_of_move hs.known hmove, hs.keyed, fun key hkey => ?_, fun k key limit req hmem => ?_⟩
    · rw [blobs_of_move hmove] at hkey
      exact howned (hs.blobs key hkey)
    · exact howned (hs.relays k key limit req hmem)

end Orphans

theorem declineDrop_sample {blobs : Nat → Option Nat} :
    declineDrop "b" 0 (sampleStore 0 sampleNew [] blobs) = .ok 1 := rfl

end ManagedDirectory.RustDrop
