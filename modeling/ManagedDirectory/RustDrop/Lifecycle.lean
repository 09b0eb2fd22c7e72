import ManagedDirectory.RustDrop.Drops

/-!
# RustDrop: the life of a drop

The updates of `rustdrop.py` name a drop by its id alone: a late upload writes its result whatever
became of the drop since it looked it up, and of two calls of `complete_drop` that both found a drop
complete both record a transfer (`delivered_left`, `recorded_twice`).

Where an upload settles a drop only while it is the only one of that drop in flight, a drop goes
from `uploading` to `complete` to `delivered` or from `uploading` to `failed`, and keeps its content
once it is complete (`drop_lifecycle`). Where in addition no two calls of `complete_drop` overlap, a
drop has one transfer, of the size it was completed with (`one_transfer`).
-/

namespace ManagedDirectory.RustDrop

open Lib Lib.Tasks List
open Rds (DropStatus)

/-! ## One step -/

inductive StatusMove : DropStatus → DropStatus → Prop where
  | same {a : DropStatus} : StatusMove a a
  | finished : StatusMove .uploading .complete
  | failed : StatusMove .uploading .failed
  | delivered : StatusMove .complete .delivered

structure Orderly (d d' : Drop) : Prop where
  status : StatusMove d.status d'.status
  frozen : d.status = .complete ∨ d.status = .delivered →
    d'.bytesUploaded = d.bytesUploaded ∧ d'.contentSha256 = d.contentSha256

/-- A stage that may still set the status of the drop, of an upload. -/
def Task.uploads (dropId : Nat) : Task → Prop
  | .relay k _ _ _ => k = dropId
  | .finish k _ _ => k = dropId
  | .markFailed k => k = dropId
  | _ => False

def Task.settles (dropId : Nat) : Task → Prop
  | .finish k _ _ => k = dropId
  | .markFailed k => k = dropId
  | _ => False

/-- An upload settles a drop while no other upload of it is in flight. -/
def UploadsAlone (t u : Task) : Prop := ∀ dropId, t.settles dropId → ¬ u.uploads dropId

structure Staged (s : Store) (t : Task) : Prop where
  known : ∀ k ∈ t.about, k < s.next
  uploading : ∀ k d, t.uploads k → s.drops.find k = some d → d.status = .uploading
  complete : ∀ k d, t = .deliver k → s.drops.find k = some d →
    d.status = .complete ∨ d.status = .delivered

section Steps

variable {s s' : Store} {t u : Task} {rest : Option Task} {d d' : Drop} {k : Nat}

theorem Orderly.refl (d : Drop) : Orderly d d := ⟨.same, fun _ => ⟨rfl, rfl⟩⟩

theorem about_of_uploads (h : t.uploads k) : t.about = [k] := by
  cases t <;> cases h <;> rfl

theorem orderly_of_assign {now : Int} {ttl : Nat} (hstaged : Staged s t)
    (htarget : t.target = some k) (hd : s.drops.find k = some d) :
    Orderly d (t.assign now ttl d) := by
  cases t with
  | finish _ bytes sha256 =>
    cases htarget
    have hup := hstaged.uploading k d rfl hd
    refine ⟨?_, fun hdone => ?_⟩
    · rw [hup]
      exact .finished
    · rw [hup] at hdone
      simp at hdone
  | touch _ => exact ⟨.same, fun _ => ⟨rfl, rfl⟩⟩
  | markFailed _ =>
    cases htarget
    refine ⟨?_, fun _ => ⟨rfl, rfl⟩⟩
    rw [hstaged.uploading k d rfl hd]
    exact .failed
  | renewTtl _ =>
    change Orderly d (d.renewTtl now ttl)
    rw [renewTtl_fields]
    exact ⟨.same, fun _ => ⟨rfl, rfl⟩⟩
  | deliver _ =>
    cases htarget
    refine ⟨?_, fun _ => ⟨rfl, rfl⟩⟩
    rcases hstaged.complete k d rfl hd with hstatus | hstatus
    · rw [hstatus]
      exact .delivered
    · rw [hstatus]
      exact .same
  | _ => cases htarget

theorem orderly_of_advance (hstaged : Staged s t) (h : Advances s t s' rest)
    (hd : s.drops.find k = some d) (hd' : s'.drops.find k = some d') : Orderly d d' := by
  obtain ⟨d₀, hd₀, hassign⟩ := row_of_advance h hd'
  obtain rfl : d₀ = d := Option.some.inj (hd₀.symm.trans hd)
  rcases hassign with rfl | ⟨htarget, now, -, rfl⟩
  · exact .refl _
  · exact orderly_of_assign hstaged htarget hd

theorem status_of_assign {now : Int} {ttl : Nat} (htarget : t.target = some k) :
    (t.assign now ttl d).status = d.status ∨ t.settles k ∨ t = .deliver k := by
  cases t with
  | finish _ _ _ => exact .inr (.inl (Option.some.inj htarget))
  | markFailed _ => exact .inr (.inl (Option.some.inj htarget))
  | deliver _ => exact .inr (.inr (congrArg Task.deliver (Option.some.inj htarget)))
  | touch _ => exact .inl rfl
  | renewTtl _ => exact .inl (congrArg Drop.status (renewTtl_fields now ttl d) :)
  | _ => cases htarget

theorem staged_beside (hu : Staged s u) (ht : Staged s t) (h : Advances s t s' rest)
    (halone : UploadsAlone t u) : Staged s' u := by
  refine ⟨next_of_advance h ▸ hu.known, fun k d' huploads hd' => ?_, fun k d' hdeliver hd' => ?_⟩
  · obtain ⟨d, hd, rfl | ⟨htarget, now, -, rfl⟩⟩ := row_of_advance h hd'
    · exact hu.uploading k _ huploads hd
    · have hup := hu.uploading k d huploads hd
      rcases status_of_assign htarget with hsame | hsettles | rfl
      · rw [hsame, hup]
      · exact absurd huploads (halone k hsettles)
      · have hdone := ht.complete k d rfl hd
        rw [hup] at hdone
        simp at hdone
  · obtain ⟨d, hd, -⟩ := row_of_advance h hd'
    have hmove := (orderly_of_advance ht h hd hd').status
    rcases hu.complete k d hdeliver hd with hstatus | hstatus
    · rw [hstatus] at hmove
      generalize d'.status = b at hmove
      cases hmove <;> simp
    · rw [hstatus] at hmove
      generalize d'.status = b at hmove
      cases hmove
      simp

theorem staged_rest (hknown : Known s) (ht : Staged s t) (h : Advances s t s' rest) :
    ∀ r, rest = some r → Staged s' r := by
  intro r hr
  refine ⟨about_of_advance hknown h ht.known r hr, fun k d' huploads hd' => ?_,
    fun k d' hdeliver hd' => ?_⟩
  · cases h with
    | upload h =>
      cases hr
      cases huploads
      obtain ⟨d, hd, hstatus, -⟩ := uploadDrop_ok h
      rw [hd] at hd'
      cases hd'
      exact hstatus
    | relay hfits hstores hanswers =>
      subst hr
      refine ht.uploading k d' ?_ hd'
      cases hanswers <;> first | exact huploads | cases huploads
    | download h =>
      split_ifs at hr
      cases hr
      cases huploads
    | complete | decline | sweep | remove | purge | deleteBlob =>
      cases hr
      cases huploads
    | update | deliver | deleted | stop => cases hr
  · subst hdeliver
    cases h with
    | complete h =>
      cases hr
      obtain ⟨d, hd, hstatus⟩ := completeDrop_ok h
      rw [hd] at hd'
      cases hd'
      exact .inl hstatus
    | relay hfits hstores hanswers =>
      subst hr
      cases hanswers
    | download h =>
      split_ifs at hr
      cases hr
    | _ => cases hr

theorem staged_of_move (hu : Staged s u) (h : Moves s s') : Staged s' u := by
  have hnew : ∀ {k d'}, k ∈ u.about → s'.drops.find k = some d' → s.drops.find k = some d' := by
    intro k d' hk hd'
    rcases row_of_move h hd' with hd | ⟨rfl, -⟩
    · exact hd
    · exact absurd (hu.known _ hk) (lt_irrefl _)
  refine ⟨fun k hk => (hu.known k hk).trans_le (next_of_move h), fun k d' huploads hd' => ?_,
    fun k d' hdeliver hd' => ?_⟩
  · exact hu.uploading k d' huploads (hnew (by rw [about_of_uploads huploads]; simp) hd')
  · exact hu.complete k d' hdeliver (hnew (by subst hdeliver; simp [Task.about]) hd')

theorem staged_new (h : t.isNew = true) : Staged s t := by
  cases t <;> cases h <;>
    exact ⟨by simp [Task.about], fun _ _ huploads => huploads.elim, fun _ _ hdeliver => by cases hdeliver⟩

end Steps

/-! ## Whole runs -/

section Runs

variable {clock : Int} {settings : Settings} {es : List DropEv} {s : DropSys}

abbrev DropRun (clock : Int) (settings : Settings) (es : List DropEv) (s : DropSys) : Prop :=
  Run (Step dropRules) (idle (.empty clock settings)) es s

theorem known_empty : Known (.empty clock settings) := ⟨fun _ _ h => by cases h⟩

theorem staged_of_run {C : DropEv → Prop} (h : DropRun clock settings es s) (hC : ∀ e ∈ es, C e)
    (halone : ∀ e, C e → Undisturbed UploadsAlone e) :
    Known s.shared ∧ ∀ t ∈ s.tasks, Staged s.shared t := by
  refine Tasks.invariant h hC known_empty (by simp [idle]) (fun _ _ => staged_new) ?_ ?_
  · intro s s' t rest hc hknown ht hadv
    exact ⟨known_of_advance hknown hadv, staged_rest hknown ht hadv,
      fun u hbeside hu => staged_beside hu ht hadv (halone _ hc t rest rfl u hbeside)⟩
  · intro s s' _ hknown hmove
    exact ⟨known_of_move hknown hmove, fun u _ hu => staged_of_move hu hmove⟩

theorem orderly_of_step {s s' : DropSys} {l : Label Task} {k : Nat} {d d' : Drop}
    (hstaged : ∀ t ∈ s.tasks, Staged s.shared t) (hstep : Step dropRules s l s')
    (hd : s.shared.drops.find k = some d) (hd' : s'.shared.drops.find k = some d') :
    Orderly d d' := by
  cases hstep with
  | start _ =>
    obtain rfl : d = d' := Option.some.inj (hd.symm.trans hd')
    exact .refl _
  | @advance l₁ l₂ t _ _ htasks hadv =>
    exact orderly_of_advance (hstaged t (by simp [htasks])) hadv hd hd'
  | move hmove =>
    rcases row_of_move hmove hd' with hsame | ⟨-, hnone, -⟩
    · obtain rfl : d = d' := Option.some.inj (hd.symm.trans hsame)
      exact .refl _
    · rw [hnone] at hd
      cases hd

/-- **The life of a drop**, where an upload settles it only while it is the only one in flight. -/
theorem drop_lifecycle (h : DropRun clock settings es s)
    (halone : ∀ e ∈ es, Undisturbed UploadsAlone e) :
    ∀ e ∈ es, ∀ k d d', e.before.shared.drops.find k = some d →
      e.after.shared.drops.find k = some d' → Orderly d d' := by
  intro e he k d d' hd hd'
  obtain ⟨pre, post, rfl⟩ := append_of_mem he
  obtain ⟨hpre, hstep, -⟩ := h.split
  have hstaged := (staged_of_run hpre (fun e he => halone e (mem_append_left _ he))
    fun _ => id).2
  exact orderly_of_step hstaged hstep hd hd'

end Runs

/-- A drop that is uploaded, completed and taken, by requests one after the other. -/
theorem sample_drop_lifecycle : ∃ es s, DropRun 0 sampleSettings es s ∧
    ∃ e ∈ es, e.before.shared.drops.find 0 = some sampleComplete ∧
      e.after.shared.drops.find 0 = some sampleDelivered ∧
      Orderly sampleComplete sampleDelivered := by
  have halone : ∀ e : DropEv, Sampled 1 e → Undisturbed UploadsAlone e :=
    fun _ he => undisturbed_of_alone he.alone
  have hcomplete := reaches_complete (reaches_relay (reaches_created halone) rfl halone) halone
  have hasked := hcomplete.start (t := Task.complete "b" 0) rfl
    (undisturbed_of_alone (Nat.zero_le _))
  obtain ⟨es, hrun, hes⟩ := hasked.first (Advances.complete completeDrop_sample)
    (undisturbed_of_alone le_rfl)
  have hlast := hrun.snoc (step_first (Advances.deliver rfl (by decide) le_rfl))
  refine ⟨_, _, hlast, _, mem_append_right _ mem_cons_self, rfl, rfl, ?_⟩
  refine drop_lifecycle hlast ?_ _ (mem_append_right _ mem_cons_self) 0 _ _ rfl rfl
  intro e he
  rcases mem_append.mp he with he | he
  · exact hes e he
  · exact mem_singleton.mp he ▸ undisturbed_of_alone le_rfl

/-- The second of two uploads that were looked up together is done last, after the drop was
delivered: it is complete again, with another content. -/
theorem delivered_left : ¬ ∀ clock settings es s, DropRun clock settings es s →
    ∀ e ∈ es, ∀ k d d', e.before.shared.drops.find k = some d →
      e.after.shared.drops.find k = some d' → Orderly d d' := by
  intro hall
  have hany : ∀ {n : Nat} (e : DropEv), Sampled n e → True := fun _ _ => trivial
  have hfirst := reaches_relay (reaches_created hany) (show (sampleUpload 3).offset = none from rfl)
    hany
  have hcomplete := reaches_complete (reaches_relay hfirst rfl hany) hany
  have hdelivered := reaches_delivered hcomplete hany
  obtain ⟨es, hrun, -⟩ := hdelivered.first (Advances.relay rfl (.replaced rfl le_rfl)
    (show Answers 0 4 (sampleUpload 3) (some (.finish 0 3 (some "three"))) from .finished rfl)) trivial
  have hlast := hrun.snoc (step_first (Advances.update rfl rfl le_rfl))
  have horderly := hall _ _ _ _ hlast _ (mem_append_right _ mem_cons_self) 0
    sampleDelivered (sampleDrop .complete 3 (some "three") 0 (some 5)) rfl rfl
  cases horderly.status

/-! ## Transfers -/

/-- In addition, no two calls of `complete_drop` of one drop overlap after both found it complete. -/
def CompletesAlone (t u : Task) : Prop := UploadsAlone t u ∧ ∀ k, t = .deliver k → u ≠ .deliver k

structure Recorded (s : Store) : Prop where
  known : Known s
  once : ∀ k, (s.transfers.filter (·.dropId == k)).length ≤ 1
  pending : ∀ k d, s.drops.find k = some d → d.status ≠ .delivered →
    ∀ x ∈ s.transfers, x.dropId ≠ k
  given : ∀ x ∈ s.transfers, x.dropId < s.next

structure Ready (s : Store) (t : Task) : Prop where
  staged : Staged s t
  complete : ∀ k d, t = .deliver k → s.drops.find k = some d → d.status = .complete

section Transfers

variable {s s' : Store} {t u : Task} {rest : Option Task} {d d' : Drop} {k : Nat}

theorem transfers_of_advance (h : Advances s t s' rest) :
    s'.transfers = s.transfers ∨ ∃ k d now, t = .deliver k ∧ s.drops.find k = some d ∧
      s' = s.deliver d now := by
  cases h with
  | deliver hd hbytes hnow => exact .inr ⟨_, _, _, rfl, hd, rfl⟩
  | _ => exact .inl rfl

theorem not_delivered_of_orderly (h : Orderly d d') (hd' : d'.status ≠ .delivered) :
    d.status ≠ .delivered := by
  intro hd
  have hmove := h.status
  rw [hd] at hmove
  generalize hb : d'.status = b at hmove hd'
  cases hmove
  exact hd' rfl

theorem recorded_of_advance (hs : Recorded s) (ht : Ready s t) (h : Advances s t s' rest) :
    Recorded s' := by
  have hknown := known_of_advance hs.known h
  have hpending : ∀ k d', s'.drops.find k = some d' → d'.status ≠ .delivered →
      ∀ x ∈ s.transfers, x.dropId ≠ k := by
    intro k d' hd' hne
    obtain ⟨d, hd, -⟩ := row_of_advance h hd'
    exact hs.pending k d hd (not_delivered_of_orderly (orderly_of_advance ht.staged h hd hd') hne)
  rcases transfers_of_advance h with hsame | ⟨k, d, now, rfl, hd, rfl⟩
  · refine ⟨hknown, ?_, ?_, ?_⟩
    · rw [hsame]
      exact hs.once
    · rw [hsame]
      exact hpending
    · rw [hsame, next_of_advance h]
      exact hs.given
  · obtain rfl := Table.key_of_find hd
    have hnone : ∀ x ∈ s.transfers, x.dropId ≠ d.id :=
      hs.pending _ _ hd (by rw [ht.complete _ _ rfl hd]; decide)
    refine ⟨hknown, fun k => ?_, fun k d' hd' hne x hx => ?_, fun x hx => ?_⟩
    · change ((s.transfers ++ [_]).filter _).length ≤ 1
      rw [filter_append, length_append]
      by_cases hk : d.id = k
      · have hnil : s.transfers.filter (·.dropId == k) = [] := by
          rw [filter_eq_nil_iff]
          intro x hx
          simpa [hk] using hnone x hx
        rw [hnil, length_nil, Nat.zero_add]
        exact length_filter_le _ _
      · simpa [hk] using hs.once k
    · rcases mem_append.mp hx with hx | hx
      · exact hpending k d' hd' hne x hx
      · obtain rfl := mem_singleton.mp hx
        rintro rfl
        change (s.update d.id now _).drops.find d.id = some d' at hd'
        rw [find_update, hd] at hd'
        simp only [Option.map_some, if_true] at hd'
        cases hd'
        exact hne rfl
    · rcases mem_append.mp hx with hx | hx
      · exact hs.given x hx
      · obtain rfl := mem_singleton.mp hx
        exact (Nat.lt_succ_self _).trans (hs.known.rows _ _ hd).1

theorem recorded_of_move (hs : Recorded s) (h : Moves s s') : Recorded s' := by
  have hsame : s'.transfers = s.transfers := by
    cases h with
    | tick _ => rfl
    | configure => rfl
    | create hnow h =>
      obtain ⟨-, rfl⟩ := createDrop_ok h
      rfl
  refine ⟨known_of_move hs.known h, hsame ▸ hs.once, fun k d' hd' hne => ?_, fun x hx => ?_⟩
  · rw [hsame]
    rcases row_of_move h hd' with hd | ⟨rfl, -⟩
    · exact hs.pending k d' hd hne
    · exact fun x hx => (hs.given x hx).ne
  · rw [hsame] at hx
    exact (hs.given x hx).trans_le (next_of_move h)

theorem ready_rest (hknown : Known s) (ht : Ready s t) (h : Advances s t s' rest) :
    ∀ r, rest = some r → Ready s' r := by
  intro r hr
  refine ⟨staged_rest hknown ht.staged h r hr, fun k d' hdeliver hd' => ?_⟩
  subst hdeliver
  cases h with
  | complete h =>
    cases hr
    obtain ⟨d, hd, hstatus⟩ := completeDrop_ok h
    rw [hd] at hd'
    cases hd'
    exact hstatus
  | relay hfits hstores hanswers =>
    subst hr
    cases hanswers
  | download h =>
    split_ifs at hr
    cases hr
  | _ => cases hr

theorem ready_beside (hu : Ready s u) (ht : Ready s t) (h : Advances s t s' rest)
    (halone : CompletesAlone t u) : Ready s' u := by
  refine ⟨staged_beside hu.staged ht.staged h halone.1, fun k d' hdeliver hd' => ?_⟩
  obtain ⟨d, hd, rfl | ⟨htarget, now, -, rfl⟩⟩ := row_of_advance h hd'
  · exact hu.complete k _ hdeliver hd
  · have hcomplete := hu.complete k d hdeliver hd
    rcases status_of_assign htarget with hsame | hsettles | hdeliver'
    · rw [hsame, hcomplete]
    · have huploads : t.uploads k := by
        cases t <;> first | exact hsettles | cases hsettles
      rw [ht.staged.uploading k d huploads hd] at hcomplete
      cases hcomplete
    · exact absurd hdeliver (halone.2 k hdeliver')

theorem ready_of_move (hu : Ready s u) (h : Moves s s') : Ready s' u := by
  refine ⟨staged_of_move hu.staged h, fun k d' hdeliver hd' => ?_⟩
  rcases row_of_move h hd' with hd | ⟨rfl, -⟩
  · exact hu.complete k d' hdeliver hd
  · subst hdeliver
    exact absurd (hu.staged.known s.next (by simp [Task.about])) (lt_irrefl _)

theorem ready_new (h : t.isNew = true) : Ready s t := by
  refine ⟨staged_new h, fun k d hdeliver => ?_⟩
  subst hdeliver
  cases h

end Transfers

section TransferRuns

variable {clock : Int} {settings : Settings} {es : List DropEv} {s : DropSys}

theorem recorded_of_run (h : DropRun clock settings es s)
    (halone : ∀ e ∈ es, Undisturbed CompletesAlone e) :
    Recorded s.shared ∧ ∀ t ∈ s.tasks, Ready s.shared t := by
  refine Tasks.invariant h halone ?_ (by simp [idle]) (fun _ _ => ready_new) ?_ ?_
  · exact ⟨known_empty, by simp [idle, Store.empty], by simp [idle, Store.empty],
      by simp [idle, Store.empty]⟩
  · intro s s' t rest hc hs ht hadv
    exact ⟨recorded_of_advance hs ht hadv, ready_rest hs.known ht hadv,
      fun u hbeside hu => ready_beside hu ht hadv (hc t rest rfl u hbeside)⟩
  · intro s s' _ hs hmove
    exact ⟨recorded_of_move hs hmove, fun u _ hu => ready_of_move hu hmove⟩

/-- The event completes the upload of a drop, with this many bytes. -/
def Completes (k : Nat) (bytes : Int) (e : DropEv) : Prop :=
  ∃ d d', e.before.shared.drops.find k = some d ∧ d.status = .uploading ∧
    e.after.shared.drops.find k = some d' ∧ d'.status = .complete ∧ d'.bytesUploaded = bytes

theorem completed_of_run (h : DropRun clock settings es s)
    (halone : ∀ e ∈ es, Undisturbed UploadsAlone e) {k : Nat} {d : Drop}
    (hd : s.shared.drops.find k = some d) (hdone : d.status = .complete ∨ d.status = .delivered) :
    ∃ e ∈ es, Completes k d.bytesUploaded e := by
  induction h generalizing d with
  | nil => cases hd
  | @snoc es m s' l h hstep ih =>
    have hbefore := fun e he => halone e (mem_append_left _ he)
    have hstaged := (staged_of_run h hbefore fun _ => id).2
    cases hd₀ : m.shared.drops.find k with
    | none =>
      have hnew : d.status = .uploading := by
        cases hstep with
        | start _ =>
          rw [show m.shared.drops.find k = some d from hd] at hd₀
          cases hd₀
        | advance htasks hadv =>
          rw [find_none_of_advance hadv hd₀] at hd
          cases hd
        | move hmove =>
          rcases row_of_move hmove hd with hsame | ⟨-, -, _, _, _, _, -, rfl⟩
          · rw [hd₀] at hsame
            cases hsame
          · rfl
      rw [hnew] at hdone
      simp at hdone
    | some d₀ =>
      have horderly := orderly_of_step hstaged hstep hd₀ hd
      by_cases hdone₀ : d₀.status = .complete ∨ d₀.status = .delivered
      · obtain ⟨e, he, hcompletes⟩ := ih hbefore hd₀ hdone₀
        rw [(horderly.frozen hdone₀).1]
        exact ⟨e, mem_append_left _ he, hcompletes⟩
      · have hmove := horderly.status
        refine ⟨_, mem_append_right _ mem_cons_self, d₀, d, hd₀, ?_, hd, ?_, rfl⟩ <;>
          generalize d₀.status = a at hmove hdone₀ <;> generalize d.status = b at hmove hdone <;>
          cases hmove <;> simp_all

/-- **One transfer a drop**, where no two calls of `complete_drop` overlap and an upload settles a
drop only while it is the only one in flight: it has the size the drop was completed with. -/
theorem one_transfer (h : DropRun clock settings es s)
    (halone : ∀ e ∈ es, Undisturbed CompletesAlone e) :
    (∀ k, (s.shared.transfers.filter (·.dropId == k)).length ≤ 1) ∧
      ∀ x ∈ s.shared.transfers, ∃ e ∈ es, Completes x.dropId x.bytes e := by
  refine ⟨(recorded_of_run h halone).1.once, ?_⟩
  induction h with
  | nil => simp [idle, Store.empty]
  | @snoc es m s' l h hstep ih =>
    have hbefore := fun e he => halone e (mem_append_left _ he)
    have hold : ∀ x ∈ m.shared.transfers,
        ∃ e ∈ es ++ [⟨m, l, s'⟩], Completes x.dropId x.bytes e := by
      intro x hx
      obtain ⟨e, he, hcompletes⟩ := ih hbefore x hx
      exact ⟨e, mem_append_left _ he, hcompletes⟩
    cases hstep with
    | start _ => exact hold
    | @advance l₁ l₂ t shared rest htasks hadv =>
      rcases transfers_of_advance hadv with hsame | ⟨k, d, now, rfl, hd, rfl⟩
      · intro x hx
        exact hold x (hsame ▸ hx)
      · intro x hx
        rcases mem_append.mp hx with hx | hx
        · exact hold x hx
        · obtain rfl := mem_singleton.mp hx
          have hready := (recorded_of_run h hbefore).2 (.deliver k) (by simp [htasks])
          obtain ⟨e, he, hcompletes⟩ := completed_of_run h
            (fun e he t rest hl u hu => (hbefore e he t rest hl u hu).1) hd
            (.inl (hready.complete k d rfl hd))
          obtain rfl := Table.key_of_find hd
          exact ⟨e, mem_append_left _ he, hcompletes⟩
    | move hmove =>
      intro x hx
      refine hold x ?_
      cases hmove with
      | tick _ => exact hx
      | configure => exact hx
      | create hnow h =>
        obtain ⟨-, rfl⟩ := createDrop_ok h
        exact hx

end TransferRuns

theorem sample_one_transfer : ∃ es s, DropRun 0 sampleSettings es s ∧
    s.shared.transfers = [sampleTransfer] ∧ ∃ e ∈ es, Completes 0 4 e := by
  have halone : ∀ e : DropEv, Sampled 1 e → Undisturbed CompletesAlone e :=
    fun _ he => undisturbed_of_alone he.alone
  have hcomplete := reaches_complete (reaches_relay (reaches_created halone) rfl halone) halone
  obtain ⟨es, hrun, hes⟩ := reaches_delivered hcomplete halone
  exact ⟨es, _, hrun, rfl, (one_transfer hrun hes).2 sampleTransfer (by simp [sampleStore])⟩

/-- Two calls that both found the drop complete record a transfer each. -/
theorem recorded_twice : ¬ ∀ clock settings es s, DropRun clock settings es s →
    ∀ k, (s.shared.transfers.filter (·.dropId == k)).length ≤ 1 := by
  intro hall
  have hany : ∀ {n : Nat} (e : DropEv), Sampled n e → True := fun _ _ => trivial
  have hcomplete := reaches_complete (reaches_relay (reaches_created hany) rfl hany) hany
  have hasked := hcomplete.start (t := Task.complete "b" 0) rfl trivial
  have hfound := hasked.first (Advances.complete completeDrop_sample) trivial
  obtain ⟨es, hrun, -⟩ := (reaches_delivered hfound hany).first
    (Advances.deliver rfl (by decide) le_rfl) trivial
  have honce := hall _ _ _ _ hrun 0
  revert honce
  decide

end ManagedDirectory.RustDrop
