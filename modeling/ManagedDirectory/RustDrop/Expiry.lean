import ManagedDirectory.RustDrop.Lifecycle

/-!
# RustDrop: expiry

The sweep selects expired drops and deletes them by id: a drop that is renewed or makes progress in
between is deleted all the same (`swept_renewed`). Where nobody updates a drop between the two, the
sweep deletes only drops that are due at that moment (`sweep_deletes_due`).

Every download from byte 0 of a complete drop moves its expiry to one TTL from then, however often
(`renewed_again`). Where such downloads come within one TTL of the completion, a drop expires within
two (`ttl_bounded`).
-/

namespace ManagedDirectory.RustDrop

open Lib Lib.Tasks List

/-! ## The sweep -/

/-- A drop that has expired, or has made no progress for the backstop. -/
def Due (now : Int) (backstop : Nat) (d : Drop) : Prop :=
  (∃ expiresAt, d.expiresAt = some expiresAt ∧ expiresAt < now) ∨
    (d.status = .uploading ∨ d.status = .failed) ∧ d.updatedAt < now - backstop

theorem expired_iff {now : Int} {backstop : Nat} {d : Drop} :
    d.expired now backstop = true ↔ Due now backstop d := by
  simp [Drop.expired, Due, Option.any_eq_true]

theorem Due.mono {now now' : Int} {backstop : Nat} {d : Drop} (h : Due now backstop d)
    (hnow : now ≤ now') : Due now' backstop d := by
  rcases h with ⟨x, hx, hlt⟩ | ⟨hstatus, hlt⟩
  · exact .inl ⟨x, hx, hlt.trans_le hnow⟩
  · exact .inr ⟨hstatus, by omega⟩

/-- Nobody updates a drop that a sweep has selected and not deleted yet. -/
def SweepsAlone (t u : Task) : Prop :=
  ∀ k, t.target = some k → ∀ found backstop, u = .purge found backstop → k ∉ found.map Prod.fst

def Selected (s : Store) (t : Task) : Prop :=
  ∀ found backstop, t = .purge found backstop → ∀ k ∈ found.map Prod.fst,
    k < s.next ∧ ∀ d, s.drops.find k = some d → Due s.clock backstop d

section Sweep

variable {s s' : Store} {t u : Task} {rest : Option Task}

theorem clock_of_advance (h : Advances s t s' rest) : s'.clock = s.clock := by
  cases h <;> rfl

theorem clock_of_move (h : Moves s s') : s.clock ≤ s'.clock := by
  cases h with
  | tick h => exact h
  | configure => exact le_rfl
  | create hnow h =>
    obtain ⟨-, rfl⟩ := createDrop_ok h
    exact le_rfl

theorem selected_beside (hu : Selected s u) (h : Advances s t s' rest) (halone : SweepsAlone t u) :
    Selected s' u := by
  intro found backstop hpurge k hk
  obtain ⟨hlt, hdue⟩ := hu found backstop hpurge k hk
  rw [next_of_advance h, clock_of_advance h]
  refine ⟨hlt, fun d' hd' => ?_⟩
  obtain ⟨d, hd, rfl | ⟨htarget, -⟩⟩ := row_of_advance h hd'
  · exact hdue _ hd
  · exact absurd hk (halone k htarget found backstop hpurge)

theorem selected_rest (hs : Known s) (h : Advances s t s' rest) :
    ∀ r, rest = some r → Selected s' r := by
  intro r hr found backstop hpurge
  subst hpurge
  cases h with
  | @sweep now hnow =>
    cases hr
    intro k hk
    obtain ⟨⟨k, key⟩, hmem, rfl⟩ := mem_map.mp hk
    obtain ⟨d, hd, -, hexpired⟩ := mem_expired hmem
    refine ⟨(Nat.lt_succ_self _).trans (hs.rows _ _ hd).1, fun d' hd' => ?_⟩
    obtain rfl : d = d' := Option.some.inj (hd.symm.trans hd')
    exact (expired_iff.mp hexpired).mono hnow
  | relay hfits hstores hanswers =>
    subst hr
    cases hanswers
  | download h =>
    split_ifs at hr
    cases hr
  | _ => cases hr

theorem selected_of_move (hu : Selected s u) (h : Moves s s') : Selected s' u := by
  intro found backstop hpurge k hk
  obtain ⟨hlt, hdue⟩ := hu found backstop hpurge k hk
  refine ⟨hlt.trans_le (next_of_move h), fun d' hd' => ?_⟩
  rcases row_of_move h hd' with hd | ⟨rfl, -⟩
  · exact (hdue d' hd).mono (clock_of_move h)
  · exact absurd hlt (lt_irrefl _)

theorem mem_of_purge {found : List (Nat × Nat)} {backstop k : Nat} {d : Drop}
    (h : Advances s (.purge found backstop) s' rest) (hd : s.drops.find k = some d)
    (hgone : s'.drops.find k = none) : k ∈ found.map Prod.fst := by
  by_contra hk
  cases h with
  | purge =>
    rw [find_delete, if_neg hk, hd] at hgone
    cases hgone
  | update hupdate _ _ => cases hupdate
  | stop _ =>
    rw [hd] at hgone
    cases hgone

end Sweep

theorem selected_of_run {clock : Int} {settings : Settings} {es : List DropEv} {s : DropSys}
    (h : DropRun clock settings es s) (halone : ∀ e ∈ es, Undisturbed SweepsAlone e) :
    ∀ t ∈ s.tasks, Selected s.shared t := by
  refine (Tasks.invariant h halone known_empty (by simp [idle]) ?_ ?_ ?_).2
  · intro s s' t _ _ hnew found backstop hpurge
    subst hpurge
    cases hnew
  · intro s s' t rest hc hknown _ hadv
    exact ⟨known_of_advance hknown hadv, selected_rest hknown hadv,
      fun u hbeside hu => selected_beside hu hadv (hc t rest rfl u hbeside)⟩
  · intro s s' _ hknown hmove
    exact ⟨known_of_move hknown hmove, fun u _ hu => selected_of_move hu hmove⟩

theorem reaches_purge {C : DropEv → Prop} (hC : ∀ e, Sampled 1 e → C e) :
    Reaches dropRules C sampleEmpty
      ⟨sampleStore 6 sampleComplete [] (sampleBlobs 4), [.purge [(0, 1)] 7]⟩ := by
  have hcomplete := reaches_complete (reaches_relay (reaches_created hC) rfl hC) hC
  have hlater := hcomplete.move (Moves.tick (show (0 : Int) ≤ 6 by decide))
    (hC _ ⟨Nat.zero_le _, ⟨rfl, rfl⟩, by rintro _ _ _ ⟨⟩⟩)
  have hstarted := hlater.start (t := Task.sweep) rfl (hC _ ⟨Nat.zero_le _, ⟨rfl, rfl⟩, by rintro _ _ _ ⟨⟩⟩)
  exact hstarted.first (@Advances.sweep _ 6 le_rfl)
    (hC _ ⟨le_rfl, ⟨rfl, rfl⟩, by rintro _ _ _ ⟨⟩⟩)

theorem reaches_renewed {C : DropEv → Prop} {s₀ : DropSys} {ts : List Task} {clock x y : Int}
    {blobs : Nat → Option Nat}
    (h : Reaches dropRules C s₀
      ⟨sampleStore clock (sampleDrop .complete 4 (some "four") y (some x)) [] blobs, ts⟩)
    (hC : ∀ e, Sampled (ts.length + 1) e → e.before.shared.clock = clock → C e) :
    Reaches dropRules C s₀
      ⟨sampleStore clock (sampleDrop .complete 4 (some "four") clock (some (clock + 5))) [] blobs,
        ts⟩ := by
  have hasked := h.start (t := Task.download "b" 0 none) rfl
    (hC _ ⟨Nat.le_succ _, ⟨rfl, rfl⟩, by rintro _ _ _ ⟨⟩⟩ rfl)
  have hfound := hasked.first (Advances.download rfl) (hC _ ⟨le_rfl, ⟨rfl, rfl⟩, by rintro _ _ _ ⟨⟩⟩ rfl)
  exact hfound.first (@Advances.update _ (.renewTtl 0) 0 clock rfl rfl le_rfl)
    (hC _ ⟨le_rfl, ⟨rfl, rfl⟩, by rintro _ _ _ ⟨⟩⟩ rfl)

/-- **The sweep deletes what is due**, where nobody updates a drop between its selection and its
deletion. -/
theorem sweep_deletes_due {clock : Int} {settings : Settings} {es : List DropEv} {s : DropSys}
    (h : DropRun clock settings es s) (halone : ∀ e ∈ es, Undisturbed SweepsAlone e) :
    ∀ e ∈ es, ∀ found backstop rest, e.label = .advance (.purge found backstop) rest →
      ∀ k d, e.before.shared.drops.find k = some d → e.after.shared.drops.find k = none →
        Due e.before.shared.clock backstop d := by
  intro e he found backstop rest hl k d hd hgone
  obtain ⟨pre, post, rfl⟩ := append_of_mem he
  obtain ⟨hpre, hstep, -⟩ := h.split
  have hselected := selected_of_run hpre fun e he => halone e (mem_append_left _ he)
  rw [hl] at hstep
  generalize e.after = after at hstep hgone
  cases hstep with
  | advance htasks hadv =>
    have hmem := mem_of_purge hadv hd hgone
    exact (hselected _ (by simp [htasks]) found backstop rfl k hmem).2 d hd

/-- A sweep that runs by itself deletes a drop a second after it has expired. -/
theorem sample_sweep_deletes_due : ∃ es s, DropRun 0 sampleSettings es s ∧
    ∃ e ∈ es, e.label = .advance (.purge [(0, 1)] 7) (some (.deleteBlobs [1])) ∧
      e.before.shared.drops.find 0 = some sampleComplete ∧
      e.after.shared.drops.find 0 = none ∧ Due 6 7 sampleComplete := by
  obtain ⟨es, hrun, hes⟩ := reaches_purge (C := Undisturbed SweepsAlone)
    fun _ he => undisturbed_of_alone he.alone
  have hlast := hrun.snoc (step_first Advances.purge)
  refine ⟨_, _, hlast, _, mem_append_right _ mem_cons_self, rfl, rfl, rfl, ?_⟩
  refine sweep_deletes_due hlast ?_ _ (mem_append_right _ mem_cons_self) _ _ _ rfl 0 _
    rfl rfl
  intro e he
  rcases mem_append.mp he with he | he
  · exact hes e he
  · exact mem_singleton.mp he ▸ undisturbed_of_alone le_rfl

/-- The recipient starts a download between the two statements of a sweep: the drop is deleted with
all of its new time left. -/
theorem swept_renewed : ¬ ∀ clock settings es s, DropRun clock settings es s →
    ∀ e ∈ es, ∀ found backstop rest, e.label = .advance (.purge found backstop) rest →
      ∀ k d, e.before.shared.drops.find k = some d → e.after.shared.drops.find k = none →
        Due e.before.shared.clock backstop d := by
  intro hall
  have hany : ∀ {n : Nat} (e : DropEv), Sampled n e → True := fun _ _ => trivial
  obtain ⟨es, hrun, -⟩ := reaches_renewed (reaches_purge hany) fun _ _ _ => trivial
  have hlast := hrun.snoc (step_first Advances.purge)
  have hdue := hall _ _ _ _ hlast _ (mem_append_right _ mem_cons_self) _ _ _ rfl 0
    (sampleDrop .complete 4 (some "four") 6 (some 11)) rfl rfl
  have hexpired := expired_iff.mpr hdue
  cases hexpired

/-! ## The TTL -/

/-- The row becomes complete in the event, at the time `c`. -/
def CompletedAt (k : Nat) (c : Int) (e : DropEv) : Prop :=
  ∃ d d', e.before.shared.drops.find k = some d ∧ d.status ≠ .complete ∧
    e.after.shared.drops.find k = some d' ∧ d'.status = .complete ∧ d'.updatedAt = c

def RenewedBy (k : Nat) (limit : Int) (e : DropEv) : Prop :=
  ∀ rest, e.label = .advance (.renewTtl k) rest → e.before.shared.clock ≤ limit

/-- The drop, if it is still there, is complete or delivered and expires by `limit`. -/
structure Expires (k : Nat) (limit : Int) (s : Store) : Prop where
  known : Known s
  given : k < s.next
  row : ∀ d, s.drops.find k = some d → (d.status = .complete ∨ d.status = .delivered) ∧
    ∃ x, d.expiresAt = some x ∧ x ≤ limit

section Ttl

variable {s s' : Store} {t : Task} {rest : Option Task} {k ttl : Nat} {limit now : Int} {d : Drop}

theorem renewTtl_expires (hd : ∃ x, d.expiresAt = some x ∧ x ≤ limit) (hnow : now + ttl ≤ limit) :
    ∃ x, (d.renewTtl now ttl).expiresAt = some x ∧ x ≤ limit := by
  unfold Drop.renewTtl
  split
  · exact ⟨_, rfl, hnow⟩
  · exact hd

theorem expires_of_advance (hs : Expires k limit s) (ht : Staged s t) (h : Advances s t s' rest)
    (hrenew : t = .renewTtl k → s.clock + s.settings.ttl ≤ limit) : Expires k limit s' := by
  refine ⟨known_of_advance hs.known h, next_of_advance h ▸ hs.given, fun d' hd' => ?_⟩
  obtain ⟨d, hd, rfl | ⟨htarget, now, hnow, rfl⟩⟩ := row_of_advance h hd'
  · exact hs.row _ hd
  · obtain ⟨hstatus, hexpires⟩ := hs.row d hd
    cases t with
    | finish | markFailed =>
      cases htarget
      rw [ht.uploading k d rfl hd] at hstatus
      simp at hstatus
    | touch => exact ⟨hstatus, hexpires⟩
    | renewTtl =>
      cases htarget
      refine ⟨(congrArg Drop.status (renewTtl_fields now _ d) :) ▸ hstatus,
        renewTtl_expires hexpires ?_⟩
      have := hrenew rfl
      omega
    | deliver => exact ⟨.inr rfl, hexpires⟩
    | _ => cases htarget

theorem expires_of_move (hs : Expires k limit s) (h : Moves s s') : Expires k limit s' := by
  refine ⟨known_of_move hs.known h, hs.given.trans_le (next_of_move h), fun d' hd' => ?_⟩
  rcases row_of_move h hd' with hd | ⟨rfl, -⟩
  · exact hs.row d' hd
  · exact absurd hs.given (lt_irrefl _)

theorem assign_complete (htarget : t.target = some k) (hd : d.status ≠ .complete)
    (hcomplete : (t.assign now ttl d).status = .complete) :
    (t.assign now ttl d).expiresAt = some ((t.assign now ttl d).updatedAt + ttl) := by
  cases t with
  | finish => rfl
  | markFailed | deliver => cases hcomplete
  | touch => exact absurd hcomplete hd
  | renewTtl =>
    exact absurd ((congrArg Drop.status (renewTtl_fields now ttl d) :).symm.trans hcomplete) hd
  | _ => cases htarget

theorem expires_of_completed {e : DropEv} {c : Int} (hknown : Known e.before.shared)
    (hstep : Step dropRules e.before e.label e.after) (h : CompletedAt k c e) :
    Expires k (c + e.before.shared.settings.ttl) e.after.shared := by
  obtain ⟨d, d', hd, hstatus, hd', hcomplete, rfl⟩ := h
  have hgiven : k < e.before.shared.next := (Nat.lt_succ_self _).trans (hknown.rows k d hd).1
  suffices hrow : Known e.after.shared ∧ e.before.shared.next ≤ e.after.shared.next ∧
      d'.expiresAt = some (d'.updatedAt + e.before.shared.settings.ttl) by
    refine ⟨hrow.1, hgiven.trans_le hrow.2.1, fun d'' hd'' => ?_⟩
    obtain rfl : d' = d'' := Option.some.inj (hd'.symm.trans hd'')
    exact ⟨.inl hcomplete, _, hrow.2.2, le_rfl⟩
  generalize e.before = before, e.label = label, e.after = after at *
  cases hstep with
  | start _ =>
    obtain rfl : d = d' := Option.some.inj (hd.symm.trans hd')
    exact absurd hcomplete hstatus
  | advance htasks hadv =>
    refine ⟨known_of_advance hknown hadv, (next_of_advance hadv).ge, ?_⟩
    obtain ⟨d₀, hd₀, hassign⟩ := row_of_advance hadv hd'
    obtain rfl : d₀ = d := Option.some.inj (hd₀.symm.trans hd)
    rcases hassign with rfl | ⟨htarget, now, -, rfl⟩
    · exact absurd hcomplete hstatus
    · exact assign_complete htarget hstatus hcomplete
  | move hmove =>
    rcases row_of_move hmove hd' with hsame | ⟨-, hnone, -⟩
    · obtain rfl : d = d' := Option.some.inj (hd.symm.trans hsame)
      exact absurd hcomplete hstatus
    · rw [hnone] at hd
      cases hd

end Ttl

/-- **The TTL of a drop is bounded**, where an upload settles it only while it is the only one in
flight and every download that renews it does so within one TTL of its completion. -/
theorem ttl_bounded {clock : Int} {settings : Settings} {pre post : List DropEv} {e : DropEv}
    {s : DropSys} {ttl k : Nat} {c : Int} (h : DropRun clock settings (pre ++ e :: post) s)
    (httl : ∀ x ∈ pre ++ e :: post, x.before.shared.settings.ttl = ttl)
    (hcompleted : CompletedAt k c e)
    (halone : ∀ x ∈ pre ++ e :: post, Undisturbed UploadsAlone x)
    (hrenewed : ∀ x ∈ post, RenewedBy k (c + ttl) x) :
    ∀ d x, s.shared.drops.find k = some d → d.expiresAt = some x → x ≤ c + 2 * ttl := by
  obtain ⟨hpre, hstep, hpost⟩ := h.split
  have hbefore := staged_of_run hpre (fun x hx => halone x (mem_append_left _ hx)) fun _ => id
  have hafter := staged_of_run (hpre.snoc hstep) (fun x hx => halone x (by
    simp only [mem_append, mem_cons, not_mem_nil, or_false] at hx ⊢
    tauto)) fun _ => id
  have hstart : Expires k (c + 2 * ttl) e.after.shared := by
    obtain ⟨hknown, hgiven, hrow⟩ := expires_of_completed hbefore.1 hstep hcompleted
    refine ⟨hknown, hgiven, fun d hd => ?_⟩
    obtain ⟨hstatus, x, hx, hle⟩ := hrow d hd
    rw [httl e (by simp)] at hle
    exact ⟨hstatus, x, hx, by omega⟩
  have hend := (Tasks.invariant hpost
    (C := fun x => x.before.shared.settings.ttl = ttl ∧ Undisturbed UploadsAlone x ∧
      RenewedBy k (c + ttl) x)
    (fun x hx => ⟨httl x (by simp [hx]), halone x (by simp [hx]), hrenewed x hx⟩)
    (I := Expires k (c + 2 * ttl)) (J := Staged) hstart hafter.2 (fun _ _ => staged_new) ?_ ?_).1
  · intro d x hd hx
    obtain ⟨-, x', hx', hle⟩ := hend.row d hd
    rw [hx] at hx'
    cases hx'
    exact hle
  · rintro s s' t rest ⟨hT, hu, hr⟩ hI ht hadv
    refine ⟨expires_of_advance hI ht hadv ?_, staged_rest hI.known ht hadv,
      fun u hbeside hu' => staged_beside hu' ht hadv (hu t rest rfl u hbeside)⟩
    rintro rfl
    have hclock := hr rest rfl
    change s.shared.settings.ttl = ttl at hT
    change s.shared.clock ≤ _ at hclock
    omega
  · intro s s' _ hI hmove
    exact ⟨expires_of_move hI hmove, fun u _ hu => staged_of_move hu hmove⟩

section TtlSamples

variable {C : DropEv → Prop}

abbrev sampleCompletion : DropEv :=
  ⟨⟨sampleStore 0 sampleNew [] (sampleBlobs 4), [.finish 0 4 (some "four")]⟩,
    .advance (.finish 0 4 (some "four")) none,
    ⟨sampleStore 0 sampleComplete [] (sampleBlobs 4), []⟩⟩

theorem reaches_completion (hC : ∀ e, Sampled 1 e → C e) :
    Reaches dropRules C sampleEmpty sampleCompletion.before :=
  reaches_finish (reaches_relay (reaches_created hC) rfl hC) hC

theorem sampled_completion : Sampled 1 sampleCompletion :=
  ⟨le_rfl, ⟨rfl, rfl⟩, by rintro _ _ _ ⟨⟩⟩

theorem step_completion :
    Step dropRules sampleCompletion.before sampleCompletion.label sampleCompletion.after :=
  step_first (@Advances.update (sampleStore 0 sampleNew [] (sampleBlobs 4))
    (.finish 0 4 (some "four")) 0 0 rfl rfl le_rfl)

theorem completedAt_sample : CompletedAt 0 0 sampleCompletion :=
  ⟨_, _, rfl, by decide, rfl, rfl, rfl⟩

theorem reaches_later {clock clock' x y : Int} {s₀ : DropSys}
    (h : Reaches dropRules C s₀
      ⟨sampleStore clock (sampleDrop .complete 4 (some "four") y (some x)) [] (sampleBlobs 4), []⟩)
    (hle : clock ≤ clock') (hC : ∀ e, Sampled 1 e → e.before.shared.clock ≤ clock' → C e) :
    Reaches dropRules C s₀
      ⟨sampleStore clock' (sampleDrop .complete 4 (some "four") clock' (some (clock' + 5))) []
        (sampleBlobs 4), []⟩ := by
  have hlater := h.move (Moves.tick hle)
    (hC _ ⟨Nat.zero_le _, ⟨rfl, rfl⟩, by rintro _ _ _ ⟨⟩⟩ hle)
  exact reaches_renewed hlater fun e he hclock => hC e he hclock.le

end TtlSamples

/-- A drop that is complete at 0 and renewed at 4 expires at 9. -/
theorem sample_ttl_bounded : ∃ pre e post s,
    DropRun 0 sampleSettings (pre ++ e :: post) s ∧ CompletedAt 0 0 e ∧
    s.shared.drops.find 0 = some (sampleDrop .complete 4 (some "four") 4 (some 9)) ∧
    (9 : Int) ≤ 0 + 2 * (5 : Nat) := by
  have halone : ∀ e : DropEv, Sampled 1 e →
      e.before.shared.settings.ttl = 5 ∧ Undisturbed UploadsAlone e :=
    fun e he => ⟨congrArg Settings.ttl he.settings.1, undisturbed_of_alone he.alone⟩
  obtain ⟨pre, hpre, hpreC⟩ := reaches_completion halone
  obtain ⟨post, hpost, hpostC⟩ := reaches_later
    (C := fun e => (e.before.shared.settings.ttl = 5 ∧ Undisturbed UploadsAlone e) ∧
      e.before.shared.clock ≤ 4)
    (.refl sampleCompletion.after) (show (0 : Int) ≤ 4 by decide)
    fun e he hclock => ⟨halone e he, hclock⟩
  have hrun := (hpre.snoc step_completion).trans hpost
  rw [append_assoc] at hrun
  have hall : ∀ x ∈ pre ++ sampleCompletion :: post,
      x.before.shared.settings.ttl = 5 ∧ Undisturbed UploadsAlone x := by
    intro x hx
    rcases mem_append.mp hx with hx | hx
    · exact hpreC x hx
    · rcases mem_cons.mp hx with rfl | hx
      · exact halone _ sampled_completion
      · exact (hpostC x hx).1
  refine ⟨pre, sampleCompletion, post, _, hrun, completedAt_sample, rfl, ?_⟩
  refine ttl_bounded hrun (fun x hx => (hall x hx).1) completedAt_sample
    (fun x hx => (hall x hx).2) (fun x hx rest _ => ?_) _ 9 rfl rfl
  exact (hpostC x hx).2.trans (by decide)

/-- A drop that is complete at 0, downloaded from byte 0 at 4 and again at 8, expires at 13. -/
theorem renewed_again : ¬ ∀ clock settings pre e post s (ttl : Nat) k c,
    DropRun clock settings (pre ++ e :: post) s →
    (∀ x ∈ pre ++ e :: post, x.before.shared.settings.ttl = ttl) → CompletedAt k c e →
    ∀ d x, s.shared.drops.find k = some d → d.expiresAt = some x → x ≤ c + 2 * ttl := by
  intro hall
  have httl : ∀ {n : Nat} (e : DropEv), Sampled n e → e.before.shared.settings.ttl = 5 :=
    fun e he => congrArg Settings.ttl he.settings.1
  obtain ⟨pre, hpre, hpreC⟩ := reaches_completion httl
  have hrenewed := reaches_later (.refl sampleCompletion.after) (show (0 : Int) ≤ 4 by decide)
    fun e he _ => httl e he
  obtain ⟨post, hpost, hpostC⟩ := reaches_later hrenewed (show (4 : Int) ≤ 8 by decide)
    fun e he _ => httl e he
  have hrun := (hpre.snoc step_completion).trans hpost
  rw [append_assoc] at hrun
  have hbound := hall _ _ _ _ _ _ 5 0 0 hrun (fun x hx => ?_) completedAt_sample
    (sampleDrop .complete 4 (some "four") 8 (some 13)) 13 rfl rfl
  · exact absurd hbound (by decide)
  · rcases mem_append.mp hx with hx | hx
    · exact hpreC x hx
    · rcases mem_cons.mp hx with rfl | hx
      · exact httl _ sampled_completion
      · exact hpostC x hx

end ManagedDirectory.RustDrop
