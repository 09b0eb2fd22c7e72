import ManagedDirectory.Rds.Enrollment

/-!
# RDS: health alerts

Watchers report the state of a condition again and again; `_record_health_event` keeps one row for
each condition and sends a notification when the state changes. The decision to notify is made from
the row that was read, the new row by the upsert that follows it.

`health_alerts`: after any reports the row of a condition says since when it has been in its state,
and the notifications about it have alternated, the last one telling the state of the row.
-/

namespace ManagedDirectory.Rds

open Lib List

/-- A row of `health_alert_state`. -/
structure HealthAlertState where
  conditionKey : String
  isActive : Bool
  detail : Option String
  firstActiveAt : Option Int
  lastChangedAt : Int
  lastReportedAt : Int
  deriving DecidableEq

abbrev HealthAlerts := Table HealthAlertState HealthAlertState.conditionKey

/-- The arguments of `_record_health_event`, and the time it reads. -/
structure HealthReport where
  conditionKey : String
  isActive : Bool
  detail : Option String
  now : Int

structure HealthNotification where
  title : String
  body : String
  conditionKey : String
  deriving DecidableEq

namespace HealthReport

def key (r : HealthReport) : String := strip r.conditionKey

/-- `str(detail).strip()[:2000] if detail else None`. -/
def text (r : HealthReport) : Option String :=
  (r.detail.filter (· ≠ "")).map fun detail => String.ofList ((strip detail).toList.take 2000)

/-- No column holds a NUL, and the key is a `VARCHAR(64)`. -/
def fits (r : HealthReport) : Bool :=
  storable r.key && decide (r.key.length ≤ 64) && r.text.all storable

def row (r : HealthReport) : HealthAlertState where
  conditionKey := r.key
  isActive := r.isActive
  detail := r.text
  firstActiveAt := if r.isActive then some r.now else none
  lastChangedAt := r.now
  lastReportedAt := r.now

def notification (r : HealthReport) : HealthNotification :=
  if r.isActive then
    ⟨"Server health issue", (r.text.filter (· ≠ "")).getD (r.key ++ " needs attention."), r.key⟩
  else ⟨"Server health issue resolved", r.key ++ " is back to normal.", r.key⟩

def stateChanged (r : HealthReport) : (previous : Option HealthAlertState) → Bool
  | none => r.isActive
  | some previous => previous.isActive != r.isActive

end HealthReport

/-- `ON CONFLICT (condition_key) DO UPDATE`. -/
def HealthAlertState.merge (old excluded : HealthAlertState) : HealthAlertState where
  conditionKey := old.conditionKey
  isActive := excluded.isActive
  detail := excluded.detail
  firstActiveAt :=
    if old.isActive = false ∧ excluded.isActive = true then some excluded.lastReportedAt
    else if excluded.isActive = false then none
    else old.firstActiveAt
  lastChangedAt :=
    if old.isActive ≠ excluded.isActive then excluded.lastReportedAt else old.lastChangedAt
  lastReportedAt := excluded.lastReportedAt

theorem HealthAlertState.conditionKey_merge (old excluded : HealthAlertState) :
    (old.merge excluded).conditionKey = old.conditionKey := rfl

def HealthAlerts.upsert (alerts : HealthAlerts) (excluded : HealthAlertState) : HealthAlerts :=
  match alerts.find excluded.conditionKey with
  | none => alerts.insert excluded
  | some _ =>
    alerts.update (·.conditionKey == excluded.conditionKey) (·.merge excluded)
      (·.conditionKey_merge excluded)

/-- `_record_health_event`: the table after it, and whether it notifies. -/
def recordHealthEvent (r : HealthReport) (alerts : HealthAlerts) :
    Except Failure (HealthAlerts × Bool) :=
  if r.key = "" then .error .exception
  else if r.fits = false then .error .exception
  else .ok (alerts.upsert r.row, r.stateChanged (alerts.find r.key))

structure HealthSystem where
  alerts : HealthAlerts
  sent : List HealthNotification

namespace HealthSystem

def start : HealthSystem := ⟨Table.empty _, []⟩

def report (s : HealthSystem) (r : HealthReport) : HealthSystem :=
  match recordHealthEvent r s.alerts with
  | .error _ => s
  | .ok (alerts, changed) => ⟨alerts, s.sent ++ if changed then [r.notification] else []⟩

def reports (s : HealthSystem) (rs : List HealthReport) : HealthSystem := rs.foldl report s

def sentAbout (s : HealthSystem) (key : String) : List HealthNotification :=
  s.sent.filter (·.conditionKey = key)

end HealthSystem

def reportsOf (key : String) (rs : List HealthReport) : List HealthReport :=
  rs.filter fun r => r.key = key ∧ r.key ≠ "" ∧ r.fits = true

/-! ## One report -/

section Report

variable {r : HealthReport} {s : HealthSystem} {key : String}

def HealthReport.stored (r : HealthReport) : (previous : Option HealthAlertState) → HealthAlertState
  | none => r.row
  | some previous => previous.merge r.row

theorem find_upsert (alerts : HealthAlerts) : (alerts.upsert r.row).find key =
    if r.key = key then some (r.stored (alerts.find key)) else alerts.find key := by
  have hrow : r.row.conditionKey = r.key := rfl
  unfold HealthAlerts.upsert
  rw [hrow]
  split
  · rename_i hnone
    rw [Table.find_insert, hrow]
    split_ifs with h hkey hkey
    · rw [h.2]
      rfl
    · exact absurd h.1 hkey
    · exact absurd ⟨hkey, hkey ▸ hnone⟩ h
    · rfl
  · rename_i old hold
    rw [Table.find_update]
    split_ifs with hkey
    · subst hkey
      rw [hold, Option.map_some, if_pos (by simpa using Table.key_of_find hold)]
      rfl
    · cases hfind : alerts.find key with
      | none => rfl
      | some other =>
        have hother := Table.key_of_find hfind
        rw [Option.map_some, if_neg]
        simpa [hother] using fun heq => hkey (Eq.symm heq)

theorem conditionKey_notification : r.notification.conditionKey = r.key := by
  unfold HealthReport.notification
  split_ifs <;> rfl

theorem report_other (h : ¬ (r.key = key ∧ r.key ≠ "" ∧ r.fits = true)) :
    (s.report r).alerts.find key = s.alerts.find key ∧
      (s.report r).sentAbout key = s.sentAbout key := by
  unfold HealthSystem.report recordHealthEvent
  split_ifs with hblank hfits
  · exact ⟨rfl, rfl⟩
  · exact ⟨rfl, rfl⟩
  · have hkey : r.key ≠ key := fun hkey => h ⟨hkey, hblank, by simpa using hfits⟩
    refine ⟨by simp only [find_upsert, if_neg hkey], ?_⟩
    simp only [HealthSystem.sentAbout, filter_append]
    split_ifs <;> simp [conditionKey_notification, hkey]

theorem report_own (hkey : r.key = key) (hblank : r.key ≠ "") (hfits : r.fits = true) :
    (s.report r).alerts.find key = some (r.stored (s.alerts.find key)) ∧
      (s.report r).sentAbout key = s.sentAbout key ++
        if r.stateChanged (s.alerts.find key) then [r.notification] else [] := by
  subst hkey
  unfold HealthSystem.report recordHealthEvent
  rw [if_neg hblank, if_neg (by simp [hfits])]
  refine ⟨by simp only [find_upsert, if_pos], ?_⟩
  simp only [HealthSystem.sentAbout, filter_append]
  split_ifs <;> simp [conditionKey_notification]

end Report

/-! ## Every sequence of reports -/

/-- `r` is the report since which the condition has been in the state of its last report. -/
def ChangedBy (rs : List HealthReport) (r : HealthReport) : Prop :=
  ∃ pre post, rs = pre ++ r :: post ∧ (∀ x ∈ post, x.isActive = r.isActive) ∧
    ∀ x, pre.getLast? = some x → x.isActive ≠ r.isActive

/-- The times of the row are those of the report since which the condition has been in its state. -/
def TimedBy (rs : List HealthReport) (s : HealthAlertState) : Prop :=
  ∃ r, ChangedBy rs r ∧ s.isActive = r.isActive ∧ s.lastChangedAt = r.now ∧
    s.firstActiveAt = if r.isActive then some r.now else none

/-- What the reports `rs` about a condition have led to. -/
structure AlertsRight (rs : List HealthReport) (row : Option HealthAlertState)
    (sent : List HealthNotification) : Prop where
  reported : row = none ↔ rs = []
  alternate : ∀ i n, sent[i]? = some n →
    n.title = if i % 2 = 0 then "Server health issue" else "Server health issue resolved"
  last : (∃ n, sent.getLast? = some n ∧ n.title = "Server health issue") ↔
    ∃ s, row = some s ∧ s.isActive = true
  timed : ∀ s, row = some s → TimedBy rs s

section Sequences

variable {rs : List HealthReport} {r : HealthReport} {row : Option HealthAlertState}
  {sent : List HealthNotification}

/-- The state a row stands for; without one the condition counts as healthy. -/
def active (row : Option HealthAlertState) : Bool := row.any (·.isActive)

theorem stateChanged_eq_false (h : r.stateChanged row = false) : r.isActive = active row := by
  cases row with
  | none => exact h
  | some s => exact (by simpa [HealthReport.stateChanged] using h : s.isActive = r.isActive).symm

theorem stateChanged_eq_true (h : r.stateChanged row = true) : r.isActive = !active row := by
  cases row with
  | none => exact h
  | some s =>
    have hne : s.isActive ≠ r.isActive := by simpa [HealthReport.stateChanged] using h
    show r.isActive = !s.isActive
    cases hs : s.isActive <;> cases hr : r.isActive <;> simp_all

theorem ChangedBy.last (h : ChangedBy rs r) {x : HealthReport} (hx : rs.getLast? = some x) :
    x.isActive = r.isActive := by
  obtain ⟨pre, post, rfl, hpost, -⟩ := h
  rw [getLast?_append_cons] at hx
  cases post with
  | nil => cases hx; rfl
  | cons y post => exact hpost x (List.mem_of_getLast? (by simpa using hx))

theorem ChangedBy.same {r₀ : HealthReport} (h : ChangedBy rs r₀) (hsame : r.isActive = r₀.isActive) :
    ChangedBy (rs ++ [r]) r₀ := by
  obtain ⟨pre, post, rfl, hpost, hpre⟩ := h
  refine ⟨pre, post ++ [r], by simp, fun x hx => ?_, hpre⟩
  rcases mem_append.mp hx with hx | hx
  · exact hpost x hx
  · rwa [mem_singleton.mp hx]

theorem ChangedBy.new (h : ∀ x, rs.getLast? = some x → x.isActive ≠ r.isActive) :
    ChangedBy (rs ++ [r]) r :=
  ⟨rs, [], rfl, by simp, h⟩

theorem timedBy_stored (hreported : row = none ↔ rs = [])
    (htimed : ∀ s, row = some s → TimedBy rs s) : TimedBy (rs ++ [r]) (r.stored row) := by
  cases row with
  | none =>
    obtain rfl := hreported.mp rfl
    exact ⟨r, .new (by simp), rfl, rfl, rfl⟩
  | some s =>
    obtain ⟨r₀, hchanged, hstate, hat, hfirst⟩ := htimed s rfl
    by_cases hsame : s.isActive = r.isActive
    · have hr : r.isActive = r₀.isActive := hsame.symm.trans hstate
      refine ⟨r₀, hchanged.same hr, hr, ?_, ?_⟩
      · exact (if_neg (not_not.mpr hsame)).trans hat
      · rw [← hfirst]
        -- the two branches of the upsert that change `first_active_at` need a change of state
        show (if s.isActive = false ∧ r.isActive = true then some r.now
          else if r.isActive = false then none else s.firstActiveAt) = s.firstActiveAt
        rw [hfirst, ← hstate, ← hsame]
        cases s.isActive <;> rfl
    · refine ⟨r, .new fun x hx heq => hsame ?_, rfl, if_pos hsame, ?_⟩
      · exact hstate.trans ((hchanged.last hx).symm.trans heq)
      · show (if s.isActive = false ∧ r.isActive = true then some r.now
          else if r.isActive = false then none else s.firstActiveAt) = _
        revert hsame
        cases s.isActive <;> cases r.isActive <;> simp

/-- What has been sent alternates, and its number tells the state of the row. -/
structure SentRight (row : Option HealthAlertState) (sent : List HealthNotification) : Prop where
  alternate : ∀ i n, sent[i]? = some n →
    n.title = if i % 2 = 0 then "Server health issue" else "Server health issue resolved"
  parity : sent.length % 2 = if active row then 1 else 0

theorem title_notification : r.notification.title =
    if r.isActive then "Server health issue" else "Server health issue resolved" := by
  unfold HealthReport.notification
  split_ifs <;> rfl

theorem active_stored : active (some (r.stored row)) = r.isActive := by
  cases row <;> rfl

theorem SentRight.report (h : SentRight row sent) : SentRight (some (r.stored row))
    (sent ++ if r.stateChanged row then [r.notification] else []) := by
  cases hchanged : r.stateChanged row with
  | false =>
    refine ⟨by simpa using h.alternate, ?_⟩
    rw [active_stored, stateChanged_eq_false hchanged]
    simpa using h.parity
  | true =>
    have hstate := stateChanged_eq_true hchanged
    refine ⟨fun i n hn => ?_, ?_⟩
    · rw [if_pos rfl, List.getElem?_append] at hn
      split_ifs at hn with hi
      · exact h.alternate i n hn
      · rw [List.getElem?_singleton] at hn
        split_ifs at hn with hlast
        obtain rfl := Option.some.inj hn
        have hlen : i = sent.length := by omega
        rw [title_notification, hstate, hlen, h.parity]
        cases active row <;> rfl
    · rw [active_stored, hstate]
      have hparity := h.parity
      simp only [if_pos, length_append, length_singleton]
      cases hactive : active row <;> simp only [hactive] at hparity ⊢ <;> simp at hparity ⊢ <;> omega

theorem SentRight.last (h : SentRight row sent) :
    (∃ n, sent.getLast? = some n ∧ n.title = "Server health issue") ↔
      ∃ s, row = some s ∧ s.isActive = true := by
  have hactive : active row = true ↔ ∃ s, row = some s ∧ s.isActive = true := by
    cases row <;> simp [active]
  rw [← hactive, getLast?_eq_getElem?]
  constructor
  · rintro ⟨n, hn, htitle⟩
    have hlen := (List.getElem?_eq_some_iff.mp hn).1
    have hodd := h.alternate _ n hn
    rw [htitle] at hodd
    by_contra hinactive
    have heven := h.parity
    rw [if_neg hinactive] at heven
    rw [if_neg (by omega)] at hodd
    exact absurd hodd (by decide)
  · intro hact
    have hodd := h.parity
    rw [if_pos hact] at hodd
    have hlen : sent.length - 1 < sent.length := by omega
    refine ⟨sent[sent.length - 1], List.getElem?_eq_getElem hlen, ?_⟩
    rw [h.alternate _ _ (List.getElem?_eq_getElem hlen), if_pos (by omega)]

/-- **Health alerts.** After any reports, of this condition and of others: the notifications about a
condition alternate, starting with an issue, and the last one is an issue exactly when the row is
active; `first_active_at` is the time of the report that started the current active episode, and null
when there is none; `last_changed_at` is the time of the last report that changed the state, or of
the first one. -/
theorem health_alerts (rs : List HealthReport) (key : String) :
    AlertsRight (reportsOf key rs) ((HealthSystem.start.reports rs).alerts.find key)
      ((HealthSystem.start.reports rs).sentAbout key) := by
  suffices h : ((HealthSystem.start.reports rs).alerts.find key = none ↔ reportsOf key rs = []) ∧
      SentRight ((HealthSystem.start.reports rs).alerts.find key)
        ((HealthSystem.start.reports rs).sentAbout key) ∧
      ∀ s, (HealthSystem.start.reports rs).alerts.find key = some s →
        TimedBy (reportsOf key rs) s by
    obtain ⟨hreported, hsent, htimed⟩ := h
    exact ⟨hreported, hsent.alternate, hsent.last, htimed⟩
  induction rs using List.reverseRecOn with
  | nil => exact ⟨by simp [HealthSystem.reports, HealthSystem.start, reportsOf],
      ⟨fun i n hn => (by cases hn), rfl⟩, fun s hs => (by cases hs)⟩
  | append_singleton rs r ih =>
    obtain ⟨hreported, hsent, htimed⟩ := ih
    have hreports : HealthSystem.start.reports (rs ++ [r]) =
        (HealthSystem.start.reports rs).report r := by simp [HealthSystem.reports]
    rw [hreports]
    by_cases hr : r.key = key ∧ r.key ≠ "" ∧ r.fits = true
    · have hown : reportsOf key (rs ++ [r]) = reportsOf key rs ++ [r] := by
        simp only [reportsOf, filter_append, filter_singleton, decide_eq_true hr]
        rfl
      obtain ⟨hrow, hsentAbout⟩ := @report_own r (HealthSystem.start.reports rs) key hr.1 hr.2.1 hr.2.2
      rw [hown, hrow, hsentAbout]
      refine ⟨by simp, hsent.report, fun s hs => ?_⟩
      obtain rfl := Option.some.inj hs
      exact timedBy_stored hreported htimed
    · have hother : reportsOf key (rs ++ [r]) = reportsOf key rs := by
        simp only [reportsOf, filter_append, filter_singleton, decide_eq_false hr]
        exact append_nil _
      obtain ⟨hrow, hsentAbout⟩ := @report_other r (HealthSystem.start.reports rs) key hr
      rw [hother, hrow, hsentAbout]
      exact ⟨hreported, hsent, htimed⟩

end Sequences

end ManagedDirectory.Rds
