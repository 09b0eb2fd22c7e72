import ManagedDirectory.Rds.EnrollmentSecrets

/-!
# RDS: enrollment attempts

The checks of `enroll_device` up to its secret (`enrollSecret`): the failure limit of the source
address, the newest secret that the password matches, and whether that one may be used. Attempts run
one after another over the table of enrollment events; each brings its own set of secrets, which
anything may have changed in between.

- `acceptance_agrees_iff`: when the check agrees with the `usable` flags of
  `list_enrollment_secrets`. It tests the newest secret with the password only.
- `limited_after_failures`: what an attempt refused by the limit says about the wrong passwords before
  it. The limiter counts its own refusals too (`limit_prolongs_itself`).
-/

namespace ManagedDirectory.Rds

open Lib List

/-- `ENROLLMENT_RATE_LIMIT_WINDOW_MINUTES`. -/
def enrollmentRateLimitWindow : Int := 15 * 60 * 1000000

/-- `item["usable"]` in the listing at the time `now`. -/
def EnrollmentSecret.usable (now : Int) (s : EnrollmentSecret) : Bool :=
  s.isActive && s.revokedAt.isNone && s.expiresAt.all (now < ·) && s.maxUses.all (s.useCount < ·)

/-- A row of `enrollment_secrets` with its `created_at`. -/
structure StoredSecret where
  createdAt : Int
  secret : EnrollmentSecret
  deriving DecidableEq

/-- `WHERE crypt(password, password_hash) = password_hash`. -/
def matching (crypt : (password hash : String) → Bool) (password : String)
    (secrets : List StoredSecret) : List StoredSecret :=
  secrets.filter fun s => crypt password s.secret.passwordHash

/-- What `ORDER BY created_at DESC LIMIT 1` may return. -/
def Newest (rows : List StoredSecret) : Option StoredSecret → Prop
  | none => rows = []
  | some s => s ∈ rows ∧ ∀ s' ∈ rows, s'.createdAt ≤ s.createdAt

/-- An attempt at `POST /v1/enrollment/devices`, with what it finds in `enrollment_secrets`. -/
structure EnrollAttempt (crypt : (password hash : String) → Bool) where
  sourceIp : String
  password : String
  now : Int
  /-- `now()` of the transaction. -/
  startedAt : Int
  writable : Bool
  secrets : List StoredSecret
  picked : Option StoredSecret
  newest : Newest (matching crypt password secrets) picked
  /-- The event written after the secret was accepted, if there is one. -/
  later : Option EnrollmentResult
  later_ne : later ≠ some .rejectedBadSecret

/-- A row of `device_enrollment_events`. -/
structure EnrollmentEvent where
  sourceIp : String
  result : EnrollmentResult
  createdAt : Int
  deriving DecidableEq

/-- The failures of an address in the window before `now`. -/
def recentFailures (events : List EnrollmentEvent) (sourceIp : String) (now : Int) : Nat :=
  events.countP fun e =>
    e.sourceIp = sourceIp ∧ e.result = .rejectedBadSecret ∧ now - enrollmentRateLimitWindow < e.createdAt

def tooManyFailures : Failure :=
  .http 429 "Too many failed enrollment attempts from this address - try again later"

def invalidPassword : Failure := .http 401 "Invalid enrollment password"

namespace EnrollAttempt

variable {crypt : (password hash : String) → Bool}

/-- A refusal and the event that is committed with it; if the event cannot be written, nothing is. -/
def refuse (a : EnrollAttempt crypt) (result : EnrollmentResult) (f : Failure) :
    List EnrollmentEvent × Except Failure StoredSecret :=
  if a.writable then ([⟨a.sourceIp, result, a.startedAt⟩], .error f) else ([], .error .exception)

/-- `enroll_device` up to its secret: the events it adds, and the secret it goes on with. -/
def enrollSecret (a : EnrollAttempt crypt) (events : List EnrollmentEvent) :
    List EnrollmentEvent × Except Failure StoredSecret :=
  if enrollmentMaxFailuresPerWindow ≤ recentFailures events a.sourceIp a.startedAt then
    a.refuse .rejectedBadSecret tooManyFailures
  else
    match a.picked with
    | none => a.refuse .rejectedBadSecret invalidPassword
    | some s =>
      match s.secret.rejection a.now with
      | some (result, detail) => a.refuse result (.http 403 detail)
      | none => ((a.later.map fun result => ⟨a.sourceIp, result, a.startedAt⟩).toList, .ok s)

end EnrollAttempt

/-! ## The listing and the check -/

section Agreement

variable {crypt : (password hash : String) → Bool} {a : EnrollAttempt crypt}
  {events : List EnrollmentEvent} {s : EnrollmentSecret} {now : Int}

theorem rejection_eq_none_iff : s.rejection now = none ↔ s.usable now = true := by
  constructor
  · intro h
    obtain ⟨hactive, hrevoked, hexpires, hlimit⟩ := usable_of_rejection h
    simp only [EnrollmentSecret.usable, hactive, hrevoked, Option.isNone_none, Bool.and_true,
      Bool.true_and, Bool.and_eq_true]
    constructor
    · cases he : s.expiresAt with
      | none => rfl
      | some expires => simpa using hexpires expires he
    · cases hm : s.maxUses with
      | none => rfl
      | some m => simpa using hlimit m hm
  · intro h
    simp only [EnrollmentSecret.usable, Bool.and_eq_true] at h
    obtain ⟨⟨⟨hactive, hrevoked⟩, hexpires⟩, hlimit⟩ := h
    unfold EnrollmentSecret.rejection
    rw [if_neg (by simp [hactive, Option.isNone_iff_eq_none.mp hrevoked]), if_neg, if_neg]
    · cases hm : s.maxUses <;> simp_all
    · cases he : s.expiresAt <;> simp_all

theorem refuse_ne_ok {result : EnrollmentResult} {f : Failure} {s : StoredSecret} :
    (a.refuse result f).2 ≠ .ok s := by
  unfold EnrollAttempt.refuse
  split_ifs <;> simp

theorem enrollSecret_ok_iff {row : StoredSecret}
    (hlimit : recentFailures events a.sourceIp a.startedAt < enrollmentMaxFailuresPerWindow) :
    (a.enrollSecret events).2 = .ok row ↔
      a.picked = some row ∧ row.secret.usable a.now = true := by
  rw [EnrollAttempt.enrollSecret, if_neg (Nat.not_le.mpr hlimit), ← rejection_eq_none_iff]
  cases a.picked with
  | none => simp [refuse_ne_ok]
  | some s =>
    simp only [Option.some.injEq]
    cases h : s.secret.rejection a.now with
    | none =>
      simp only [Except.ok.injEq]
      refine ⟨fun heq => ⟨heq, heq ▸ h⟩, And.left⟩
    | some r =>
      simp only [refuse_ne_ok, false_iff, not_and]
      rintro rfl
      simp [h]

/-- The check of every attempt with these secrets, password and time says what the listing says. -/
def AcceptanceAgrees (crypt : (password hash : String) → Bool) (secrets : List StoredSecret)
    (password : String) (now : Int) : Prop :=
  ∀ (a : EnrollAttempt crypt) (events : List EnrollmentEvent), a.secrets = secrets →
    a.password = password → a.now = now →
    recentFailures events a.sourceIp a.startedAt < enrollmentMaxFailuresPerWindow →
    ((∃ s, (a.enrollSecret events).2 = .ok s) ↔
      ∃ s ∈ secrets, crypt password s.secret.passwordHash = true ∧ s.secret.usable now = true)

/-- **When acceptance agrees with the listed state**: a newest secret with the password may be used
if any secret with it may. -/
theorem acceptance_agrees_iff (crypt : (password hash : String) → Bool)
    (secrets : List StoredSecret) (password : String) (now : Int) :
    AcceptanceAgrees crypt secrets password now ↔
      ∀ older newest, older ∈ matching crypt password secrets →
        Newest (matching crypt password secrets) (some newest) →
        older.secret.usable now = true → newest.secret.usable now = true := by
  have hlisted : (∃ s ∈ secrets, crypt password s.secret.passwordHash = true ∧
      s.secret.usable now = true) ↔
      ∃ s ∈ matching crypt password secrets, s.secret.usable now = true := by
    simp [matching, and_assoc]
  constructor
  · intro hagrees older newest holder hnewest husable
    -- an attempt from an address without failures that picks this newest secret
    have hattempt := hagrees ⟨"", password, now, now, true, secrets, some newest, hnewest, none,
      by simp⟩ [] rfl rfl rfl (by simp [recentFailures, enrollmentMaxFailuresPerWindow])
    rw [hlisted] at hattempt
    obtain ⟨row, hrow⟩ := hattempt.mpr ⟨older, holder, husable⟩
    rw [enrollSecret_ok_iff (by simp [recentFailures, enrollmentMaxFailuresPerWindow])] at hrow
    obtain ⟨hpicked, hrow⟩ := hrow
    obtain rfl := Option.some.inj hpicked
    exact hrow
  · rintro hcond a events rfl rfl rfl hlimit
    rw [hlisted]
    simp only [enrollSecret_ok_iff hlimit]
    have hnewest := a.newest
    constructor
    · rintro ⟨row, hpicked, husable⟩
      rw [hpicked] at hnewest
      exact ⟨row, hnewest.1, husable⟩
    · rintro ⟨older, holder, husable⟩
      cases hpicked : a.picked with
      | none =>
        rw [hpicked] at hnewest
        rw [show matching crypt a.password a.secrets = [] from hnewest] at holder
        cases holder
      | some newest =>
        rw [hpicked] at hnewest
        exact ⟨newest, rfl, hcond older newest holder hnewest husable⟩

end Agreement

namespace AttemptSample

def secret (createdAt : Int) (revokedAt : Option Int) : StoredSecret :=
  ⟨createdAt, "p", revokedAt.isNone, none, 0, none, revokedAt⟩

def shadowed : EnrollAttempt (· == ·) where
  sourceIp := "10.0.0.1"
  password := "p"
  now := 3
  startedAt := 3
  writable := true
  secrets := [secret 0 none, secret 1 (some 2)]
  picked := some (secret 1 (some 2))
  newest := ⟨by decide, by decide⟩
  later := none
  later_ne := by decide

end AttemptSample

open AttemptSample in
/-- A password that was given again and then revoked is refused, though the older secret with it may
be used. -/
theorem revoked_shadows_usable :
    ¬ AcceptanceAgrees (· == ·) [secret 0 none, secret 1 (some 2)] "p" 3 := by
  intro hagrees
  have hattempt := hagrees shadowed [] rfl rfl rfl (by decide)
  obtain ⟨s, hs⟩ := hattempt.mpr ⟨secret 0 none, by decide, by decide, by decide⟩
  have hrefused : (shadowed.enrollSecret []).2 =
      .error (.http 403 "Enrollment password is revoked") := rfl
  rw [hrefused] at hs
  cases hs

/-! ## The failure limit -/

section Limit

variable {crypt : (password hash : String) → Bool}

def AttemptStep (events : List EnrollmentEvent) (a : EnrollAttempt crypt)
    (events' : List EnrollmentEvent) : Prop :=
  events' = events ++ (a.enrollSecret events).1

abbrev AttemptEv (crypt : (password hash : String) → Bool) :=
  Lib.Event (List EnrollmentEvent) (EnrollAttempt crypt)

def answer (e : AttemptEv crypt) : Except Failure StoredSecret := (e.label.enrollSecret e.before).2

/-- An attempt from the address in the window before `now`. -/
def Within (sourceIp : String) (now : Int) (e : AttemptEv crypt) : Prop :=
  e.label.sourceIp = sourceIp ∧ now - enrollmentRateLimitWindow < e.label.startedAt

instance (sourceIp : String) (now : Int) (e : AttemptEv crypt) : Decidable (Within sourceIp now e) :=
  inferInstanceAs (Decidable (_ ∧ _))

theorem rejection_ne_badSecret {s : EnrollmentSecret} {now : Int} {result : EnrollmentResult}
    {detail : String} (h : s.rejection now = some (result, detail)) :
    result ≠ .rejectedBadSecret := by
  unfold EnrollmentSecret.rejection at h
  split_ifs at h <;> cases h <;> decide

theorem later_events (a : EnrollAttempt crypt) : ∀ e ∈ (a.later.map fun result =>
    (⟨a.sourceIp, result, a.startedAt⟩ : EnrollmentEvent)).toList,
    e.result ≠ .rejectedBadSecret := by
  intro e he
  obtain ⟨result, hresult, rfl⟩ := Option.map_eq_some_iff.mp (Option.mem_toList.mp he)
  exact fun hbad => a.later_ne (hbad ▸ hresult)

/-- An attempt adds a failure exactly when it is answered that the password is wrong or that there
were too many failures. -/
theorem enrollSecret_cases (a : EnrollAttempt crypt) (events : List EnrollmentEvent) :
    ((a.enrollSecret events).1 = [⟨a.sourceIp, .rejectedBadSecret, a.startedAt⟩] ∧
      ((a.enrollSecret events).2 = .error tooManyFailures ∨
        (a.enrollSecret events).2 = .error invalidPassword)) ∨
    ((∀ e ∈ (a.enrollSecret events).1, e.result ≠ .rejectedBadSecret) ∧
      (a.enrollSecret events).2 ≠ .error tooManyFailures ∧
      (a.enrollSecret events).2 ≠ .error invalidPassword) := by
  have hunwritten : a.writable = false → ∀ result f, a.refuse result f = ([], .error .exception) := by
    intro h result f
    simp [EnrollAttempt.refuse, h]
  have hwritten : a.writable = true → ∀ result f,
      a.refuse result f = ([⟨a.sourceIp, result, a.startedAt⟩], .error f) := by
    intro h result f
    simp [EnrollAttempt.refuse, h]
  unfold EnrollAttempt.enrollSecret
  cases hwritable : a.writable with
  | false =>
    simp only [hunwritten hwritable]
    right
    split_ifs
    · simp [tooManyFailures, invalidPassword]
    · split
      · simp [tooManyFailures, invalidPassword]
      · split
        · simp [tooManyFailures, invalidPassword]
        · exact ⟨later_events a, by simp, by simp⟩
  | true =>
    simp only [hwritten hwritable]
    split_ifs
    · exact .inl ⟨rfl, .inl rfl⟩
    · split
      · exact .inl ⟨rfl, .inr rfl⟩
      · split
        · rename_i result detail hrejected
          right
          refine ⟨fun e he => ?_, by simp [tooManyFailures], by simp [invalidPassword]⟩
          obtain rfl := mem_singleton.mp he
          exact rejection_ne_badSecret hrejected
        · exact .inr ⟨later_events a, by simp, by simp⟩

theorem status_of_refuse {a : EnrollAttempt crypt} {result : EnrollmentResult} {n : Nat}
    {detail : String} (hn : n ≠ 429) : (a.refuse result (.http n detail)).2 ≠ .error tooManyFailures := by
  unfold EnrollAttempt.refuse tooManyFailures
  split_ifs <;> simp [hn]

theorem failures_of_limited {a : EnrollAttempt crypt} {events : List EnrollmentEvent}
    (h : (a.enrollSecret events).2 = .error tooManyFailures) :
    enrollmentMaxFailuresPerWindow ≤ recentFailures events a.sourceIp a.startedAt := by
  by_contra hfew
  rw [EnrollAttempt.enrollSecret, if_neg hfew] at h
  split at h
  · exact status_of_refuse (by decide) h
  · split at h
    · exact status_of_refuse (by decide) h
    · cases h

theorem recentFailures_append (events more : List EnrollmentEvent) (sourceIp : String) (now : Int) :
    recentFailures (events ++ more) sourceIp now =
      recentFailures events sourceIp now + recentFailures more sourceIp now :=
  countP_append

/-- **What the limiter counts**: the attempts of the address in the window that were answered that
the password was wrong, and those it refused itself. -/
theorem recentFailures_of_run {es : List (AttemptEv crypt)} {events : List EnrollmentEvent}
    (h : Run AttemptStep [] es events) (sourceIp : String) (now : Int) :
    recentFailures events sourceIp now = es.countP fun e => Within sourceIp now e ∧
      (answer e = .error tooManyFailures ∨ answer e = .error invalidPassword) := by
  induction h with
  | nil => rfl
  | @snoc es events events' a _ hstep ih =>
    rw [hstep, recentFailures_append, ih, countP_append, countP_singleton, ← hstep]
    congr 1
    have hanswer : answer ⟨events, a, events'⟩ = (a.enrollSecret events).2 := rfl
    rcases enrollSecret_cases a events with ⟨hevents, hrefused⟩ | ⟨hevents, hlimit, hwrong⟩
    · rw [hevents]
      by_cases hwithin : Within sourceIp now ⟨events, a, events'⟩
      · rw [if_pos (decide_eq_true ⟨hwithin, hanswer ▸ hrefused⟩)]
        exact countP_eq_length.mpr (by simpa [Within] using hwithin)
      · rw [if_neg fun h => hwithin (of_decide_eq_true h).1]
        exact countP_eq_zero.mpr (by simpa [Within] using hwithin)
    · rw [if_neg fun h => (of_decide_eq_true h).2.elim hlimit hwrong]
      exact countP_eq_zero.mpr fun e he => by simp [hevents e he]

/-- **The failure limit.** An attempt that the limit refuses comes after at least ten attempts from
its address within its window whose password was compared and found wrong, if the limit refused none
in that window. -/
theorem limited_after_failures {es pre post : List (AttemptEv crypt)} {e : AttemptEv crypt}
    {events : List EnrollmentEvent} (h : Run AttemptStep [] es events) (hes : es = pre ++ e :: post)
    (hlimited : answer e = .error tooManyFailures)
    (hquiet : ∀ x ∈ pre, Within e.label.sourceIp e.label.startedAt x →
      answer x ≠ .error tooManyFailures) :
    enrollmentMaxFailuresPerWindow ≤ pre.countP fun x =>
      Within e.label.sourceIp e.label.startedAt x ∧ answer x = .error invalidPassword := by
  subst hes
  have hcount := recentFailures_of_run h.split.1 e.label.sourceIp e.label.startedAt
  have hmany := failures_of_limited hlimited
  rw [hcount] at hmany
  refine hmany.trans (le_of_eq (countP_congr fun x hx => ?_))
  simp only [decide_eq_true_eq]
  constructor
  · rintro ⟨hwithin, hrefused | hwrong⟩
    · exact absurd hrefused (hquiet x hx hwithin)
    · exact ⟨hwithin, hwrong⟩
  · rintro ⟨hwithin, hwrong⟩
    exact ⟨hwithin, .inr hwrong⟩

namespace AttemptSample

def guess (startedAt : Int) : EnrollAttempt (· == ·) where
  sourceIp := "10.0.0.1"
  password := "wrong"
  now := startedAt
  startedAt := startedAt
  writable := true
  secrets := []
  picked := none
  newest := rfl
  later := none
  later_ne := by decide

def attempts (as : List (EnrollAttempt (· == ·))) :
    List (AttemptEv (· == ·)) × List EnrollmentEvent :=
  as.foldl (fun r a => (r.1 ++ [⟨r.2, a, r.2 ++ (a.enrollSecret r.2).1⟩],
    r.2 ++ (a.enrollSecret r.2).1)) ([], [])

theorem run_attempts (as : List (EnrollAttempt (· == ·))) :
    Run AttemptStep [] (attempts as).1 (attempts as).2 := by
  induction as using List.reverseRecOn with
  | nil => exact .nil
  | append_singleton as a ih =>
    rw [attempts, foldl_append]
    exact .snoc ih rfl

def next (as : List (EnrollAttempt (· == ·))) (a : EnrollAttempt (· == ·)) : AttemptEv (· == ·) :=
  ⟨(attempts as).2, a, (attempts as).2 ++ (a.enrollSecret (attempts as).2).1⟩

theorem run_next (as : List (EnrollAttempt (· == ·))) (a : EnrollAttempt (· == ·)) :
    Run AttemptStep [] ((attempts as).1 ++ [next as a]) (next as a).after :=
  .snoc (run_attempts as) rfl

def minutes (n : Int) : Int := n * 60 * 1000000

def guesses : List (EnrollAttempt (· == ·)) := List.replicate 10 (guess 0)

def persistent : List (EnrollAttempt (· == ·)) :=
  guesses ++ List.replicate 10 (guess (minutes 10))

end AttemptSample

open AttemptSample in
theorem sample_limited_after_failures :
    answer (next guesses (guess 1)) = .error tooManyFailures ∧
    enrollmentMaxFailuresPerWindow ≤ (attempts guesses).1.countP fun x =>
      Within "10.0.0.1" 1 x ∧ answer x = .error invalidPassword := by
  have hlimited : answer (next guesses (guess 1)) = .error tooManyFailures := by decide +kernel
  exact ⟨hlimited, limited_after_failures (run_next guesses (guess 1)) rfl hlimited
    (by decide +kernel)⟩

open AttemptSample in
/-- Ten attempts while the address is limited keep it limited: five minutes after the last wrong
password has left the window, the next attempt is refused. -/
theorem limit_prolongs_itself :
    Run AttemptStep [] ((attempts persistent).1 ++ [next persistent (guess (minutes 20))])
      (next persistent (guess (minutes 20))).after ∧
    answer (next persistent (guess (minutes 20))) = .error tooManyFailures ∧
    ((attempts persistent).1.countP fun x =>
      Within "10.0.0.1" (minutes 20) x ∧ answer x = .error invalidPassword) = 0 :=
  ⟨run_next _ _, by decide +kernel, by decide +kernel⟩

end Limit

end ManagedDirectory.Rds
