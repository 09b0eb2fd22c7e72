import ManagedDirectory.Rds.Chat

/-!
# RDS: the chat sockets of a device

`ConnectionManager` and the websocket handlers around it, cut at their await points. `connect`
closes the registered socket and waits for that before it registers the new one, so two connects
of a device may both replace the same socket, and the one that registers last leaves the other
open (`two_live_sockets`). `push` unregisters a socket on which a send fails, and leaves it open.
`one_live_socket` says that nothing else can go wrong: where the connects of a device do not
overlap and no send fails on its open socket, a device between connects has at most one live
socket, the registered one.
-/

namespace ManagedDirectory.Rds.ChatSockets

open Codec Lib List

abbrev Socket := Nat

/-! ## ConnectionManager -/

structure ConnectionManager where
  connections : String → Option Socket

def ConnectionManager.register (m : ConnectionManager) (did : String) (w : Socket) :
    ConnectionManager :=
  ⟨Function.update m.connections did (some w)⟩

def ConnectionManager.disconnect (m : ConnectionManager) (did : String) (w : Socket) :
    ConnectionManager :=
  if m.connections did = some w then ⟨Function.update m.connections did none⟩ else m

/-! ## Handlers -/

inductive Stage where
  /-- In `connect`, waiting for the close of the socket it replaces. -/
  | connecting
  /-- `connect` has returned. -/
  | serving
  | ended
  deriving DecidableEq

structure Sockets where
  manager : ConnectionManager
  handlers : Socket → Option (String × Stage)
  /-- The websockets on which the server has called `close`. -/
  closed : List Socket
  /-- The pushes that wait for `send_json`. -/
  sends : List (String × Socket)

def Sockets.stage (s : Sockets) (w : Socket) (did : String) (stage : Stage) : Sockets :=
  { s with handlers := Function.update s.handlers w (some (did, stage)) }

/-- `connect` registers the websocket and returns. -/
def Sockets.register (s : Sockets) (did : String) (w : Socket) : Sockets :=
  { s.stage w did .serving with manager := s.manager.register did w }

/-- The websocket is accepted and `connect` is called, with no await point between them: it runs
until it has called `close` on the socket it replaces, or to its end when there is none. -/
def Sockets.connect (s : Sockets) (did : String) (w : Socket) : Sockets :=
  match s.manager.connections did with
  | none => s.register did w
  | some existing =>
    if existing = w then s.register did w
    else { s.stage w did .connecting with closed := existing :: s.closed }

/-- A send that was waiting ends; a failed one drops the registration. -/
def Sockets.sendEnds (s : Sockets) (did : String) (w : Socket) (ok : Bool) : Sockets :=
  { s with
    sends := s.sends.erase (did, w)
    manager := if ok then s.manager else s.manager.disconnect did w }

/-- The receive loop ends and the `finally` block runs. -/
def Sockets.leave (s : Sockets) (did : String) (w : Socket) : Sockets :=
  { s.stage w did .ended with manager := s.manager.disconnect did w }

inductive Act where
  | connect (did : String) (w : Socket)
  /-- The `close` that `connect` waits for has ended, with or without an exception. -/
  | closeEnds (did : String) (w : Socket)
  | push (did : String) (w : Socket)
  | sendEnds (did : String) (w : Socket) (ok : Bool)
  | leave (did : String) (w : Socket)
  /-- The handler ends outside its `try` block, by an exception of the database or a cancellation;
  the server drops the connection. -/
  | abort (did : String) (w : Socket)

def Step (s : Sockets) : Act → Sockets → Prop
  | .connect did w, s' => s.handlers w = none ∧ s' = s.connect did w
  | .closeEnds did w, s' => s.handlers w = some (did, .connecting) ∧ s' = s.register did w
  | .push did w, s' =>
    s.manager.connections did = some w ∧ s' = { s with sends := (did, w) :: s.sends }
  | .sendEnds did w ok, s' => (did, w) ∈ s.sends ∧ s' = s.sendEnds did w ok
  | .leave did w, s' => s.handlers w = some (did, .serving) ∧ s' = s.leave did w
  | .abort did w, s' =>
    (∃ stage, s.handlers w = some (did, stage) ∧ stage ≠ .ended) ∧ s' = s.stage w did .ended

def noSockets : Sockets := ⟨⟨fun _ => none⟩, fun _ => none, [], []⟩

abbrev SocketEv := Event Sockets Act

/-- A `connect` call of the device is in progress. -/
def Sockets.Connecting (s : Sockets) (did : String) (w : Socket) : Prop :=
  s.handlers w = some (did, .connecting)

def Sockets.Settled (s : Sockets) (did : String) : Prop := ∀ w, ¬ s.Connecting did w

/-- An accepted websocket of the device that the server has not closed. -/
structure Sockets.Live (s : Sockets) (did : String) (w : Socket) : Prop where
  handler : ∃ stage, s.handlers w = some (did, stage) ∧ stage ≠ .ended
  notClosed : w ∉ s.closed

/-! ## One step -/

section Steps

variable {s s' : Sockets} {a : Act} {did did' : String} {w w' : Socket}

@[simp] theorem handlers_stage_self (s : Sockets) (w : Socket) (did : String) (stage : Stage) :
    (s.stage w did stage).handlers w = some (did, stage) := by
  simp [Sockets.stage]

theorem handlers_stage_of_ne (s : Sockets) (did : String) (stage : Stage) (h : w' ≠ w) :
    (s.stage w did stage).handlers w' = s.handlers w' := by
  simp [Sockets.stage, h]

theorem connections_disconnect {m : ConnectionManager} (did' : String) (w : Socket)
    (h : m.connections did = some w') :
    (m.disconnect did' w).connections did = some w' ∨ did' = did ∧ w = w' := by
  unfold ConnectionManager.disconnect
  split_ifs with hreg
  · by_cases hdid : did = did'
    · subst hdid
      exact .inr ⟨rfl, Option.some.inj (hreg.symm.trans h)⟩
    · exact .inl (by simpa [hdid] using h)
  · exact .inl h

theorem Sockets.Live.of_stage {stage : Stage} (h : (s.stage w did' stage).Live did w') :
    w' = w ∧ did' = did ∧ stage ≠ .ended ∨ w' ≠ w ∧ s.Live did w' := by
  obtain ⟨⟨stage', hhandler, hne⟩, hopen⟩ := h
  by_cases hw : w' = w
  · subst hw
    rw [handlers_stage_self] at hhandler
    cases hhandler
    exact .inl ⟨rfl, rfl, hne⟩
  · rw [handlers_stage_of_ne _ _ _ hw] at hhandler
    exact .inr ⟨hw, ⟨stage', hhandler, hne⟩, hopen⟩

theorem Sockets.Connecting.of_stage {stage : Stage}
    (h : (s.stage w did' stage).Connecting did w') :
    w' = w ∧ did' = did ∧ stage = .connecting ∨ w' ≠ w ∧ s.Connecting did w' := by
  unfold Sockets.Connecting at h
  by_cases hw : w' = w
  · subst hw
    rw [handlers_stage_self] at h
    cases h
    exact .inl ⟨rfl, rfl, rfl⟩
  · rw [handlers_stage_of_ne _ _ _ hw] at h
    exact .inr ⟨hw, h⟩

theorem Sockets.Connecting.of_register (h : (s.register did w).Connecting did w') :
    w' ≠ w ∧ s.Connecting did w' := by
  have hstage : (s.stage w did .serving).Connecting did w' := h
  rcases hstage.of_stage with ⟨-, -, hserving⟩ | hconnecting
  · cases hserving
  · exact hconnecting

theorem settled_register (halone : ∀ {w'}, s.Connecting did w' → w' = w) :
    (s.register did w).Settled did := by
  intro w' hw'
  obtain ⟨hne, hconnecting⟩ := hw'.of_register
  exact hne (halone hconnecting)

end Steps

/-! ## Runs -/

/-- The events after which an open socket of the device is not registered: a send failed on it. -/
def Dropped (es : List SocketEv) (did : String) (w : Socket) : Prop :=
  ∃ e ∈ es, e.label = .sendEnds did w false ∧ e.before.manager.connections did = some w ∧
    w ∉ e.before.closed

theorem Dropped.snoc {es : List SocketEv} {did : String} {w : Socket} (h : Dropped es did w)
    (e : SocketEv) : Dropped (es ++ [e]) did w := by
  obtain ⟨e', he', h⟩ := h
  exact ⟨e', mem_append_left _ he', h⟩

/-- What holds while the connects of the device do not overlap: apart from sockets on which a send
failed, only the connecting one is live, if there is one, and only the registered one otherwise. -/
structure Single (es : List SocketEv) (s : Sockets) (did : String) : Prop where
  alone : ∀ {w w'}, s.Connecting did w → s.Connecting did w' → w' = w
  connecting : ∀ {w w'}, s.Connecting did w → s.Live did w' → w' = w ∨ Dropped es did w'
  settled : ∀ {w}, s.Settled did → s.Live did w →
    s.manager.connections did = some w ∨ Dropped es did w

section Runs

variable {es : List SocketEv} {s s' : Sockets} {a : Act} {e : SocketEv} {did : String} {w : Socket}

theorem Single.weaken (h : Single es s did)
    (hlive : ∀ {w}, s'.Live did w → s.Live did w ∧ (s.Connecting did w → s'.Connecting did w))
    (hconnecting : ∀ {w}, s'.Connecting did w → s.Connecting did w)
    (hregistered : ∀ {w}, s'.Live did w → s.manager.connections did = some w →
      s'.manager.connections did = some w ∨ Dropped (es ++ [e]) did w) :
    Single (es ++ [e]) s' did := by
  refine ⟨fun hw hw' => h.alone (hconnecting hw) (hconnecting hw'), fun hw hw' => ?_,
    fun hsettled hw => ?_⟩
  · exact (h.connecting (hconnecting hw) (hlive hw').1).imp_right fun h => h.snoc e
  · by_cases hbefore : s.Settled did
    · rcases h.settled hbefore (hlive hw).1 with hreg | hdropped
      · exact hregistered hw hreg
      · exact .inr (hdropped.snoc e)
    · -- the connect that was in progress was given up, so its socket is not live any more
      obtain ⟨w₀, hw₀⟩ := not_forall_not.mp hbefore
      rcases h.connecting hw₀ (hlive hw).1 with rfl | hdropped
      · exact absurd ((hlive hw).2 hw₀) (hsettled _)
      · exact .inr (hdropped.snoc e)

theorem Single.other {did' : String} {stage : Stage} {m : ConnectionManager} {closed : List Socket}
    (h : Single es s did) (hdid : did' ≠ did) (hhandler : ∀ stage, s.handlers w ≠ some (did, stage))
    (hm : m.connections did = s.manager.connections did) (hclosed : s.closed ⊆ closed) :
    Single (es ++ [e]) { s.stage w did' stage with manager := m, closed := closed } did := by
  have hstage : ∀ {w'}, s.Connecting did w' → (s.stage w did' stage).Connecting did w' := by
    intro w' hw'
    have hne : w' ≠ w := fun heq => hhandler _ (heq ▸ hw')
    exact (handlers_stage_of_ne _ _ _ hne).trans hw'
  refine h.weaken (fun {w'} hw' => ?_) (fun {w'} hw' => ?_) fun _ hreg => .inl (hm.trans hreg)
  · have hlive : (s.stage w did' stage).Live did w' :=
      ⟨hw'.handler, fun hmem => hw'.notClosed (hclosed hmem)⟩
    rcases hlive.of_stage with ⟨-, heq, -⟩ | ⟨-, hlive⟩
    · exact absurd heq hdid
    · exact ⟨hlive, hstage⟩
  · have hconnecting : (s.stage w did' stage).Connecting did w' := hw'
    rcases hconnecting.of_stage with ⟨-, heq, -⟩ | ⟨-, hconnecting⟩
    · exact absurd heq hdid
    · exact hconnecting

theorem Single.ended {did' : String} {m : ConnectionManager} (h : Single es s did)
    (hm : ∀ {w'}, w' ≠ w → s.manager.connections did = some w' → m.connections did = some w') :
    Single (es ++ [e]) { s.stage w did' .ended with manager := m } did := by
  have hlive : ∀ {w'}, Sockets.Live { s.stage w did' .ended with manager := m } did w' →
      w' ≠ w ∧ s.Live did w' := by
    intro w' hw'
    have hlive : (s.stage w did' .ended).Live did w' := ⟨hw'.handler, hw'.notClosed⟩
    rcases hlive.of_stage with ⟨-, -, hne⟩ | hlive
    · exact absurd rfl hne
    · exact hlive
  refine h.weaken (fun {w'} hw' => ⟨(hlive hw').2, fun hc => ?_⟩) (fun {w'} hw' => ?_)
    fun {w'} hw' hreg => .inl (hm (hlive hw').1 hreg)
  · exact (handlers_stage_of_ne _ _ _ (hlive hw').1).trans hc
  · have hconnecting : (s.stage w did' .ended).Connecting did w' := hw'
    rcases hconnecting.of_stage with ⟨-, -, hne⟩ | ⟨-, hconnecting⟩
    · cases hne
    · exact hconnecting

theorem Single.registered (h : ∀ {w'}, w' ≠ w → s.Live did w' → Dropped es did w')
    (halone : ∀ {w'}, s.Connecting did w' → w' = w) :
    Single (es ++ [e]) (s.register did w) did := by
  have hsettled := settled_register halone
  refine ⟨fun hw _ => absurd hw (hsettled _), fun hw _ => absurd hw (hsettled _), ?_⟩
  intro w' _ hw'
  have hlive : (s.stage w did .serving).Live did w' := ⟨hw'.handler, hw'.notClosed⟩
  rcases hlive.of_stage with ⟨rfl, -, -⟩ | ⟨hne, hlive⟩
  · exact .inl (Function.update_self ..)
  · exact .inr ((h hne hlive).snoc e)

theorem Single.connect (h : Single es s did) (hsettled : s.Settled did) :
    Single (es ++ [e]) (s.connect did w) did := by
  unfold Sockets.connect
  split
  · rename_i hnone
    refine .registered (fun hne hlive => ?_) fun hc => absurd hc (hsettled _)
    rcases h.settled hsettled hlive with hreg | hdropped
    · cases hnone.symm.trans hreg
    · exact hdropped
  · rename_i existing hexisting
    split_ifs with heq
    · refine .registered (fun hne hlive => ?_) fun hc => absurd hc (hsettled _)
      rcases h.settled hsettled hlive with hreg | hdropped
      · exact absurd ((Option.some.inj (hexisting.symm.trans hreg)).symm.trans heq) hne
      · exact hdropped
    have honly : ∀ {w'}, (s.stage w did .connecting).Connecting did w' → w' = w := by
      intro w' hw'
      rcases hw'.of_stage with ⟨rfl, -, -⟩ | ⟨-, hc⟩
      · rfl
      · exact absurd hc (hsettled _)
    refine ⟨fun hw hw' => (honly hw').trans (honly hw).symm, fun {w₁ w'} hw hw' => ?_,
      fun hs _ => absurd (handlers_stage_self s w did .connecting) (hs w)⟩
    rw [honly hw]
    have hnot := hw'.notClosed
    rw [mem_cons, not_or] at hnot
    have hlive : (s.stage w did .connecting).Live did w' := ⟨hw'.handler, hnot.2⟩
    rcases hlive.of_stage with ⟨rfl, -, -⟩ | ⟨-, hlive⟩
    · exact .inl rfl
    · -- the registered socket is the one that was closed
      rcases h.settled hsettled hlive with hreg | hdropped
      · exact absurd (Option.some.inj (hreg.symm.trans hexisting)) hnot.1
      · exact .inr (hdropped.snoc e)

theorem Single.connect_other {did' : String} (h : Single es s did) (hdid : did' ≠ did)
    (hfresh : s.handlers w = none) : Single (es ++ [e]) (s.connect did' w) did := by
  have hhandler : ∀ stage, s.handlers w ≠ some (did, stage) := by simp [hfresh]
  have hregister : Single (es ++ [e]) (s.register did' w) did :=
    h.other hdid hhandler (Function.update_of_ne (Ne.symm hdid) ..) (List.Subset.refl _)
  unfold Sockets.connect
  split
  · exact hregister
  · split_ifs
    · exact hregister
    · exact h.other hdid hhandler rfl (subset_cons_self ..)

/-- A connect of the device starts only when none of it is in progress. -/
def Apart (did : String) (e : SocketEv) : Prop :=
  ∀ w, e.label = .connect did w → e.before.Settled did

theorem Single.step (h : Single es s did) (hstep : Step s a s') (hapart : Apart did ⟨s, a, s'⟩) :
    Single (es ++ [⟨s, a, s'⟩]) s' did := by
  have hdisconnect : ∀ {did' w w'}, w' ≠ w → s.manager.connections did = some w' →
      (s.manager.disconnect did' w).connections did = some w' := by
    intro did' w w' hne hreg
    rcases connections_disconnect did' w hreg with hreg | ⟨-, heq⟩
    · exact hreg
    · exact absurd heq.symm hne
  cases a with
  | connect did' w =>
    obtain ⟨hfresh, rfl⟩ := hstep
    by_cases hdid : did' = did
    · subst hdid
      exact h.connect (hapart w rfl)
    · exact h.connect_other hdid hfresh
  | closeEnds did' w =>
    obtain ⟨hconnecting, rfl⟩ := hstep
    by_cases hdid : did' = did
    · subst hdid
      exact .registered (fun hne hlive => (h.connecting hconnecting hlive).resolve_left hne)
        fun hc => h.alone hconnecting hc
    · refine h.other hdid (fun stage hstage => ?_) (Function.update_of_ne (Ne.symm hdid) ..)
        (List.Subset.refl _)
      cases hconnecting.symm.trans hstage
      exact hdid rfl
  | push did' w =>
    obtain ⟨-, rfl⟩ := hstep
    exact h.weaken (fun hw => ⟨⟨hw.handler, hw.notClosed⟩, id⟩) id fun _ hreg => .inl hreg
  | sendEnds did' w ok =>
    obtain ⟨-, rfl⟩ := hstep
    refine h.weaken (fun hw => ⟨⟨hw.handler, hw.notClosed⟩, id⟩) id fun {w'} hw hreg => ?_
    cases ok with
    | true => exact .inl hreg
    | false =>
      rcases connections_disconnect did' w hreg with hkept | ⟨rfl, rfl⟩
      · exact .inl hkept
      · exact .inr ⟨_, mem_append_right _ (mem_singleton.mpr rfl), rfl, hreg, hw.notClosed⟩
  | leave did' w =>
    obtain ⟨-, rfl⟩ := hstep
    exact h.ended hdisconnect
  | abort did' w =>
    obtain ⟨-, rfl⟩ := hstep
    exact h.ended fun _ hreg => hreg

theorem single_of_run (h : Run Step noSockets es s) (hapart : ∀ e ∈ es, Apart did e) :
    Single es s did := by
  refine (h.restrict hapart).history (fun es s => Single es s did) ?_ ?_
  · have hnone : ∀ {w stage}, noSockets.handlers w ≠ some (did, stage) := by simp [noSockets]
    refine ⟨fun hw _ => absurd hw hnone, fun hw _ => absurd hw hnone, fun _ hw => ?_⟩
    obtain ⟨stage, hstage, -⟩ := hw.handler
    exact absurd hstage hnone
  · rintro es s a s' h ⟨hstep, hapart⟩
    exact h.step hstep hapart

/-- No send fails on the registered socket of the device while the server has not closed it. -/
def Sends (did : String) (e : SocketEv) : Prop :=
  ∀ w, e.label = .sendEnds did w false → e.before.manager.connections did = some w →
    w ∈ e.before.closed

/-- **One live socket.** In every run whose connects of the device do not overlap and in which no
send fails on its open socket: whenever no connect of the device is in progress, it has at most one
live socket, and that is the registered one. -/
theorem one_live_socket (h : Run Step noSockets es s) (hapart : ∀ e ∈ es, Apart did e)
    (hsends : ∀ e ∈ es, Sends did e) (hsettled : s.Settled did) :
    {w | s.Live did w}.Subsingleton ∧ ∀ w, s.Live did w → s.manager.connections did = some w := by
  have hregistered : ∀ w, s.Live did w → s.manager.connections did = some w := by
    intro w hw
    rcases (single_of_run h hapart).settled hsettled hw with hreg | ⟨e, he, hlabel, hreg, hopen⟩
    · exact hreg
    · exact absurd (hsends e he w hlabel hreg) hopen
  refine ⟨fun w hw w' hw' => ?_, hregistered⟩
  exact Option.some.inj ((hregistered w hw).symm.trans (hregistered w' hw'))

end Runs

/-! ## Replacing a socket -/

theorem settled_noSockets (did : String) : noSockets.Settled did := by
  intro w hw
  cases hw

def sampleFirst : Sockets := noSockets.connect "d" 1

theorem settled_sampleFirst : sampleFirst.Settled "d" :=
  settled_register fun hc => absurd hc (settled_noSockets _ _)

def sampleReplacing : Sockets := sampleFirst.connect "d" 2

theorem connecting_sampleReplacing {w : Socket} (h : sampleReplacing.Connecting "d" w) :
    w = 2 := by
  rcases Sockets.Connecting.of_stage (s := sampleFirst) h with ⟨rfl, -, -⟩ | ⟨-, hc⟩
  · rfl
  · exact absurd hc (settled_sampleFirst w)

theorem run_sampleReplacing : Run Step noSockets
    [⟨noSockets, .connect "d" 1, sampleFirst⟩, ⟨sampleFirst, .connect "d" 2, sampleReplacing⟩]
    sampleReplacing := by
  have h₁ : Step noSockets (.connect "d" 1) sampleFirst := ⟨rfl, rfl⟩
  have h₂ : Step sampleFirst (.connect "d" 2) sampleReplacing := ⟨rfl, rfl⟩
  exact (Run.nil.snoc h₁).snoc h₂

/-- The device that replaced its socket has the new one, and only that. -/
theorem sample_one_live_socket :
    (sampleReplacing.register "d" 2).Live "d" 2 ∧
      {w | (sampleReplacing.register "d" 2).Live "d" w}.Subsingleton := by
  have hstep : Step sampleReplacing (.closeEnds "d" 2) (sampleReplacing.register "d" 2) :=
    ⟨rfl, rfl⟩
  refine ⟨⟨⟨.serving, rfl, by decide⟩, by decide⟩,
    (one_live_socket (run_sampleReplacing.snoc hstep) ?_ ?_
      (settled_register connecting_sampleReplacing)).1⟩
  · simp only [cons_append, nil_append, forall_mem_cons]
    refine ⟨fun w _ => settled_noSockets "d", fun w _ => settled_sampleFirst, fun w h => ?_, by simp⟩
    cases h
  · simp only [cons_append, nil_append, forall_mem_cons]
    exact ⟨fun w h => (by cases h), fun w h => (by cases h), fun w h => (by cases h), by simp⟩

/-! ## Two connects at once -/

def sampleOverlapping : Sockets := sampleReplacing.connect "d" 3

def sampleOverlapped : Sockets := (sampleOverlapping.register "d" 3).register "d" 2

/-- The last of the two connects to return has its socket registered; that of the other stays open
as well. No send has failed. -/
theorem two_live_sockets : ∃ es s, Run Step noSockets es s ∧ (∀ e ∈ es, Sends "d" e) ∧
    s.Settled "d" ∧ s.Live "d" 2 ∧ s.Live "d" 3 := by
  have h₃ : Step sampleReplacing (.connect "d" 3) sampleOverlapping := ⟨rfl, rfl⟩
  have h₄ : Step sampleOverlapping (.closeEnds "d" 3) (sampleOverlapping.register "d" 3) :=
    ⟨rfl, rfl⟩
  have h₅ : Step (sampleOverlapping.register "d" 3) (.closeEnds "d" 2) sampleOverlapped :=
    ⟨rfl, rfl⟩
  have hsettled : sampleOverlapped.Settled "d" := by
    refine settled_register fun {w} hw => ?_
    obtain ⟨hne, hc⟩ := hw.of_register
    rcases Sockets.Connecting.of_stage (s := sampleReplacing) hc with ⟨heq, -, -⟩ | ⟨-, hc⟩
    · exact absurd heq hne
    · exact connecting_sampleReplacing hc
  refine ⟨_, _, ((run_sampleReplacing.snoc h₃).snoc h₄).snoc h₅, ?_, hsettled,
    ⟨⟨.serving, rfl, by decide⟩, by decide⟩, ⟨⟨.serving, rfl, by decide⟩, by decide⟩⟩
  simp only [cons_append, nil_append, forall_mem_cons]
  exact ⟨fun w h => (by cases h), fun w h => (by cases h), fun w h => (by cases h),
    fun w h => (by cases h), fun w h => (by cases h), by simp⟩

end ManagedDirectory.Rds.ChatSockets
