import BuildStepper.Proofs.Session.Transitions
import BuildStepper.Proofs.Trace.Nodes
import BuildStepper.Session.Replay

/-!
# How far a replay has come

A replay under a session is played by turns (`Turn`): the build goes on to its next callback, or the
client does something, or another thread ends the build. `Replaying` says how the replay stands
after any turns. The callbacks made and those still to come are together the callbacks of the trace,
and the session, as long as it is not over, has been told just the callbacks made.

The definitions of properties between two callbacks make no difference here, so that the steps to be
done count only by their callbacks (`coming`); the three lemmas on `advance` say all that a turn of
the build can do in these terms.
-/

namespace BuildStepper

open Wire (Command Notification)

/-- What can happen next to a replay. -/
inductive Turn where
  /-- The build goes on to its next callback, unless it is blocked. -/
  | advance
  /-- A client connects. -/
  | attach
  /-- Nobody connects. -/
  | abandon
  /-- The client sends a command. -/
  | command (command : Command)
  /-- The connection ends. -/
  | disconnect
  /-- Another thread ends the build. -/
  | giveUp

namespace DebuggedReplay

/-- What a turn is to the session if it is not the replay's doing. -/
def outside? (r : DebuggedReplay) : Turn → Option SessionEvent
  | .advance => none
  | .attach => some .attached
  | .abandon => some .abandoned
  | .command c => some (.command r.properties.all r.properties.user c)
  | .disconnect => some .disconnected
  | .giveUp => some (.build .buildFinished)

/-- Takes a turn. The answer tells the callbacks made and what the client is sent. -/
def turn (r : DebuggedReplay) (t : Turn) : DebuggedReplay × List BuildEvent × List Notification :=
  match r.outside? t with
  | none => r.advance 1
  | some event =>
    let (r, sent) := r.interrupt event
    (r, [], sent)

/-- Takes turns one after the other. -/
def play (r : DebuggedReplay) :
    List Turn → DebuggedReplay × List BuildEvent × List Notification
  | [] => (r, [], [])
  | t :: turns =>
    let (next, events, sent) := r.turn t
    let (final, later, more) := next.play turns
    (final, events ++ later, sent ++ more)

/-- The first turn is taken, and the others are taken from where it leads. -/
theorem play_cons (r : DebuggedReplay) (t : Turn) (turns : List Turn) :
    r.play (t :: turns) =
      (((r.turn t).1.play turns).1, (r.turn t).2.1 ++ ((r.turn t).1.play turns).2.1,
        (r.turn t).2.2 ++ ((r.turn t).1.play turns).2.2) := rfl

/-- Turns can be taken in two goes. -/
theorem play_append (r : DebuggedReplay) (first later : List Turn) :
    r.play (first ++ later) =
      (((r.play first).1.play later).1, (r.play first).2.1 ++ ((r.play first).1.play later).2.1,
        (r.play first).2.2 ++ ((r.play first).1.play later).2.2) := by
  induction first generalizing r with
  | nil => rfl
  | cons t first ih =>
    rw [List.cons_append, play_cons, play_cons, ih]
    simp

/-- The callbacks that are still to come. -/
def coming (r : DebuggedReplay) : List BuildEvent :=
  callbacksOf r.rest

/-- Settling concerns the properties alone: neither the session nor a callback. -/
theorem settle_session (r : DebuggedReplay) : r.settle.session = r.session := by
  unfold settle
  split <;> rfl

/-- Settling what is to be done without the session leaves the callbacks to come. -/
theorem coming_settle (r : DebuggedReplay) : r.settle.coming = r.coming := by
  -- Settling drops definitions from the front, and these make no callback.
  have hdrop (isDefinition : ReplayStep → Bool)
      (hnone : ∀ step, isDefinition step = true → step.callback? = none) (steps : List ReplayStep) :
      callbacksOf (steps.dropWhile isDefinition) = callbacksOf steps := by
    induction steps with
    | nil => rfl
    | cons step steps ih =>
      cases hstep : isDefinition step with
      | true =>
        rw [List.dropWhile_cons_of_pos hstep, ih]
        simp [callbacksOf, hnone step hstep]
      | false => rw [List.dropWhile_cons_of_neg (by simp [hstep])]
  unfold settle
  split
  · rfl
  · refine hdrop _ (fun step hstep => ?_) r.rest
    cases step with
    | define name value => rfl
    | callback event => cases hstep

/-- A replay that has settled, and is not blocked, stands at a callback or at its end. -/
theorem settle_rest {r : DebuggedReplay} (h : r.session.status.blocksBuild = false) :
    r.settle.rest = [] ∨ ∃ event rest, r.settle.rest = .callback event :: rest := by
  have hdrop (isDefinition : ReplayStep → Bool)
      (hdefine : ∀ name value, isDefinition (.define name value) = true) (steps : List ReplayStep) :
      steps.dropWhile isDefinition = [] ∨
        ∃ event rest, steps.dropWhile isDefinition = .callback event :: rest := by
    induction steps with
    | nil => exact .inl rfl
    | cons step steps ih =>
      cases hstep : isDefinition step with
      | true => rwa [List.dropWhile_cons_of_pos hstep]
      | false =>
        rw [List.dropWhile_cons_of_neg (by simp [hstep])]
        cases step with
        | define name value =>
          rw [hdefine] at hstep
          cases hstep
        | callback event => exact .inr ⟨event, steps, rfl⟩
  unfold settle
  rw [if_neg (by simp [h])]
  exact hdrop _ (fun _ _ => rfl) r.rest

/-- While the build is blocked its turn changes nothing. -/
theorem advance_of_blocked {r : DebuggedReplay} (h : r.session.status.blocksBuild = true) :
    r.advance 1 = (r, [], []) := by
  simp [advance, h]

/-- A build that is not blocked makes its next callback. -/
theorem advance_of_coming {r : DebuggedReplay} (h : r.session.status.blocksBuild = false)
    {event : BuildEvent} {later : List BuildEvent} (hcoming : r.coming = event :: later) :
    (r.advance 1).1.session = (r.session.callback event).1 ∧ (r.advance 1).1.coming = later ∧
      (r.advance 1).2 = ([event], (r.session.callback event).2) := by
  rw [← coming_settle] at hcoming
  unfold coming at hcoming
  obtain hrest | ⟨first, rest, hrest⟩ := settle_rest h
  · rw [hrest] at hcoming
    cases hcoming
  · rw [hrest, callbacksOf_callback, List.cons.injEq] at hcoming
    obtain ⟨rfl, rfl⟩ := hcoming
    simp only [advance, h, hrest, Bool.false_eq_true, if_false]
    refine ⟨?_, ?_, by simp⟩
    · rw [settle_session]
    · rw [coming_settle]
      rfl

/-- A build that is not blocked and has no callback to come is over. -/
theorem advance_of_done {r : DebuggedReplay} (h : r.session.status.blocksBuild = false)
    (hcoming : r.coming = []) :
    (r.advance 1).1.session = r.session ∧ (r.advance 1).1.coming = [] ∧
      (r.advance 1).2 = ([], []) := by
  rw [← coming_settle] at hcoming
  obtain hrest | ⟨first, rest, hrest⟩ := settle_rest h
  · simp only [advance, h, hrest, Bool.false_eq_true, if_false]
    exact ⟨settle_session r, hcoming, trivial⟩
  · unfold coming at hcoming
    rw [hrest] at hcoming
    cases hcoming

/-- What is not the replay's doing is a step of the session, and nothing else. -/
theorem turn_of_outside {r : DebuggedReplay} {t : Turn} {event : SessionEvent}
    (h : r.outside? t = some event) :
    (r.turn t).1.session = (r.session.step event).1 ∧ (r.turn t).1.coming = r.coming ∧
      (r.turn t).2 = ([], (r.session.step event).2) := by
  unfold turn
  rw [h]
  refine ⟨?_, ?_, rfl⟩
  · simp only [interrupt]
    rw [settle_session]
  · simp only [interrupt]
    rw [coming_settle]
    rfl

/-- How a replay of a trace stands once the callbacks `called` have been made. -/
structure Replaying (settings : DebugSettings) (t : Trace) (called : List BuildEvent)
    (r : DebuggedReplay) : Prop where
  /-- The callbacks made and those still to come make up the trace. -/
  split : called ++ r.coming = t.events
  /-- An idle session has not been called back. -/
  fresh : r.session.status = .idle → called = []
  /-- A session that is not over has been told just the callbacks made. -/
  told : r.session.status ≠ .terminated →
    (called.foldl Session.note { settings }).SameBuild r.session

/-- Before its first turn a replay has made no callback. -/
theorem replaying_ofTrace (settings : DebugSettings) (t : Trace) :
    Replaying settings t [] (ofTrace settings t) where
  split := rfl
  fresh := fun _ => rfl
  told := fun _ => .refl _

/-- The first callback of a trace is the start of the build. -/
theorem eq_buildStarted_of_events {t : Trace} {event : BuildEvent} {later : List BuildEvent}
    (h : t.events = event :: later) : event = .buildStarted t.initialProperties.all := by
  rw [Trace.events_eq_targets] at h
  exact (List.cons.inj h).1.symm

/-- A session that blocks nothing and is not over takes down what it is told next, unless it is idle
and this is not the start of the build. -/
theorem note_sameBuild_callback {s : Session} (hfree : s.status.blocksBuild = false)
    (hgoing : s.status ≠ .terminated) {event : BuildEvent} (hover : event ≠ .buildFinished)
    (hstart : s.status = .idle → ∃ baseline, event = .buildStarted baseline) :
    (s.note event).SameBuild (s.callback event).1 := by
  have hother : SessionEvent.build event ≠ .build .buildFinished := by
    intro heq
    cases heq
    exact hover rfl
  have htold := Session.told_sameBuild s hother
  cases hs : s.status with
  | running => rwa [Session.told, if_pos (by rw [hs]; rfl)] at htold
  | idle =>
    -- It does not listen yet, but the start of the build tells nothing of targets and tasks.
    obtain ⟨baseline, rfl⟩ := hstart hs
    rwa [Session.told, if_neg (by simp [hs, Status.isLive])] at htold
  | terminated => exact absurd hs hgoing
  | awaiting port => simp [hs, Status.blocksBuild] at hfree
  | suspended hold => simp [hs, Status.blocksBuild] at hfree

namespace Replaying

variable {settings : DebugSettings} {t : Trace} {called : List BuildEvent} {r : DebuggedReplay}

/-- The next callback is told to a session that is not over. -/
theorem callback (h : Replaying settings t called r) {event : BuildEvent}
    {later : List BuildEvent} (hfree : r.session.status.blocksBuild = false)
    (hcoming : r.coming = event :: later) {next : DebuggedReplay}
    (hsession : next.session = (r.session.callback event).1) (hlater : next.coming = later) :
    Replaying settings t (called ++ [event]) next := by
  have hevents := h.split
  rw [hcoming] at hevents
  -- An idle session has made no callback, so that the next one is the first of the trace.
  have hstart (hidle : r.session.status = .idle) :
      event = .buildStarted t.initialProperties.all := by
    rw [h.fresh hidle, List.nil_append] at hevents
    exact eq_buildStarted_of_events hevents.symm
  refine ⟨?_, ?_, ?_⟩
  · rw [hlater, List.append_assoc]
    exact hevents
  · intro hidle
    rw [hsession] at hidle
    have hstep : (r.session.step (.build event)).1.status = .idle := hidle
    have hbefore : r.session.status = .idle := Session.idle_of_step_idle hstep
    -- The start of the build does not leave a session idle.
    rw [hstart hbefore] at hidle
    simp only [Session.callback, Session.buildStarted, if_pos hbefore] at hidle
    cases hport : r.session.settings.listenPort? t.initialProperties.all <;>
      simp [hport] at hidle
  · intro hgoing
    rw [hsession] at hgoing ⊢
    rw [List.foldl_append]
    have hbefore : r.session.status ≠ .terminated := fun hover =>
      hgoing (Session.step_terminated hover (.build event))
    have hover : event ≠ .buildFinished := by
      rintro rfl
      exact hgoing rfl
    have hnote := note_sameBuild_callback hfree hbefore hover fun hidle => ⟨_, hstart hidle⟩
    exact ((h.told hbefore).note event).trans hnote

/-- What is not the replay's doing tells the session nothing of the build. -/
theorem outside (h : Replaying settings t called r) {event : SessionEvent}
    (hevent : event.tellsOfBuild = false ∨ event = .build .buildFinished) {next : DebuggedReplay}
    (hsession : next.session = (r.session.step event).1) (hcoming : next.coming = r.coming) :
    Replaying settings t called next := by
  refine ⟨?_, ?_, ?_⟩
  · rw [hcoming]
    exact h.split
  · intro hidle
    rw [hsession] at hidle
    exact h.fresh (Session.idle_of_step_idle hidle)
  · intro hgoing
    rw [hsession] at hgoing ⊢
    -- The end of the build leaves nothing to show, the session being over then.
    obtain htells | rfl := hevent
    · have hbefore : r.session.status ≠ .terminated := fun hover =>
        hgoing (Session.step_terminated hover event)
      exact (h.told hbefore).trans (Session.step_sameBuild r.session htells)
    · exact absurd rfl hgoing

/-- Every turn leaves a replay as it should stand. -/
theorem turn (h : Replaying settings t called r) (turn : Turn) :
    Replaying settings t (called ++ (r.turn turn).2.1) (r.turn turn).1 := by
  cases houtside : r.outside? turn with
  -- What comes from outside makes no callback.
  | some event =>
    obtain ⟨hsession, hcoming, hcalled⟩ := turn_of_outside houtside
    rw [hcalled, List.append_nil]
    refine h.outside ?_ hsession hcoming
    cases turn <;> cases houtside <;> first | exact .inl rfl | exact .inr rfl
  | none =>
    have hadvance : r.turn turn = r.advance 1 := by
      unfold DebuggedReplay.turn
      rw [houtside]
    rw [hadvance]
    -- A build that is blocked does nothing; any other makes its next callback, if there is one.
    cases hblocked : r.session.status.blocksBuild with
    | true =>
      rw [advance_of_blocked hblocked, List.append_nil]
      exact h
    | false =>
      cases hcoming : r.coming with
      | cons event later =>
        obtain ⟨hsession, hlater, hcalled⟩ := advance_of_coming hblocked hcoming
        rw [hcalled]
        exact h.callback hblocked hcoming hsession hlater
      | nil =>
        obtain ⟨hsession, hnothing, hcalled⟩ := advance_of_done hblocked hcoming
        rw [hcalled, List.append_nil]
        refine ⟨?_, ?_, ?_⟩
        · rw [hnothing, ← hcoming]
          exact h.split
        · rw [hsession]
          exact h.fresh
        · rw [hsession]
          exact h.told

/-- Any turns do. -/
theorem play (h : Replaying settings t called r) (turns : List Turn) :
    Replaying settings t (called ++ (r.play turns).2.1) (r.play turns).1 := by
  induction turns generalizing called r with
  | nil =>
    rw [DebuggedReplay.play, List.append_nil]
    exact h
  | cons turn turns ih =>
    rw [play_cons, ← List.append_assoc]
    exact ih (h.turn turn)

end Replaying

end DebuggedReplay

end BuildStepper
