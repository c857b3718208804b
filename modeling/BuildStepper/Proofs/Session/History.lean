import BuildStepper.Session.Run
import Mathlib.Data.List.DropRight

/-!
# Histories of a session

A session decides by a few fields that it keeps, but what it owes its client is said of what has
happened so far. This module names what is said: the state after events (`Session.after`), the
moments that make up a history (`Session.moments`), and the commands that came since the build was
last held (`Session.commandsSinceHeld`).

Two promises of the build are named as well. The build is one thread, which does not call back while
it is blocked inside a callback, although another thread can give the build up (`Session.Serial`).
And a frame starts once and finishes after it started (`Orderly`).

Everything is stated so that a history can be taken apart at its end, which is how the proofs go: by
induction on the events, the last one taken off.
-/

namespace BuildStepper

open Wire (Command Notification)

/-- The frame that an event starts. -/
def SessionEvent.started? : SessionEvent → Option FrameId
  | .build (.taskStarted f) => some f.id
  | _ => none

/-- The frame that an event finishes. -/
def SessionEvent.finished? : SessionEvent → Option FrameId
  | .build (.taskFinished f) => some f.id
  | _ => none

/-- The frames that events start, in order. -/
def startedIn (events : List SessionEvent) : List FrameId :=
  events.filterMap SessionEvent.started?

/-- In the last event starts what it is the start of. -/
theorem startedIn_concat (events : List SessionEvent) (event : SessionEvent) :
    startedIn (events ++ [event]) = startedIn events ++ event.started?.toList := by
  unfold startedIn
  rw [List.filterMap_append]
  cases h : event.started? <;> simp [h]

/-- What the build promises of its frames, those in `started` having started before: none starts
twice, and none finishes that has not started. -/
def OrderlyFrom (started : List FrameId) : List SessionEvent → Prop
  | [] => True
  | event :: events =>
    (∀ id, event.started? = some id → id ∉ started) ∧
      (∀ id, event.finished? = some id → id ∈ started) ∧
      OrderlyFrom (started ++ event.started?.toList) events

/-- No frame starts twice, and none finishes that has not started. -/
def Orderly (events : List SessionEvent) : Prop :=
  OrderlyFrom [] events

/-- If a history is orderly, it is so up to its last event, which starts what has not started and
finishes what has. -/
theorem orderlyFrom_concat {started : List FrameId} {events : List SessionEvent}
    {event : SessionEvent} (h : OrderlyFrom started (events ++ [event])) :
    OrderlyFrom started events ∧
      (∀ id, event.started? = some id → id ∉ started ++ startedIn events) ∧
      (∀ id, event.finished? = some id → id ∈ started ++ startedIn events) := by
  induction events generalizing started with
  | nil =>
    obtain ⟨hstart, hfinish, -⟩ := h
    simpa [startedIn, OrderlyFrom] using ⟨hstart, hfinish⟩
  | cons first events ih =>
    obtain ⟨hstart, hfinish, hrest⟩ := h
    obtain ⟨hevents, hnew, hold⟩ := ih hrest
    -- What the first event starts has started before the others, and is started by the history.
    have hsplit : started ++ first.started?.toList ++ startedIn events =
        started ++ startedIn (first :: events) := by
      cases hf : first.started? <;> simp [startedIn, hf]
    rw [hsplit] at hnew hold
    exact ⟨⟨hstart, hfinish, hevents⟩, hnew, hold⟩

/-- The promise, taken apart at the last event. -/
theorem Orderly.concat {events : List SessionEvent} {event : SessionEvent}
    (h : Orderly (events ++ [event])) :
    Orderly events ∧ (∀ id, event.started? = some id → id ∉ startedIn events) ∧
      (∀ id, event.finished? = some id → id ∈ startedIn events) := by
  simpa [Orderly] using orderlyFrom_concat h

namespace Session

/-- A session after events, from its beginning. -/
def after (settings : DebugSettings) (events : List SessionEvent) : Session :=
  (({ settings } : Session).run events).1

/-- Before all events a session is new. -/
@[simp] theorem after_nil (settings : DebugSettings) : after settings [] = { settings } := rfl

/-- The last event makes a step from what those before have led to. -/
theorem after_concat (settings : DebugSettings) (events : List SessionEvent)
    (event : SessionEvent) :
    after settings (events ++ [event]) = ((after settings events).step event).1 := by
  unfold after
  rw [run_append]
  rfl

/-- Whether an event can happen now. While the build is blocked it does not call back, except that
another thread can give it up. -/
def admits (s : Session) : SessionEvent → Bool
  | .build .buildFinished => true
  | .build _ => !s.status.blocksBuild
  | _ => true

/-- A live session that the build calls back is running. -/
theorem running_of_admits {s : Session} (live : s.status.isLive = true) {event : BuildEvent}
    (h : s.admits (.build event) = true) (hover : event ≠ .buildFinished) :
    s.status = .running := by
  have hblocks : s.status.blocksBuild = false := by
    cases event <;> first | exact absurd rfl hover | simpa [admits] using h
  cases hs : s.status <;> simp_all [Status.isLive, Status.blocksBuild]

/-- All events can happen where they do: the build calls back from one thread. -/
def Serial (s : Session) : List SessionEvent → Prop
  | [] => True
  | event :: events => s.admits event = true ∧ (s.step event).1.Serial events

/-- A serial history, taken apart at the last event. -/
theorem Serial.concat {s : Session} {events : List SessionEvent} {event : SessionEvent}
    (h : s.Serial (events ++ [event])) :
    s.Serial events ∧ (s.run events).1.admits event = true := by
  induction events generalizing s with
  | nil => exact ⟨trivial, h.1⟩
  | cons first events ih =>
    obtain ⟨hfirst, hrest⟩ := h
    obtain ⟨hevents, hlast⟩ := ih hrest
    exact ⟨⟨hfirst, hevents⟩, hlast⟩

/-- A moment of a history: how the session stood, and what happened to it. -/
structure Moment where
  before : Session
  event : SessionEvent

namespace Moment

/-- How the session stands after the moment. -/
def after (m : Moment) : Session :=
  (m.before.step m.event).1

/-- Whether the build comes to be held at the moment. -/
def holds (m : Moment) : Bool :=
  !m.before.status.isSuspended && m.after.status.isSuspended

/-- The command that the client sends at the moment, with the session that it meets. -/
def dispatch? (m : Moment) : Option (Session × Command) :=
  match m.event with
  | .command _ _ command => some (m.before, command)
  | _ => none

end Moment

/-- The moments of a history. -/
def moments (s : Session) : List SessionEvent → List Moment
  | [] => []
  | event :: events => ⟨s, event⟩ :: (s.step event).1.moments events

/-- The last moment is that of the last event. -/
theorem moments_concat (s : Session) (events : List SessionEvent) (event : SessionEvent) :
    s.moments (events ++ [event]) = s.moments events ++ [⟨(s.run events).1, event⟩] := by
  induction events generalizing s with
  | nil => rfl
  | cons first events ih => simp [moments, ih]

/-- The commands since the build last came to be held, each with the session that it met. -/
def commandsSinceHeld (settings : DebugSettings) (events : List SessionEvent) :
    List (Session × Command) :=
  ((({ settings } : Session).moments events).rtakeWhile (fun m => !m.holds)).filterMap
    Moment.dispatch?

/-- A hold begins a new list of commands, and any other moment may add one. -/
theorem commandsSinceHeld_concat (settings : DebugSettings) (events : List SessionEvent)
    (event : SessionEvent) :
    commandsSinceHeld settings (events ++ [event]) =
      if (Moment.mk (after settings events) event).holds then []
      else commandsSinceHeld settings events ++
        (Moment.mk (after settings events) event).dispatch?.toList := by
  have hmoments : ({ settings } : Session).moments (events ++ [event]) =
      ({ settings } : Session).moments events ++ [⟨after settings events, event⟩] :=
    moments_concat _ _ _
  unfold commandsSinceHeld
  rw [hmoments, List.rtakeWhile_concat]
  generalize Moment.mk (after settings events) event = m
  cases hholds : m.holds with
  | true => simp
  | false => cases hcommand : m.dispatch? <;> simp [hcommand]

end Session

end BuildStepper
