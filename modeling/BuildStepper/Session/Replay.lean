import BuildStepper.Session.Run

/-!
# A trace replayed under a session

The replay goes on step by step for as long as the session does not block it. A property that a task
defines is there as soon as the session has let the build go on from the start of the task.
-/

namespace BuildStepper

open Wire (Command Notification)

/-- A replay that is under way. -/
structure DebuggedReplay where
  session : Session
  properties : BuildProperties
  /-- The steps that are still to be done. -/
  rest : List ReplayStep

namespace DebuggedReplay

/-- The replay of a trace before its first step. -/
def ofTrace (settings : DebugSettings) (t : Trace) : DebuggedReplay :=
  ⟨{ settings }, t.initialProperties, t.replay⟩

/-- Defines the properties that come before the next callback, unless the build is blocked. -/
def settle (r : DebuggedReplay) : DebuggedReplay :=
  if r.session.status.blocksBuild then r
  else
    let isDefinition (step : ReplayStep) : Bool := match step with
      | .define _ _ => true
      | .callback _ => false
    { r with
      properties := (r.rest.takeWhile isDefinition).foldl ReplayStep.apply r.properties
      rest := r.rest.dropWhile isDefinition }

/-- Something happens to the session that is not the build's doing. -/
def interrupt (r : DebuggedReplay) (event : SessionEvent) : DebuggedReplay × List Notification :=
  let (session, sent) := r.session.step event
  ({ r with session }.settle, sent)

/-- The client sends a command. -/
def command (r : DebuggedReplay) (c : Command) : DebuggedReplay × List Notification :=
  r.interrupt (.command r.properties.all r.properties.user c)

/-- Goes on for so many callbacks at the most, or until the build is blocked or over. The answer
tells the callbacks made and what the client is sent. -/
def advance : (limit : Nat) → DebuggedReplay →
    DebuggedReplay × List BuildEvent × List Notification
  | 0, r => (r, [], [])
  | limit + 1, r =>
    if r.session.status.blocksBuild then (r, [], [])
    else
      match r.settle.rest with
      | .callback event :: rest =>
        let (session, sent) := r.session.callback event
        let next : DebuggedReplay := { r.settle with session, rest }
        let (final, events, later) := advance limit next.settle
        (final, event :: events, sent ++ later)
      | _ => (r.settle, [], [])

end DebuggedReplay

end BuildStepper
