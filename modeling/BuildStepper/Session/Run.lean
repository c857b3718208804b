import BuildStepper.Session.Build
import BuildStepper.Session.Client

/-!
# Runs of a session

All that can happen to a session, one thing after the other, and what the client is sent meanwhile.
While the build is held or waits for a client it does not call back, except that it can be given up.
-/

namespace BuildStepper

open Wire (Command Notification)

/-- Something that happens to a session. -/
inductive SessionEvent where
  /-- The build calls back. -/
  | build (event : BuildEvent)
  /-- A client connects. -/
  | attached
  /-- Nobody connects. -/
  | abandoned
  /-- The client sends a command while these are all properties and the user's. -/
  | command (all user : PropertyTable) (command : Command)
  /-- The connection ends. -/
  | disconnected
deriving Inhabited

namespace Session

/-- What an event does to a session, and what the client is sent. -/
def step (s : Session) : SessionEvent → Session × List Notification
  | .build event => s.callback event
  | .attached => s.attach
  | .abandoned => (s.abandon, [])
  | .command all user command => s.dispatch all user command
  | .disconnected => (s.disconnect, [])

/-- What events do to a session one after the other, and all that the client is sent. -/
def run (s : Session) : List SessionEvent → Session × List Notification
  | [] => (s, [])
  | event :: events =>
    let (s, first) := s.step event
    let (s, later) := s.run events
    (s, first ++ later)

/-- The text of notifications as the client receives it: each ends with a line feed. -/
def sentText (notifications : List Notification) : String :=
  String.join (notifications.map fun n => n.encode ++ "\n")

/-- Without events nothing happens. -/
@[simp] theorem run_nil (s : Session) : s.run [] = (s, []) := rfl

/-- The first event makes a step, and the others are met by what it leaves. -/
@[simp] theorem run_cons (s : Session) (event : SessionEvent) (events : List SessionEvent) :
    s.run (event :: events) =
      (((s.step event).1.run events).1, (s.step event).2 ++ ((s.step event).1.run events).2) := rfl

/-- A run can be cut anywhere. -/
theorem run_append (s : Session) (before after : List SessionEvent) :
    s.run (before ++ after) =
      (((s.run before).1.run after).1, (s.run before).2 ++ ((s.run before).1.run after).2) := by
  induction before generalizing s with
  | nil => simp
  | cons event before ih => simp [ih]

end Session

end BuildStepper
