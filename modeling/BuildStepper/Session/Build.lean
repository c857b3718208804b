import BuildStepper.Session.Basic
import BuildStepper.Settings.Basic
import BuildStepper.Trace.Replay

/-!
# What the build tells a session

At every callback the session takes down what runs, and decides whether the build is held. Starts
and finishes count only while a client is attached. The end of the build ends the session, whatever
its status.
-/

namespace BuildStepper.Session

open Wire (Notification)

/-- The build starts. A session that has seen a build start takes no notice. -/
def buildStarted (s : Session) (baseline : PropertyTable) : Session :=
  if s.status = .idle then
    { s with
      report := .start baseline
      status := match s.settings.listenPort? baseline with
        | some port => .awaiting port
        | none => .terminated }
  else s

/-- A target starts. Steps and requests to suspend do not stop here, breakpoints only if the
settings let them. -/
def targetStarted (s : Session) (t : Target) : Session × List Notification :=
  if s.status.isLive then
    let s := { s with targets := t :: s.targets, current := none, atTargetStart := true }
    if s.settings.targetBreakpoints then
      s.suspendIf ((s.breakpoints.at? t.location).map .breakpoint)
    else (s, [])
  else (s, [])

/-- A target finishes: the innermost one like it is no longer in execution. -/
def targetFinished (s : Session) (t : Target) : Session :=
  if s.status.isLive then { s with targets := s.targets.eraseP (·.same t) } else s

/-- A task starts. -/
def taskStarted (s : Session) (f : CallFrame) : Session × List Notification :=
  if s.status.isLive then
    let s := { s with stack := s.stack.push f, current := some f.id, atTargetStart := false }
    s.suspendIf (s.suspendReason? (some f.location))
  else (s, [])

/-- A task finishes. -/
def taskFinished (s : Session) (f : CallFrame) : Session × List Notification :=
  if s.status.isLive then
    let s := { s with
      stack := s.stack.pop f.id
      lastFinished := some f.id
      current := none
      atTargetStart := false }
    s.suspendIf (s.suspendReason? none)
  else (s, [])

/-- The build is over. -/
def buildFinished (s : Session) : Session × List Notification :=
  ({ s.terminate with stack := {}, targets := [], current := none, atTargetStart := false },
    if s.status.isLive then [.terminated] else [])

/-- The build calls back. -/
def callback (s : Session) : BuildEvent → Session × List Notification
  | .buildStarted baseline => (s.buildStarted baseline, [])
  | .targetStarted t => s.targetStarted t
  | .targetFinished t => (s.targetFinished t, [])
  | .taskStarted f => s.taskStarted f
  | .taskFinished f => s.taskFinished f
  | .buildFinished => s.buildFinished

end BuildStepper.Session
