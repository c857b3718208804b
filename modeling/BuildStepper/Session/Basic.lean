import BuildStepper.Breakpoints
import BuildStepper.CallStack
import BuildStepper.Properties.Report
import BuildStepper.Session.Status
import BuildStepper.Settings.Basic

/-!
# Debug sessions

A session stands between a build and its client. The build calls it back at every start and finish
of a target or task, and the session may hold it there; the client sends commands and is notified.

The client does not hold the build by itself. It leaves a request, and the next moment of the build
that fits takes all requests up: breakpoints are looked at first, then steps, then the plain request
to suspend.
-/

namespace BuildStepper

open Wire (Notification SuspendReason FrameRecord)

/-- What the client has asked for since the build was last held. -/
structure Requests where
  /-- Hold the build at the next start or finish of a task. -/
  stepInto : Bool := false
  /-- Hold the build when this task finishes. -/
  stepOver : Option FrameId := none
  /-- Hold the build at the next start or finish of a task, since the client said so. -/
  suspend : Bool := false
deriving DecidableEq, Repr, Inhabited

/-- A session. -/
structure Session where
  settings : DebugSettings := {}
  status : Status := .idle
  /-- The tasks in execution. -/
  stack : CallStack := {}
  /-- The targets in execution, innermost first. -/
  targets : List Target := []
  breakpoints : Breakpoints := {}
  report : PropertyReport := {}
  pending : Requests := {}
  /-- The task that started last, until a task finishes or a target starts. -/
  current : Option FrameId := none
  /-- Whether a target started and no task has started or finished since. -/
  atTargetStart : Bool := false
  /-- The task that finished last. -/
  lastFinished : Option FrameId := none
deriving Inhabited

namespace Session

/-- Why the build is to be held at this moment, if it is. Only what starts has a place. -/
def suspendReason? (s : Session) (place : Option Location) : Option SuspendReason :=
  match place.bind s.breakpoints.at? with
  | some location => some (.breakpoint location)
  | none =>
    if s.pending.stepInto then some .step
    else if s.pending.stepOver.isSome && s.pending.stepOver = s.lastFinished then some .step
    else if s.pending.suspend then some .clientRequest
    else none

/-- Holds the build. All requests are taken up by it. -/
def suspend (s : Session) (reason : SuspendReason) : Session × List Notification :=
  ({ s with pending := {}, status := .suspended (.ofReason reason) }, [.suspended reason])

/-- Holds the build if there is a reason. -/
def suspendIf (s : Session) : Option SuspendReason → Session × List Notification
  | some reason => s.suspend reason
  | none => (s, [])

/-- With a reason the build is held, all requests are dropped, and the client is told. -/
@[simp] theorem suspendIf_some (s : Session) (reason : SuspendReason) :
    s.suspendIf (some reason) =
      ({ s with pending := {}, status := .suspended (.ofReason reason) }, [.suspended reason]) :=
  rfl

/-- Without a reason nothing happens. -/
@[simp] theorem suspendIf_none (s : Session) : s.suspendIf none = (s, []) := rfl

/-- Holding the build changes no more than the requests and the status. -/
theorem suspendIf_fst (s : Session) (reason : Option SuspendReason) :
    (s.suspendIf reason).1 =
      { s with
        pending := if reason.isSome then {} else s.pending
        status := (reason.map fun r => .suspended (.ofReason r)).getD s.status } := by
  cases reason <;> rfl

/-- The client is told of a hold, and of nothing else. -/
theorem suspendIf_snd (s : Session) (reason : Option SuspendReason) :
    (s.suspendIf reason).2 = (reason.map Notification.suspended).toList := by
  cases reason <;> rfl

/-- Ends the session, which sets the build free. -/
def terminate (s : Session) : Session :=
  { s with status := .terminated, pending := {} }

/-- Lets a build go on that is held. -/
def release (s : Session) : Session :=
  if s.status.isSuspended then { s with status := .running } else s

/-- Letting the build go on changes no more than the status. -/
theorem release_eq (s : Session) :
    s.release = { s with status := if s.status.isSuspended then .running else s.status } := by
  unfold release
  split <;> rfl

/-- The stack as it is reported: the tasks, or the innermost target where no task runs. -/
def stackRecords (s : Session) : List FrameRecord :=
  if s.stack.isEmpty then (s.targets.head?.map Target.record).toList
  else s.stack.frames.map CallFrame.record

/-- The task that a step over the current one runs to the end of; none at the start of a target and
outside all tasks. -/
def stepOverTarget? (s : Session) : Option FrameId :=
  if s.atTargetStart then none
  else s.current.or (s.stack.top?.map CallFrame.id)

end Session

end BuildStepper
