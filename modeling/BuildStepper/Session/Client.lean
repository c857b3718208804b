import BuildStepper.Session.Basic
import BuildStepper.Wire.Inbox

/-!
# What the client does to a session

A client attaches once, while the build waits for it, and finds the build held. From then on it
sends commands until the session is over; what comes later is dropped.
-/

namespace BuildStepper.Session

open Wire (Command Notification)

/-- A client has connected. It is of no use to a session that does not wait for one. -/
def attach (s : Session) : Session × List Notification :=
  match s.status with
  | .awaiting _ => ({ s with status := .suspended .buildStart }, [.buildStarted])
  | _ => (s, [])

/-- No client comes: the place to listen at cannot be had, or nobody connects in time. -/
def abandon (s : Session) : Session :=
  match s.status with
  | .awaiting _ => s.terminate
  | _ => s

/-- The connection is gone. -/
def disconnect (s : Session) : Session :=
  if s.status.isLive then s.terminate else s

/-- Steps over the current task, or into the next one where there is none to step over. -/
def stepOver (s : Session) : Session :=
  let pending := match s.stepOverTarget? with
    | some id => { s.pending with stepOver := some id }
    | none => { s.pending with stepInto := true }
  { s with pending }.release

/-- Carries out a command; the two tables are the properties of the build, all of them and the
user's, as they stand. -/
def dispatch (s : Session) (all user : PropertyTable) (command : Command) :
    Session × List Notification :=
  if s.status.isLive then
    match command with
    | .stepInto => ({ s with pending := { s.pending with stepInto := true } }.release, [])
    | .stepOver => (s.stepOver, [])
    | .suspend => ({ s with pending := { s.pending with suspend := true } }, [])
    | .resume => (s.release, [])
    | .terminate => (s.terminate, [.terminated])
    | .stack => (s, [.stack s.stackRecords])
    | .addBreakpoint l => ({ s with breakpoints := s.breakpoints.add l }, [])
    | .removeBreakpoint l => ({ s with breakpoints := s.breakpoints.remove l }, [])
    | .properties =>
      ({ s with report := s.report.report all }, [.properties (s.report.delta all user)])
  else (s, [])

end BuildStepper.Session
