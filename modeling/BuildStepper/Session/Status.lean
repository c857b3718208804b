import BuildStepper.Wire.Notification

/-!
# Where a debug session stands

A session begins idle. When the build starts it waits for a client if there is a port to wait at,
and is over at once if not. With a client it is live, and then the build either runs or is held. A
session that is over stays so.
-/

namespace BuildStepper

/-- What holds the build. -/
inductive Hold where
  | breakpoint
  | step
  /-- The client asked for it. -/
  | client
  /-- The build has only just started. -/
  | buildStart
deriving DecidableEq, Repr

/-- What holds the build when it is suspended for a reason. -/
def Hold.ofReason : Wire.SuspendReason → Hold
  | .breakpoint _ => .breakpoint
  | .step => .step
  | .clientRequest => .client

/-- Where a session stands. -/
inductive Status where
  /-- The build has not started. -/
  | idle
  /-- The build has started and waits for a client at this port. -/
  | awaiting (port : UInt16)
  | running
  | suspended (hold : Hold)
  | terminated
deriving DecidableEq, Repr, Inhabited

namespace Status

/-- Whether a client holds the build. -/
def isSuspended : Status → Bool
  | suspended _ => true
  | _ => false

/-- Whether a client is attached. -/
def isLive : Status → Bool
  | running | suspended _ => true
  | _ => false

/-- Whether the build cannot go on, be it that a client holds it or that it waits for one. -/
def blocksBuild : Status → Bool
  | awaiting _ | suspended _ => true
  | _ => false

/-- The name of a status; until a client comes a session is idle. -/
def name : Status → String
  | idle | awaiting _ => "Idle"
  | running => "Running"
  | suspended .breakpoint => "SuspendedAtBreakpoint"
  | suspended .step => "SuspendedAtStep"
  | suspended .client => "SuspendedByClient"
  | suspended .buildStart => "SuspendedAtBuildStart"
  | terminated => "Terminated"

/-- A session in which the build is held is live. -/
theorem isLive_of_isSuspended {status : Status} (h : status.isSuspended = true) :
    status.isLive = true := by
  cases status <;> simp_all [isSuspended, isLive]

end Status

end BuildStepper
