import BuildStepper.Wire.Notification

/-!
# Tasks and targets in execution

A build runs targets, a target runs tasks, and a task may run further tasks. A frame is one
execution of a task: two executions of one task at one place are two frames, told apart by their
identity. A target has no identity; it is known by what it says of itself.
-/

namespace BuildStepper

open Wire (FrameRecord)

/-- What tells one execution of a task from all others. -/
structure FrameId where
  index : Nat
deriving DecidableEq, Repr, Inhabited

/-- One execution of a task. -/
structure CallFrame where
  id : FrameId
  /-- The name of the target it runs under. -/
  target : String
  /-- The name of the task. -/
  task : String
  file : BuildPath
  line : UInt32
deriving DecidableEq, Repr, Inhabited

/-- A named group of tasks, and where it is declared. -/
structure Target where
  name : String
  file : BuildPath
  line : UInt32
deriving DecidableEq, Repr, Inhabited

namespace CallFrame

/-- Where the task is declared. -/
def location (f : CallFrame) : Location :=
  ⟨f.file, f.line⟩

/-- The frame as it is reported. -/
def record (f : CallFrame) : FrameRecord :=
  ⟨f.target, f.task, f.file.spelling, f.line⟩

/-- Whether two frames agree in everything, files being compared as paths. -/
def same (f g : CallFrame) : Bool :=
  f.id = g.id && f.target = g.target && f.task = g.task && f.location.same g.location

end CallFrame

namespace Target

/-- Where the target is declared. -/
def location (t : Target) : Location :=
  ⟨t.file, t.line⟩

/-- The target as it is reported when none of its tasks runs: a frame without a task. -/
def record (t : Target) : FrameRecord :=
  ⟨t.name, "", t.file.spelling, t.line⟩

/-- Whether two targets agree in everything, files being compared as paths. -/
def same (t u : Target) : Bool :=
  t.name = u.name && t.location.same u.location

end Target

end BuildStepper
