import BuildStepper.Trace.Basic

/-!
# Replaying a trace

A replay is what a live build would do, step by step: it calls back whoever listens to it, and it
defines properties in between. It visits targets and tasks depth first. Every execution of a task is
a new frame, numbered in the order of their starts, and the frame that finishes is the one that
started. The properties of a task are defined once its start was called back, so before any task
inside it starts.
-/

namespace BuildStepper

/-- A moment of a build at which its listener is called back. -/
inductive BuildEvent where
  /-- The build starts, with the properties as they stand. -/
  | buildStarted (baseline : PropertyTable)
  | targetStarted (target : Target)
  | targetFinished (target : Target)
  | taskStarted (frame : CallFrame)
  | taskFinished (frame : CallFrame)
  | buildFinished
deriving DecidableEq, Inhabited

/-- One step of a replay. -/
inductive ReplayStep where
  /-- The listener is called back. -/
  | callback (event : BuildEvent)
  /-- A property is defined, unless it already is. -/
  | define (name value : String)
deriving Inhabited

mutual

/-- The steps of a task, where `next` is the number of its frame, and the number after those
used. -/
def TraceTask.steps (target : TraceTarget) (next : Nat) : TraceTask → List ReplayStep × Nat
  | .mk name file line defines tasks =>
    let frame : CallFrame := ⟨⟨next⟩, target.name, name, file.getD target.file, line⟩
    let (inner, next) := TraceTask.stepsAll target (next + 1) tasks
    (.callback (.taskStarted frame) :: defines.sorted.map (fun e => .define e.1 e.2)
      ++ inner ++ [.callback (.taskFinished frame)], next)

/-- The steps of tasks one after the other, and the number after those used. -/
def TraceTask.stepsAll (target : TraceTarget) (next : Nat) :
    List TraceTask → List ReplayStep × Nat
  | [] => ([], next)
  | task :: tasks =>
    let (first, next) := task.steps target next
    let (others, next) := TraceTask.stepsAll target next tasks
    (first ++ others, next)

end

/-- The steps of a target and the number after those used. -/
def TraceTarget.steps (next : Nat) (t : TraceTarget) : List ReplayStep × Nat :=
  let (inner, next) := TraceTask.stepsAll t next t.tasks
  (.callback (.targetStarted t.target) :: inner ++ [.callback (.targetFinished t.target)], next)

/-- The steps of targets one after the other. -/
def TraceTarget.stepsAll (next : Nat) : List TraceTarget → List ReplayStep
  | [] => []
  | t :: ts =>
    let (first, next) := t.steps next
    first ++ TraceTarget.stepsAll next ts

/-- The steps of a whole build. -/
def Trace.replay (t : Trace) : List ReplayStep :=
  .callback (.buildStarted t.initialProperties.all) :: TraceTarget.stepsAll 0 t.targets
    ++ [.callback .buildFinished]

/-- What a step does to the properties. -/
def ReplayStep.apply (p : BuildProperties) : ReplayStep → BuildProperties
  | .callback _ => p
  | .define name value => (p.define name value).2

/-- The properties once the build is over. -/
def Trace.finalProperties (t : Trace) : BuildProperties :=
  t.replay.foldl ReplayStep.apply t.initialProperties

/-- The callbacks of a build. -/
def Trace.events (t : Trace) : List BuildEvent :=
  t.replay.filterMap fun
    | .callback event => some event
    | .define _ _ => none

end BuildStepper
