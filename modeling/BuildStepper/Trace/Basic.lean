import BuildStepper.Frame
import BuildStepper.Properties.Build

/-!
# Recorded builds

A trace is a build that was written down: the properties it starts with, those the user gave among
them, and its targets with the tasks they run. A task can run further tasks, and it can define
properties. Where a task does not say which file it is declared in, it is that of its target.
-/

namespace BuildStepper

/-- One execution of a task, with those inside it. -/
inductive TraceTask where
  | mk (name : String) (file : Option BuildPath) (line : UInt32) (defines : PropertyTable)
      (tasks : List TraceTask)
deriving Inhabited

namespace TraceTask

/-- The name of the task. -/
def name : TraceTask → String
  | mk name _ _ _ _ => name

/-- The file it is declared in, if it is not that of its target. -/
def file : TraceTask → Option BuildPath
  | mk _ file _ _ _ => file

/-- The line it is declared on. -/
def line : TraceTask → UInt32
  | mk _ _ line _ _ => line

/-- The properties it defines when it has started. -/
def defines : TraceTask → PropertyTable
  | mk _ _ _ defines _ => defines

/-- The tasks it runs, in order. -/
def tasks : TraceTask → List TraceTask
  | mk _ _ _ _ tasks => tasks

end TraceTask

/-- One execution of a target. -/
structure TraceTarget where
  name : String
  file : BuildPath
  line : UInt32
  tasks : List TraceTask := []
deriving Inhabited

/-- The target itself, without its tasks. -/
def TraceTarget.target (t : TraceTarget) : Target :=
  ⟨t.name, t.file, t.line⟩

/-- A recorded build. -/
structure Trace where
  /-- The properties at the start. -/
  properties : PropertyTable := {}
  /-- Those the user gave; they take precedence. -/
  userProperties : PropertyTable := {}
  targets : List TraceTarget := []
deriving Inhabited

/-- The properties as they stand before any target runs. -/
def Trace.initialProperties (t : Trace) : BuildProperties :=
  (({} : BuildProperties).defineAllUser t.userProperties.entries).defineAll t.properties.entries

end BuildStepper
