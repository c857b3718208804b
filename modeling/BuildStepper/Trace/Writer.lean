import BuildStepper.Json.Writer
import BuildStepper.Trace.Basic

/-!
# Writing a trace

A trace is written with all its fields, whether they have their default value or not; a task that
has no file of its own says so by `null`.
-/

namespace BuildStepper

/-- Writes the file of a task. -/
def putFile? : Option BuildPath → List Char
  | none => "null".toList
  | some path => Json.putString path.spelling

mutual

/-- Writes a task. -/
def TraceTask.put : TraceTask → List Char
  | .mk name file line defines tasks =>
    Json.putObject [
      ("name", Json.putString name),
      ("file", putFile? file),
      ("line", Json.putNat line.toNat),
      ("defines", Json.putTable defines),
      ("tasks", Json.putArray (TraceTask.putAll tasks))]

/-- Writes each task of a list. -/
def TraceTask.putAll : List TraceTask → List (List Char)
  | [] => []
  | task :: tasks => task.put :: TraceTask.putAll tasks

end

/-- Writes a target. -/
def TraceTarget.put (t : TraceTarget) : List Char :=
  Json.putObject [
    ("name", Json.putString t.name),
    ("file", Json.putString t.file.spelling),
    ("line", Json.putNat t.line.toNat),
    ("tasks", Json.putArray (TraceTask.putAll t.tasks))]

/-- Writes a trace. -/
def Trace.put (t : Trace) : List Char :=
  Json.putObject [
    ("properties", Json.putTable t.properties),
    ("user_properties", Json.putTable t.userProperties),
    ("targets", Json.putArray (t.targets.map TraceTarget.put))]

/-- The trace as a document. -/
def Trace.toJson (t : Trace) : String :=
  String.ofList t.put

end BuildStepper
