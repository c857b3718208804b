import BuildStepper.Json.Reader
import BuildStepper.Trace.Basic

/-!
# Reading a trace

The schema of a trace: which fields its records have, which of them must be there, and what they
hold. Everything a trace can leave out has a default: no properties, no targets, no tasks, and for
the file of a task the one of its target.
-/

namespace BuildStepper

open Json (Failure RecordReader Take)

/-- Why a text is no trace. -/
structure TraceError where
  cause : Failure
deriving Repr

/-- What is wrong with the contents of a well-formed document, in words. -/
def TraceError.message? (e : TraceError) : Option String :=
  match e.cause with
  | .mismatch cause => some ("invalid build trace: " ++ cause.message)
  | _ => none

/-- Takes a path. -/
def takePath : Take BuildPath := fun cs =>
  (Json.takeText .path cs).map fun (spelling, cs) => (⟨spelling⟩, cs)

namespace TraceTask

/-- What an object has said of a task so far. -/
structure Fields where
  name : Option String := none
  file : Option (Option BuildPath) := none
  line : Option UInt32 := none
  defines : Option PropertyTable := none
  tasks : Option (List TraceTask) := none

/-- The task, once its object is read. -/
def Fields.finish (s : Fields) : Except Failure TraceTask := do
  let name ← Json.required "name" s.name
  let line ← Json.required "line" s.line
  return TraceTask.mk name (s.file.getD none) line (s.defines.getD {}) (s.tasks.getD [])

/-- How the fields of a task are read, given how its properties and its tasks are. -/
def reader (defines : Take PropertyTable) (tasks : Take (List TraceTask)) :
    RecordReader TraceTask where
  ofSequence := fun cs => do
    let required {α : Type} (index : Nat) : Option α → Except Failure α :=
      Json.requiredElement "TraceTask" index 5
    let (name, cs) ← Json.takeElement? true (Json.takeText .text) cs
    let name ← required 0 name
    let (file, cs) ← Json.takeElement? false (Json.takeOptional takePath) cs
    let (line, cs) ← Json.takeElement? false Json.takeWord32 cs
    let line ← required 2 line
    let (defines, cs) ← Json.takeElement? false defines cs
    let (tasks, cs) ← Json.takeElement? false tasks cs
    return (TraceTask.mk name (file.getD none) line (defines.getD {}) (tasks.getD []), cs)
  ofMap := fun cs => do
    let entry (s : Fields) (key : String) : Take Fields :=
      match key with
      | "name" =>
        Json.takeField key s.name (Json.takeText .text) fun v => { s with name := some v }
      | "file" =>
        Json.takeField key s.file (Json.takeOptional takePath) fun v => { s with file := some v }
      | "line" => Json.takeField key s.line Json.takeWord32 fun v => { s with line := some v }
      | "defines" => Json.takeField key s.defines defines fun v => { s with defines := some v }
      | "tasks" => Json.takeField key s.tasks tasks fun v => { s with tasks := some v }
      | _ => Json.skipField s
    let (s, cs) ← Json.takeEntries entry {} true (' ' :: cs) cs
    return (← s.finish, cs)

/-- Takes a task within a budget of nesting levels. Its object is one level, and so is each list of
tasks and each object of properties. -/
def take : (budget : Nat) → Take TraceTask
  | 0 => Json.takeRecord "TraceTask" none
  | 1 => Json.takeRecord "TraceTask" (some (reader (Json.takeTable false) (Json.takeSequence none)))
  | budget + 2 =>
    Json.takeRecord "TraceTask"
      (some (reader (Json.takeTable true) (Json.takeSequence (some (take budget)))))

end TraceTask

namespace TraceTarget

/-- What an object has said of a target so far. -/
structure Fields where
  name : Option String := none
  file : Option BuildPath := none
  line : Option UInt32 := none
  tasks : Option (List TraceTask) := none

/-- The target, once its object is read. -/
def Fields.finish (s : Fields) : Except Failure TraceTarget := do
  let name ← Json.required "name" s.name
  let file ← Json.required "file" s.file
  let line ← Json.required "line" s.line
  return { name, file, line, tasks := s.tasks.getD [] }

/-- How the fields of a target are read, given how its tasks are. -/
def reader (tasks : Take (List TraceTask)) : RecordReader TraceTarget where
  ofSequence := fun cs => do
    let required {α : Type} (index : Nat) : Option α → Except Failure α :=
      Json.requiredElement "TraceTarget" index 4
    let (name, cs) ← Json.takeElement? true (Json.takeText .text) cs
    let name ← required 0 name
    let (file, cs) ← Json.takeElement? false takePath cs
    let file ← required 1 file
    let (line, cs) ← Json.takeElement? false Json.takeWord32 cs
    let line ← required 2 line
    let (tasks, cs) ← Json.takeElement? false tasks cs
    return ({ name, file, line, tasks := tasks.getD [] }, cs)
  ofMap := fun cs => do
    let entry (s : Fields) (key : String) : Take Fields :=
      match key with
      | "name" =>
        Json.takeField key s.name (Json.takeText .text) fun v => { s with name := some v }
      | "file" => Json.takeField key s.file takePath fun v => { s with file := some v }
      | "line" => Json.takeField key s.line Json.takeWord32 fun v => { s with line := some v }
      | "tasks" => Json.takeField key s.tasks tasks fun v => { s with tasks := some v }
      | _ => Json.skipField s
    let (s, cs) ← Json.takeEntries entry {} true (' ' :: cs) cs
    return (← s.finish, cs)

/-- Takes a target within a budget of nesting levels. -/
def take : (budget : Nat) → Take TraceTarget
  | 0 => Json.takeRecord "TraceTarget" none
  | 1 => Json.takeRecord "TraceTarget" (some (reader (Json.takeSequence none)))
  | budget + 2 =>
    Json.takeRecord "TraceTarget"
      (some (reader (Json.takeSequence (some (TraceTask.take budget)))))

end TraceTarget

namespace Trace

/-- What an object has said of a trace so far. -/
structure Fields where
  properties : Option PropertyTable := none
  userProperties : Option PropertyTable := none
  targets : Option (List TraceTarget) := none

/-- The trace, once its object is read. -/
def Fields.finish (s : Fields) : Trace :=
  { properties := s.properties.getD {}, userProperties := s.userProperties.getD {},
    targets := s.targets.getD [] }

/-- How the fields of a trace are read, given how its tables and its targets are. -/
def reader (table : Take PropertyTable) (targets : Take (List TraceTarget)) :
    RecordReader Trace where
  ofSequence := fun cs => do
    let (properties, cs) ← Json.takeElement? true table cs
    let (userProperties, cs) ← Json.takeElement? false table cs
    let (targets, cs) ← Json.takeElement? false targets cs
    return (Fields.finish { properties, userProperties, targets }, cs)
  ofMap := fun cs => do
    let entry (s : Fields) (key : String) : Take Fields :=
      match key with
      | "properties" =>
        Json.takeField key s.properties table fun v => { s with properties := some v }
      | "user_properties" =>
        Json.takeField key s.userProperties table fun v => { s with userProperties := some v }
      | "targets" => Json.takeField key s.targets targets fun v => { s with targets := some v }
      | _ => Json.skipField s
    let (s, cs) ← Json.takeEntries entry {} true (' ' :: cs) cs
    return (s.finish, cs)

/-- Takes a trace within a budget of nesting levels, of which its object is one and the list of its
targets another. -/
def take : (budget : Nat) → Take Trace
  | 0 => Json.takeRecord "BuildTrace" none
  | 1 =>
    Json.takeRecord "BuildTrace" (some (reader (Json.takeTable false) (Json.takeSequence none)))
  | budget + 2 =>
    Json.takeRecord "BuildTrace"
      (some (reader (Json.takeTable true) (Json.takeSequence (some (TraceTarget.take budget)))))

/-- Reads a trace. -/
def ofJson (text : String) : Except TraceError Trace :=
  match Json.readDocument (take Json.maxDepth) text with
  | .ok trace => .ok trace
  | .error cause => .error ⟨cause⟩

end Trace

end BuildStepper
