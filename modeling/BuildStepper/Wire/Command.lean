import BuildStepper.Wire.Field

/-!
# Commands of the client

A command is one line: its name in capitals and, for the two that concern a breakpoint, a location.
`Command.decode` takes the spelling exactly, apart from line ends after it, and `Command.encode`
writes it.
-/

namespace BuildStepper.Wire

/-- What a client can ask for. -/
inductive Command where
  | stepInto
  | stepOver
  | suspend
  | resume
  | terminate
  | stack
  | properties
  | addBreakpoint (location : Location)
  | removeBreakpoint (location : Location)
deriving DecidableEq, Repr

namespace Command

/-- The word that a command begins with. -/
def name : Command → String
  | stepInto => "STEP_INTO"
  | stepOver => "STEP_OVER"
  | suspend => "SUSPEND"
  | resume => "RESUME"
  | terminate => "TERMINATE"
  | stack => "STACK"
  | properties => "PROPERTIES"
  | addBreakpoint _ => "ADD_BREAKPOINT"
  | removeBreakpoint _ => "REMOVE_BREAKPOINT"

/-- The location a command carries. -/
def location? : Command → Option Location
  | addBreakpoint l | removeBreakpoint l => some l
  | _ => none

/-- The characters of a command, without a line end. -/
def encodeChars (c : Command) : List Char :=
  match c.location? with
  | none => c.name.toList
  | some l => c.name.toList ++ putRaw l.idChars

/-- A command as it is sent, without a line end. -/
def encode (c : Command) : String :=
  String.ofList c.encodeChars

/-- A command without a location takes nothing after its name. -/
def bare (c : Command) : Option (List Char) → Except WireError Command
  | none => .ok c
  | some rest => .error (.trailingData (String.ofList rest))

/-- A command with a location takes it after its name and a colon. -/
def located (make : Location → Command) : Option (List Char) → Except WireError Command
  | none => .error (.missingField .file)
  | some rest => (readLocation rest).map make

/-- The part of a command before its first colon, and what follows that colon if there is one. -/
def splitName (cs : List Char) : List Char × Option (List Char) :=
  match cs.span (· ≠ delimiter) with
  | (name, []) => (name, none)
  | (name, _ :: rest) => (name, some rest)

/-- Reads a command. -/
def decodeChars (cs : List Char) : Except WireError Command :=
  let (name, rest) := splitName (stripLineEnds cs)
  match String.ofList name with
  | "STEP_INTO" => bare stepInto rest
  | "STEP_OVER" => bare stepOver rest
  | "SUSPEND" => bare suspend rest
  | "RESUME" => bare resume rest
  | "TERMINATE" => bare terminate rest
  | "STACK" => bare stack rest
  | "PROPERTIES" => bare properties rest
  | "ADD_BREAKPOINT" => located addBreakpoint rest
  | "REMOVE_BREAKPOINT" => located removeBreakpoint rest
  | other => .error (.unknownCommand other)

/-- Reads a command off a line; line ends after it do not count. -/
def decode (line : String) : Except WireError Command :=
  decodeChars line.toList

end Command

end BuildStepper.Wire
