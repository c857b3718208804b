import BuildStepper.Settings.Basic
import BuildStepper.Text.Terminal

/-!
# Command lines

The program takes the file of a trace and three options with values, in any order. A value stands in
the next argument or behind an equals sign in the same one; two hyphens alone end the options.

A value counts as given only when the argument after it has been looked at, so of two mistakes next
to each other the second can be the one that is reported: an unknown option is refused before the
value in front of it is read. `Draft.pending` is where such a value waits.
-/

namespace BuildStepper.CommandLine

/-- What a command line sets. -/
inductive Slot where
  | trace
  | config
  | port
  | host
deriving DecidableEq, Repr

/-- What messages call a slot. -/
def Slot.label : Slot → String
  | .trace => "<TRACE>"
  | .config => "--config <CONFIG>"
  | .port => "--port <PORT>"
  | .host => "--host <HOST>"

/-- What is wrong with a number. -/
inductive NumberFault where
  | empty
  | notDigit
  | tooLarge
  | tooSmall
  /-- It is one, but no port. -/
  | notPort (value : Int)
deriving DecidableEq, Repr

/-- The fault in words. -/
def NumberFault.message : NumberFault → String
  | .empty => "cannot parse integer from empty string"
  | .notDigit => "invalid digit found in string"
  | .tooLarge => "number too large to fit in target type"
  | .tooSmall => "number too small to fit in target type"
  | .notPort value => toString value ++ " is not in 0..=65535"

/-- What is wrong with a command line. -/
inductive Mistake where
  | unexpected (argument : String)
  | unknownOption (option : String)
  | unexpectedValue (value option : String)
  | missingValue (slot : Slot)
  | repeated (slot : Slot)
  | invalidPort (value : String) (fault : NumberFault)
  | missingTrace
deriving DecidableEq, Repr

/-- A text between single quotes, as a terminal shows it. -/
def inQuotes (text : String) : String :=
  "'" ++ Text.shown text ++ "'"

/-- The mistake in words. -/
def Mistake.message : Mistake → String
  | .unexpected argument | .unknownOption argument =>
    "unexpected argument " ++ inQuotes argument ++ " found"
  | .unexpectedValue value option =>
    "unexpected value " ++ inQuotes value ++ " for '" ++ option ++ "' found; no more were expected"
  | .missingValue slot => "a value is required for '" ++ slot.label ++ "' but none was supplied"
  | .repeated slot => "the argument '" ++ slot.label ++ "' cannot be used multiple times"
  | .invalidPort value fault =>
    "invalid value " ++ inQuotes value ++ " for '" ++ Slot.port.label ++ "': " ++ fault.message
  | .missingTrace =>
    "the following required arguments were not provided:\n  " ++ Slot.trace.label

/-- What a command line says about a run. -/
structure Arguments where
  trace : String
  config : Option String := none
  port : Option UInt16 := none
  host : Option String := none
deriving DecidableEq, Repr

/-- What a command line asks for. -/
inductive Request where
  | run (arguments : Arguments)
  | version
  | help
  /-- The help in full. -/
  | manual
deriving DecidableEq, Repr

/-- The settings of a run: what the command line says goes before the settings file. -/
def Arguments.override (a : Arguments) (settings : DebugSettings) : DebugSettings :=
  { settings with port := a.port.or settings.port, host := a.host.getD settings.host }

/-! ## Numbers -/

/-- Reads digits onto a number of 64 bits; each moves away from zero in the direction of the
sign. -/
def readDigits (negative : Bool) (value : Int) : List Char → Except NumberFault Int
  | [] => .ok value
  | c :: cs =>
    if c.isDigit then
      let digit : Int := Text.digitValue c
      let next := value * 10 + if negative then -digit else digit
      if next < -Int.pow 2 63 then .error .tooSmall
      else if Int.pow 2 63 ≤ next then .error .tooLarge
      else readDigits negative next cs
    else .error .notDigit

/-- Reads an integer of 64 bits. -/
def readInteger (cs : List Char) : Except NumberFault Int :=
  match cs with
  | [] => .error .empty
  | ['+'] | ['-'] => .error .notDigit
  | '+' :: cs => readDigits false 0 cs
  | '-' :: cs => readDigits true 0 cs
  | cs => readDigits false 0 cs

/-- Reads a port. -/
def readPort (text : String) : Except NumberFault UInt16 :=
  (readInteger text.toList).bind fun value =>
    if 0 ≤ value && value < portLimit then .ok value.toNat.toUInt16 else .error (.notPort value)

/-! ## Reading -/

/-- What the arguments so far say. -/
structure Draft where
  trace : Option String := none
  config : Option String := none
  port : Option UInt16 := none
  host : Option String := none
  /-- What was named last, with its value once it has one, which is not yet read. -/
  pending : Option (Slot × Option String) := none
  /-- Whether the options have ended. -/
  plain : Bool := false

namespace Draft

/-- Whether a slot has a value. -/
def has (d : Draft) : Slot → Bool
  | .trace => d.trace.isSome
  | .config => d.config.isSome
  | .port => d.port.isSome
  | .host => d.host.isSome

/-- Reads the value of a slot. Files have names. -/
def set (d : Draft) (slot : Slot) (value : String) : Except Mistake Draft :=
  if d.has slot then .error (.repeated slot)
  else match slot with
    | .trace => if value.isEmpty then .error (.missingValue slot) else .ok { d with trace := value }
    | .config =>
      if value.isEmpty then .error (.missingValue slot) else .ok { d with config := value }
    | .host => .ok { d with host := value }
    | .port =>
      match readPort value with
      | .ok port => .ok { d with port }
      | .error fault => .error (.invalidPort value fault)

/-- Reads what is pending. -/
def settle (d : Draft) : Except Mistake Draft :=
  match d.pending with
  | none => .ok d
  | some (slot, none) => .error (.missingValue slot)
  | some (slot, some value) => { d with pending := none }.set slot value

/-- An option is named, with a value behind an equals sign or without. -/
def name (d : Draft) (slot : Slot) (attached : Option String) : Except Mistake Draft := do
  let d ← d.settle
  match attached with
  | some value => d.set slot value
  | none => return { d with pending := some (slot, none) }

/-- An argument that is no option: the value that is waited for, or else the trace. -/
def place (d : Draft) (argument : String) : Except Mistake Draft := do
  match d.pending, d.plain with
  | some (slot, none), false => return { d with pending := some (slot, some argument) }
  | pending, _ =>
    if d.trace.isSome || pending.any (·.1 = .trace) then throw (.unexpected argument)
    let d ← d.settle
    return { d with pending := some (.trace, some argument) }

/-- The end of a command line. -/
def finish (d : Draft) : Except Mistake Request := do
  let d ← d.settle
  match d.trace with
  | some trace => return .run ⟨trace, d.config, d.port, d.host⟩
  | none => throw .missingTrace

end Draft

/-- The long names of all options. -/
def longNames : List String :=
  ["config", "port", "host", "help", "version"]

/-- The option with a long name. -/
def slotOfName? : String → Option Slot
  | "config" => some .config
  | "port" => some .port
  | "host" => some .host
  | _ => none

/-- The request with a long name. -/
def requestOfName? : String → Option Request
  | "help" => some .manual
  | "version" => some .version
  | _ => none

/-- The request with a short name. -/
def requestOfLetter? : Char → Option Request
  | 'h' => some .help
  | 'V' => some .version
  | _ => none

/-- What an argument does: it adds to the draft, or it asks for something else than a run. -/
def readArgument (d : Draft) (argument : String) : Except Mistake (Draft ⊕ Request) :=
  let placed := (d.place argument).map .inl
  if d.plain then placed
  else match argument.toList with
    | ['-', '-'] => .ok (.inl { d with plain := true })
    | '-' :: '-' :: cs =>
      let (name, rest) := cs.span (· ≠ '=')
      let name := String.ofList name
      let attached := match rest with
        | [] => none
        | _ :: value => some (String.ofList value)
      match slotOfName? name, requestOfName? name, attached with
      | some slot, _, _ => (d.name slot attached).map .inl
      | none, some request, none => d.settle.map fun _ => .inr request
      | none, some _, some value => .error (.unexpectedValue value ("--" ++ name))
      | none, none, _ => .error (.unknownOption ("--" ++ name))
    | '-' :: letter :: _ =>
      match requestOfLetter? letter with
      | some request => d.settle.map fun _ => .inr request
      | none => .error (.unknownOption (String.ofList ['-', letter]))
    | _ => placed

/-- Reads arguments on top of a draft. -/
def readArguments (d : Draft) : List String → Except Mistake Request
  | [] => d.finish
  | argument :: rest =>
    match readArgument d argument with
    | .error mistake => .error mistake
    | .ok (.inl d) => readArguments d rest
    | .ok (.inr request) => .ok request

/-- What a command line asks for. -/
def Request.ofArguments (arguments : List String) : Except Mistake Request :=
  readArguments {} arguments

end BuildStepper.CommandLine
