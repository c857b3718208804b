/-!
# What is wrong with a document

A text that is no document is refused for the first thing in it that breaks a rule. The fault names
what was being read there, what could have stood there instead, and what is wrong with it beyond its
spelling, as far as there is something to say of each.

A reader fails in one of two ways. Either nothing of its kind begins the text; then something else
may. Or what begins the text can be nothing else but is broken; then the document is.
-/

namespace BuildStepper.Toml

/-- What can be wrong with something beyond its spelling. -/
inductive Cause where
  | outOfRange
  /-- An integer above those of 64 bits. -/
  | tooLarge
  /-- An integer below those of 64 bits. -/
  | tooSmall
  /-- It is nested too deeply. -/
  | tooDeep
  /-- A key already has a meaning, in a table that may be told by its path. -/
  | taken (name : String) (table : Option (List String))
  /-- A key leads through a value of this kind. -/
  | noTable (path : List String) (kind : String)
deriving DecidableEq, Repr

/-- The cause in words. -/
def Cause.message : Cause → String
  | .outOfRange => "value is out of range"
  | .tooLarge => "number too large to fit in target type"
  | .tooSmall => "number too small to fit in target type"
  | .tooDeep => "recursion limit exceeded"
  | .taken name none => "duplicate key \x60" ++ name ++ "\x60"
  | .taken name (some []) => "duplicate key \x60" ++ name ++ "\x60 in document root"
  | .taken name (some table) =>
    "duplicate key \x60" ++ name ++ "\x60 in table \x60" ++ ".".intercalate table ++ "\x60"
  | .noTable path kind =>
    "dotted key \x60" ++ ".".intercalate path ++ "\x60 attempted to extend non-table type (" ++ kind
      ++ ")"

/-- What is wrong with a text that is no document. -/
structure Fault where
  /-- What was being read. -/
  subject : Option String := none
  /-- What could have stood there. -/
  expected : List String := []
  cause : Option Cause := none
deriving DecidableEq, Repr

/-- The fault in words, a line for each thing there is to say. -/
def Fault.message (f : Fault) : String :=
  let subject := f.subject.toList.map ("invalid " ++ ·)
  let expected := if f.expected.isEmpty then [] else ["expected " ++ ", ".intercalate f.expected]
  "\n".intercalate (subject ++ expected ++ f.cause.toList.map Cause.message)

/-- How a character is shown among what could have stood somewhere. -/
def shown (c : Char) : String :=
  "\x60" ++ c.toString ++ "\x60"

/-- How a reader fails. -/
inductive Failure where
  /-- Nothing of its kind begins the text. -/
  | absent (fault : Fault)
  /-- What begins the text is broken. -/
  | broken (fault : Fault)
deriving DecidableEq, Repr

/-- The failure with its fault changed. -/
def Failure.map (change : Fault → Fault) : Failure → Failure
  | absent fault => absent (change fault)
  | broken fault => broken (change fault)

/-- The fault of a failure. -/
def Failure.fault : Failure → Fault
  | absent fault => fault
  | broken fault => fault

/-- What a reader comes to. -/
abbrev Outcome (α : Type) := Except Failure α

/-- Takes something off the front of a text. -/
abbrev Take (α : Type) := List Char → Outcome (α × List Char)

/-- Fails without anything to say. -/
def missing {α : Type} : Outcome α :=
  .error (.absent {})

/-- Fails for a cause. -/
def because {α : Type} (cause : Cause) : Outcome α :=
  .error (.absent { cause := some cause })

namespace Outcome

variable {α : Type}

/-- What could not begin otherwise is broken if it is not there. -/
def commit : Outcome α → Outcome α
  | .error failure => .error (.broken failure.fault)
  | outcome => outcome

/-- Says what was being read, unless a part of it has been named that was. -/
def named (subject : String) (outcome : Outcome α) : Outcome α :=
  outcome.mapError (·.map fun f => { f with subject := f.subject.or (some subject) })

/-- Says what could have stood there. -/
def hinted (expected : List String) (outcome : Outcome α) : Outcome α :=
  outcome.mapError (·.map fun f => { f with expected := f.expected ++ expected })

/-- Another outcome instead if nothing is there. -/
def orElse (outcome : Outcome α) (other : Unit → Outcome α) : Outcome α :=
  match outcome with
  | .error (.absent _) => other ()
  | outcome => outcome

end Outcome

/-- Takes something if it is there. -/
def Take.optional {α : Type} (take : Take α) : Take (Option α) := fun cs =>
  match take cs with
  | .ok (a, cs) => .ok (some a, cs)
  | .error (.absent _) => .ok (none, cs)
  | .error failure => .error failure

/-- Takes one certain character. -/
def takeMark (mark : Char) : Take Unit
  | c :: cs => if c = mark then .ok ((), cs) else missing
  | [] => missing

end BuildStepper.Toml
