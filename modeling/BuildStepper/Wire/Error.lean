import BuildStepper.Text.Quoted

/-!
# What can be wrong with a message

Every way in which reading a command, a notification or a line can fail, as a cause with the text
that shows it. `WireError.message` is the only place where the causes are put into words.
-/

namespace BuildStepper.Wire

/-- The parts of a message that can be missing or malformed. -/
inductive Field where
  | file
  | line
  | reason
  | target
  | task
  | name
  | value
  | provenance
deriving DecidableEq, Repr

/-- What an error message calls a field. -/
def Field.label : Field → String
  | .file => "file"
  | .line => "line"
  | .reason => "reason"
  | .target => "target"
  | .task => "task"
  | .name => "name"
  | .value => "value"
  | .provenance => "provenance"

/-- Why a line or message was refused. -/
inductive WireError where
  | unknownCommand (name : String)
  | unknownNotification (name : String)
  | missingField (field : Field)
  | invalidNumber (field : Field) (value : String)
  | unknownProvenance (marker : String)
  /-- The message ends inside a text whose length it announced; more of it may follow. -/
  | truncated
  | trailingData (rest : String)
  | lineTooLong (limit : Nat)
  | invalidUtf8
  /-- The stream itself failed. -/
  | io (reason : String)
deriving DecidableEq, Repr

/-- The cause in words. -/
def WireError.message : WireError → String
  | .unknownCommand name => "unknown command " ++ Text.quoted name
  | .unknownNotification name => "unknown notification " ++ Text.quoted name
  | .missingField field => "missing " ++ field.label ++ " field"
  | .invalidNumber field value => "invalid " ++ field.label ++ " " ++ Text.quoted value
  | .unknownProvenance marker => "unknown provenance marker " ++ Text.quoted marker
  | .truncated => "message ended inside a length-prefixed field"
  | .trailingData rest => "unexpected trailing data " ++ Text.quoted rest
  | .lineTooLong limit => "line exceeds maximum size (" ++ toString limit ++ " bytes)"
  | .invalidUtf8 => "line is not valid UTF-8"
  | .io reason => reason

end BuildStepper.Wire
