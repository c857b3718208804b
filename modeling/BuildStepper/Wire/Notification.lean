import BuildStepper.Wire.Field

/-!
# Notifications to the client

What the debugger tells its client: that the build started, why it is held, the call stack and the
properties it was asked for, and that the session is over. The texts in a stack or a property list
are text fields and may hold line ends, so a notification can take several lines; the location of a
breakpoint is written plainly and must not.

`Notification.decode` accepts a few spellings besides the one that `Notification.encode` writes: a
plus sign or zeros in front of a number, line ends at the end, and a lone colon for an empty list.
-/

namespace BuildStepper.Wire

/-- Why the build is held. -/
inductive SuspendReason where
  | breakpoint (location : Location)
  | step
  | clientRequest
deriving DecidableEq, Repr

/-- Where a property comes from. -/
inductive Provenance where
  /-- Defined before the build started. -/
  | system
  /-- Given by the user who launched the build. -/
  | user
  /-- Defined while the build ran. -/
  | runtime
deriving DecidableEq, Repr

/-- The letter that stands for a provenance. -/
def Provenance.marker : Provenance → Char
  | .system => 'S'
  | .user => 'U'
  | .runtime => 'R'

/-- The provenance that a letter stands for. -/
def Provenance.ofMarker? : List Char → Option Provenance
  | ['S'] => some .system
  | ['U'] => some .user
  | ['R'] => some .runtime
  | _ => none

/-- The marker of a provenance is read as that provenance. -/
theorem Provenance.ofMarker?_marker (p : Provenance) :
    Provenance.ofMarker? [p.marker] = some p := by
  cases p <;> rfl

/-- Whether two reasons are the same, breakpoints being compared as places. -/
def SuspendReason.same : SuspendReason → SuspendReason → Bool
  | .breakpoint a, .breakpoint b => a.same b
  | .step, .step => true
  | .clientRequest, .clientRequest => true
  | _, _ => false

/-- One frame of a call stack, as it is reported. -/
structure FrameRecord where
  target : String
  task : String
  file : String
  line : UInt32
deriving DecidableEq, Repr

/-- One property, as it is reported. -/
structure PropertyRecord where
  name : String
  value : String
  provenance : Provenance
deriving DecidableEq, Repr

/-- A message of the debugger. -/
inductive Notification where
  | buildStarted
  | suspended (reason : SuspendReason)
  /-- The call stack, innermost frame first. -/
  | stack (frames : List FrameRecord)
  | properties (entries : List PropertyRecord)
  | terminated
deriving DecidableEq, Repr

/-- The reason as it is written. -/
def SuspendReason.encodeChars : SuspendReason → List Char
  | .breakpoint location => location.idChars
  | .step => "STEP".toList
  | .clientRequest => "CLIENT_REQUEST".toList

/-- Reads the reason; all that is no fixed word is the location of a breakpoint. -/
def SuspendReason.decodeChars (cs : List Char) : Except WireError SuspendReason :=
  if cs = "STEP".toList then .ok .step
  else if cs = "CLIENT_REQUEST".toList then .ok .clientRequest
  else (readLocation cs).map .breakpoint

/-- The fields of a frame. -/
def FrameRecord.encodeChars (f : FrameRecord) : List Char :=
  putText f.target ++ putText f.task ++ putText f.file ++ putLine f.line

/-- Takes the fields of a frame. -/
def FrameRecord.take (cs : List Char) : Except WireError (FrameRecord × List Char) := do
  let (target, cs) ← takeText .target cs
  let (task, cs) ← takeText .task cs
  let (file, cs) ← takeText .file cs
  let (line, cs) ← takeLine .line cs
  return (⟨target, task, file, line⟩, cs)

/-- The fields of a property. -/
def PropertyRecord.encodeChars (p : PropertyRecord) : List Char :=
  putText p.name ++ putText p.value ++ putRaw [p.provenance.marker]

/-- Takes the fields of a property. -/
def PropertyRecord.take (cs : List Char) : Except WireError (PropertyRecord × List Char) := do
  let (name, cs) ← takeText .name cs
  let (value, cs) ← takeText .value cs
  let (marker, cs) ← takeRaw .provenance cs
  match Provenance.ofMarker? marker with
  | some provenance => return (⟨name, value, provenance⟩, cs)
  | none => throw (.unknownProvenance (String.ofList marker))

namespace Notification

/-- Whether two notifications are the same, breakpoints being compared as places. -/
def same : Notification → Notification → Bool
  | suspended a, suspended b => a.same b
  | a, b => a = b

/-- The word that a notification begins with. -/
def name : Notification → String
  | buildStarted => "BUILD_STARTED"
  | suspended _ => "SUSPENDED"
  | stack _ => "STACK"
  | properties _ => "PROPERTIES"
  | terminated => "TERMINATED"

/-- The fields of a notification. -/
def fieldChars : Notification → List Char
  | buildStarted | terminated => []
  | suspended reason => putRaw reason.encodeChars
  | stack frames => frames.flatMap FrameRecord.encodeChars
  | properties entries => entries.flatMap PropertyRecord.encodeChars

/-- The characters of a notification, without a line end. -/
def encodeChars (n : Notification) : List Char :=
  n.name.toList ++ n.fieldChars

/-- A notification as it is sent, without a line end. -/
def encode (n : Notification) : String :=
  String.ofList n.encodeChars

/-- A notification without fields takes nothing after its name. -/
def bare (n : Notification) : List Char → Except WireError Notification
  | [] => .ok n
  | rest => .error (.trailingData (String.ofList rest))

/-- Reads the reason of a suspension behind its colon. -/
def takeReason (rest : List Char) : Except WireError Notification := do
  let cs ← takeDelimiter .reason rest
  return suspended (← SuspendReason.decodeChars cs)

/-- Reads a notification. -/
def decodeChars (cs : List Char) : Except WireError Notification :=
  let (name, rest) := (stripLineEnds cs).span (· ≠ delimiter)
  match String.ofList name with
  | "BUILD_STARTED" => bare buildStarted rest
  | "TERMINATED" => bare terminated rest
  | "SUSPENDED" => takeReason rest
  | "STACK" => (takeEntries FrameRecord.take rest).map stack
  | "PROPERTIES" => (takeEntries PropertyRecord.take rest).map properties
  | other => .error (.unknownNotification other)

/-- Reads a notification; line ends after it do not count. -/
def decode (message : String) : Except WireError Notification :=
  decodeChars message.toList

end Notification

end BuildStepper.Wire
