import BuildStepper.Log.Field
import BuildStepper.Log.Level

/-!
# Directives of a log filter

A directive says at which level something is logged. What that is may be narrowed down to a target,
to a span and to a field, as in `target[span{field=value}]=level`; each part can be missing. A text
without an equals sign or bracket is a level if it names one, and otherwise a target all of which is
logged.
-/

namespace BuildStepper

/-- Why a text is no filter. -/
inductive FilterError where
  /-- A directive has a part that is out of place. -/
  | directive
  /-- A level has a name or number that no level has. -/
  | level
  /-- A field is to match a pattern that cannot be used. -/
  | pattern (fault : PatternFault)
deriving DecidableEq, Repr

/-- The error in words. -/
def FilterError.message : FilterError → String
  | .directive => "invalid filter directive"
  | .pattern fault => "invalid field filter: " ++ fault.message
  | .level => "error parsing level filter: expected one of "
      ++ String.join ((LogLevel.all.map LogLevel.name).map fun name => "\"" ++ name ++ "\", ")
      ++ "or a number 0-5"

/-- A directive. -/
structure Directive where
  level : LogLevel
  target : Option String := none
  span : Option String := none
  field : Option FieldMatch := none
deriving DecidableEq, Repr

namespace Directive

/-! ## Reading

The marks between the parts are looked for in the directive without the blanks around it. The parts
themselves are cut out of the directive with these blanks, at the places, counted in bytes, that the
marks have in the text without. -/

/-- What lies between two places, counted in bytes, of a text. -/
def cut (cs : List Char) (start stop : Nat) : List Char :=
  go 0 cs
where
  go (offset : Nat) : List Char → List Char
    | [] => []
    | c :: cs =>
      if stop ≤ offset then []
      else if offset < start then go (offset + c.utf8Size) cs
      else c :: go (offset + c.utf8Size) cs

/-- What lies behind a place of a text. -/
def cutFrom (cs : List Char) (start : Nat) : List Char :=
  cut cs start (String.ofList cs).utf8ByteSize

/-- The first of several marks in a text whose first place is given: its place, the mark, and what
is behind it. -/
def seek (isMark : Char → Bool) : (place : Nat) → List Char → Option (Nat × Char × List Char)
  | _, [] => none
  | place, c :: cs => if isMark c then some (place, c, cs) else seek isMark (place + c.utf8Size) cs

/-- Whether a character can begin a target or level. -/
def startsTarget (c : Char) : Bool :=
  c = '-' || c = ':' || c = '_' || Text.alphanumeric.contains c

/-- Reads the level behind a place; without one, everything is logged. -/
def readLevel (whole : List Char) (place : Nat) (directive : Directive) :
    Except FilterError Directive :=
  match cutFrom whole place with
  | [] => .ok directive
  | cs =>
    match LogLevel.ofChars? cs with
    | some level => .ok { directive with level }
    | none => .error .level

/-- Reads what follows the closing bracket of a span. -/
def readRest (whole : List Char) (place : Nat) (directive : Directive) :
    List Char → Except FilterError Directive
  | [] => .ok directive
  | '=' :: _ => readLevel whole (place + 1) directive
  | _ => .error .directive

/-- Reads the field behind its opening brace. -/
def readField (whole : List Char) (place : Nat) (directive : Directive) (rest : List Char) :
    Except FilterError Directive :=
  match seek (· = '}') place rest with
  | none => .error .directive
  | some (stop, _, rest) =>
    match cut whole place stop with
    | [] => .error .directive
    | field =>
      match FieldMatch.ofChars field, rest with
      | .error fault, _ => .error (.pattern fault)
      | .ok field, ']' :: rest =>
        readRest whole (stop + 2) { directive with field := some field } rest
      | .ok _, _ => .error .directive

/-- Reads the span behind its opening bracket. A span without a name but with a field is any. -/
def readSpan (whole : List Char) (place : Nat) (directive : Directive) (rest : List Char) :
    Except FilterError Directive :=
  match seek (fun c => c = ']' || c = '{') place rest with
  | none => .error .directive
  | some (stop, mark, rest) =>
    let name := cut whole place stop
    if mark = ']' then
      readRest whole (stop + 1) { directive with span := some (String.ofList name) } rest
    else
      let span := if name.isEmpty then none else some (String.ofList name)
      readField whole (stop + 1) { directive with span } rest

/-- Reads a directive. -/
def ofChars (whole : List Char) : Except FilterError Directive :=
  let text := Text.trimChars whole
  match text with
  | [] => .error .directive
  | '[' :: rest => readSpan whole 1 ⟨.trace, none, none, none⟩ rest
  | c :: _ =>
    if !startsTarget c then .error .directive
    else match seek (fun c => c = '=' || c = '[') 0 text with
      | none =>
        match LogLevel.ofChars? whole with
        | some level => .ok ⟨level, none, none, none⟩
        | none => .ok ⟨.trace, some (String.ofList whole), none, none⟩
      | some (stop, mark, rest) =>
        let directive : Directive := ⟨.trace, some (String.ofList (cut whole 0 stop)), none, none⟩
        if mark = '=' then readLevel whole (stop + 1) directive
        else readSpan whole (stop + 1) directive rest

/-! ## Writing -/

/-- Writes a directive. -/
def write (d : Directive) : String :=
  let scope := (d.span.getD "") ++ match d.field with
    | none => ""
    | some field => "\x7b" ++ field.write ++ "\x7d"
  let scope := if d.span.isSome || d.field.isSome then "[" ++ scope ++ "]" else ""
  let subject := d.target.getD "" ++ scope
  if d.target.isNone && scope.isEmpty then d.level.name else subject ++ "=" ++ d.level.name

/-! ## Meaning -/

/-- Whether a directive can decide on an event by itself, outside any span. -/
def decidesEvents (d : Directive) : Bool :=
  d.span.isNone && d.field.all (·.value.isNone)

/-- Whether a directive also waits for spans. -/
def watchesSpans (d : Directive) : Bool :=
  d.span.isSome || d.field.isSome

/-- Whether two directives speak of the same; then the later one counts. -/
def sameSubject (d e : Directive) : Bool :=
  d.target = e.target && d.span = e.span && match d.field, e.field with
    | some f, some g => f.same g
    | none, none => true
    | _, _ => false

end Directive

end BuildStepper
