import BuildStepper.Log.Directive

/-!
# Log filters

An event has a level, the part of the program that it comes from, a message, and details with names.
A filter is a list of directives with commas between them. Of the directives that speak of an event
the most specific one decides whether it is logged; an event of which none speaks is not.
-/

namespace BuildStepper

/-- Something that happened, as far as a filter looks at it. -/
structure LogSubject where
  level : LogLevel
  target : String
  /-- The names of what is reported, the message among them. -/
  fields : List String

/-- A filter: its directives, no two of which speak of the same. -/
structure LogFilter where
  directives : List Directive := []
deriving DecidableEq, Repr

namespace LogFilter

/-- The filter with another directive, which replaces one that speaks of the same. -/
def add (filter : LogFilter) (d : Directive) : LogFilter :=
  ⟨filter.directives.filter (fun e => !e.sameSubject d) ++ [d]⟩

/-- Cuts a text at its commas. -/
def pieces (cs : List Char) : List (List Char) :=
  cs.splitOn ','

/-- Reads a filter; pieces without a character do not count. -/
def ofChars (cs : List Char) : Except FilterError LogFilter :=
  ((pieces cs).filter (!·.isEmpty)).foldlM (fun filter piece =>
    (Directive.ofChars piece).map filter.add) {}

/-- Reads a filter. -/
def ofText (text : String) : Except FilterError LogFilter :=
  ofChars text.toList

/-- The filter that logs everything up to a level. -/
def upTo (level : LogLevel) : LogFilter :=
  ⟨[⟨level, none, none, none⟩]⟩

/-- The directives as they are in force: first those that decide on events, then those that wait for
spans. A directive of both kinds is listed twice. -/
def inForce (filter : LogFilter) : List Directive :=
  filter.directives.filter Directive.decidesEvents ++
    filter.directives.filter Directive.watchesSpans

/-- Writes a filter. -/
def write (filter : LogFilter) : String :=
  ",".intercalate (filter.inForce.map Directive.write)

/-- Whether a directive speaks of an event. -/
def concerns (subject : LogSubject) (d : Directive) : Bool :=
  d.decidesEvents
    && d.target.all (fun target => target.toList.isPrefixOf subject.target.toList)
    && d.field.all (fun field => subject.fields.contains field.name)

/-- Whether the first directive is more specific than the second: it has the longer target, or a
field where the other has none, or else the field with the later name. -/
def moreSpecific (d e : Directive) : Bool :=
  let length (d : Directive) : Nat := d.target.elim 0 (·.utf8ByteSize + 1)
  if length d = length e then
    match d.field, e.field with
    | some f, some g => g.name < f.name
    | f, g => f.isSome && g.isNone
  else length e < length d

/-- The directive that decides on an event. -/
def decider? (filter : LogFilter) (subject : LogSubject) : Option Directive :=
  (filter.directives.filter (concerns subject)).foldl (fun best? d =>
    match best? with
    | none => some d
    | some best => if moreSpecific d best then some d else some best) none

/-- Whether an event is logged. -/
def enables (filter : LogFilter) (subject : LogSubject) : Bool :=
  (filter.decider? subject).any fun d => subject.level.rank ≤ d.level.rank

end LogFilter

/-- An event. -/
structure LogEvent where
  level : LogLevel
  target : String
  message : String
  /-- Names with values. -/
  details : List (String × String) := []
deriving DecidableEq, Repr

/-- The event as a filter looks at it. -/
def LogEvent.subject (e : LogEvent) : LogSubject :=
  ⟨e.level, e.target, "message" :: e.details.map Prod.fst⟩

/-- The events that a filter lets through. -/
def LogFilter.select (filter : LogFilter) (events : List LogEvent) : List LogEvent :=
  events.filter fun e => filter.enables e.subject

end BuildStepper
