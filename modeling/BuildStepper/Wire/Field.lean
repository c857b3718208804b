import BuildStepper.Location
import BuildStepper.Text.Basic
import BuildStepper.Wire.Error

/-!
# The fields of a message

A message is a name and fields, each with a colon in front. There are two kinds of field. A raw
field runs to the next colon and so holds none. A text field starts with the number of its
characters and a colon, and then holds anything, colons and line ends included.

A reader takes the fields off the front: it is given what is left of the message and returns the
field together with what is then left. What it does on a malformed message is an error that names
the field it was reading.
-/

namespace BuildStepper.Wire

/-- What separates the parts of a message. -/
def delimiter : Char := ':'

/-- The number of characters that a text field can announce is below this. -/
def countLimit : Nat := Nat.pow 2 64

/-- A line number is below this. -/
def lineLimit : Nat := Nat.pow 2 32

/-- A line feed or carriage return. -/
def isLineEnd (c : Char) : Bool :=
  c = '\n' || c = '\r'

/-- The message without the line ends after it. -/
def stripLineEnds (cs : List Char) : List Char :=
  Text.dropEndWhile isLineEnd cs

/-- Splits off exactly `n` characters, if there are that many; `taken` holds those already split
off, last first. -/
def splitCountFrom (taken : List Char) : Nat → List Char → Option (List Char × List Char)
  | 0, cs => some (taken.reverse, cs)
  | _ + 1, [] => none
  | n + 1, c :: cs => splitCountFrom (c :: taken) n cs

/-- The first `n` characters and the others, if there are that many. -/
def splitCount (n : Nat) (cs : List Char) : Option (List Char × List Char) :=
  splitCountFrom [] n cs

/-- Characters are split off by their number if there are as many, behind those taken before. -/
theorem splitCountFrom_eq (taken : List Char) (n : Nat) (cs : List Char) :
    splitCountFrom taken n cs =
      if n ≤ cs.length then some (taken.reverse ++ cs.take n, cs.drop n) else none := by
  induction n generalizing taken cs with
  | zero => simp [splitCountFrom]
  | succ n ih =>
    cases cs with
    | nil => simp [splitCountFrom]
    | cons c cs => simp [splitCountFrom, ih]

/-- Splitting off a count is `take` and `drop`, where the count is reached. -/
theorem splitCount_eq (n : Nat) (cs : List Char) :
    splitCount n cs = if n ≤ cs.length then some (cs.take n, cs.drop n) else none := by
  simp [splitCount, splitCountFrom_eq]

/-- Takes the colon before a field. -/
def takeDelimiter (field : Field) : List Char → Except WireError (List Char)
  | [] => .error (.missingField field)
  | c :: cs =>
    if c = delimiter then .ok cs else .error (.trailingData (String.ofList (c :: cs)))

/-- Takes a raw field. -/
def takeRaw (field : Field) (cs : List Char) : Except WireError (List Char × List Char) :=
  (takeDelimiter field cs).map (·.span (· ≠ delimiter))

/-- The line number that a raw field spells. -/
def lineNumber (field : Field) (raw : List Char) : Except WireError UInt32 :=
  match Text.numeral? lineLimit raw with
  | some n => .ok (UInt32.ofNat n)
  | none => .error (.invalidNumber field (String.ofList raw))

/-- Takes a raw field that spells a line number. -/
def takeLine (field : Field) (cs : List Char) : Except WireError (UInt32 × List Char) :=
  match takeRaw field cs with
  | .error e => .error e
  | .ok (raw, rest) => (lineNumber field raw).map (·, rest)

/-- Takes a text field. If the message ends before the announced number of characters, it is
truncated, not malformed: the rest of the text may be on the next line. -/
def takeText (field : Field) (cs : List Char) : Except WireError (String × List Char) :=
  match takeRaw field cs with
  | .error e => .error e
  | .ok (raw, rest) =>
    match Text.numeral? countLimit raw with
    | none => .error (.invalidNumber field (String.ofList raw))
    | some n =>
      match rest with
      | [] => .error .truncated
      | _ :: rest =>
        match splitCount n rest with
        | none => .error .truncated
        | some (text, rest) => .ok (String.ofList text, rest)

/-- Takes entries until nothing is left; `taken` holds those already taken, last first. Every entry
takes at least its colon, so a `fuel` of the number of characters is enough. -/
def takeEntriesFrom {α : Type} (entry : List Char → Except WireError (α × List Char))
    (taken : List α) : (fuel : Nat) → List Char → Except WireError (List α)
  | 0, _ => .ok taken.reverse
  | fuel + 1, cs =>
    if cs.isEmpty then .ok taken.reverse
    else match entry cs with
      | .error e => .error e
      | .ok (a, rest) => takeEntriesFrom entry (a :: taken) fuel rest

/-- Takes entries until nothing is left. A lone colon stands for no entries. -/
def takeEntries {α : Type} (entry : List Char → Except WireError (α × List Char))
    (cs : List Char) : Except WireError (List α) :=
  if cs = [delimiter] then .ok [] else takeEntriesFrom entry [] cs.length cs

/-- Reads `file:line`. The line stands after the last colon, so that a file may hold colons. -/
def readLocation (cs : List Char) : Except WireError Location :=
  match cs.reverse.span (· ≠ delimiter) with
  | (_, []) => .error (.missingField .line)
  | (_, [_]) => .error (.missingField .file)
  | (line, _ :: file) =>
    (lineNumber .line line.reverse).map fun n => ⟨⟨String.ofList file.reverse⟩, n⟩

/-- Writes a raw field. -/
def putRaw (raw : List Char) : List Char :=
  delimiter :: raw

/-- Writes a text field: the number of its characters, a colon and the characters. -/
def putText (text : String) : List Char :=
  delimiter :: (Text.numeral text.length ++ delimiter :: text.toList)

/-- Writes a line number as a raw field. -/
def putLine (line : UInt32) : List Char :=
  putRaw (Text.numeral line.toNat)

end BuildStepper.Wire
