import BuildStepper.Json.Lexeme
import BuildStepper.Properties.Table

/-!
# Reading JSON against a schema

A document is read once, front to back, by the schema it has to fit, so the first thing that is
wrong with it decides what is reported, be it its form or its contents. A record is written as an
object with its fields in any order, or as an array with its fields in their order; other keys are
skipped.

Arrays and objects that are read may be nested to a certain depth. The budget counts how many levels
may still be opened; where it is used up a reader is given no way in (`none`). What is skipped has
no such limit, since skipping needs no more than a list of the brackets that are open.

The loops run over the text that was left when they began: every round of theirs takes a character
off it at least.
-/

namespace BuildStepper.Json

open Schema (Expected Found Mismatch)

/-- How many levels a document may nest. -/
def maxDepth : Nat := 127

/-- Why the value at the front does not fit. -/
def refusal (expected : Expected) (cs : List Char) : Failure :=
  let wrong (found : Found) : Failure := .mismatch (.wrongType found expected)
  let word (rest : String) (found : Found) (cs : List Char) : Failure :=
    match takeWord rest.toList cs with
    | .ok _ => wrong found
    | .error failure => failure
  match cs with
  | [] => .malformed
  | c :: rest =>
    if c = 'n' then word "ull" .null rest
    else if c = 't' then word "rue" (.boolean true) rest
    else if c = 'f' then word "alse" (.boolean false) rest
    else if c = '"' then
      match takeString rest with
      | .ok (text, _) => wrong (.text text)
      | .error failure => failure
    else if c = '[' then wrong .sequence
    else if c = '{' then wrong .map
    else if c = '-' || c.isDigit then
      match takeNumber (c :: rest) with
      | .ok (number, _) => wrong number.found
      | .error failure => failure
    else .malformed

/-! ## Values -/

/-- Takes a string. -/
def takeText (expected : Expected) : Take String := fun cs =>
  match skipBlanks cs with
  | [] => .error .incomplete
  | c :: rest => if c = '"' then takeString rest else .error (refusal expected (c :: rest))

/-- Takes an unsigned integer of 32 bits. -/
def takeWord32 : Take UInt32 := fun cs =>
  let expected := Expected.unsigned 32
  match skipBlanks cs with
  | [] => .error .incomplete
  | c :: rest =>
    if c = '-' || c.isDigit then
      match takeNumber (c :: rest) with
      | .error failure => .error failure
      | .ok (.decimal bits, _) =>
        .error (.mismatch (.wrongType (Number.decimal bits).found expected))
      | .ok (.integer n, rest) =>
        if 0 ≤ n && n < Int.pow 2 32 then .ok (UInt32.ofNat n.toNat, rest)
        else .error (.mismatch (.outOfRange (.integer n) expected))
    else .error (refusal expected (c :: rest))

/-- Takes the word for nothing, or else a value. -/
def takeOptional {α : Type} (value : Take α) : Take (Option α) := fun cs =>
  match skipBlanks cs with
  | [] => (value []).map fun (a, rest) => (some a, rest)
  | c :: rest =>
    if c = 'n' then (takeWord "ull".toList rest).map fun (_, rest) => (none, rest)
    else (value (c :: rest)).map fun (a, rest) => (some a, rest)

/-! ## Arrays and objects -/

/-- Goes to the next element of an array, if there is one. -/
def nextElement (first : Bool) : Take Bool := fun cs =>
  match skipBlanks cs with
  | [] => .error .incomplete
  | c :: rest =>
    if c = ']' then .ok (false, c :: rest)
    else if first then .ok (true, c :: rest)
    else if c = ',' then
      match skipBlanks rest with
      | [] => .error .incomplete
      | d :: rest => if d = ']' then .error .malformed else .ok (true, d :: rest)
    else .error .malformed

/-- Goes to the next key of an object, if there is one: to the text behind its quote. -/
def nextKey (first : Bool) : Take Bool := fun cs =>
  match skipBlanks cs with
  | [] => .error .incomplete
  | c :: rest =>
    if c = '}' then .ok (false, c :: rest)
    else if first then
      if c = '"' then .ok (true, rest) else .error .malformed
    else if c = ',' then
      match skipBlanks rest with
      | [] => .error .incomplete
      | d :: rest => if d = '"' then .ok (true, rest) else .error .malformed
    else .error .malformed

/-- Takes the colon behind a key. -/
def takeColon : Take Unit := fun cs =>
  match skipBlanks cs with
  | [] => .error .incomplete
  | c :: rest => if c = ':' then .ok ((), rest) else .error .malformed

/-- Takes a closing bracket. -/
def takeClosing (bracket : Char) : Take Unit := fun cs =>
  match skipBlanks cs with
  | [] => .error .incomplete
  | c :: rest => if c = bracket then .ok ((), rest) else .error .malformed

/-- Takes the elements of an array up to its closing bracket; `taken` holds those already taken,
last first. -/
def takeElements {α : Type} (element : Take α) (taken : List α) (first : Bool) :
    (fuel : List Char) → Take (List α)
  | [], _ => .error .incomplete
  | _ :: fuel, cs =>
    match nextElement first cs with
    | .error failure => .error failure
    | .ok (false, cs) => .ok (taken.reverse, cs)
    | .ok (true, cs) =>
      match element cs with
      | .error failure => .error failure
      | .ok (a, cs) => takeElements element (a :: taken) false fuel cs

/-- Takes the entries of an object up to its closing bracket. Each is taken by `entry`, which is
given what was read so far and the key, and finds the text behind the key. -/
def takeEntries {σ : Type} (entry : σ → String → Take σ) (state : σ) (first : Bool) :
    (fuel : List Char) → Take σ
  | [], _ => .error .incomplete
  | _ :: fuel, cs =>
    match nextKey first cs with
    | .error failure => .error failure
    | .ok (false, cs) => .ok (state, cs)
    | .ok (true, cs) =>
      match takeString cs with
      | .error failure => .error failure
      | .ok (key, cs) =>
        match entry state key cs with
        | .error failure => .error failure
        | .ok (state, cs) => takeEntries entry state false fuel cs

/-- Takes an array; without a way to its elements none may be opened. -/
def takeSequence {α : Type} (element : Option (Take α)) : Take (List α) := fun cs =>
  match skipBlanks cs with
  | [] => .error .incomplete
  | c :: rest =>
    if c = '[' then
      match element with
      | none => .error .malformed
      | some element =>
        match takeElements element [] true (c :: rest) rest with
        | .error failure => .error failure
        | .ok (elements, rest) => (takeClosing ']' rest).map fun (_, rest) => (elements, rest)
    else .error (refusal .sequence (c :: rest))

/-- Takes the value of a property and adds it to a table. -/
def takeProperty (table : PropertyTable) (name : String) : Take PropertyTable := fun cs =>
  match takeColon cs with
  | .error failure => .error failure
  | .ok (_, cs) => (takeText .text cs).map fun (value, cs) => (table.insert name value, cs)

/-- Takes an object of strings, if one may be opened. -/
def takeTable (mayOpen : Bool) : Take PropertyTable := fun cs =>
  match skipBlanks cs with
  | [] => .error .incomplete
  | c :: rest =>
    if c = '{' then
      if mayOpen then
        match takeEntries takeProperty {} true (c :: rest) rest with
        | .error failure => .error failure
        | .ok (table, rest) => (takeClosing '}' rest).map fun (_, rest) => (table, rest)
      else .error .malformed
    else .error (refusal .map (c :: rest))

/-! ## Skipping -/

/-- Where a reader that skips stands: in front of a value, or behind one that is not the whole. -/
inductive SkipPlace where
  | value
  | between

/-- Skips a key and its colon. -/
def skipKey : Take Unit := fun cs =>
  match skipBlanks cs with
  | [] => .error .incomplete
  | c :: rest =>
    if c = '"' then
      match skipString rest with
      | .error failure => .error failure
      | .ok (_, rest) => takeColon rest
    else .error .malformed

/-- Skips a value without brackets. -/
def skipScalar : Take Unit
  | [] => .error .incomplete
  | c :: rest =>
    if c = 'n' then takeWord "ull".toList rest
    else if c = 't' then takeWord "rue".toList rest
    else if c = 'f' then takeWord "alse".toList rest
    else if c = '"' then skipString rest
    else if c = '-' || c.isDigit then skipNumber (c :: rest)
    else .error .malformed

/-- The bracket that closes an opening one. -/
def closingOf (bracket : Char) : Char :=
  if bracket = '[' then ']' else '}'

/-- Skips on until no bracket is open; `brackets` holds the open ones, innermost first. -/
def skipFrom (place : SkipPlace) (brackets : List Char) : (fuel : List Char) → Take Unit
  | [], _ => .error .incomplete
  | _ :: fuel, cs =>
    -- Behind the opening of an array or in front of the next element stands a value, behind that of
    -- an object a key.
    let inside (bracket : Char) (outer cs : List Char) : Except Failure (Unit × List Char) :=
      if bracket = '[' then skipFrom .value (bracket :: outer) fuel cs
      else
        match skipKey cs with
        | .error failure => .error failure
        | .ok (_, cs) => skipFrom .value (bracket :: outer) fuel cs
    let finished (outer cs : List Char) : Except Failure (Unit × List Char) :=
      if outer.isEmpty then .ok ((), cs) else skipFrom .between outer fuel cs
    match skipBlanks cs with
    | [] => .error .incomplete
    | c :: rest =>
      match place, brackets with
      | .value, _ =>
        if c = '[' || c = '{' then
          match skipBlanks rest with
          | [] => .error .incomplete
          | d :: rest =>
            if d = closingOf c then finished brackets rest else inside c brackets (d :: rest)
        else
          match skipScalar (c :: rest) with
          | .error failure => .error failure
          | .ok (_, rest) => finished brackets rest
      | .between, [] => .ok ((), c :: rest)
      | .between, bracket :: outer =>
        if c = closingOf bracket then finished outer rest
        else if c = ',' then inside bracket outer rest
        else .error .malformed

/-- Skips a value. -/
def skipValue : Take Unit := fun cs =>
  skipFrom .value [] (' ' :: cs) cs

/-! ## Records -/

/-- How the fields of a record are taken, in their order off an array or by name off an object. -/
structure RecordReader (α : Type) where
  ofSequence : Take α
  ofMap : Take α

/-- Takes a record; without a way to its fields none may be opened. -/
def takeRecord {α : Type} (name : String) (reader : Option (RecordReader α)) : Take α := fun cs =>
  let enter (take : RecordReader α → Take α) (closing : Char) (rest : List Char) :
      Except Failure (α × List Char) :=
    match reader with
    | none => .error .malformed
    | some reader =>
      match take reader rest with
      | .error failure => .error failure
      | .ok (a, rest) => (takeClosing closing rest).map fun (_, rest) => (a, rest)
  match skipBlanks cs with
  | [] => .error .incomplete
  | c :: rest =>
    if c = '[' then enter RecordReader.ofSequence ']' rest
    else if c = '{' then enter RecordReader.ofMap '}' rest
    else .error (refusal (.record name) (c :: rest))

/-- Takes the next field of a record off an array; at the end of the array there is none. -/
def takeElement? {α : Type} (first : Bool) (value : Take α) : Take (Option α) := fun cs =>
  match nextElement first cs with
  | .error failure => .error failure
  | .ok (false, cs) => .ok (none, cs)
  | .ok (true, cs) => (value cs).map fun (a, cs) => (some a, cs)

/-- Takes the value of a named field, which must not have one yet. -/
def takeField {α σ : Type} (name : String) (old : Option α) (value : Take α) (set : α → σ) :
    Take σ := fun cs =>
  if old.isSome then .error (.mismatch (.duplicateField name))
  else
    match takeColon cs with
    | .error failure => .error failure
    | .ok (_, cs) => (value cs).map fun (a, cs) => (set a, cs)

/-- Skips the value of a field that the schema does not name. -/
def skipField {σ : Type} (state : σ) : Take σ := fun cs =>
  match takeColon cs with
  | .error failure => .error failure
  | .ok (_, cs) => (skipValue cs).map fun (_, cs) => (state, cs)

/-- The value of a field that must be there. -/
def required {α : Type} (name : String) : Option α → Except Failure α
  | some a => .ok a
  | none => .error (.mismatch (.missingField name))

/-- The value of an element that must be there: the one at `index` of a record with `fields`
fields. -/
def requiredElement {α : Type} (name : String) (index fields : Nat) :
    Option α → Except Failure α
  | some a => .ok a
  | none => .error (.mismatch (.tooShort index name fields))

/-- Reads a whole document: behind the value only blanks may follow. -/
def readDocument {α : Type} (value : Take α) (text : String) : Except Failure α :=
  match value text.toList with
  | .error failure => .error failure
  | .ok (a, rest) => if (skipBlanks rest).isEmpty then .ok a else .error .malformed

end BuildStepper.Json
