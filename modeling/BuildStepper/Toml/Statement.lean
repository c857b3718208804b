import BuildStepper.Toml.Moment
import BuildStepper.Toml.Node

/-!
# The statements of a TOML document

Line by line a document names a table, adds an element to an array of tables, or gives a key of the
current table a value. A statement keeps the parts of its key; what they mean depends on the
statements before it, and that is decided when the document is put together. A table in braces is
put together at once, since no later statement can reach into it.

A value in brackets or braces may hold others, to a depth that a budget bounds.
-/

namespace BuildStepper.Toml

/-- One statement, its key split into the parts before the last and the last. -/
inductive Statement where
  /-- The table with this key is the current one. -/
  | table (path : List String) (key : String)
  /-- A new element of this array of tables is the current table. -/
  | element (path : List String) (key : String)
  /-- A key of the current table gets a value. -/
  | assign (path : List String) (key : String) (value : Value)
deriving Inhabited

/-- Takes a key, split into its parts before the last and the last. -/
def takePath : Take (List String × String) := fun cs => do
  let (parts, cs) ← takeKey cs
  match parts.getLast? with
  | some key => return ((parts.dropLast, key), cs)
  | none => missing

/-- Takes a key with its value, which `value` takes; only the equals sign can stand behind the
key. -/
def takeAssignment (value : Take Value) : Take ((List String × String) × Value) := fun cs => do
  let (path, cs) ← takePath cs
  Outcome.commit do
    let ((), cs) ← Outcome.hinted [shown '.', shown '='] (takeMark '=' cs)
    let (v, cs) ← value (skipBlanks cs)
    return ((path, v), cs)

/-- Takes items with a comma before each, behind those already taken, last first. A comma that no
item follows is not taken. -/
def takeMoreItems {α : Type} (item : Take α) (taken : List α) : (fuel : List Char) → Take (List α)
  | _ :: fuel, ',' :: cs =>
    match item cs with
    | .ok (a, rest) => takeMoreItems item (a :: taken) fuel rest
    | .error (.absent _) => .ok (taken.reverse, ',' :: cs)
    | .error failure => .error failure
  | _, cs => .ok (taken.reverse, cs)

/-- Takes items with commas between them, or none. -/
def takeItems {α : Type} (item : Take α) : Take (List α) := fun cs =>
  match item cs with
  | .ok (a, rest) => takeMoreItems item [a] rest rest
  | .error (.absent _) => .ok ([], cs)
  | .error failure => .error failure

/-- Takes an element of an array. Line ends and comments may stand around it. -/
def takeElement (value : Take Value) : Take Value := fun cs => do
  let (v, cs) ← value (← space cs)
  return (v, ← space cs)

/-- Takes the elements of an array up to its closing bracket; a comma may follow the last. -/
def takeArray (value : Take Value) : Take Value := fun cs =>
  Outcome.commit <|
    match cs with
    | ']' :: cs => .ok (.array [], cs)
    | cs => do
      let (elements, cs) ← takeItems (takeElement value) cs
      let cs ← space <| match elements, cs with
        | _ :: _, ',' :: cs => cs
        | _, cs => cs
      let ((), cs) ← Outcome.hinted [shown ']'] (Outcome.named "array" (takeMark ']' cs))
      return (.array elements, cs)

/-- Puts a table in braces together. -/
def inlineTable (entries : List ((List String × String) × Value)) : Outcome Value :=
  match entries.foldlM (fun made ((path, key), value) =>
      Entries.assign none [] key value path made) [] with
  | .ok made => .ok (.table (finishEntries made))
  | .error cause => because cause

/-- Takes the entries of a table in braces up to the closing one, all in one line and without a
comma behind the last. -/
def takeInline (value : Take Value) : Take Value := fun cs =>
  Outcome.commit do
    let entry : Take ((List String × String) × Value) := fun cs =>
      (takeAssignment value cs).map fun (entry, cs) => (entry, skipBlanks cs)
    let (entries, cs) ← takeItems entry cs
    let made ← inlineTable entries
    let ((), cs) ← Outcome.hinted [shown '\x7d'] <|
      Outcome.named "inline table" (takeMark '\x7d' (skipBlanks cs))
    return (made, cs)

/-- Takes something that can only be a string, for it begins as no other value. -/
def expectString {α : Type} (outcome : Outcome α) : Outcome α :=
  Outcome.hinted [shown '"', shown '\''] (Outcome.named "string" outcome)

/-- Takes a value of which `inner` takes the values inside; without it there may be none. -/
def takeValueWith (inner : Option (Take Value)) : Take Value
  | [] => missing
  | c :: cs =>
    let inside (take : Take Value → Take Value) : Outcome (Value × List Char) :=
      match inner with
      | some inner => take inner cs
      | none => Outcome.commit (because .tooDeep)
    let truth (word : String) (value : Bool) : Outcome (Value × List Char) :=
      expectString <| Outcome.commit <|
        (takeWord word (c :: cs)).map fun ((), cs) => (.boolean value, cs)
    if c = '"' || c = '\'' then (takeString c cs).map fun (s, rest) => (.text s, rest)
    else if c = '[' then inside takeArray
    else if c = '\x7b' then inside takeInline
    else if c = '+' || c = '-' || c.isDigit then
      Outcome.orElse (takeMoment (c :: cs)) fun () =>
        Outcome.orElse (takeFloat (c :: cs)) fun () => takeInteger (c :: cs)
    else if c = '_' then Outcome.hinted ["leading digit"] (takeInteger (c :: cs))
    else if c = '.' then Outcome.hinted ["leading digit"] (takeFloat (c :: cs))
    else if c = 't' then truth "true" true
    else if c = 'f' then truth "false" false
    else if c = 'i' then expectString (takeInfinity false (c :: cs))
    else if c = 'n' then expectString (takeNotANumber (c :: cs))
    else expectString missing

/-- Takes a value within a budget of nesting levels. -/
def takeValue : (budget : Nat) → Take Value
  | 0 => takeValueWith none
  | budget + 1 => takeValueWith (some (takeValue budget))

/-- Takes the header of a table behind its opening brackets, which as many closing ones follow. -/
def takeHeader (closing : String) : Take (List String × String) := fun cs => do
  let (path, cs) ← takePath cs
  let ((), cs) ← Outcome.hinted [shown '.', "\x60" ++ closing ++ "\x60"] (takeWord closing cs)
  return (path, ← lineEnd cs)

/-- Takes one statement up to its line end. -/
def takeStatement : Take Statement := fun cs =>
  match cs with
  | ['['] => missing
  | '[' :: '[' :: cs => do
    let ((path, key), cs) ← takeHeader "]]" cs
    return (.element path key, cs)
  | '[' :: cs => do
    let ((path, key), cs) ← takeHeader "]" cs
    return (.table path key, cs)
  | cs => do
    let (((path, key), v), cs) ← takeAssignment (takeValue (depthLimit - 1)) cs
    return (.assign path key v, ← lineEnd cs)

end BuildStepper.Toml
