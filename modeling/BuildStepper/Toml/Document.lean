import BuildStepper.Toml.Statement

/-!
# TOML documents

A document is put together statement by statement: a header chooses the current table, and the lines
below give its keys their values. Before the first header the current table is the document itself.

The first statement that is not spelled as one, or that contradicts those before it, is the fault of
the document.
-/

namespace BuildStepper.Toml

/-- What the statements so far have made. -/
structure Draft where
  /-- The document's entries. -/
  entries : Entries := []
  /-- The keys that lead to the current table. -/
  current : List String := []

namespace Draft

/-- Adds what a statement says, unless it contradicts those before it. -/
def add (draft : Draft) : Statement → Except Cause Draft
  | .table path key =>
    (draft.entries.update [] (·.openTable path key) path).map
      fun entries => ⟨entries, path ++ [key]⟩
  | .element path key =>
    (draft.entries.update [] (·.openElement path key) path).map
      fun entries => ⟨entries, path ++ [key]⟩
  | .assign path key value =>
    (draft.entries.update [] (·.assign (some draft.current) [] key value path) draft.current).map
      fun entries => ⟨entries, draft.current⟩

/-- Takes one statement and adds it. -/
def take (draft : Draft) (cs : List Char) : Outcome (Draft × List Char) :=
  let taken : Outcome (Draft × List Char) := do
    let (statement, rest) ← takeStatement cs
    match draft.add statement with
    | .ok draft => return (draft, rest)
    | .error cause => because cause
  match cs with
  | '[' :: _ => Outcome.named "table header" taken
  | _ => taken

/-- Takes statements to the end of the text. Between them stand blanks, line ends and comments, and
the last comment may end the text. -/
def takeAll (draft : Draft) : (fuel : List Char) → List Char → Outcome Draft
  | [], _ => missing
  | _ :: fuel, cs =>
    match skipBlanks cs with
    | [] => .ok draft
    | c :: cs =>
      if c = '#' || c = '\n' || c = '\r' then
        match lineEnd (c :: cs) with
        | .ok cs => takeAll draft fuel cs
        | .error _ => missing
      else
        match draft.take (c :: cs) with
        | .ok (draft, cs) => takeAll draft fuel cs
        | .error failure => .error failure

end Draft

/-- The characters of a document; a byte order mark in front of them does not count. -/
def documentChars (text : String) : List Char :=
  match text.toList with
  | c :: cs => if c.toNat = 0xFEFF then cs else c :: cs
  | [] => []

/-- The table that a document describes. -/
def read (text : String) : Except Fault Table :=
  let cs := documentChars text
  match Draft.takeAll {} (' ' :: cs) cs with
  | .ok draft => .ok (finishEntries draft.entries)
  | .error failure => .error failure.fault

end BuildStepper.Toml
