import BuildStepper.Toml.Fault
import BuildStepper.Toml.Value

/-!
# Tables under construction

A document spreads the entries of a table over several statements. Whether a table may still grow
depends on how it came to be: one that a header or braces wrote out is closed, one that a header has
merely passed through can still get a header of its own, and one that a key with dots has made can
grow by further such keys only. While a document is put together every table remembers which of
these it is.
-/

namespace BuildStepper.Toml

/-- How a table came to be. -/
inductive Origin where
  /-- A header names it. -/
  | header
  /-- A header names a table inside it. -/
  | passed
  /-- A key with dots names an entry inside it. -/
  | dotted
deriving DecidableEq, Repr

/-- What a key stands for while a document is put together. -/
inductive Node where
  | value (value : Value)
  | table (origin : Origin) (entries : List (String × Node))
  /-- An array of tables: its last table, and those before it, latest first. -/
  | tables (last : List (String × Node)) (earlier : List (List (String × Node)))
deriving Inhabited

/-- The entries of a table under construction, in the order in which their keys first stood. -/
abbrev Entries := List (String × Node)

namespace Entries

/-- The entries with another node for a key that they have. -/
def replace (key : String) (node : Node) (entries : Entries) : Entries :=
  entries.map fun entry => if entry.1 = key then (key, node) else entry

/-- Gives a key a value. The parts of the path before the key name tables, which are made where they
are missing. No key gets a second value, and no table that was written out gets another entry.
`walked` are the parts of the path so far; `owner` is the path of the table that a statement of a
document adds to, and nothing in braces, where a table in braces was written out as well. -/
def assign (owner : Option (List String)) (walked : List String) (key : String) (value : Value) :
    (path : List String) → Entries → Except Cause Entries
  | [], entries =>
    if (entries.lookup key).isSome then .error (.taken key owner)
    else .ok (entries ++ [(key, .value value)])
  | part :: path, entries =>
    let walked := walked ++ [part]
    match entries.lookup part with
    | none =>
      (assign owner walked key value path []).map fun inner =>
        entries ++ [(part, .table .dotted inner)]
    | some (.value old) =>
      if owner.isNone && old.isTable then .error (.taken part none)
      else .error (.noTable walked old.kind)
    | some (.table origin inner) =>
      if origin = .header then .error (.taken part none)
      else if origin = .passed && path.isEmpty then .error (.taken key none)
      else (assign owner walked key value path inner).map fun inner =>
        entries.replace part (.table origin inner)
    | some (.tables last earlier) =>
      if path.isEmpty then .error (.taken key none)
      else (assign owner walked key value path last).map fun last =>
        entries.replace part (.tables last earlier)

/-- Changes the table that the path of a header leads to. Tables missing on the way are made, and of
an array of tables the way leads through the last. `walked` are the parts of the path so far. -/
def update (walked : List String) (change : Entries → Except Cause Entries) :
    (path : List String) → Entries → Except Cause Entries
  | [], entries => change entries
  | part :: path, entries =>
    let walked := walked ++ [part]
    match entries.lookup part with
    | none =>
      (update walked change path []).map fun inner => entries ++ [(part, .table .passed inner)]
    | some (.value old) => .error (.noTable walked old.kind)
    | some (.table origin inner) =>
      (update walked change path inner).map fun inner => entries.replace part (.table origin inner)
    | some (.tables last earlier) =>
      (update walked change path last).map fun last => entries.replace part (.tables last earlier)

/-- Opens the table that a header names. One that earlier headers have passed through keeps its
entries and takes its place behind the others. -/
def openTable (path : List String) (key : String) (entries : Entries) : Except Cause Entries :=
  match entries.lookup key with
  | none => .ok (entries ++ [(key, .table .header [])])
  | some (.table .passed inner) =>
    .ok (entries.filter (fun entry => entry.1 ≠ key) ++ [(key, .table .header inner)])
  | some _ => .error (.taken key (some path))

/-- Adds an empty table to the array of tables that a header names. -/
def openElement (path : List String) (key : String) (entries : Entries) : Except Cause Entries :=
  match entries.lookup key with
  | none => .ok (entries ++ [(key, .tables [] [])])
  | some (.tables last earlier) => .ok (entries.replace key (.tables [] (last :: earlier)))
  | some _ => .error (.taken key (some path))

end Entries

mutual

/-- The value that a node has come to be. -/
def Node.finish : Node → Value
  | .value value => value
  | .table _ entries => .table (finishEntries entries)
  | .tables last earlier =>
    .array ((Value.table (finishEntries last) :: finishTables earlier).reverse)

/-- The table that entries have come to be. -/
def finishEntries : List (String × Node) → Table
  | [] => []
  | (key, node) :: rest => (key, node.finish) :: finishEntries rest

/-- The values of several tables. -/
def finishTables : List (List (String × Node)) → List Value
  | [] => []
  | entries :: rest => .table (finishEntries entries) :: finishTables rest

end

end BuildStepper.Toml
