import BuildStepper.Schema.Mismatch
import BuildStepper.Toml.Value

/-!
# Records in a settings file

A record has named fields with defaults, and a table that stands for it gives some of them. A key
that names no field is set aside, not refused; which keys those are is part of what reading a record
answers. A record may also be written as an array of the values of its fields in their order, as
many as there are.
-/

namespace BuildStepper.Toml

open Schema (Mismatch)

/-- A record: its name, what it is when nothing is given, and for the key of each field what its
value changes. -/
structure Record (α : Type) where
  name : String
  default : α
  fields : List (String × (Value → α → Except Mismatch α))

namespace Record

variable {α : Type} (record : Record α)

/-- Reads the entries of a table on top of what is known of the record; the answer lists the keys
that name no field. -/
def readEntries : Table → α → Except Mismatch (α × List String)
  | [], current => .ok (current, [])
  | (key, value) :: rest, current =>
    match record.fields.lookup key with
    | some set => (set value current).bind (readEntries rest)
    | none => (readEntries rest current).map fun (final, unknown) => (final, key :: unknown)

/-- Reads values in the order of the fields; those that are too many do not count. -/
def readElements (elements : List Value) : Except Mismatch α :=
  (record.fields.zip elements).foldlM (fun current (field, value) => field.2 value current)
    record.default

/-- Reads a record; the answer lists the keys that name no field. -/
def read (value : Value) : Except Mismatch (α × List String) :=
  match value with
  | .table entries => record.readEntries entries record.default
  | .moment => record.readEntries [(momentKey, .text "")] record.default
  | .array elements => (record.readElements elements).map fun final => (final, [])
  | value => .error (.wrongType value.found (.record record.name))

end Record

/-! ## Fields -/

namespace Value

/-- Reads a text. -/
def text? : Value → Except Mismatch String
  | .text value => .ok value
  | value => .error (.wrongType value.found .text)

/-- Reads a path. -/
def path? : Value → Except Mismatch String
  | .text value => .ok value
  | value => .error (.wrongType value.found .path)

/-- Reads a truth value. -/
def boolean? : Value → Except Mismatch Bool
  | .boolean value => .ok value
  | value => .error (.wrongType value.found .boolean)

/-- Reads an unsigned integer of so many bits. -/
def unsigned? (bits : Nat) : Value → Except Mismatch Nat
  | .integer value =>
    if 0 ≤ value && value < Int.pow 2 bits then .ok value.toNat
    else .error (.outOfRange (.integer value) (.unsigned bits))
  | value => .error (.wrongType value.found (.unsigned bits))

end Value

end BuildStepper.Toml
