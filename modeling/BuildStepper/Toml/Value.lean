import BuildStepper.Decimal.Style
import BuildStepper.Schema.Mismatch

/-!
# Values of a settings file

A settings file is a table of values in TOML. Tables list their keys in the order in which a reader
meets them, each once. Of a date or a time only that it is one is kept: no setting is a date, and a
reader that looks into it finds a table with one odd key.

Whether two values are equal can be decided, so that what is read of a document can be computed.
-/

namespace BuildStepper.Toml

/-- A value. -/
inductive Value where
  | text (value : String)
  | integer (value : Int)
  /-- A floating point number, by its bits. -/
  | decimal (bits : UInt64)
  | boolean (value : Bool)
  /-- A date, a time, or both. -/
  | moment
  | array (elements : List Value)
  | table (entries : List (String × Value))
deriving Inhabited

/-- A table: keys with their values, each key once. -/
abbrev Table := List (String × Value)

/-- The one key of a date or time when it is looked into as a table. -/
def momentKey : String := "$__toml_private_datetime"

/-- What a message calls a value. -/
def Value.found : Value → Schema.Found
  | text value => .text value
  | integer value => .integer value
  | decimal bits => .decimal (Decimal.Style.full.writeBits bits)
  | boolean value => .boolean value
  | moment => .map
  | array _ => .sequence
  | table _ => .map

/-- Whether a value is a table. -/
def Value.isTable : Value → Bool
  | table _ => true
  | _ => false

/-- What a document calls the kind of a value. -/
def Value.kind : Value → String
  | text _ => "string"
  | integer _ => "integer"
  | decimal _ => "float"
  | boolean _ => "boolean"
  | moment => "datetime"
  | array _ => "array"
  | table _ => "inline table"

/-! ## Equality -/

mutual

/-- Whether two values are the same. Arrays and tables are gone through by a function each, so that
the recursion is structural. -/
def Value.isSame : Value → Value → Bool
  | .text a, .text b => a = b
  | .integer a, .integer b => a = b
  | .decimal a, .decimal b => a = b
  | .boolean a, .boolean b => a = b
  | .moment, .moment => true
  | .array a, .array b => sameElements a b
  | .table a, .table b => sameEntries a b
  | _, _ => false

/-- Whether two arrays have the same elements. -/
def sameElements : List Value → List Value → Bool
  | [], [] => true
  | v :: vs, w :: ws => v.isSame w && sameElements vs ws
  | _, _ => false

/-- Whether two tables have the same entries in the same order. -/
def sameEntries : List (String × Value) → List (String × Value) → Bool
  | [], [] => true
  | (key, v) :: vs, (key', w) :: ws => key = key' && v.isSame w && sameEntries vs ws
  | _, _ => false

end

mutual

/-- Two values are found to be the same just if they are equal. -/
theorem Value.isSame_iff : (v w : Value) → (v.isSame w = true ↔ v = w)
  | .text a, w => by cases w <;> simp [Value.isSame]
  | .integer a, w => by cases w <;> simp [Value.isSame]
  | .decimal a, w => by cases w <;> simp [Value.isSame]
  | .boolean a, w => by cases w <;> simp [Value.isSame]
  | .moment, w => by cases w <;> simp [Value.isSame]
  | .array a, w => by cases w <;> simp [Value.isSame, sameElements_iff a]
  | .table a, w => by cases w <;> simp [Value.isSame, sameEntries_iff a]

/-- So are the elements of two arrays. -/
theorem sameElements_iff : (vs ws : List Value) → (sameElements vs ws = true ↔ vs = ws)
  | [], ws => by cases ws <;> simp [sameElements]
  | v :: vs, ws => by
    cases ws with
    | nil => simp [sameElements]
    | cons w ws => simp [sameElements, Value.isSame_iff v, sameElements_iff vs]

/-- And the entries of two tables. -/
theorem sameEntries_iff :
    (vs ws : List (String × Value)) → (sameEntries vs ws = true ↔ vs = ws)
  | [], ws => by cases ws <;> simp [sameEntries]
  | (key, v) :: vs, ws => by
    cases ws with
    | nil => simp [sameEntries]
    | cons entry ws =>
      obtain ⟨key', w⟩ := entry
      simp [sameEntries, Value.isSame_iff v, sameEntries_iff vs]

end

instance : DecidableEq Value := fun v w => decidable_of_iff _ (v.isSame_iff w)

end BuildStepper.Toml
