import BuildStepper.Text.Quoted

/-!
# Values that do not fit

A trace and a settings file are read against a schema: what the program expects at each place. This
module names the ways in which a well-formed document can fail to fit, whatever format it is written
in, and puts them into words.
-/

namespace BuildStepper.Schema

/-- What stands where something else was expected. -/
inductive Found where
  | null
  | boolean (value : Bool)
  | integer (value : Int)
  /-- A number with a fraction or a power, as it is written in messages. -/
  | decimal (text : String)
  | text (value : String)
  | sequence
  | map
deriving DecidableEq, Repr

/-- What was expected. -/
inductive Expected where
  | text
  | boolean
  | path
  | sequence
  | map
  /-- An unsigned integer of so many bits. -/
  | unsigned (bits : Nat)
  | record (name : String)
deriving DecidableEq, Repr

/-- Why a value does not fit. -/
inductive Mismatch where
  | wrongType (found : Found) (expected : Expected)
  | outOfRange (found : Found) (expected : Expected)
  /-- A record written as a sequence ends before its required fields do. -/
  | tooShort (length : Nat) (name : String) (fields : Nat)
  | missingField (name : String)
  | duplicateField (name : String)
deriving DecidableEq, Repr

/-- What a message calls that which was found. -/
def Found.label : Found → String
  | .null => "null"
  | .boolean value => "boolean \x60" ++ (if value then "true" else "false") ++ "\x60"
  | .integer value => "integer \x60" ++ toString value ++ "\x60"
  | .decimal digits => "floating point \x60" ++ digits ++ "\x60"
  | .text value => "string " ++ Text.quoted value
  | .sequence => "sequence"
  | .map => "map"

/-- What a message calls that which was expected. -/
def Expected.label : Expected → String
  | .text => "a string"
  | .boolean => "a boolean"
  | .path => "path string"
  | .sequence => "a sequence"
  | .map => "a map"
  | .unsigned bits => "u" ++ toString bits
  | .record name => "struct " ++ name

/-- The mismatch in words. -/
def Mismatch.message : Mismatch → String
  | .wrongType found expected => "invalid type: " ++ found.label ++ ", expected " ++ expected.label
  | .outOfRange found expected =>
    "invalid value: " ++ found.label ++ ", expected " ++ expected.label
  | .tooShort length name fields =>
    "invalid length " ++ toString length ++ ", expected struct " ++ name ++ " with "
      ++ toString fields ++ " elements"
  | .missingField name => "missing field \x60" ++ name ++ "\x60"
  | .duplicateField name => "duplicate field \x60" ++ name ++ "\x60"

end BuildStepper.Schema
