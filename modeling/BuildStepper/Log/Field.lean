import BuildStepper.Decimal.Shortest
import BuildStepper.Decimal.Style
import BuildStepper.Log.Pattern
import BuildStepper.Text.Basic

/-!
# Fields in a log filter

A directive can ask for events that report a certain field, and for a certain value of it: a truth
value, a number, or a text that matches a pattern. What such a value is can be seen from its
spelling alone, and numbers of different kinds are different values although they may be written
alike.
-/

namespace BuildStepper

/-- The value that a directive asks of a field. -/
inductive FieldValue where
  | boolean (value : Bool)
  | unsigned (value : Nat)
  /-- A number with a minus sign, which may still be zero. -/
  | signed (value : Int)
  /-- A floating point number, by its bits. -/
  | decimal (bits : UInt64)
  | pattern (text : String)
deriving DecidableEq, Repr

/-- A field that a directive asks for, and the value that it must have, if any. -/
structure FieldMatch where
  name : String
  value : Option FieldValue
deriving DecidableEq, Repr

namespace FieldValue

/-- Reads a floating point number: digits with an optional point and power of ten, or a word. -/
def decimal? (cs : List Char) : Option UInt64 :=
  let (negative, cs) := match cs with
    | '-' :: cs => (true, cs)
    | '+' :: cs => (false, cs)
    | cs => (false, cs)
  let word := String.ofList (cs.map Char.toLower)
  if word = "inf" || word = "infinity" then
    some (if negative then -1.0 / 0.0 else 1.0 / 0.0 : Float).toBits
  else if word = "nan" then some (0.0 / 0.0 : Float).toBits
  else
    let (whole, rest) := cs.span Char.isDigit
    let (places, rest) := match rest with
      | '.' :: rest => rest.span Char.isDigit
      | rest => ([], rest)
    let value (digits : List Char) : Nat := digits.foldl (fun n c => n * 10 + Text.digitValue c) 0
    let finish (power : Int) : Option UInt64 :=
      some (Decimal.nearest negative (value (whole ++ places)) (power - places.length)).toBits
    if whole.isEmpty && places.isEmpty then none
    else match rest with
      | [] => finish 0
      | e :: rest =>
        let (down, digits) := match rest with
          | '-' :: rest => (true, rest)
          | '+' :: rest => (false, rest)
          | rest => (false, rest)
        if (e = 'e' || e = 'E') && !digits.isEmpty && digits.all Char.isDigit then
          let power : Int := value digits
          finish (if down then -power else power)
        else none

/-- Reads an integer of 64 bits with a minus sign. -/
def signed? : List Char → Option Int
  | '-' :: digits => (Text.digits? (Nat.pow 2 63 + 1) digits).map fun n => -n
  | _ => none

/-- Reads a value; what is no truth value and no number is a pattern. -/
def ofChars (cs : List Char) : Except PatternFault FieldValue :=
  if cs = "true".toList then .ok (.boolean true)
  else if cs = "false".toList then .ok (.boolean false)
  else match Text.numeral? (Nat.pow 2 64) cs, signed? cs, decimal? cs with
    | some n, _, _ => .ok (.unsigned n)
    | none, some n, _ => .ok (.signed n)
    | none, none, some bits => .ok (.decimal bits)
    | none, none, none =>
      match Pattern.fault? cs with
      | none => .ok (.pattern (String.ofList cs))
      | some fault => .error fault

/-- Writes a value. -/
def write : FieldValue → String
  | boolean value => if value then "true" else "false"
  | unsigned value => toString value
  | signed value => toString value
  | decimal bits => Decimal.Style.plain.writeBits bits
  | pattern text => text

/-- Whether two values are asked for by the same directives. The two zeros of floating point numbers
are one value. -/
def same : FieldValue → FieldValue → Bool
  | decimal a, decimal b => a = b || (a <<< 1 = 0 && b <<< 1 = 0)
  | a, b => a = b

end FieldValue

namespace FieldMatch

/-- Reads a field with an optional value behind an equals sign; a second such sign ends the
value. -/
def ofChars (cs : List Char) : Except PatternFault FieldMatch :=
  match cs.span (· ≠ '=') with
  | (name, []) => .ok ⟨String.ofList name, none⟩
  | (name, _ :: rest) =>
    (FieldValue.ofChars (rest.takeWhile (· ≠ '='))).map fun value =>
      ⟨String.ofList name, some value⟩

/-- Writes a field. -/
def write (m : FieldMatch) : String :=
  match m.value with
  | none => m.name
  | some value => m.name ++ "=" ++ value.write

/-- Whether two fields are asked for alike. -/
def same (m n : FieldMatch) : Bool :=
  m.name = n.name && match m.value, n.value with
    | some v, some w => v.same w
    | none, none => true
    | _, _ => false

end FieldMatch

end BuildStepper
