import BuildStepper.Properties.Table
import BuildStepper.Text.Basic
import BuildStepper.Text.Quoted

/-!
# Writing JSON

Arrays and objects are written without blanks. In a string only what has to be is escaped: the
quote, the backslash and the controls, five of which have a letter of their own.
-/

namespace BuildStepper.Json

/-- One of the sixteen digits. -/
def hexDigit (n : Nat) : Char :=
  Nat.digitChar n

/-- How a string spells one character. -/
def putChar (c : Char) : List Char :=
  if c = '"' then ['\\', '"']
  else if c = '\\' then ['\\', '\\']
  else if c = '\x08' then ['\\', 'b']
  else if c = '\x0c' then ['\\', 'f']
  else if c = '\n' then ['\\', 'n']
  else if c = '\r' then ['\\', 'r']
  else if c = '\t' then ['\\', 't']
  else if c.toNat < 0x20 then
    ['\\', 'u', '0', '0', hexDigit (c.toNat / 16), hexDigit (c.toNat % 16)]
  else [c]

/-- Writes a string. -/
def putString (s : String) : List Char :=
  '"' :: s.toList.flatMap putChar ++ ['"']

/-- Writes an unsigned number. -/
def putNat (n : Nat) : List Char :=
  Text.numeral n

/-- Writes items with commas between them. -/
def putItems : List (List Char) → List Char
  | [] => []
  | [item] => item
  | item :: items => item ++ ',' :: putItems items

/-- Writes an array. -/
def putArray (items : List (List Char)) : List Char :=
  '[' :: putItems items ++ [']']

/-- Writes an object. -/
def putObject (entries : List (String × List Char)) : List Char :=
  '{' :: putItems (entries.map fun e => putString e.1 ++ ':' :: e.2) ++ ['}']

/-- Writes a table as an object of strings. -/
def putTable (t : PropertyTable) : List Char :=
  putObject (t.entries.map fun e => (e.1, putString e.2))

end BuildStepper.Json
