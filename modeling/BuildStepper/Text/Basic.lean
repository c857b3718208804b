/-!
# Blanks and numerals

The white space of Unicode (`White_Space`), and cutting it off both ends of a text. The characters
that only look blank, such as the zero width space, do not belong.

Numbers in messages, properties and settings are written in decimal: ASCII digits, at least one, and
no separator; a plus sign may stand in front. A numeral has a value only below a limit that its
reader sets, so that a long row of digits never grows a large number first.
-/

namespace BuildStepper.Text

/-! ## Blanks -/

/-- White space in the sense of Unicode. -/
def isBlank (c : Char) : Bool :=
  let n := c.toNat
  (9 ≤ n && n ≤ 13) || n == 32 || n == 0x85 || n == 0xA0 || n == 0x1680
    || (0x2000 ≤ n && n ≤ 0x200A) || n == 0x2028 || n == 0x2029 || n == 0x202F || n == 0x205F
    || n == 0x3000

/-- Drops the trailing characters that satisfy `p`. -/
def dropEndWhile (p : Char → Bool) (cs : List Char) : List Char :=
  (cs.reverse.dropWhile p).reverse

/-- Cuts the blanks off both ends. -/
def trimChars (cs : List Char) : List Char :=
  dropEndWhile isBlank (cs.dropWhile isBlank)

/-- Cuts the blanks off both ends. -/
def trim (s : String) : String :=
  String.ofList (trimChars s.toList)

/-- Whether a text has no character that is not blank. -/
def isBlankText (s : String) : Bool :=
  s.toList.all isBlank

/-! ## Numerals -/

/-- The value of a decimal digit. -/
def digitValue (c : Char) : Nat :=
  c.toNat - '0'.toNat

/-- Reads `digits` onto the digits already read, whose value is `value`; `none` if a character is no
digit or the value reaches the limit. -/
def digitsBelow (limit value : Nat) : List Char → Option Nat
  | [] => some value
  | c :: cs =>
    if c.isDigit then
      let next := value * 10 + digitValue c
      if next < limit then digitsBelow limit next cs else none
    else none

/-- The value of a row of digits, if it is below `limit` and has a digit. -/
def digits? (limit : Nat) : List Char → Option Nat
  | [] => none
  | c :: cs => digitsBelow limit 0 (c :: cs)

/-- The value of a numeral with an optional plus sign, if it is below `limit`. -/
def numeral? (limit : Nat) : List Char → Option Nat
  | '+' :: cs => digits? limit cs
  | cs => digits? limit cs

/-- The decimal digits of a number. -/
def numeral (n : Nat) : List Char :=
  Nat.toDigits 10 n

end BuildStepper.Text
