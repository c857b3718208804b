import BuildStepper.Decimal.Shortest

/-!
# Writing floating point numbers

A number is written by its shortest decimal. Within a range of magnitudes that the style sets the
digits stand around a decimal point, elsewhere the first digit stands before the point and a power
of ten follows. Most styles show of every number that it is no integer, by its point or by its
power.
-/

namespace BuildStepper.Decimal

/-- How a decimal is written. -/
structure Style where
  /-- Where it is written with all its places: the point may stand from after `first` zeros behind
  the leading zero, counted negatively, up to `last` digits from the front; without bounds every
  number is written in full. -/
  bounds : Option (Int × Int)
  /-- Whether a whole number that is written in full gets a point and a zero. -/
  pointed : Bool
  /-- How many digits a power of ten, which always has a sign, has at least. -/
  powerDigits : Nat
  tie : Tie

/-- All places, however many. -/
def Style.full : Style :=
  ⟨none, true, 1, .away⟩

/-- All places, however many, and a whole number like an integer. -/
def Style.plain : Style :=
  ⟨none, false, 1, .away⟩

/-- All places up to sixteen digits before the point and five zeros behind it, and powers of ten of
two or three digits. -/
def Style.compact : Style :=
  ⟨some (-5, 16), true, 2, .toEven⟩

/-- What follows the digits of a whole number that is written in full. -/
def Style.wholeEnd (style : Style) : List Char :=
  if style.pointed then ".0".toList else []

/-- A row of zeros. -/
def zeros (n : Int) : List Char :=
  List.replicate n.toNat '0'

/-- Writes a power of ten. -/
def Style.writePower (style : Style) (power : Int) : List Char :=
  let digits := Nat.toDigits 10 power.natAbs
  (if power < 0 then '-' else '+') :: zeros (style.powerDigits - digits.length) ++ digits

/-- Writes a decimal. -/
def Style.write (style : Style) (d : Scaled) : List Char :=
  let digits := Nat.toDigits 10 d.coefficient
  let point : Int := digits.length + d.exponent
  let inFull := match style.bounds with
    | none => true
    | some (first, last) => first < point && point ≤ last
  if inFull then
    if 0 ≤ d.exponent then digits ++ zeros d.exponent ++ style.wholeEnd
    else if 0 < point then digits.take point.toNat ++ '.' :: digits.drop point.toNat
    else "0.".toList ++ zeros (-point) ++ digits
  else
    let power := style.writePower (point - 1)
    match digits with
    | [d] => d :: 'e' :: power
    | d :: ds => d :: '.' :: ds ++ 'e' :: power
    | [] => []

/-- Writes the number with these bits. -/
def Style.writeBits (style : Style) (bits : UInt64) : String :=
  let signed (negative : Bool) (text : List Char) : String :=
    String.ofList (if negative then '-' :: text else text)
  match decode bits with
  | .nan => "NaN"
  | .infinite negative => signed negative "inf".toList
  | .zero negative => signed negative ('0' :: style.wholeEnd)
  | .finite negative value => signed negative (style.write (shortest style.tie value))

end BuildStepper.Decimal
