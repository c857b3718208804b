/-!
# Binary floating point numbers and decimals

A binary floating point number is the nearest one to all the reals of an interval around it, and any
decimal of that interval reads back as the number. `shortest` finds the decimal with the fewest
digits, and of those the nearest to the number. Two can be equally near; `Tie` says which of them it
is then.

The search is exact. The number is `mantissa * 2 ^ exponent`; the ends of its interval lie half a
unit away, on the lower side a quarter if the number is a power of two, and they belong to the
interval exactly if the mantissa is even. On the grid of decimals with `n` digits, if any point is
in the interval then so is one of the two next to the number, so for each `n` only these two are
tried. Seventeen digits always suffice.

The way back is `nearest`. Decimals far outside the range of such numbers are settled by their
magnitude, so that no power of ten is worked out for them.
-/

namespace BuildStepper.Decimal

/-- A finite nonzero binary floating point number without its sign. -/
structure Binary where
  mantissa : Nat
  exponent : Int
  /-- Whether the next number below is only half as far away as the one above. -/
  atPowerOfTwo : Bool
deriving Repr

/-- What the 64 bits of a floating point number mean. -/
inductive Decoded where
  | nan
  | infinite (negative : Bool)
  | zero (negative : Bool)
  | finite (negative : Bool) (value : Binary)
deriving Repr

/-- Decodes the bits of a number in the 64 bit binary format. -/
def decode (bits : UInt64) : Decoded :=
  let negative := bits >>> 63 = 1
  let biased := ((bits >>> 52) &&& 0x7FF).toNat
  let fraction := (bits &&& 0xFFFFFFFFFFFFF).toNat
  if biased = 0x7FF then
    if fraction = 0 then .infinite negative else .nan
  else if biased = 0 then
    if fraction = 0 then .zero negative else .finite negative ⟨fraction, -1074, false⟩
  else
    .finite negative ⟨fraction + Nat.pow 2 52, (biased : Int) - 1075, fraction = 0 && 1 < biased⟩

/-- A decimal: `coefficient * 10 ^ exponent`. -/
structure Scaled where
  coefficient : Nat
  exponent : Int
deriving Repr, DecidableEq

/-- Which of two neighbouring decimals stands for a number midway between them. -/
inductive Tie where
  /-- The one with the even coefficient. -/
  | toEven
  /-- The one farther from zero. -/
  | away
deriving DecidableEq, Repr

/-- Whether a tie goes to the nearer to zero of two coefficients, given as that one. -/
def Tie.keeps (tie : Tie) (lower : Nat) : Bool :=
  match tie with
  | .toEven => lower % 2 = 0
  | .away => false

/-- The number of decimal digits. -/
def digitCount (n : Nat) : Nat :=
  (Nat.toDigits 10 n).length

/-- The power `base ^ e` as numerator and denominator. -/
def power (base : Nat) (e : Int) : Nat × Nat :=
  (Nat.pow base e.toNat, Nat.pow base (-e).toNat)

/-- The largest `e` with `10 ^ e` at most `num / den`. -/
def decimalExponent (num den : Nat) : Int :=
  let guess : Int := digitCount num - digitCount den
  let (p, q) := power 10 guess
  if p * den ≤ num * q then guess else guess - 1

/-- Of the two decimals with `n` digits next to the number, the nearer one that lies in its
interval. -/
def candidate? (tie : Tie) (b : Binary) (n : Nat) : Option Scaled :=
  -- Everything in quarters of a unit in the last place.
  let (up, down) := power 2 (b.exponent - 2)
  let value := 4 * b.mantissa * up
  let low := (4 * b.mantissa - if b.atPowerOfTwo then 1 else 2) * up
  let high := (4 * b.mantissa + 2) * up
  let e := decimalExponent value down - (n : Int) + 1
  let (p, q) := power 10 e
  let unit := down * p
  let inside (c : Nat) : Bool :=
    if b.mantissa % 2 = 0 then low * q ≤ c * unit && c * unit ≤ high * q
    else low * q < c * unit && c * unit < high * q
  let lower := value * q / unit
  let below := value * q - lower * unit
  let above := (lower + 1) * unit - value * q
  let lowerFirst := below < above || (below = above && tie.keeps lower)
  let (first, second) := if lowerFirst then (lower, lower + 1) else (lower + 1, lower)
  -- The point above the number can be the next power of ten, which needs a single digit.
  let scaled (c : Nat) : Scaled := if c = Nat.pow 10 n then ⟨1, e + n⟩ else ⟨c, e⟩
  if inside first then some (scaled first)
  else if inside second then some (scaled second)
  else none

/-- The decimal with the fewest digits that reads back as the number. -/
def shortest (tie : Tie) (b : Binary) : Scaled :=
  ((List.range' 1 17).findSome? (candidate? tie b)).getD ⟨b.mantissa, 0⟩

/-- The floating point number nearest to `coefficient * 10 ^ exponent`, or to its negative. -/
def nearest (negative : Bool) (coefficient : Nat) (exponent : Int) : Float :=
  let magnitude : Int := digitCount coefficient + exponent
  let f : Float :=
    if coefficient = 0 || magnitude < -400 then 0.0
    else if 400 < magnitude then 1.0 / 0.0
    else Float.ofScientific coefficient (exponent < 0) exponent.natAbs
  if negative then -f else f

end BuildStepper.Decimal
