/-!
# Character classes given by ranges of code points

A character class of the Unicode standard is a table: its code points, written as closed ranges in
ascending order with a gap between neighbours. Membership is decided by bisection, which is why the
order matters; `bisect` never needs it to terminate, so a table out of order would only give wrong
answers, never a hang. The tables themselves live in modules named for their property.
-/

namespace BuildStepper.Text

/-- A set of code points, as closed ranges in ascending order. -/
structure Ranges where
  /-- First and last code point of each range. -/
  bounds : Array (Nat × Nat)

namespace Ranges

/-- Whether `code` lies in one of the ranges with index from `lo` up to, not including, `hi`. -/
def bisect (r : Ranges) (code lo hi : Nat) : Bool :=
  if lo < hi then
    let mid := (lo + hi) / 2
    match r.bounds[mid]? with
    | none => false
    | some (first, last) =>
      if code < first then r.bisect code lo mid
      else if last < code then r.bisect code (mid + 1) hi
      else true
  else false
termination_by hi - lo

/-- Whether the class has the character. -/
def contains (r : Ranges) (c : Char) : Bool :=
  r.bisect c.toNat 0 r.bounds.size

end Ranges

end BuildStepper.Text
