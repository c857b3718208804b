/-!
# Similar texts

How much alike two texts are, from 0 for texts that have nothing in common to 1 for equal ones.
Characters of the two correspond when they are equal and about as far from the start; what counts is
how many of each text correspond and how many of these stand in the same order.
-/

namespace BuildStepper.Text

/-- Takes the first occurrence of a character in a window, which begins after `skipped` characters
and has `width`. The flags say what is taken. -/
def takeWithin (c : Char) (skipped width : Nat) :
    List (Char × Bool) → Option (List (Char × Bool))
  | [] => none
  | (d, taken) :: rest =>
    match skipped, width with
    | skipped + 1, width => (takeWithin c skipped width rest).map ((d, taken) :: ·)
    | 0, 0 => none
    | 0, width + 1 =>
      if d = c && !taken then some ((d, true) :: rest)
      else (takeWithin c 0 width rest).map ((d, taken) :: ·)

/-- The characters of a text, the first of which is at `place`, that have a counterpart no further
away than `reach`, and the other text with what is taken of it. -/
def counterparts (reach place : Nat) (other : List (Char × Bool)) :
    List Char → List Char × List (Char × Bool)
  | [] => ([], other)
  | c :: cs =>
    let skipped := place - reach
    match takeWithin c skipped (place + reach + 1 - skipped) other with
    | some other =>
      let (found, other) := counterparts reach (place + 1) other cs
      (c :: found, other)
    | none => counterparts reach (place + 1) other cs

/-- How much alike two texts are: the mean of the parts of each that correspond and of the part of
these that stands in the same order. -/
def similarity (a b : List Char) : Rat :=
  let (found, other) := counterparts (max a.length b.length / 2 - 1) 0 (b.map (·, false)) a
  let partners := (other.filter (·.2)).map (·.1)
  let crossed := ((found.zip partners).countP fun (c, d) => c ≠ d) / 2
  let common : Rat := found.length
  (common / a.length + common / b.length + (common - crossed) / common) / 3

-- Two neighbours that are swapped count as one crossing.
example : similarity "port".toList "prot".toList = 11 / 12 := by
  decide +kernel

end BuildStepper.Text
