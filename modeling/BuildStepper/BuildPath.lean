/-!
# Paths of build files

A path keeps the spelling it came with, and that spelling is what is printed. Two spellings name the
same path when their parts agree (`BuildPath.same`): repeated and trailing slashes do not count, nor
does a single dot anywhere but in front, while a leading dot and every double dot do. Nothing is
looked up on a disk, so `a/../b` and `b` differ.
-/

namespace BuildStepper

/-- A path to a build file, as it was spelled. -/
structure BuildPath where
  spelling : String
deriving DecidableEq, Repr, Inhabited

/-- One part of a path. -/
inductive PathPart where
  /-- The slash in front of an absolute path. -/
  | root
  /-- A dot in front of a relative path. -/
  | here
  /-- A double dot. -/
  | up
  /-- Any other name. -/
  | name (text : List Char)
deriving DecidableEq, Repr

/-- The pieces of a text between the separators: one more than there are separators. -/
def piecesOf (separator : Char) (cs : List Char) : List (List Char) :=
  cs.foldr (fun c pieces =>
    if c = separator then [] :: pieces
    else match pieces with
      | [] => [[c]]
      | piece :: pieces => (c :: piece) :: pieces) [[]]

/-- The part that a piece between slashes stands for: an empty piece and a dot stand for none. -/
def PathPart.ofPiece? : List Char → Option PathPart
  | [] => none
  | ['.'] => none
  | ['.', '.'] => some .up
  | piece => some (.name piece)

namespace BuildPath

/-- The parts of a spelling. What is special about the first piece is that, empty and followed by a
slash, it makes the path absolute, and that a dot counts there. -/
def partsOf (spelling : List Char) : List PathPart :=
  match piecesOf '/' spelling with
  | [] => []
  | [] :: [] => []
  | [] :: pieces => .root :: pieces.filterMap PathPart.ofPiece?
  | ['.'] :: pieces => .here :: pieces.filterMap PathPart.ofPiece?
  | pieces => pieces.filterMap PathPart.ofPiece?

/-- The parts that decide which path this is. -/
def parts (p : BuildPath) : List PathPart :=
  partsOf p.spelling.toList

/-- Whether two spellings name the same path. -/
def same (p q : BuildPath) : Bool :=
  p.parts = q.parts

/-- Two spellings name the same path just if their parts agree. -/
theorem same_iff {p q : BuildPath} : p.same q = true ↔ p.parts = q.parts := by
  simp [same]

/-- A spelling names the same path as itself. -/
@[simp] theorem same_refl (p : BuildPath) : p.same p = true := by
  simp [same]

/-- Which of two spellings comes first makes no difference. -/
theorem same_comm (p q : BuildPath) : p.same q = q.same p := by
  simp [same, eq_comm]

example : partsOf "a//b/./c/".toList = partsOf "a/b/c".toList := by decide +kernel
example : partsOf "./a".toList ≠ partsOf "a".toList := by decide +kernel
example : partsOf "/.".toList = [.root] := by decide +kernel
example : partsOf "".toList ≠ partsOf ".".toList := by decide +kernel

end BuildPath

end BuildStepper
