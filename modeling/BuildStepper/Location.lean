import BuildStepper.BuildPath
import BuildStepper.Text.Basic

/-!
# Places in build files

A location is a line of a build file. Two locations are the same when the lines are equal and the
paths are, however they are spelled. Its id, `file:line`, is what a client sees of a breakpoint.
-/

namespace BuildStepper

/-- A line of a build file. -/
structure Location where
  file : BuildPath
  line : UInt32
deriving DecidableEq, Repr, Inhabited

namespace Location

/-- Whether two locations are one place: equal lines, and paths with the same parts. -/
def same (a b : Location) : Bool :=
  a.line = b.line && a.file.same b.file

/-- The characters of the id. -/
def idChars (l : Location) : List Char :=
  l.file.spelling.toList ++ ':' :: Text.numeral l.line.toNat

/-- The id: the file as it is spelled, a colon and the line. -/
def id (l : Location) : String :=
  String.ofList l.idChars

/-- Two locations name the same place just if the lines and the parts of the files agree. -/
theorem same_iff {a b : Location} :
    a.same b = true ↔ a.line = b.line ∧ a.file.parts = b.file.parts := by
  simp [same, BuildPath.same]

/-- A location names the same place as itself. -/
@[simp] theorem same_refl (a : Location) : a.same a = true := by
  simp [same]

/-- Which of two locations comes first makes no difference. -/
theorem same_comm (a b : Location) : a.same b = b.same a := by
  simp [same, eq_comm, BuildPath.same_comm]

/-- Where two locations name the place of a third, they name the same place. -/
theorem same_trans {a b c : Location} (hab : a.same b = true) (hbc : b.same c = true) :
    a.same c = true := by
  rw [same_iff] at *
  exact ⟨hab.1.trans hbc.1, hab.2.trans hbc.2⟩

/-- A place is the same as one exactly if it is the same as another spelling of that. -/
theorem same_right {a b : Location} (h : a.same b = true) (c : Location) : c.same a = c.same b := by
  rw [same_iff] at h
  simp only [same, BuildPath.same, h.1, h.2]

end Location

end BuildStepper
