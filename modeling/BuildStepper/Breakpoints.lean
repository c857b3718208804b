import BuildStepper.Location

/-!
# Breakpoints

The breakpoints of a session, in the order in which they were set. No place is listed twice: setting
a breakpoint where there is one, in whatever spelling, changes nothing, and the spelling of the
first setting is kept until the breakpoint is removed. `Breakpoints.at?` finds the one at a place.
Whoever sets or removes one is also told whether that changed anything (`set`, `unset`).
-/

namespace BuildStepper

/-- Where no place is listed, none is listed twice. -/
theorem Location.distinct_nil : ([] : List Location).Pairwise (fun a b => a.same b = false) :=
  List.Pairwise.nil

/-- The breakpoints that are set, oldest first. -/
structure Breakpoints where
  locations : List Location := []
  /-- No two of them are the same place. -/
  distinct : locations.Pairwise (fun a b => a.same b = false) := by
    exact Location.distinct_nil

namespace Breakpoints

instance : Inhabited Breakpoints := ⟨{}⟩

/-- Whether a breakpoint is set at the place. -/
def has (b : Breakpoints) (l : Location) : Bool :=
  b.locations.any (·.same l)

/-- The breakpoint at the place, as it was spelled when it was set. -/
def at? (b : Breakpoints) (l : Location) : Option Location :=
  b.locations.find? (·.same l)

/-- Sets a breakpoint, unless there is one at the place. -/
def add (b : Breakpoints) (l : Location) : Breakpoints :=
  if h : b.has l = true then b
  else
    { locations := b.locations ++ [l]
      distinct := by
        have h : ∀ a ∈ b.locations, a.same l = false := by
          simpa [has, List.any_eq_true] using h
        refine List.pairwise_append.2 ⟨b.distinct, List.pairwise_singleton _ _, ?_⟩
        intro a ha c hc
        rw [List.mem_singleton.1 hc]
        exact h a ha }

/-- Removes the breakpoint at the place, if there is one. -/
def remove (b : Breakpoints) (l : Location) : Breakpoints where
  locations := b.locations.filter (fun a => !a.same l)
  distinct := b.distinct.filter _

/-- Sets a breakpoint. The flag says whether there was none at the place; if there was one, nothing
changes. -/
def set (b : Breakpoints) (l : Location) : Bool × Breakpoints :=
  (!b.has l, b.add l)

/-- Removes the breakpoint at the place. The flag says whether the number of breakpoints is
another one now. -/
def unset (b : Breakpoints) (l : Location) : Bool × Breakpoints :=
  ((b.remove l).locations.length ≠ b.locations.length, b.remove l)

/-- The ids of the breakpoints, oldest first. -/
def ids (b : Breakpoints) : List String :=
  b.locations.map Location.id

/-- There is a breakpoint at a place just if one is listed that names it. -/
theorem has_iff {b : Breakpoints} {l : Location} :
    b.has l = true ↔ ∃ a ∈ b.locations, a.same l = true := by
  simp [has]

/-- A breakpoint is found at a place just if there is one. -/
theorem isSome_at? (b : Breakpoints) (l : Location) : (b.at? l).isSome = b.has l := by
  simp [at?, has, List.isSome_find?]

/-- Removing takes off the list whatever names the place. -/
@[simp] theorem locations_remove (b : Breakpoints) (l : Location) :
    (b.remove l).locations = b.locations.filter (fun a => !a.same l) := rfl

/-- Adding lists the place last, if it is not listed yet. -/
theorem locations_add (b : Breakpoints) (l : Location) :
    (b.add l).locations = if b.has l = true then b.locations else b.locations ++ [l] := by
  unfold add
  split <;> simp_all

end Breakpoints

end BuildStepper
