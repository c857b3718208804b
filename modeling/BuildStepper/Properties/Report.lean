import BuildStepper.Properties.Table
import BuildStepper.Wire.Notification

/-!
# Which properties a client has seen

A client that asks for the properties gets only those it has not seen, in the order of their names.
A property never changes, so a name that was reported once need not be reported again.

Each is reported with where it comes from: from the user if it is in the user's table, else from the
system if its name was in the baseline, the table at the start of the build, else from the build
itself.
-/

namespace BuildStepper

open Wire (Provenance PropertyRecord)

/-- What the client has been told. -/
structure PropertyReport where
  /-- The names with a value when the build started. -/
  baseline : List String := []
  /-- The names that were reported. -/
  sent : List String := []
deriving Repr, Inhabited

namespace PropertyReport

/-- Begins anew with the table at the start of a build. -/
def start (baseline : PropertyTable) : PropertyReport :=
  { baseline := baseline.names }

/-- Where a property comes from. -/
def provenance (r : PropertyReport) (user : PropertyTable) (name : String) : Provenance :=
  if user.has name then .user
  else if r.baseline.contains name then .system
  else .runtime

/-- The entries of a table that were not reported, in the order of their names. -/
def fresh (r : PropertyReport) (current : PropertyTable) : List (String × String) :=
  current.sorted.filter fun e => !r.sent.contains e.1

/-- What is to be reported of the current table. -/
def delta (r : PropertyReport) (current user : PropertyTable) : List PropertyRecord :=
  (r.fresh current).map fun e => ⟨e.1, e.2, r.provenance user e.1⟩

/-- The state of affairs once the current table is reported. -/
def report (r : PropertyReport) (current : PropertyTable) : PropertyReport :=
  { r with sent := r.sent ++ (r.fresh current).map Prod.fst }

end PropertyReport

end BuildStepper
