import BuildStepper.Properties.Table

/-!
# The properties of a build

A build keeps all its properties in one table, and remembers in a second one which of them the user
gave who launched it. A name is defined once: whoever comes second is refused.
-/

namespace BuildStepper

/-- The properties of a build. -/
structure BuildProperties where
  all : PropertyTable := {}
  /-- Those that the user gave. -/
  user : PropertyTable := {}
deriving Inhabited

namespace BuildProperties

/-- Defines a property. The flag says whether the name was free; if it was not, nothing changes. -/
def define (p : BuildProperties) (name value : String) : Bool × BuildProperties :=
  (!p.all.has name, { p with all := p.all.define name value })

/-- Defines a property that the user gave. The flag says whether the name was free; if it was not,
nothing changes. -/
def defineUser (p : BuildProperties) (name value : String) : Bool × BuildProperties :=
  if p.all.has name then (false, p)
  else (true, ⟨p.all.define name value, p.user.define name value⟩)

/-- Defines the properties of a list in order. -/
def defineAll (p : BuildProperties) (entries : List (String × String)) : BuildProperties :=
  entries.foldl (fun p e => (p.define e.1 e.2).2) p

/-- Defines the user's properties of a list in order. -/
def defineAllUser (p : BuildProperties) (entries : List (String × String)) : BuildProperties :=
  entries.foldl (fun p e => (p.defineUser e.1 e.2).2) p

end BuildProperties

end BuildStepper
