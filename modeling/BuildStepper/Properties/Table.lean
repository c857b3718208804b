/-!
# Tables of properties

A table gives some names a value. It lists every name once, in the order in which the names were
first given a value; the order never decides what a name is worth. A build defines a property once
and for all: `define` leaves a name that has a value alone. Reading a table from a file is
different, there a later entry replaces an earlier one (`insert`).
-/

namespace BuildStepper

/-- Names with their values, each name once. -/
structure PropertyTable where
  entries : List (String × String) := []
  /-- No name is listed twice. -/
  nodup : (entries.map Prod.fst).Nodup := by exact List.nodup_nil
deriving DecidableEq

namespace PropertyTable

instance : Inhabited PropertyTable := ⟨{}⟩

/-- The names with a value. -/
def names (t : PropertyTable) : List String :=
  t.entries.map Prod.fst

/-- The value of a name. -/
def get? (t : PropertyTable) (name : String) : Option String :=
  t.entries.lookup name

/-- Whether a name has a value. -/
def has (t : PropertyTable) (name : String) : Bool :=
  t.names.contains name

/-- Gives a name a value, unless it has one. -/
def define (t : PropertyTable) (name value : String) : PropertyTable :=
  if h : t.has name = true then t
  else
    { entries := t.entries ++ [(name, value)]
      nodup := by
        have h : name ∉ t.entries.map Prod.fst := by
          simpa [has, names] using h
        rw [List.map_append, List.map_singleton]
        refine List.nodup_append.2 ⟨t.nodup, by simp, ?_⟩
        intro a ha b hb
        rw [List.mem_singleton.1 hb]
        rintro rfl
        exact h ha }

/-- Gives a name a value in place of the one it has. -/
def insert (t : PropertyTable) (name value : String) : PropertyTable :=
  if t.has name = true then
    { entries := t.entries.map fun e => if e.1 = name then (e.1, value) else e
      nodup := by
        have h : (t.entries.map fun e => if e.1 = name then (e.1, value) else e).map Prod.fst =
            t.entries.map Prod.fst := by
          rw [List.map_map]
          refine List.map_congr_left fun e _ => ?_
          simp only [Function.comp_apply]
          split <;> rfl
        rw [h]
        exact t.nodup }
  else t.define name value

/-- The table of a list in which a later entry replaces an earlier one. -/
def ofList (entries : List (String × String)) : PropertyTable :=
  entries.foldl (fun t e => t.insert e.1 e.2) {}

/-- Defines the properties of a list in order. -/
def defineAll (t : PropertyTable) (entries : List (String × String)) : PropertyTable :=
  entries.foldl (fun t e => t.define e.1 e.2) t

/-- Whether the first entry comes no later than the second, by the code points of the names. -/
def nameLE (a b : String × String) : Bool :=
  !decide (b.1 < a.1)

/-- The entries in ascending order of their names. -/
def sorted (t : PropertyTable) : List (String × String) :=
  t.entries.mergeSort nameLE

/-- The empty table has no names. -/
@[simp] theorem names_empty : names {} = [] := rfl

/-- A table has a name just if the name is listed. -/
theorem has_iff {t : PropertyTable} {name : String} : t.has name = true ↔ name ∈ t.names := by
  simp [has]

/-- A new name is listed last; one that is defined already keeps its value. -/
theorem entries_define (t : PropertyTable) (name value : String) :
    (t.define name value).entries =
      if t.has name = true then t.entries else t.entries ++ [(name, value)] := by
  unfold define
  split <;> simp_all

end PropertyTable

end BuildStepper
