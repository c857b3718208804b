import BuildStepper.Proofs.Lists
import BuildStepper.Properties.Build
import Mathlib.Data.List.Induction
import Mathlib.Data.List.Nodup

/-!
# What the definitions of a build come to

A build defines properties one after the other, its own and those of the user who launched it. A
name is worth what its first definition says, and a property is the user's if its first definition
is (`firstDefinition?`). The two tables say no more and no less: `get?_all_ofDefinitions` and
`get?_user_ofDefinitions` read both off the definitions.
-/

namespace BuildStepper

namespace PropertyTable

variable {t : PropertyTable} {name value : String}

/-- The value of a name is the one it is listed with. -/
theorem get?_eq_some_iff : t.get? name = some value ↔ (name, value) ∈ t.entries :=
  lookup_eq_some_iff_mem t.nodup

/-- A name has a value just if the table has it. -/
theorem isSome_get?_iff : (t.get? name).isSome = true ↔ t.has name = true := by
  rw [Option.isSome_iff_exists, has_iff]
  simp only [get?_eq_some_iff, names, List.mem_map, Prod.exists, exists_and_right, exists_eq_right]

/-- It has none just if the table does not. -/
theorem get?_eq_none_iff : t.get? name = none ↔ t.has name = false := by
  rw [← Option.not_isSome_iff_eq_none, isSome_get?_iff, Bool.not_eq_true]

/-- A definition gives its name a value, unless that has one. -/
theorem get?_define (t : PropertyTable) (defined value name : String) :
    (t.define defined value).get? name =
      (t.get? name).or (if defined = name then some value else none) := by
  by_cases hhas : t.has defined = true
  · have hsame : t.define defined value = t := dif_pos hhas
    rw [hsame]
    split
    · next heq =>
      obtain ⟨old, hold⟩ := Option.isSome_iff_exists.1 (isSome_get?_iff.2 (heq ▸ hhas))
      rw [hold, Option.some_or]
    · rw [Option.or_none]
  · simp only [get?]
    rw [entries_define, if_neg hhas, List.lookup_append]
    congr 1
    split
    · next heq => rw [heq, List.lookup_cons_self]
    · next hne =>
      have hbeq : (name == defined) = false := beq_eq_false_iff_ne.2 (Ne.symm hne)
      simp only [List.lookup_cons, hbeq, List.lookup_nil]

/-- A table is determined by its entries. -/
theorem eq_of_entries {t u : PropertyTable} (h : t.entries = u.entries) : t = u := by
  cases t
  cases u
  cases h
  rfl

/-- A name that is not in a table is added behind the others. -/
theorem define_of_not_mem (h : name ∉ t.names) :
    (t.define name value).entries = t.entries ++ [(name, value)] := by
  rw [entries_define, if_neg (by rwa [has_iff])]

/-- Replacing the value of a name that has none is defining it. -/
theorem insert_of_not_mem (h : name ∉ t.names) :
    (t.insert name value).entries = t.entries ++ [(name, value)] := by
  rw [insert, if_neg (by rwa [has_iff]), define_of_not_mem h]

/-- A table that continues another lists no name of it again. -/
theorem not_mem_names_of_append {u : PropertyTable} {e : String × String}
    {entries : List (String × String)} (h : t.entries = u.entries ++ e :: entries) :
    e.1 ∉ u.names := by
  have hnodup := t.nodup
  rw [h, List.map_append, List.map_cons] at hnodup
  exact fun hmem => (List.nodup_append.1 hnodup).2.2 _ hmem _ List.mem_cons_self rfl

/-- Sorting a table does not change what a name is worth. -/
theorem lookup_sorted (t : PropertyTable) (name : String) :
    t.sorted.lookup name = t.get? name := by
  have hperm : t.sorted.Perm t.entries := List.mergeSort_perm t.entries nameLE
  let u : PropertyTable := ⟨t.sorted, (hperm.map Prod.fst).nodup_iff.2 t.nodup⟩
  refine Option.ext fun value => ?_
  change u.get? name = some value ↔ _
  rw [get?_eq_some_iff, get?_eq_some_iff]
  exact hperm.mem_iff

end PropertyTable

/-- A definition of a property, by the user who launched the build or by the build itself. -/
structure Definition where
  byUser : Bool := false
  name : String
  value : String
deriving DecidableEq, Repr

/-- The definition of a name that counts, which is the first. -/
def firstDefinition? (definitions : List Definition) (name : String) : Option Definition :=
  definitions.find? (·.name = name)

/-- The first definition of a name is looked for among the earlier ones, and then among the later.
-/
theorem firstDefinition?_append (before later : List Definition) (name : String) :
    firstDefinition? (before ++ later) name =
      (firstDefinition? before name).or (firstDefinition? later name) :=
  List.find?_append

/-- One definition is the first of the name that it defines. -/
theorem firstDefinition?_singleton (d : Definition) (name : String) :
    firstDefinition? [d] name = if d.name = name then some d else none := by
  unfold firstDefinition?
  by_cases h : d.name = name <;> simp [h]

/-- The first definition of a name defines that name. -/
theorem name_of_firstDefinition? {definitions : List Definition} {name : String} {d : Definition}
    (h : firstDefinition? definitions name = some d) : d.name = name := by
  simpa using List.find?_some h

namespace BuildProperties

/-- Makes a definition. -/
def apply (p : BuildProperties) (d : Definition) : BuildProperties :=
  if d.byUser then (p.defineUser d.name d.value).2 else (p.define d.name d.value).2

/-- The properties that definitions come to. -/
def ofDefinitions (definitions : List Definition) : BuildProperties :=
  definitions.foldl apply {}

/-- The last definition is made in the tables that those before have come to. -/
theorem ofDefinitions_concat (definitions : List Definition) (d : Definition) :
    ofDefinitions (definitions ++ [d]) = (ofDefinitions definitions).apply d :=
  List.foldl_concat ..

/-- Whoever defines a property, it is one of all. -/
theorem all_apply (p : BuildProperties) (d : Definition) :
    (p.apply d).all = p.all.define d.name d.value := by
  unfold apply defineUser define
  split
  · split
    · next hhas =>
      have hsame : p.all.define d.name d.value = p.all := dif_pos hhas
      exact hsame.symm
    · rfl
  · rfl

/-- A property becomes the user's if the user defines it and the name is free. -/
theorem user_apply (p : BuildProperties) (d : Definition) :
    (p.apply d).user =
      if d.byUser ∧ p.all.has d.name = false then p.user.define d.name d.value else p.user := by
  unfold apply defineUser define
  cases d.byUser <;> cases p.all.has d.name <;> rfl

/-- A name is worth what its first definition says. -/
theorem get?_all_ofDefinitions (definitions : List Definition) (name : String) :
    (ofDefinitions definitions).all.get? name =
      (firstDefinition? definitions name).map Definition.value := by
  induction definitions using List.reverseRecOn with
  | nil => rfl
  | append_singleton definitions d ih =>
    rw [ofDefinitions_concat, all_apply, PropertyTable.get?_define, ih, firstDefinition?_append,
      firstDefinition?_singleton, Option.map_or]
    congr 1
    split <;> rfl

/-- A name has a value once it is defined. -/
theorem has_all_ofDefinitions (definitions : List Definition) (name : String) :
    (ofDefinitions definitions).all.has name = (firstDefinition? definitions name).isSome := by
  rw [Bool.eq_iff_iff, ← PropertyTable.isSome_get?_iff, get?_all_ofDefinitions, Option.isSome_map]

/-- The user's properties are those whose first definition is the user's. -/
theorem get?_user_ofDefinitions (definitions : List Definition) (name : String) :
    (ofDefinitions definitions).user.get? name =
      ((firstDefinition? definitions name).filter Definition.byUser).map Definition.value := by
  induction definitions using List.reverseRecOn with
  | nil => rfl
  | append_singleton definitions d ih =>
    rw [ofDefinitions_concat, user_apply, has_all_ofDefinitions, firstDefinition?_append,
      firstDefinition?_singleton]
    by_cases hname : d.name = name
    · subst hname
      cases hfirst : firstDefinition? definitions d.name with
      | some first => simp [ih, hfirst]
      | none =>
        -- The name is free, so that this definition is its first.
        cases huser : d.byUser with
        | true => simp [PropertyTable.get?_define, ih, hfirst, Option.filter, huser]
        | false => simp [ih, hfirst, Option.filter, huser]
    · rw [if_neg hname, Option.or_none, ← ih]
      split
      · rw [PropertyTable.get?_define, if_neg hname, Option.or_none]
      · rfl

/-- A property is the user's if its first definition is. -/
theorem has_user_ofDefinitions (definitions : List Definition) (name : String) :
    (ofDefinitions definitions).user.has name =
      (firstDefinition? definitions name).any Definition.byUser := by
  rw [Bool.eq_iff_iff, ← PropertyTable.isSome_get?_iff, get?_user_ofDefinitions, Option.isSome_map]
  cases firstDefinition? definitions name with
  | none => rfl
  | some d => cases h : d.byUser <;> simp [h]

/-! ## Definitions of one kind -/

/-- Definitions by the build give a value to the names that had none. -/
theorem get?_all_defineAll (p : BuildProperties) (entries : List (String × String))
    (name : String) :
    (p.defineAll entries).all.get? name = (p.all.get? name).or (entries.lookup name) := by
  induction entries generalizing p with
  | nil => simp [defineAll]
  | cons e entries ih =>
    have hstep : p.defineAll (e :: entries) = (p.define e.1 e.2).2.defineAll entries := rfl
    have hdefine : (p.define e.1 e.2).2.all = p.all.define e.1 e.2 := rfl
    rw [hstep, ih, hdefine, PropertyTable.get?_define, Option.or_assoc]
    congr 1
    by_cases hname : e.1 = name
    · subst hname
      rw [if_pos rfl, Option.some_or, List.lookup_cons_self]
    · have hbeq : (name == e.1) = false := beq_eq_false_iff_ne.2 (Ne.symm hname)
      rw [if_neg hname, Option.none_or, List.lookup_cons, hbeq]

/-- Definitions by the build do not concern the user's table. -/
theorem user_defineAll (p : BuildProperties) (entries : List (String × String)) :
    (p.defineAll entries).user = p.user := by
  induction entries generalizing p with
  | nil => rfl
  | cons e entries ih => exact ih (p.define e.1 e.2).2

/-- If the user alone has defined properties, defining those of a table makes them the user's. -/
theorem defineAllUser_entries (t : PropertyTable) :
    ({} : BuildProperties).defineAllUser t.entries = ⟨t, t⟩ := by
  have hall (entries : List (String × String)) (u : PropertyTable)
      (hu : t.entries = u.entries ++ entries) :
      (⟨u, u⟩ : BuildProperties).defineAllUser entries = ⟨t, t⟩ := by
    induction entries generalizing u with
    | nil =>
      rw [List.append_nil] at hu
      rw [PropertyTable.eq_of_entries hu]
      rfl
    | cons e entries ih =>
      have hnew := PropertyTable.not_mem_names_of_append hu
      have hstep : (⟨u, u⟩ : BuildProperties).defineUser e.1 e.2 =
          (true, ⟨u.define e.1 e.2, u.define e.1 e.2⟩) := by
        rw [defineUser, if_neg (by rwa [PropertyTable.has_iff])]
      have hnext := ih (u.define e.1 e.2) (by
        rw [PropertyTable.define_of_not_mem hnew, hu, List.append_assoc]
        rfl)
      rw [← hnext, defineAllUser, List.foldl_cons, hstep]
      rfl
  exact hall t.entries {} rfl

end BuildProperties

end BuildStepper
