import BuildStepper.Breakpoints
import Mathlib.Data.List.DropRight
import Mathlib.Data.List.Induction
import Mathlib.Data.List.Pairwise

/-!
# What changes of the breakpoints come to

Breakpoints are set and removed one after the other, in any order and any spelling. What counts for
a place is what was asked for it since it was last removed: a breakpoint is there if that is
anything (`sinceRemoval`), and it has the spelling that came first. The breakpoints are listed in
the order of these first settings (`firstSettings`). So they are a set of places, each in one of its
spellings (`keeps_ofChanges`).

The flags of the two operations need no history: they say of any breakpoints whether the place is
taken, and a removal removes one breakpoint then.

No place is listed twice, so a breakpoint is found at a place exactly if it is set there
(`Breakpoints.at?_eq_some_iff`), wherever it stands in the list.
-/

namespace BuildStepper

/-! ## Looking up -/

namespace Breakpoints

/-- Breakpoints at one place are one breakpoint. -/
theorem eq_of_same {b : Breakpoints} {a c : Location} (ha : a ∈ b.locations)
    (hc : c ∈ b.locations) (hac : a.same c = true) : a = c := by
  by_contra hne
  have hsymm : Std.Symm fun x y : Location => x.same y = false :=
    ⟨fun x y hxy => by rwa [Location.same_comm]⟩
  have hapart := b.distinct.forall ha hc hne
  rw [hac] at hapart
  cases hapart

/-- What is found at a place is the breakpoint that is set there. -/
theorem at?_eq_some_iff {b : Breakpoints} {l a : Location} :
    b.at? l = some a ↔ a ∈ b.locations ∧ a.same l = true := by
  constructor
  · intro h
    exact ⟨List.mem_of_find?_eq_some h, List.find?_some (p := fun x : Location => x.same l) h⟩
  · rintro ⟨ha, hal⟩
    cases hfound : b.at? l with
    | none =>
      have hnone := List.find?_eq_none.1 hfound a ha
      exact absurd hal hnone
    | some c =>
      have hcl : c.same l = true := List.find?_some (p := fun x : Location => x.same l) hfound
      have hac : a.same c = true := (Location.same_right hcl a).trans hal
      rw [eq_of_same ha (List.mem_of_find?_eq_some hfound) hac]

/-- Setting a breakpoint where there is one changes nothing. -/
theorem add_of_has {b : Breakpoints} {l : Location} (h : b.has l = true) : b.add l = b := by
  rw [add, dif_pos h]

/-- Neither does removing one where there is none. -/
theorem remove_of_not_has {b : Breakpoints} {l : Location} (h : b.has l = false) :
    b.remove l = b := by
  obtain ⟨locations, distinct⟩ := b
  have hkept : locations.filter (fun a => !a.same l) = locations := by
    rw [List.filter_eq_self]
    intro a ha
    rw [Bool.not_eq_true']
    exact Bool.eq_false_iff.2 (List.any_eq_false.1 h a ha)
  simp only [remove, hkept]

end Breakpoints

/-! ## Changes -/

/-- A change that is asked for. -/
inductive BreakpointChange where
  | set (l : Location)
  | unset (l : Location)

namespace BreakpointChange

/-- The location that is named. -/
def location : BreakpointChange → Location
  | set l => l
  | unset l => l

/-- Whether a breakpoint is to be set. -/
def sets : BreakpointChange → Bool
  | set _ => true
  | unset _ => false

/-- Whether it is about the place, in whatever spelling. -/
def concerns (c : BreakpointChange) (l : Location) : Bool :=
  c.location.same l

/-- What is to be set is at its location. -/
@[simp] theorem location_set (l : Location) : (set l).location = l := rfl

/-- A setting sets. -/
@[simp] theorem sets_set (l : Location) : (set l).sets = true := rfl

/-- A removal does not. -/
@[simp] theorem sets_unset (l : Location) : (unset l).sets = false := rfl

/-- A setting is about the places that its location names. -/
@[simp] theorem concerns_set (a l : Location) : (set a).concerns l = a.same l := rfl

/-- So is a removal. -/
@[simp] theorem concerns_unset (a l : Location) : (unset a).concerns l = a.same l := rfl

end BreakpointChange

namespace Breakpoints

/-! ## One change -/

/-- A breakpoint that is set is found at its place from then on, if there was none. -/
theorem at?_add (b : Breakpoints) (a l : Location) :
    (b.add a).at? l = (b.at? l).or (if a.same l = true then some a else none) := by
  by_cases hhas : b.has a = true
  · rw [add_of_has hhas]
    split
    · next hsame =>
      -- What is set at the place is found there in either spelling.
      obtain ⟨c, hc, hca⟩ := has_iff.1 hhas
      have hfound : b.at? l = some c := at?_eq_some_iff.2 ⟨hc, Location.same_trans hca hsame⟩
      rw [hfound, Option.some_or]
    · rw [Option.or_none]
  · have hsingle : [a].find? (·.same l) = if a.same l = true then some a else none := by
      rw [List.find?_cons, List.find?_nil]
      cases a.same l <;> rfl
    rw [at?, locations_add, if_neg hhas, List.find?_append, hsingle]
    rfl

/-- One that is removed is found no more, and those at other places are found as before. -/
theorem at?_remove (b : Breakpoints) (a l : Location) :
    (b.remove a).at? l = if a.same l = true then none else b.at? l := by
  rw [at?, locations_remove, List.find?_filter]
  split
  · next hsame =>
    -- What is the same as `l` is the same as `a`, and none of that is left.
    refine List.find?_eq_none.2 fun x _ => ?_
    rw [Location.same_right hsame]
    simp
  · next hother =>
    refine congrArg b.locations.find? (funext fun x => ?_)
    have hapart (hxl : x.same l = true) : x.same a = false := by
      rw [Location.same_comm, Location.same_right hxl]
      exact Bool.eq_false_iff.2 hother
    cases hxl : x.same l <;> simp [hxl, hapart]

/-- A removal takes away the breakpoint that is found at the place. -/
theorem locations_remove_of_at? {b : Breakpoints} {l a : Location} (h : b.at? l = some a) :
    (b.remove l).locations = b.locations.erase a := by
  obtain ⟨ha, hal⟩ := at?_eq_some_iff.1 h
  have hnodup : b.locations.Nodup := by
    refine b.distinct.imp fun {x y} hxy heq => ?_
    rw [heq, Location.same_refl] at hxy
    cases hxy
  rw [locations_remove, hnodup.erase_eq_filter]
  refine List.filter_congr fun x hx => ?_
  have hiff : x.same l = true ↔ x = a :=
    ⟨fun hxl => eq_of_same hx ha ((Location.same_right hal x).trans hxl), fun heq => heq ▸ hal⟩
  rw [Bool.eq_iff_iff]
  simp [← hiff]

/-- It takes away exactly one then. -/
theorem length_remove {b : Breakpoints} {l : Location} (h : b.has l = true) :
    (b.remove l).locations.length + 1 = b.locations.length := by
  rw [← isSome_at?] at h
  obtain ⟨a, ha⟩ := Option.isSome_iff_exists.1 h
  have hmem := (at?_eq_some_iff.1 ha).1
  rw [locations_remove_of_at? ha, List.length_erase_of_mem hmem]
  exact Nat.sub_add_cancel (List.length_pos_of_mem hmem)

/-- The answer to a setting says whether the place was free. -/
theorem fst_set_iff (b : Breakpoints) (l : Location) : (b.set l).1 = true ↔ ¬ b.has l = true := by
  simp [set]

/-- The answer to a removal says whether it was taken. -/
theorem fst_unset_iff (b : Breakpoints) (l : Location) : (b.unset l).1 = true ↔ b.has l = true := by
  rw [unset, decide_eq_true_iff]
  constructor
  · intro hlength
    by_contra hnone
    exact hlength (by rw [remove_of_not_has (by simpa using hnone)])
  · intro hhas
    have := length_remove hhas
    omega

/-! ## Changes made one after the other -/

/-- Makes a change; the flag is the answer. -/
def change (b : Breakpoints) : BreakpointChange → Bool × Breakpoints
  | .set l => b.set l
  | .unset l => b.unset l

/-- A setting adds a breakpoint. -/
@[simp] theorem snd_change_set (b : Breakpoints) (l : Location) :
    (b.change (.set l)).2 = b.add l := rfl

/-- A removal removes one. -/
@[simp] theorem snd_change_unset (b : Breakpoints) (l : Location) :
    (b.change (.unset l)).2 = b.remove l := rfl

/-- What changes come to, none being set before. -/
def ofChanges (changes : List BreakpointChange) : Breakpoints :=
  changes.foldl (fun b c => (b.change c).2) {}

/-- The last change is made to what the changes before have come to. -/
theorem ofChanges_append (changes : List BreakpointChange) (c : BreakpointChange) :
    ofChanges (changes ++ [c]) = ((ofChanges changes).change c).2 := by
  rw [ofChanges, List.foldl_append]
  rfl

/-- What was asked for a place since the breakpoint there was last removed, oldest first. -/
def sinceRemoval (changes : List BreakpointChange) (l : Location) : List BreakpointChange :=
  (changes.filter (·.concerns l)).rtakeWhile BreakpointChange.sets

variable {changes : List BreakpointChange} {a l : Location}

/-- A removal at the place starts over, and a setting there is one more. -/
theorem sinceRemoval_append (c : BreakpointChange) :
    sinceRemoval (changes ++ [c]) l =
      if c.concerns l = true then if c.sets = true then sinceRemoval changes l ++ [c] else []
      else sinceRemoval changes l := by
  have hone : [c].filter (·.concerns l) = if c.concerns l = true then [c] else [] := by
    simp [List.filter_cons]
  rw [sinceRemoval, List.filter_append, hone]
  split
  · rw [List.rtakeWhile_concat, sinceRemoval]
  · rw [List.append_nil, sinceRemoval]

/-- The breakpoint at a place has the spelling that was set first since. -/
theorem at?_ofChanges (changes : List BreakpointChange) (l : Location) :
    (ofChanges changes).at? l = (sinceRemoval changes l).head?.map BreakpointChange.location := by
  induction changes using List.reverseRecOn with
  | nil => rfl
  | append_singleton changes c ih =>
    rw [ofChanges_append, sinceRemoval_append]
    cases c with
    | set a =>
      rw [snd_change_set, at?_add, ih, BreakpointChange.concerns_set]
      split
      · rw [if_pos (BreakpointChange.sets_set a), List.head?_append, Option.map_or]
        rfl
      · rw [Option.or_none]
    | unset a =>
      rw [snd_change_unset, at?_remove, ih, BreakpointChange.concerns_unset]
      split <;> rfl

/-- A place is taken just if anything was asked for it since it was last removed. -/
theorem has_ofChanges : (ofChanges changes).has l = !(sinceRemoval changes l).isEmpty := by
  rw [← isSome_at?, at?_ofChanges]
  cases sinceRemoval changes l <;> rfl

/-- Something was set since, exactly if the last change at the place sets a breakpoint. -/
theorem sinceRemoval_ne_nil_iff :
    sinceRemoval changes l ≠ [] ↔
      ∃ c, (changes.filter (·.concerns l)).getLast? = some c ∧ c.sets = true := by
  rw [sinceRemoval]
  cases changes.filter (·.concerns l) using List.reverseRecOn with
  | nil => simp
  | append_singleton rest c => cases hsets : c.sets <;> simp [hsets]

/-! ## The order -/

/-- Whether a change, with those before it and those after it, sets the breakpoint that is there in
the end: it sets one where there was none, and none is removed there later on. -/
def isFirstSetting (before : List BreakpointChange) (c : BreakpointChange)
    (later : List BreakpointChange) : Bool :=
  c.sets && (sinceRemoval before c.location).isEmpty &&
    later.all fun d => d.sets || !d.concerns c.location

/-- The locations that such changes name, in order. Other changes were made before. -/
def firstSettingsFrom (before : List BreakpointChange) : List BreakpointChange → List Location
  | [] => []
  | c :: later =>
    (if isFirstSetting before c later then [c.location] else []) ++
      firstSettingsFrom (before ++ [c]) later

/-- The locations that were set first since the last removal at their place. -/
def firstSettings (changes : List BreakpointChange) : List Location :=
  firstSettingsFrom [] changes

/-- One more setting is a first one, or changes nothing. -/
theorem firstSettingsFrom_append_set (before : List BreakpointChange) :
    firstSettingsFrom before (changes ++ [.set a]) = firstSettingsFrom before changes ++
      if (sinceRemoval (before ++ changes) a).isEmpty then [a] else [] := by
  induction changes generalizing before with
  | nil => simp [firstSettingsFrom, isFirstSetting]
  | cons c later ih =>
    have hfirst : isFirstSetting before c (later ++ [.set a]) = isFirstSetting before c later := by
      simp [isFirstSetting]
    rw [List.cons_append, firstSettingsFrom, hfirst, ih, firstSettingsFrom, List.append_assoc,
      List.append_assoc, List.singleton_append]

/-- One more removal takes away the first setting at its place. -/
theorem firstSettingsFrom_append_unset (before : List BreakpointChange) :
    firstSettingsFrom before (changes ++ [.unset a]) =
      (firstSettingsFrom before changes).filter fun l => !l.same a := by
  induction changes generalizing before with
  | nil => simp [firstSettingsFrom, isFirstSetting]
  | cons c later ih =>
    -- A removal that comes later counts only at its own place.
    have hfirst : isFirstSetting before c (later ++ [.unset a]) =
        (isFirstSetting before c later && !c.location.same a) := by
      simp [isFirstSetting, Location.same_comm a, Bool.and_assoc]
    rw [List.cons_append, firstSettingsFrom, hfirst, ih, firstSettingsFrom, List.filter_append]
    cases isFirstSetting before c later <;> cases hsame : c.location.same a <;> simp [hsame]

/-- The breakpoints are listed in the order of their first settings. -/
theorem locations_ofChanges (changes : List BreakpointChange) :
    (ofChanges changes).locations = firstSettings changes := by
  -- By the last change: a setting is new where nothing was set since, and a removal filters.
  induction changes using List.reverseRecOn with
  | nil => rfl
  | append_singleton changes c ih =>
    rw [ofChanges_append, firstSettings]
    cases c with
    | set a =>
      rw [snd_change_set, locations_add, has_ofChanges, ih, firstSettingsFrom_append_set,
        List.nil_append, firstSettings]
      cases (sinceRemoval changes a).isEmpty <;> simp
    | unset a =>
      rw [snd_change_unset, locations_remove, ih, firstSettingsFrom_append_unset, firstSettings]

/-- What breakpoints have to be after changes. -/
structure Keeps (b : Breakpoints) (changes : List BreakpointChange) : Prop where
  /-- No place is listed twice. -/
  distinct : b.locations.Pairwise fun a c => a.same c = false
  /-- One is found at a place exactly if the last change there set it. -/
  found_iff : ∀ l, (b.at? l).isSome = true ↔
    ∃ c, (changes.filter (·.concerns l)).getLast? = some c ∧ c.sets = true
  /-- It has the spelling of the first setting since the last removal. -/
  spelling : ∀ l, b.at? l = (sinceRemoval changes l).head?.map BreakpointChange.location
  /-- They are listed in the order of these settings. -/
  order : b.locations = firstSettings changes
  /-- Setting one is answered with whether the place was free. -/
  set_iff : ∀ l, (b.set l).1 = true ↔ ∀ a ∈ b.locations, a.same l = false
  /-- Removing one is answered with whether there was one. -/
  unset_iff : ∀ l, (b.unset l).1 = true ↔ ∃ a ∈ b.locations, a.same l = true
  /-- There is exactly one less then. -/
  unset_length : ∀ l, (b.unset l).1 = true →
    (b.unset l).2.locations.length + 1 = b.locations.length

/-- After any changes the breakpoints are a set of places: those that the last change sets, in the
first spelling since, and in the order in which these were set. The answers are those of a set. -/
theorem keeps_ofChanges (changes : List BreakpointChange) : (ofChanges changes).Keeps changes where
  distinct := (ofChanges changes).distinct
  found_iff l := by
    rw [isSome_at?, has_ofChanges, ← sinceRemoval_ne_nil_iff]
    simp
  spelling := at?_ofChanges changes
  order := locations_ofChanges changes
  set_iff l := by
    rw [fst_set_iff, has_iff]
    simp
  unset_iff l := by rw [fst_unset_iff, has_iff]
  unset_length l h := length_remove ((fst_unset_iff _ l).1 h)

-- The second location is set anew after its removal, and comes last in its new spelling.
example :
    (ofChanges [.set ⟨⟨"a/b"⟩, 1⟩, .set ⟨⟨"c"⟩, 2⟩, .set ⟨⟨"d"⟩, 3⟩, .set ⟨⟨"a//b/."⟩, 1⟩,
      .unset ⟨⟨"c/"⟩, 2⟩, .set ⟨⟨"c/."⟩, 2⟩]).ids = ["a/b:1", "d:3", "c/.:2"] := by
  decide +kernel

end Breakpoints

end BuildStepper
