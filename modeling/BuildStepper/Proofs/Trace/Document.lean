import BuildStepper.Proofs.Json.Nesting
import BuildStepper.Trace.Reader
import BuildStepper.Trace.Writer

/-!
# The document of a trace

A trace is read back from the document that it is written to (`Trace.ofJson_toJson`): with every
field, every path in its spelling and every table in its order. The one limit is the nesting of the
document, and a document that nests too deeply is refused, never read as another trace.

A task, a target and a trace nest two levels more than what is inside of them (`levels`): their own
object and the list in it. With an empty list there is still the list itself, and in a task and a
trace a table beside it. The budget of a reader goes down by the same two levels, so that by
induction on the budget it reads exactly what nests no deeper (`TraceTask.take_put`). Where one
level is left, an object is opened in vain, since the table or the list in it is refused.
-/

namespace BuildStepper

open Json

/-! ## Fields of a path -/

/-- A path is read in the spelling that it was written in. -/
theorem takePath_putString (path : BuildPath) (rest : List Char) :
    takePath (putString path.spelling ++ rest) = .ok (path, rest) := by
  rw [takePath, takeText_putString]
  rfl

/-- The file of a task is read as it was written, also if the task has none of its own. -/
theorem takeOptional_putFile? (file : Option BuildPath) (rest : List Char) :
    takeOptional takePath (putFile? file ++ rest) = .ok (file, rest) := by
  cases file with
  | none => rfl
  | some path =>
    have htake := takePath_putString path rest
    rw [putString_append] at htake
    rw [putFile?, putString_append, takeOptional, skipBlanks_cons rfl]
    simp only [Char.reduceEq, if_false, htake]
    rfl

/-- A file has no levels, whether there is one or not. -/
theorem nests_putFile? (file : Option BuildPath) : Nests (putFile? file) 0 := by
  cases file with
  | none => exact nests_of_plain rfl
  | some path => exact nests_putString path.spelling

/-! ## Tasks -/

mutual

/-- How many levels a task nests: those of the tasks it runs and two of its own. -/
def TraceTask.levels : TraceTask → Nat
  | .mk _ _ _ _ tasks => deepest (TraceTask.levelsAll tasks) + 2

/-- The levels of each task of a list. -/
def TraceTask.levelsAll : List TraceTask → List Nat
  | [] => []
  | task :: tasks => task.levels :: TraceTask.levelsAll tasks

end

namespace TraceTask

/-- Tasks are written one by one. -/
theorem putAll_eq_map (tasks : List TraceTask) : putAll tasks = tasks.map put := by
  induction tasks with
  | nil => rfl
  | cons task tasks ih => rw [putAll, ih, List.map_cons]

/-- Their levels are counted one by one. -/
theorem levelsAll_eq_map (tasks : List TraceTask) : levelsAll tasks = tasks.map levels := by
  induction tasks with
  | nil => rfl
  | cons task tasks ih => rw [levelsAll, ih, List.map_cons]

mutual

/-- A task is written with as many levels as it nests. -/
theorem nests_put : (task : TraceTask) → Nests task.put task.levels
  | .mk name file line defines tasks => by
    rw [put, levels]
    refine nests_putObject (.cons (nests_putString name) (.cons (nests_putFile? file)
      (.cons (nests_putNat line.toNat) (.cons (nests_putTable defines)
        (.cons (nests_putArray (nests_putAll tasks)) .nil))))) ?_
    simp only [deepest_cons, deepest_nil]
    omega

/-- Each of several tasks has as many levels as are counted for it. -/
theorem nests_putAll : (tasks : List TraceTask) →
    List.Forall₂ Nests (putAll tasks) (levelsAll tasks)
  | [] => .nil
  | task :: tasks => .cons (nests_put task) (nests_putAll tasks)

end

/-- The object of a task is read if its table is and the tasks it runs are. -/
theorem takeRecord_put {list : Take (List TraceTask)} {readable : List TraceTask → Prop}
    [DecidablePred readable] (mayOpen : Bool)
    (hlist : ReadsBack list (fun tasks => putArray (putAll tasks)) readable) :
    ReadsBack (takeRecord "TraceTask" (some (reader (takeTable mayOpen) list))) put
      (fun task => mayOpen = true ∧ readable task.tasks) := by
  intro ⟨name, file, line, defines, tasks⟩ rest
  have hrecord : takeRecord "TraceTask" (some (reader (takeTable mayOpen) list))
      ((mk name file line defines tasks).put ++ rest) =
        ((if mayOpen = true ∧ readable tasks then
            .ok ⟨some name, some file, some line, some defines, some tasks⟩
          else .error .malformed : Except Failure Fields).bind Fields.finish).map
            fun task => (task, rest) := by
    rw [put, ite_and]
    exact takeRecord_putObject (fun _ => rfl)
      (.next (fun rest _ => takeField_of_ok (takeText_putString .text name rest))
        (.next (fun rest _ => takeField_of_ok (takeOptional_putFile? file rest))
          (.next (fun _ hrest => takeField_of_ok (takeWord32_putNat line hrest))
            (.ite (fun rest _ => takeField_ite (takeTable_putTable mayOpen defines rest)) fun _ =>
              .ite (fun rest _ => takeField_ite (hlist tasks rest)) fun _ => .done _)))) rest
  change _ = if mayOpen = true ∧ readable tasks then _ else _
  rw [hrecord]
  split <;> rfl

/-- Lists of tasks are read as their tasks are. -/
theorem takeSequence_putAll {budget : Nat} (h : ReadsBack (take budget) put (levels · ≤ budget)) :
    ReadsBack (takeSequence (some (take budget))) (fun tasks => putArray (putAll tasks))
      (fun tasks => deepest (levelsAll tasks) ≤ budget) := by
  intro tasks rest
  have hobject (task : TraceTask) : ∃ cs, task.put = '{' :: cs := by
    cases task
    exact ⟨_, rfl⟩
  have htake := takeSequence_putArray h hobject tasks rest
  simp only [putAll_eq_map, htake, deepest_le_iff, levelsAll_eq_map, List.forall_mem_map]

/-- A task is read as it was written, if the budget has the levels it nests. -/
theorem take_put (budget : Nat) : ReadsBack (take budget) put (levels · ≤ budget) := by
  intro task rest
  change _ = if task.levels ≤ budget then _ else _
  induction budget using take.induct generalizing task rest with
  | case1 =>
    cases task
    rw [levels, if_neg (Nat.not_succ_le_zero _)]
    exact takeRecord_none _ _ rest
  | case2 =>
    cases task
    have hobject := takeRecord_put false (takeSequence_none putAll)
    rw [take, hobject, if_neg (by simp), levels, if_neg (by omega)]
  | case3 budget ih =>
    cases task
    have hobject := takeRecord_put true (takeSequence_putAll ih)
    rw [take, hobject, levels]
    simp only [true_and, tasks, Nat.succ_eq_add_one, Nat.add_le_add_iff_right]

end TraceTask

/-! ## Targets -/

namespace TraceTarget

/-- How many levels a target nests: those of its tasks and two of its own. -/
def levels (t : TraceTarget) : Nat :=
  deepest (TraceTask.levelsAll t.tasks) + 2

/-- A target is written with as many levels as it nests. -/
theorem nests_put (t : TraceTarget) : Nests t.put t.levels := by
  rw [put, levels]
  refine nests_putObject (.cons (nests_putString t.name) (.cons (nests_putString t.file.spelling)
    (.cons (nests_putNat t.line.toNat)
      (.cons (nests_putArray (TraceTask.nests_putAll t.tasks)) .nil)))) ?_
  simp only [deepest_cons, deepest_nil]
  omega

/-- The object of a target is read if its tasks are. -/
theorem takeRecord_put {list : Take (List TraceTask)} {readable : List TraceTask → Prop}
    [DecidablePred readable]
    (hlist : ReadsBack list (fun tasks => putArray (TraceTask.putAll tasks)) readable) :
    ReadsBack (takeRecord "TraceTarget" (some (reader list))) put (fun t => readable t.tasks) := by
  intro t rest
  have hrecord : takeRecord "TraceTarget" (some (reader list)) (t.put ++ rest) =
      ((if readable t.tasks then .ok ⟨some t.name, some t.file, some t.line, some t.tasks⟩
        else .error .malformed : Except Failure Fields).bind Fields.finish).map
          fun target => (target, rest) := by
    rw [put]
    exact takeRecord_putObject (fun _ => rfl)
      (.next (fun rest _ => takeField_of_ok (takeText_putString .text t.name rest))
        (.next (fun rest _ => takeField_of_ok (takePath_putString t.file rest))
          (.next (fun _ hrest => takeField_of_ok (takeWord32_putNat t.line hrest))
            (.ite (fun rest _ => takeField_ite (hlist t.tasks rest)) fun _ => .done _)))) rest
  rw [hrecord]
  split <;> rfl

/-- A target is read as it was written, if the budget has the levels it nests. -/
theorem take_put (budget : Nat) : ReadsBack (take budget) put (levels · ≤ budget) := by
  intro t rest
  change _ = if t.levels ≤ budget then _ else _
  match budget with
  | 0 =>
    rw [levels, if_neg (Nat.not_succ_le_zero _)]
    rfl
  | 1 =>
    have hobject := takeRecord_put (takeSequence_none TraceTask.putAll)
    rw [take, hobject, if_neg not_false, levels, if_neg (by omega)]
  | budget + 2 =>
    have hobject := takeRecord_put (TraceTask.takeSequence_putAll (TraceTask.take_put budget))
    rw [take, hobject]
    simp only [levels, Nat.add_le_add_iff_right]

end TraceTarget

/-! ## Traces -/

namespace Trace

/-- How many levels a trace nests: those of its targets and two of its own. -/
def levels (t : Trace) : Nat :=
  deepest (t.targets.map TraceTarget.levels) + 2

/-- A trace is written with as many levels as it nests. -/
theorem nests_put (t : Trace) : Nests t.put t.levels := by
  have htargets : List.Forall₂ Nests (t.targets.map TraceTarget.put)
      (t.targets.map TraceTarget.levels) :=
    List.forall₂_map_left_iff.2 (List.forall₂_map_right_iff.2
      (List.forall₂_same.2 fun target _ => target.nests_put))
  rw [put, levels]
  refine nests_putObject (.cons (nests_putTable t.properties)
    (.cons (nests_putTable t.userProperties) (.cons (nests_putArray htargets) .nil))) ?_
  simp only [deepest_cons, deepest_nil]
  omega

/-- The nesting of a document is the number of levels of its trace. -/
theorem nesting_toJson (t : Trace) : Json.nesting t.toJson = t.levels :=
  t.nests_put.nesting

/-- The object of a trace is read if its tables and its targets are. -/
theorem takeRecord_put {list : Take (List TraceTarget)} {readable : List TraceTarget → Prop}
    [DecidablePred readable] (mayOpen : Bool)
    (hlist : ReadsBack list (fun targets => putArray (targets.map TraceTarget.put)) readable) :
    ReadsBack (takeRecord "BuildTrace" (some (reader (takeTable mayOpen) list))) put
      (fun t => mayOpen = true ∧ readable t.targets) := by
  intro t rest
  have hrecord : takeRecord "BuildTrace" (some (reader (takeTable mayOpen) list)) (t.put ++ rest) =
      ((if mayOpen = true ∧ readable t.targets then
          .ok ⟨some t.properties, some t.userProperties, some t.targets⟩
        else .error .malformed : Except Failure Fields).bind fun s => .ok s.finish).map
          fun trace => (trace, rest) := by
    rw [put, ite_and]
    exact takeRecord_putObject (fun _ => rfl)
      (.ite (fun rest _ => takeField_ite (takeTable_putTable mayOpen t.properties rest))
        fun hopen => .next (fun rest _ => takeField_of_ok
            ((takeTable_putTable mayOpen t.userProperties rest).trans (if_pos hopen)))
          (.ite (fun rest _ => takeField_ite (hlist t.targets rest)) fun _ => .done _)) rest
  rw [hrecord]
  split <;> rfl

/-- A trace is read as it was written, if the budget has the levels it nests. -/
theorem take_put (budget : Nat) : ReadsBack (take budget) put (levels · ≤ budget) := by
  intro t rest
  change _ = if t.levels ≤ budget then _ else _
  match budget with
  | 0 =>
    rw [levels, if_neg (Nat.not_succ_le_zero _)]
    rfl
  | 1 =>
    have hobject := takeRecord_put false (takeSequence_none (List.map TraceTarget.put))
    rw [take, hobject, if_neg (by simp), levels, if_neg (by omega)]
  | budget + 2 =>
    have hlist := takeSequence_putArray (TraceTarget.take_put budget) (fun _ => ⟨_, rfl⟩)
    have hobject := takeRecord_put true hlist
    rw [take, hobject]
    simp only [true_and, levels, Nat.add_le_add_iff_right, deepest_le_iff, List.forall_mem_map]

/-- A trace is read as it was written if its document nests no more than 127 levels; a deeper one is
refused as malformed. -/
theorem ofJson_toJson (t : Trace) :
    ofJson t.toJson = if Json.nesting t.toJson ≤ 127 then .ok t else .error ⟨.malformed⟩ := by
  have htake := take_put maxDepth t []
  rw [List.append_nil] at htake
  rw [nesting_toJson, ofJson, readDocument, toJson, String.toList_ofList, htake]
  change _ = if t.levels ≤ maxDepth then _ else _
  by_cases hlevels : t.levels ≤ maxDepth
  · rw [if_pos hlevels, if_pos hlevels]
    rfl
  · rw [if_neg hlevels, if_neg hlevels]

end Trace

end BuildStepper
