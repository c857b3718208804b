import BuildStepper.Proofs.Lists
import BuildStepper.Proofs.Properties.Definition
import BuildStepper.Proofs.Replay.Traversal
import BuildStepper.Proofs.Trace.Visits

/-!
# What properties are worth along a replay

A task defines its properties once its start was called back. So a replay comes in parts, each of
them a callback with the definitions behind it (`ReplayPart`), and what a name is worth at a
callback is settled by the parts before (`Trace.get?_all_after`): it is what the user says, else
what the trace says, else what the first task says that defines it, first in the order of the walk,
if that task has started.

`Trace.tables_along` says so of every callback. A client of a session that blocks the build reads
the tables of the callback in which the build is blocked, since nothing is defined meanwhile
(`DebuggedReplay.HasDone`).
-/

namespace BuildStepper

/-- The properties of a build that replays a trace, once these steps are done. -/
def Trace.propertiesAfter (t : Trace) (steps : List ReplayStep) : BuildProperties :=
  steps.foldl ReplayStep.apply t.initialProperties

/-! ## The parts of a replay -/

/-- A callback of a replay, with the task that it starts, if it starts one. -/
structure ReplayPart where
  event : BuildEvent
  task? : Option TaskNode := none

namespace ReplayPart

/-- The properties that are defined behind the callback. -/
def defines (part : ReplayPart) : List (String × String) :=
  part.task?.toList.flatMap fun n => n.task.defines.sorted

/-- The callback and the definitions behind it. -/
def steps (part : ReplayPart) : List ReplayStep :=
  .callback part.event :: part.defines.map fun e => .define e.1 e.2

end ReplayPart

/-- The part of a replay that begins with a visit. -/
def Visit.part : Visit → ReplayPart
  | .start n => ⟨.taskStarted n.frame, some n⟩
  | .finish n => ⟨.taskFinished n.frame, none⟩

/-- The parts of targets one after the other. -/
def TraceTarget.partsAll (next : Nat) : List TraceTarget → List ReplayPart
  | [] => []
  | t :: ts =>
    ⟨.targetStarted t.target, none⟩ :: (TraceTask.visitsAll t [] next t.tasks).map Visit.part ++
      ⟨.targetFinished t.target, none⟩ :: TraceTarget.partsAll (t.steps next).2 ts

/-- The parts of the replay of a trace. -/
def Trace.parts (t : Trace) : List ReplayPart :=
  ⟨.buildStarted t.initialProperties.all, none⟩ :: TraceTarget.partsAll 0 t.targets ++
    [⟨.buildFinished, none⟩]

mutual

/-- The steps of a task are those of its visits. -/
theorem TraceTask.flatMap_steps_visits (target : TraceTarget) (ancestors : List CallFrame)
    (next : Nat) : (task : TraceTask) →
      ((task.visits target ancestors next).map Visit.part).flatMap ReplayPart.steps =
        (task.steps target next).1
  | .mk name file line defines tasks => by
    rw [TraceTask.visits, List.map_cons, List.map_append, List.flatMap_cons, List.flatMap_append,
      TraceTask.flatMap_steps_visitsAll]
    simp [Visit.part, ReplayPart.steps, ReplayPart.defines, TraceTask.steps, TaskNode.frame,
      TaskNode.id, TraceTask.name, TraceTask.file, TraceTask.line, TraceTask.defines]

/-- The same for tasks one after the other. -/
theorem TraceTask.flatMap_steps_visitsAll (target : TraceTarget) (ancestors : List CallFrame)
    (next : Nat) : (tasks : List TraceTask) →
      ((TraceTask.visitsAll target ancestors next tasks).map Visit.part).flatMap
        ReplayPart.steps = (TraceTask.stepsAll target next tasks).1
  | [] => rfl
  | task :: tasks => by
    rw [TraceTask.visitsAll, List.map_append, List.flatMap_append, TraceTask.flatMap_steps_visits,
      TraceTask.flatMap_steps_visitsAll, TraceTask.stepsAll_cons]

end

mutual

/-- The tasks that start at the visits of a task are its nodes. -/
theorem TraceTask.filterMap_task_visits (target : TraceTarget) (ancestors : List CallFrame)
    (next : Nat) : (task : TraceTask) →
      ((task.visits target ancestors next).map Visit.part).filterMap ReplayPart.task? =
        task.nodes target ancestors next
  | .mk name file line defines tasks => by
    rw [TraceTask.visits, List.map_cons, List.map_append, List.filterMap_cons,
      List.filterMap_append, TraceTask.filterMap_task_visitsAll, TraceTask.nodes]
    simp [Visit.part]

/-- The same for tasks one after the other. -/
theorem TraceTask.filterMap_task_visitsAll (target : TraceTarget) (ancestors : List CallFrame)
    (next : Nat) : (tasks : List TraceTask) →
      ((TraceTask.visitsAll target ancestors next tasks).map Visit.part).filterMap
        ReplayPart.task? = TraceTask.nodesAll target ancestors next tasks
  | [] => rfl
  | task :: tasks => by
    rw [TraceTask.visitsAll, List.map_append, List.filterMap_append,
      TraceTask.filterMap_task_visits, TraceTask.filterMap_task_visitsAll, TraceTask.nodesAll]

end

/-- A replay is made of its parts. -/
theorem Trace.flatMap_steps_parts (t : Trace) : t.parts.flatMap ReplayPart.steps = t.replay := by
  have htargets (next : Nat) (ts : List TraceTarget) :
      (TraceTarget.partsAll next ts).flatMap ReplayPart.steps = TraceTarget.stepsAll next ts := by
    induction ts generalizing next with
    | nil => rfl
    | cons target ts ih =>
      rw [TraceTarget.partsAll, List.flatMap_append, List.flatMap_cons, List.flatMap_cons,
        TraceTask.flatMap_steps_visitsAll, ih]
      simp [ReplayPart.steps, ReplayPart.defines, TraceTarget.stepsAll, TraceTarget.steps]
  rw [Trace.parts, List.flatMap_append, List.flatMap_cons, htargets]
  simp [ReplayPart.steps, ReplayPart.defines, Trace.replay]

/-- The tasks that the parts of a replay start are the nodes of the trace, in their order. -/
theorem Trace.filterMap_task_parts (t : Trace) : t.parts.filterMap ReplayPart.task? = t.nodes := by
  have htargets (next : Nat) (ts : List TraceTarget) :
      (TraceTarget.partsAll next ts).filterMap ReplayPart.task? = TraceTarget.nodesAll next ts := by
    induction ts generalizing next with
    | nil => rfl
    | cons target ts ih =>
      rw [TraceTarget.partsAll, List.filterMap_append, List.filterMap_cons_none rfl,
        List.filterMap_cons_none rfl, TraceTask.filterMap_task_visitsAll, ih, TraceTarget.nodesAll]
  rw [Trace.parts, List.filterMap_append, List.filterMap_cons_none rfl, htargets]
  simp [Trace.nodes]

/-- A part that starts a task calls its start back. -/
theorem Trace.event_of_task {t : Trace} {part : ReplayPart} (h : part ∈ t.parts) {n : TaskNode}
    (hn : part.task? = some n) : part.event = .taskStarted n.frame := by
  have htargets (next : Nat) (ts : List TraceTarget) (h : part ∈ TraceTarget.partsAll next ts) :
      part.event = .taskStarted n.frame := by
    induction ts generalizing next with
    | nil => cases h
    | cons target ts ih =>
      simp only [TraceTarget.partsAll, List.mem_append, List.mem_cons, List.mem_map] at h
      -- A part is the start of the target, one of its visits, its finish, or one of the later
      -- targets.
      obtain (rfl | ⟨v, -, rfl⟩) | rfl | hlater := h
      · cases hn
      · cases v with
        | start m =>
          cases hn
          rfl
        | finish m => cases hn
      · cases hn
      · exact ih _ hlater
  simp only [Trace.parts, List.mem_append, List.mem_cons] at h
  -- The start and the finish of the build start no task.
  obtain (rfl | hpart) | rfl | hnone := h
  · cases hn
  · exact htargets 0 t.targets hpart
  · cases hn
  · cases hnone

/-- Each part of a replay makes one callback. -/
@[simp] theorem callbacksOf_flatMap_steps (parts : List ReplayPart) :
    callbacksOf (parts.flatMap ReplayPart.steps) = parts.map ReplayPart.event := by
  induction parts with
  | nil => rfl
  | cons part parts ih =>
    rw [List.flatMap_cons, callbacksOf_append, ih, ReplayPart.steps, callbacksOf_callback,
      callbacksOf_define]
    rfl

/-- The only callback of a part is at its front. -/
theorem ReplayPart.eq_nil_of_steps_eq {part : ReplayPart} {before later : List ReplayStep}
    {event : BuildEvent} (h : part.steps = before ++ .callback event :: later) :
    before = [] ∧ part.event = event := by
  cases before with
  | nil =>
    injection h with hstep
    cases hstep
    exact ⟨rfl, rfl⟩
  | cons step before =>
    have hmem : ReplayStep.callback event ∈ part.defines.map fun e => .define e.1 e.2 := by
      rw [(List.cons.inj h).2]
      simp
    simp at hmem

/-- Where a callback stands, a part begins. -/
theorem exists_part_of_flatMap_eq {parts : List ReplayPart} {before later : List ReplayStep}
    {event : BuildEvent}
    (h : parts.flatMap ReplayPart.steps = before ++ .callback event :: later) :
    ∃ first part last, parts = first ++ part :: last ∧ part.event = event ∧
      before = first.flatMap ReplayPart.steps := by
  obtain ⟨first, part, last, inner, outer, rfl, hsteps, rfl, -⟩ := exists_cut_of_flatMap h
  obtain ⟨rfl, hevent⟩ := ReplayPart.eq_nil_of_steps_eq hsteps
  exact ⟨first, part, last, rfl, hevent, List.append_nil _⟩

/-! ## The tables at a callback -/

/-- The properties of a replay begin as the two tables of its trace. -/
theorem Trace.initialProperties_eq (t : Trace) :
    t.initialProperties.user = t.userProperties ∧
      ∀ name, t.initialProperties.all.get? name =
        (t.userProperties.get? name).or (t.properties.get? name) := by
  unfold Trace.initialProperties
  rw [BuildProperties.defineAllUser_entries, BuildProperties.user_defineAll]
  exact ⟨rfl, fun name => BuildProperties.get?_all_defineAll _ _ name⟩

/-- After whole parts of a replay all is defined that is defined in these parts. -/
theorem Trace.propertiesAfter_parts (t : Trace) (parts : List ReplayPart) :
    t.propertiesAfter (parts.flatMap ReplayPart.steps) =
      t.initialProperties.defineAll (parts.flatMap ReplayPart.defines) := by
  unfold Trace.propertiesAfter
  generalize t.initialProperties = p
  induction parts generalizing p with
  | nil => rfl
  | cons part parts ih =>
    rw [List.flatMap_cons, List.flatMap_cons, List.foldl_append, ih, ReplayPart.steps,
      List.foldl_cons, List.foldl_map]
    unfold BuildProperties.defineAll
    rw [List.foldl_append]
    rfl

/-- What tasks define that start one after the other is what the first one defines. -/
theorem lookup_flatMap_defines (nodes : List TaskNode) (name : String) :
    (nodes.flatMap fun n => n.task.defines.sorted).lookup name =
      (nodes.find? fun n => n.task.defines.has name).bind fun n => n.task.defines.get? name := by
  induction nodes with
  | nil => rfl
  | cons n nodes ih =>
    rw [List.flatMap_cons, List.lookup_append, PropertyTable.lookup_sorted, ih, List.find?_cons]
    cases hhas : n.task.defines.has name with
    | true =>
      obtain ⟨value, hvalue⟩ :=
        Option.isSome_iff_exists.1 (PropertyTable.isSome_get?_iff.2 hhas)
      simp [hvalue]
    | false => simp [PropertyTable.get?_eq_none_iff.2 hhas]

/-- What the tasks of a trace make of a name, once these callbacks have returned: the value that the
first task gives it, in the order of the walk, if that task has been started. -/
def Trace.definedByTask? (t : Trace) (called : List BuildEvent) (name : String) : Option String :=
  (t.nodes.find? fun n => n.task.defines.has name).bind fun n =>
    if .taskStarted n.frame ∈ called then n.task.defines.get? name else none

/-- The parts that come first start the nodes that come first. -/
theorem Trace.nodes_eq_append {t : Trace} {first later : List ReplayPart}
    (h : t.parts = first ++ later) :
    t.nodes = first.filterMap ReplayPart.task? ++ later.filterMap ReplayPart.task? := by
  rw [← t.filterMap_task_parts, h, List.filterMap_append]

/-- The start of a task is among the callbacks of the parts that start it. -/
theorem Trace.start_mem_parts {t : Trace} {parts : List ReplayPart} (hsub : parts ⊆ t.parts)
    {n : TaskNode} (hn : n ∈ parts.filterMap ReplayPart.task?) :
    .taskStarted n.frame ∈ parts.map ReplayPart.event := by
  obtain ⟨part, hpart, htask⟩ := List.mem_filterMap.1 hn
  exact List.mem_map.2 ⟨part, hpart, Trace.event_of_task (hsub hpart) htask⟩

/-- What parts define is what the tasks define that start in them. -/
theorem flatMap_defines (parts : List ReplayPart) :
    parts.flatMap ReplayPart.defines =
      (parts.filterMap ReplayPart.task?).flatMap fun n => n.task.defines.sorted := by
  rw [List.filterMap_eq_flatMap_toList, List.flatMap_assoc]
  rfl

/-- What a name is worth at a callback. -/
theorem Trace.get?_all_after {t : Trace} {before later : List ReplayStep} {event : BuildEvent}
    (h : t.replay = before ++ .callback event :: later) (name : String) :
    (t.propertiesAfter before).all.get? name =
      ((t.userProperties.get? name).or (t.properties.get? name)).or
        (t.definedByTask? (callbacksOf before) name) := by
  obtain ⟨first, part, last, hparts, -, rfl⟩ :=
    exists_part_of_flatMap_eq (t.flatMap_steps_parts.trans h)
  have hevents : t.events =
      first.map ReplayPart.event ++ (part :: last).map ReplayPart.event := by
    rw [Trace.events_eq, ← t.flatMap_steps_parts, callbacksOf_flatMap_steps, hparts,
      List.map_append]
  rw [t.propertiesAfter_parts, BuildProperties.get?_all_defineAll, t.initialProperties_eq.2]
  congr 1
  -- The tasks started before come first among all.
  rw [flatMap_defines, lookup_flatMap_defines, Trace.definedByTask?, Trace.nodes_eq_append hparts,
    List.find?_append, callbacksOf_flatMap_steps]
  cases hfound : (first.filterMap ReplayPart.task?).find? fun n => n.task.defines.has name with
  | some n =>
    have hcalled :=
      Trace.start_mem_parts (t := t) (by simp [hparts]) (List.mem_of_find?_eq_some hfound)
    rw [Option.some_or, Option.bind_some, Option.bind_some, if_pos hcalled]
  | none =>
    cases hlater :
        ((part :: last).filterMap ReplayPart.task?).find? fun n => n.task.defines.has name with
    | none => rfl
    | some n =>
      -- A task that is still to start has not been started.
      have hcoming :=
        Trace.start_mem_parts (t := t) (by simp [hparts]) (List.mem_of_find?_eq_some hlater)
      have hnot : .taskStarted n.frame ∉ first.map ReplayPart.event := fun hmem =>
        Trace.started_apart hevents hmem hcoming
      rw [Option.none_or, Option.bind_none, Option.bind_some, if_neg hnot]

/-- The user's table stays as it is in the trace. -/
theorem Trace.user_after (t : Trace) (steps : List ReplayStep) :
    (t.propertiesAfter steps).user = t.userProperties := by
  rw [← t.initialProperties_eq.1]
  unfold Trace.propertiesAfter
  generalize t.initialProperties = p
  induction steps generalizing p with
  | nil => rfl
  | cons step steps ih =>
    rw [List.foldl_cons, ih]
    cases step with
    | callback event => rfl
    | define name value => rfl

/-! ## Which tasks have been started at a callback -/

/-- The start and the finish of a nested task are called back inside. -/
theorem TaskNode.mem_inner_of_nested {n m : TaskNode} (h : m ∈ n.nested) :
    .taskStarted m.frame ∈ n.inner ∧ .taskFinished m.frame ∈ n.inner := by
  obtain ⟨before, later, hinner, -⟩ : m.IsAmong ⟨n.frame :: n.ancestors⟩ n.inner :=
    TraceTask.isAmong_callbacksAll h
  rw [hinner]
  simp [TaskNode.events]

/-- The start of a task has returned when its finish is called back, or a task nested in it. -/
theorem Trace.start_mem {t : Trace} {n : TaskNode} (hn : n ∈ t.nodes)
    {before later : List BuildEvent} {event : BuildEvent}
    (h : t.events = before ++ event :: later)
    (hinside : event = .taskFinished n.frame ∨
      ∃ m ∈ n.nested, event = .taskStarted m.frame ∨ event = .taskFinished m.frame) :
    .taskStarted n.frame ∈ before := by
  obtain ⟨first, last, hevents, -⟩ := t.events_eq_append hn
  have hcut : (first ++ [.taskStarted n.frame]) ++ (n.inner ++ .taskFinished n.frame :: last) =
      t.events := by
    rw [hevents, List.append_assoc]
    rfl
  -- The callback comes behind the start of the task, and so not before it.
  have hnot : event ∉ first ++ [.taskStarted n.frame] := by
    intro hmem
    obtain rfl | ⟨m, hm, rfl | rfl⟩ := hinside
    · exact Trace.finished_apart hcut.symm (List.mem_filterMap.2 ⟨_, hmem, rfl⟩) (by simp)
    · exact Trace.started_apart hcut.symm hmem (by simp [TaskNode.mem_inner_of_nested hm])
    · exact Trace.finished_apart hcut.symm (List.mem_filterMap.2 ⟨_, hmem, rfl⟩)
        (by simp [TaskNode.mem_inner_of_nested hm])
  obtain ⟨middle, rfl, -⟩ := exists_of_append_eq hnot (hcut.trans h)
  simp

/-! ## What a client reads -/

namespace Session

/-- What is not a callback of the build does not block it, except that a client who connects takes
over from the wait for it. -/
theorem blocksBuild_of_step {s : Session} (hfree : s.status.blocksBuild = false)
    {event : SessionEvent} (h : ∀ called, event = .build called → called = .buildFinished) :
    (s.step event).1.status.blocksBuild = false := by
  cases live : s.status.isLive with
  | true =>
    rw [step_status_of_live live]
    cases event with
    | build called =>
      rw [h called rfl]
      rfl
    -- A command lets the build go, ends the session, or leaves it as it is.
    | command all user command =>
      simp only
      split
      · rfl
      · split
        · rfl
        · exact hfree
    | attached => exact hfree
    | abandoned => exact hfree
    | disconnected => rfl
  | false =>
    rw [step_status_of_not_live live]
    cases event with
    | build called =>
      rw [h called rfl]
      rfl
    | _ => cases hs : s.status <;> simp_all [Status.blocksBuild]

end Session

namespace DebuggedReplay

/-- The steps of the trace that a replay has done, and what they have made of the properties. While
the build is blocked the last of them is the callback in which it is. -/
structure HasDone (t : Trace) (steps : List ReplayStep) (r : DebuggedReplay) : Prop where
  split : t.replay = steps ++ r.rest
  properties : r.properties = t.propertiesAfter steps
  blocked : r.session.status.blocksBuild = true →
    ∃ before event, steps = before ++ [.callback event]

namespace HasDone

variable {t : Trace} {steps : List ReplayStep} {r : DebuggedReplay}

/-- When a replay begins, nothing of the trace has been done. -/
theorem ofTrace (settings : DebugSettings) (t : Trace) : HasDone t [] (ofTrace settings t) where
  split := rfl
  properties := rfl
  blocked h := by cases h

/-- Settling does the definitions that come next. -/
theorem settle (h : HasDone t steps r) : ∃ done, HasDone t done r.settle := by
  unfold DebuggedReplay.settle
  split
  · exact ⟨steps, h⟩
  · next hfree =>
    have hcut (p : ReplayStep → Bool) :
        HasDone t (steps ++ r.rest.takeWhile p)
          { r with
            properties := (r.rest.takeWhile p).foldl ReplayStep.apply r.properties
            rest := r.rest.dropWhile p } := by
      refine ⟨?_, ?_, fun hblocked => absurd hblocked hfree⟩
      · rw [List.append_assoc, List.takeWhile_append_dropWhile]
        exact h.split
      · simp only [h.properties, Trace.propertiesAfter, List.foldl_append]
    exact ⟨_, hcut _⟩

/-- Something happens to the session that does not newly block the build. -/
theorem withSession (h : HasDone t steps r) {s : Session}
    (hblocked : s.status.blocksBuild = true → r.session.status.blocksBuild = true) :
    HasDone t steps { r with session := s } where
  split := h.split
  properties := h.properties
  blocked hs := h.blocked (hblocked hs)

/-- The build goes on to its next callback. -/
theorem advance (h : HasDone t steps r) : ∃ done, HasDone t done (r.advance 1).1 := by
  unfold DebuggedReplay.advance
  split
  · exact ⟨steps, h⟩
  · obtain ⟨done, hsettled⟩ := h.settle
    split
    · next event rest hrest =>
      have hcalled : HasDone t (done ++ [.callback event])
          { r.settle with session := (r.session.callback event).1, rest } := by
        refine ⟨?_, ?_, fun _ => ⟨_, _, rfl⟩⟩
        · rw [hsettled.split, hrest, List.append_assoc]
          rfl
        · simp only [hsettled.properties, Trace.propertiesAfter, List.foldl_append]
          rfl
      exact hcalled.settle
    · exact ⟨done, hsettled⟩

/-- Something happens that is not the build's doing. -/
theorem interrupt (h : HasDone t steps r) (event : SessionEvent)
    (hevent : ∀ called, event = .build called → called = .buildFinished) :
    ∃ done, HasDone t done (r.interrupt event).1 := by
  have hblocked (hnext : (r.session.step event).1.status.blocksBuild = true) :
      r.session.status.blocksBuild = true := by
    by_contra hfree
    rw [Bool.not_eq_true] at hfree
    rw [Session.blocksBuild_of_step hfree hevent] at hnext
    cases hnext
  exact (h.withSession hblocked).settle

/-- Whatever the turn, it does some more of the trace or nothing. -/
theorem turn (h : HasDone t steps r) (turn : Turn) : ∃ done, HasDone t done (r.turn turn).1 := by
  cases turn with
  | advance => exact h.advance
  | attach => exact h.interrupt .attached nofun
  | abandon => exact h.interrupt .abandoned nofun
  | command c => exact h.interrupt (.command r.properties.all r.properties.user c) nofun
  | disconnect => exact h.interrupt .disconnected nofun
  | giveUp => exact h.interrupt (.build .buildFinished) fun _ heq => by cases heq; rfl

/-- Any turns leave a replay so. -/
theorem play (h : HasDone t steps r) (turns : List Turn) :
    ∃ done, HasDone t done (r.play turns).1 := by
  induction turns generalizing steps r with
  | nil => exact ⟨steps, h⟩
  | cons turn turns ih =>
    obtain ⟨done, hnext⟩ := h.turn turn
    exact ih hnext

end HasDone

end DebuggedReplay

/-! ## The tables along a replay -/

/-- What holds of the properties along the replay of a trace. -/
structure Trace.TablesAlong (t : Trace) : Prop where
  /-- At a callback a name is worth what the user says, else what the trace says, else what the
  first task says that defines it, in the order of the walk and if the start of that task has
  returned. Else it is worth nothing. -/
  all : ∀ before event later, t.replay = before ++ .callback event :: later → ∀ name,
    (t.propertiesAfter before).all.get? name =
      ((t.userProperties.get? name).or (t.properties.get? name)).or
        (t.definedByTask? (callbacksOf before) name)
  /-- The user's table is that of the trace throughout. -/
  user : ∀ before later, t.replay = before ++ later →
    (t.propertiesAfter before).user = t.userProperties
  /-- The build starts with what the user and the trace say. -/
  baseline : ∀ baseline, .buildStarted baseline ∈ t.events → ∀ name,
    baseline.get? name = (t.userProperties.get? name).or (t.properties.get? name)
  /-- The start of a task has not returned when it is called back, so that what the task defines is
  not to be seen there. -/
  notAtStart : ∀ n ∈ t.nodes, ∀ before later,
    t.replay = before ++ .callback (.taskStarted n.frame) :: later →
      .taskStarted n.frame ∉ callbacksOf before
  /-- It has returned at every callback of a task nested in this one, and at its finish. -/
  inside : ∀ n ∈ t.nodes, ∀ before event later, t.replay = before ++ .callback event :: later →
    (event = .taskFinished n.frame ∨
      ∃ m ∈ n.nested, event = .taskStarted m.frame ∨ event = .taskFinished m.frame) →
    .taskStarted n.frame ∈ callbacksOf before
  /-- While a session blocks the build, its client reads the tables as they are at the callback in
  which the build is. -/
  read : ∀ settings turns,
    ((DebuggedReplay.ofTrace settings t).play turns).1.session.status.blocksBuild = true →
      ∃ before event,
        t.replay = before ++ .callback event ::
          ((DebuggedReplay.ofTrace settings t).play turns).1.rest ∧
        ((DebuggedReplay.ofTrace settings t).play turns).1.properties = t.propertiesAfter before

/-- Along a replay the first definition of a name counts, from the return of its task's start on. -/
theorem Trace.tables_along (t : Trace) : t.TablesAlong where
  all _ _ _ h name := Trace.get?_all_after h name
  user before _ _ := t.user_after before
  baseline := by
    intro baseline hmem name
    -- The start of the build comes first, and is the only one.
    have hnone := (TraceTarget.targetCallbacks 0 t.targets).not_isOfBuild
    rw [t.events_eq_targets, List.mem_append, List.mem_append, List.mem_singleton,
      List.mem_singleton] at hmem
    obtain (heq | hmiddle) | heq := hmem
    · cases heq
      exact t.initialProperties_eq.2 name
    · cases hnone _ hmiddle
    · cases heq
  notAtStart := by
    intro n _ before later h
    have hevents : t.events = callbacksOf before ++ .taskStarted n.frame :: callbacksOf later := by
      rw [Trace.events_eq, h, callbacksOf_append, callbacksOf_callback]
    exact fun hmem => Trace.started_apart hevents hmem List.mem_cons_self
  inside := by
    intro n hn before event later h hinside
    have hevents : t.events = callbacksOf before ++ event :: callbacksOf later := by
      rw [Trace.events_eq, h, callbacksOf_append, callbacksOf_callback]
    exact Trace.start_mem hn hevents hinside
  read := by
    intro settings turns hblocked
    -- Nothing is defined while the build is blocked, so that the last step was the callback.
    obtain ⟨done, hdone⟩ := (DebuggedReplay.HasDone.ofTrace settings t).play turns
    obtain ⟨before, event, rfl⟩ := hdone.blocked hblocked
    refine ⟨before, event, ?_, ?_⟩
    · rw [hdone.split, List.append_assoc]
      rfl
    · rw [hdone.properties]
      simp [Trace.propertiesAfter, ReplayStep.apply]

end BuildStepper
