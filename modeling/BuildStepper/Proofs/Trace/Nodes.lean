import BuildStepper.CallStack
import BuildStepper.Trace.Replay
import Mathlib.Data.List.Nodup

/-!
# The tasks of a trace and their place in its replay

Every execution of a task in a trace is a node (`TaskNode`): the task with its target, the number of
its frame, and the frames of the tasks that it is nested in. `Trace.nodes` lists them depth first,
the way the replay visits them, and the theorems here say where the callbacks of a node stand among
those of the whole build.

`Trace.events_eq_append` is the main one. The callbacks of a node are the start of its frame, those
of the tasks nested in it, and the finish of its frame; what comes before them leaves just the
ancestors of the node in execution; and its start is called back nowhere else. The last part holds
because frames are numbered in the order of their starts (`TraceTask.numbers`), whatever the tasks
are called.

A task and a list of tasks are taken together throughout, one case for each constructor.
-/

namespace BuildStepper

/-- The callback that a step makes, if it makes one. -/
def ReplayStep.callback? : ReplayStep → Option BuildEvent
  | .callback event => some event
  | .define _ _ => none

/-- The callbacks among steps, in order. -/
def callbacksOf (steps : List ReplayStep) : List BuildEvent :=
  steps.filterMap ReplayStep.callback?

/-- Without steps nothing is called back. -/
@[simp] theorem callbacksOf_nil : callbacksOf [] = [] := rfl

/-- A callback comes before those of the later steps. -/
@[simp] theorem callbacksOf_callback (event : BuildEvent) (steps : List ReplayStep) :
    callbacksOf (.callback event :: steps) = event :: callbacksOf steps := rfl

/-- Callbacks can be collected piece by piece. -/
@[simp] theorem callbacksOf_append (first later : List ReplayStep) :
    callbacksOf (first ++ later) = callbacksOf first ++ callbacksOf later :=
  List.filterMap_append

/-- Definitions are no callbacks. -/
@[simp] theorem callbacksOf_define (defines : List (String × String)) :
    callbacksOf (defines.map fun e => .define e.1 e.2) = [] := by
  unfold callbacksOf
  rw [List.filterMap_map, List.filterMap_eq_nil_iff]
  exact fun _ _ => rfl

/-- The events of a trace are the callbacks of its replay. -/
theorem Trace.events_eq (t : Trace) : t.events = callbacksOf t.replay := rfl

/-- The frame that a callback starts. -/
def BuildEvent.started? : BuildEvent → Option FrameId
  | .taskStarted f => some f.id
  | _ => none

/-- The frame that a callback finishes. -/
def BuildEvent.finished? : BuildEvent → Option FrameId
  | .taskFinished f => some f.id
  | _ => none

/-- The tasks in execution after a callback. -/
def CallStack.track (stack : CallStack) : BuildEvent → CallStack
  | .taskStarted f => stack.push f
  | .taskFinished f => stack.pop f.id
  | _ => stack

/-- One execution of a task in a trace. -/
structure TaskNode where
  /-- The target it runs under. -/
  target : TraceTarget
  task : TraceTask
  /-- The number of its frame. -/
  number : Nat
  /-- The frames of the tasks that it is nested in, innermost first. -/
  ancestors : List CallFrame

/-- The identity of the frame of a node. -/
def TaskNode.id (n : TaskNode) : FrameId :=
  ⟨n.number⟩

/-- The frame of a node. -/
def TaskNode.frame (n : TaskNode) : CallFrame :=
  ⟨n.id, n.target.name, n.task.name, n.task.file.getD n.target.file, n.task.line⟩

mutual

/-- A task and those inside it, depth first, where `next` is the number of its frame. -/
def TraceTask.nodes (target : TraceTarget) (ancestors : List CallFrame) (next : Nat) :
    TraceTask → List TaskNode
  | .mk name file line defines tasks =>
    let node : TaskNode := ⟨target, .mk name file line defines tasks, next, ancestors⟩
    node :: TraceTask.nodesAll target (node.frame :: ancestors) (next + 1) tasks

/-- The nodes of tasks one after the other. -/
def TraceTask.nodesAll (target : TraceTarget) (ancestors : List CallFrame) (next : Nat) :
    List TraceTask → List TaskNode
  | [] => []
  | task :: tasks =>
    task.nodes target ancestors next ++
      TraceTask.nodesAll target ancestors (task.steps target next).2 tasks

end

/-- The nodes of targets one after the other. -/
def TraceTarget.nodesAll (next : Nat) : List TraceTarget → List TaskNode
  | [] => []
  | t :: ts => TraceTask.nodesAll t [] next t.tasks ++ TraceTarget.nodesAll (t.steps next).2 ts

/-- The nodes of a trace. -/
def Trace.nodes (t : Trace) : List TaskNode :=
  TraceTarget.nodesAll 0 t.targets

namespace TaskNode

/-- The nodes nested in a node, at any depth. -/
def nested (n : TaskNode) : List TaskNode :=
  TraceTask.nodesAll n.target (n.frame :: n.ancestors) (n.number + 1) n.task.tasks

/-- The callbacks between the start and the finish of a node. -/
def inner (n : TaskNode) : List BuildEvent :=
  callbacksOf (TraceTask.stepsAll n.target (n.number + 1) n.task.tasks).1

/-- All callbacks of a node. -/
def events (n : TaskNode) : List BuildEvent :=
  .taskStarted n.frame :: (n.inner ++ [.taskFinished n.frame])

end TaskNode

/-- Tasks are replayed one after the other, each with the frame numbers behind those before it. -/
theorem TraceTask.stepsAll_cons (target : TraceTarget) (next : Nat) (task : TraceTask)
    (tasks : List TraceTask) :
    TraceTask.stepsAll target next (task :: tasks) =
      ((task.steps target next).1 ++
          (TraceTask.stepsAll target (task.steps target next).2 tasks).1,
        (TraceTask.stepsAll target (task.steps target next).2 tasks).2) := rfl

/-- The callbacks of the steps of a task are those of its node. -/
theorem TraceTask.callbacksOf_steps (target : TraceTarget) (ancestors : List CallFrame) (next : Nat)
    (task : TraceTask) :
    callbacksOf (task.steps target next).1 = TaskNode.events ⟨target, task, next, ancestors⟩ := by
  obtain ⟨name, file, line, defines, tasks⟩ := task
  simp only [TraceTask.steps, callbacksOf_append, callbacksOf_callback, callbacksOf_define,
    callbacksOf_nil, List.cons_append]
  rfl

/-! ## Numbers -/

mutual

/-- The nodes of a task use up the numbers from its own to the next one that is free. -/
theorem TraceTask.numbers (target : TraceTarget) (ancestors : List CallFrame) (next : Nat) :
    (task : TraceTask) → ∃ k, (task.steps target next).2 = next + k ∧
      (task.nodes target ancestors next).map TaskNode.number = List.range' next k
  | .mk name file line defines tasks => by
    obtain ⟨k, hnext, hnumbers⟩ := TraceTask.numbersAll target
      (TaskNode.frame ⟨target, .mk name file line defines tasks, next, ancestors⟩ :: ancestors)
      (next + 1) tasks
    refine ⟨k + 1, ?_, ?_⟩
    · rw [TraceTask.steps, hnext]
      omega
    · rw [TraceTask.nodes, List.map_cons, hnumbers, List.range'_succ]

/-- The same for tasks one after the other. -/
theorem TraceTask.numbersAll (target : TraceTarget) (ancestors : List CallFrame) (next : Nat) :
    (tasks : List TraceTask) → ∃ k, (TraceTask.stepsAll target next tasks).2 = next + k ∧
      (TraceTask.nodesAll target ancestors next tasks).map TaskNode.number = List.range' next k
  | [] => ⟨0, rfl, rfl⟩
  | task :: tasks => by
    obtain ⟨k, hfirst, hnumbers⟩ := TraceTask.numbers target ancestors next task
    obtain ⟨m, hlater, hothers⟩ := TraceTask.numbersAll target ancestors (next + k) tasks
    refine ⟨k + m, ?_, ?_⟩
    · rw [TraceTask.stepsAll_cons, hfirst, hlater]
      omega
    · rw [TraceTask.nodesAll, List.map_append, hnumbers, hfirst, hothers, List.range'_append_1]

end

/-- No two nodes of a trace have the same number. -/
theorem Trace.nodup_numbers (t : Trace) : (t.nodes.map TaskNode.number).Nodup := by
  have hrange (next : Nat) (targets : List TraceTarget) :
      ∃ k, (TraceTarget.nodesAll next targets).map TaskNode.number = List.range' next k := by
    induction targets generalizing next with
    | nil => exact ⟨0, rfl⟩
    | cons target targets ih =>
      obtain ⟨k, hnext, hnumbers⟩ := TraceTask.numbersAll target [] next target.tasks
      obtain ⟨m, hothers⟩ := ih (next + k)
      have hfree : (target.steps next).2 = next + k := hnext
      refine ⟨k + m, ?_⟩
      rw [TraceTarget.nodesAll, List.map_append, hnumbers, hfree, hothers, List.range'_append_1]
  obtain ⟨k, hnumbers⟩ := hrange 0 t.targets
  unfold Trace.nodes
  rw [hnumbers]
  exact List.nodup_range'

/-- What is nested in a node has a greater number. -/
theorem TaskNode.number_lt_of_nested {n m : TaskNode} (h : m ∈ n.nested) : n.number < m.number := by
  obtain ⟨k, -, hnumbers⟩ := TraceTask.numbersAll n.target (n.frame :: n.ancestors) (n.number + 1)
    n.task.tasks
  have hmem : m.number ∈ n.nested.map TaskNode.number := List.mem_map_of_mem h
  unfold TaskNode.nested at hmem
  rw [hnumbers, List.mem_range'_1] at hmem
  omega

/-! ## Callbacks -/

mutual

/-- Each callback of a task is the start or the finish of one of its nodes. -/
theorem TraceTask.mem_callbacks {target : TraceTarget} {ancestors : List CallFrame} {next : Nat}
    {event : BuildEvent} : {task : TraceTask} → event ∈ callbacksOf (task.steps target next).1 →
      ∃ m ∈ task.nodes target ancestors next,
        event = .taskStarted m.frame ∨ event = .taskFinished m.frame
  | .mk name file line defines tasks, hevent => by
    rw [TraceTask.callbacksOf_steps target ancestors, TaskNode.events, List.mem_cons,
      List.mem_append, List.mem_singleton] at hevent
    rw [TraceTask.nodes]
    obtain hstart | hinner | hfinish := hevent
    · exact ⟨_, List.mem_cons_self, .inl hstart⟩
    · obtain ⟨m, hm, heq⟩ := TraceTask.mem_callbacksAll hinner
      exact ⟨m, List.mem_cons_of_mem _ hm, heq⟩
    · exact ⟨_, List.mem_cons_self, .inr hfinish⟩

/-- The same for tasks one after the other. -/
theorem TraceTask.mem_callbacksAll {target : TraceTarget} {ancestors : List CallFrame} {next : Nat}
    {event : BuildEvent} : {tasks : List TraceTask} →
      event ∈ callbacksOf (TraceTask.stepsAll target next tasks).1 →
      ∃ m ∈ TraceTask.nodesAll target ancestors next tasks,
        event = .taskStarted m.frame ∨ event = .taskFinished m.frame
  | [], hevent => by cases hevent
  | task :: tasks, hevent => by
    rw [TraceTask.stepsAll_cons, callbacksOf_append, List.mem_append] at hevent
    rw [TraceTask.nodesAll]
    obtain hfirst | hlater := hevent
    · obtain ⟨m, hm, heq⟩ := TraceTask.mem_callbacks hfirst
      exact ⟨m, List.mem_append_left _ hm, heq⟩
    · obtain ⟨m, hm, heq⟩ := TraceTask.mem_callbacksAll hlater
      exact ⟨m, List.mem_append_right _ hm, heq⟩

end

/-- Each callback inside a node is the start or the finish of a node nested in it. -/
theorem TaskNode.mem_inner {n : TaskNode} {event : BuildEvent} (h : event ∈ n.inner) :
    ∃ m ∈ n.nested, event = .taskStarted m.frame ∨ event = .taskFinished m.frame :=
  TraceTask.mem_callbacksAll h

mutual

/-- The frames that a task starts are those of its nodes, in their order. -/
theorem TraceTask.started_callbacks (target : TraceTarget) (ancestors : List CallFrame)
    (next : Nat) : (task : TraceTask) →
      (callbacksOf (task.steps target next).1).filterMap BuildEvent.started? =
        (task.nodes target ancestors next).map TaskNode.id
  | .mk name file line defines tasks => by
    have hinner := TraceTask.started_callbacksAll target
      (TaskNode.frame ⟨target, .mk name file line defines tasks, next, ancestors⟩ :: ancestors)
      (next + 1) tasks
    rw [TraceTask.callbacksOf_steps target ancestors, TraceTask.nodes, List.map_cons, ← hinner]
    simp [TaskNode.events, TaskNode.inner, BuildEvent.started?, TraceTask.tasks, TaskNode.frame]

/-- The same for tasks one after the other. -/
theorem TraceTask.started_callbacksAll (target : TraceTarget) (ancestors : List CallFrame)
    (next : Nat) : (tasks : List TraceTask) →
      (callbacksOf (TraceTask.stepsAll target next tasks).1).filterMap BuildEvent.started? =
        (TraceTask.nodesAll target ancestors next tasks).map TaskNode.id
  | [] => rfl
  | task :: tasks => by
    rw [TraceTask.stepsAll_cons, callbacksOf_append, List.filterMap_append, TraceTask.nodesAll,
      List.map_append, TraceTask.started_callbacks target ancestors next task,
      TraceTask.started_callbacksAll target ancestors _ tasks]

end

mutual

/-- The frames that a task finishes are those of its nodes, in some order. -/
theorem TraceTask.finished_callbacks (target : TraceTarget) (ancestors : List CallFrame)
    (next : Nat) : (task : TraceTask) →
      ((callbacksOf (task.steps target next).1).filterMap BuildEvent.finished?).Perm
        ((task.nodes target ancestors next).map TaskNode.id)
  | .mk name file line defines tasks => by
    have hinner := TraceTask.finished_callbacksAll target
      (TaskNode.frame ⟨target, .mk name file line defines tasks, next, ancestors⟩ :: ancestors)
      (next + 1) tasks
    have hown (n : TaskNode) : n.events.filterMap BuildEvent.finished? =
        n.inner.filterMap BuildEvent.finished? ++ [n.id] := by
      simp [TaskNode.events, BuildEvent.finished?, List.filterMap_cons, TaskNode.frame]
    rw [TraceTask.callbacksOf_steps target ancestors, hown, TraceTask.nodes, List.map_cons]
    -- The frame that starts first finishes last.
    exact (List.perm_append_singleton _ _).trans (hinner.cons _)

/-- The same for tasks one after the other. -/
theorem TraceTask.finished_callbacksAll (target : TraceTarget) (ancestors : List CallFrame)
    (next : Nat) : (tasks : List TraceTask) →
      ((callbacksOf (TraceTask.stepsAll target next tasks).1).filterMap BuildEvent.finished?).Perm
        ((TraceTask.nodesAll target ancestors next tasks).map TaskNode.id)
  | [] => .refl _
  | task :: tasks => by
    rw [TraceTask.stepsAll_cons, callbacksOf_append, List.filterMap_append, TraceTask.nodesAll,
      List.map_append]
    exact (TraceTask.finished_callbacks target ancestors next task).append
      (TraceTask.finished_callbacksAll target ancestors _ tasks)

end

mutual

/-- A task leaves the stack as it finds it. -/
theorem TraceTask.track_callbacks (target : TraceTarget) (next : Nat) (stack : CallStack) :
    (task : TraceTask) →
      (callbacksOf (task.steps target next).1).foldl CallStack.track stack = stack
  | .mk name file line defines tasks => by
    rw [TraceTask.callbacksOf_steps target [], TaskNode.events, List.foldl_cons, List.foldl_append,
      TaskNode.inner, TraceTask.tasks, TraceTask.track_callbacksAll]
    exact CallStack.pop_push_self stack _

/-- The same for tasks one after the other. -/
theorem TraceTask.track_callbacksAll (target : TraceTarget) (next : Nat) (stack : CallStack) :
    (tasks : List TraceTask) →
      (callbacksOf (TraceTask.stepsAll target next tasks).1).foldl CallStack.track stack = stack
  | [] => rfl
  | task :: tasks => by
    rw [TraceTask.stepsAll_cons, callbacksOf_append, List.foldl_append,
      TraceTask.track_callbacks target next stack task,
      TraceTask.track_callbacksAll target _ stack tasks]

end

/-! ## The place of a node -/

/-- The callbacks of a node stand somewhere among these, and what comes before them leaves its
ancestors in execution. -/
def TaskNode.IsAmong (n : TaskNode) (stack : CallStack) (events : List BuildEvent) : Prop :=
  ∃ before later, events = before ++ n.events ++ later ∧
    before.foldl CallStack.track stack = ⟨n.ancestors⟩

/-- More callbacks may come before and after, if the ones before leave the stack as it was. -/
theorem TaskNode.IsAmong.widen {n : TaskNode} {stack start : CallStack} {events : List BuildEvent}
    (h : n.IsAmong stack events) (before : List BuildEvent)
    (hbefore : before.foldl CallStack.track start = stack) (later : List BuildEvent) :
    n.IsAmong start (before ++ events ++ later) := by
  obtain ⟨first, last, rfl, hstack⟩ := h
  refine ⟨before ++ first, last ++ later, by simp, ?_⟩
  rw [List.foldl_append, hbefore, hstack]

mutual

/-- The nodes of a task stand among its callbacks. -/
theorem TraceTask.isAmong_callbacks {target : TraceTarget} {ancestors : List CallFrame} {next : Nat}
    {n : TaskNode} : {task : TraceTask} → n ∈ task.nodes target ancestors next →
      n.IsAmong ⟨ancestors⟩ (callbacksOf (task.steps target next).1)
  | .mk name file line defines tasks, hmem => by
    rw [TraceTask.nodes, List.mem_cons] at hmem
    rw [TraceTask.callbacksOf_steps target ancestors]
    obtain rfl | hnested := hmem
    · exact ⟨[], [], by simp, rfl⟩
    · have hinner := TraceTask.isAmong_callbacksAll hnested
      exact hinner.widen [.taskStarted _] rfl [.taskFinished _]

/-- The same for tasks one after the other. -/
theorem TraceTask.isAmong_callbacksAll {target : TraceTarget} {ancestors : List CallFrame}
    {next : Nat} {n : TaskNode} : {tasks : List TraceTask} →
      n ∈ TraceTask.nodesAll target ancestors next tasks →
      n.IsAmong ⟨ancestors⟩ (callbacksOf (TraceTask.stepsAll target next tasks).1)
  | [], hmem => by cases hmem
  | task :: tasks, hmem => by
    rw [TraceTask.nodesAll, List.mem_append] at hmem
    rw [TraceTask.stepsAll_cons, callbacksOf_append]
    obtain hfirst | hlater := hmem
    · exact (TraceTask.isAmong_callbacks hfirst).widen [] rfl _
    · -- The tasks before it leave the stack as it was.
      have hothers := (TraceTask.isAmong_callbacksAll hlater).widen _
        (TraceTask.track_callbacks target next ⟨ancestors⟩ task) []
      rwa [List.append_nil] at hothers

end

/-- The callbacks of a target are its start, those of its tasks, and its finish. -/
theorem TraceTarget.callbacksOf_stepsAll (next : Nat) (t : TraceTarget) (ts : List TraceTarget) :
    callbacksOf (TraceTarget.stepsAll next (t :: ts)) =
      [.targetStarted t.target] ++ callbacksOf (TraceTask.stepsAll t next t.tasks).1 ++
        (.targetFinished t.target :: callbacksOf (TraceTarget.stepsAll (t.steps next).2 ts)) := by
  have hsteps : TraceTarget.stepsAll next (t :: ts) =
      .callback (.targetStarted t.target) :: (TraceTask.stepsAll t next t.tasks).1 ++
        [.callback (.targetFinished t.target)] ++ TraceTarget.stepsAll (t.steps next).2 ts := rfl
  rw [hsteps]
  simp

/-- The frames that targets start are those of their nodes, in their order. -/
theorem TraceTarget.started_callbacks (next : Nat) (ts : List TraceTarget) :
    (callbacksOf (TraceTarget.stepsAll next ts)).filterMap BuildEvent.started? =
      (TraceTarget.nodesAll next ts).map TaskNode.id := by
  induction ts generalizing next with
  | nil => rfl
  | cons t ts ih =>
    have htasks := TraceTask.started_callbacksAll t [] next t.tasks
    rw [TraceTarget.callbacksOf_stepsAll, TraceTarget.nodesAll, List.map_append, ← htasks, ← ih]
    simp [BuildEvent.started?, List.filterMap_cons]

/-- The frames that targets finish are those of their nodes, in some order. -/
theorem TraceTarget.finished_callbacks (next : Nat) (ts : List TraceTarget) :
    ((callbacksOf (TraceTarget.stepsAll next ts)).filterMap BuildEvent.finished?).Perm
      ((TraceTarget.nodesAll next ts).map TaskNode.id) := by
  induction ts generalizing next with
  | nil => exact .refl _
  | cons t ts ih =>
    have htasks := TraceTask.finished_callbacksAll t [] next t.tasks
    rw [TraceTarget.callbacksOf_stepsAll, TraceTarget.nodesAll, List.map_append]
    simpa [BuildEvent.finished?, List.filterMap_cons] using htasks.append (ih (t.steps next).2)

/-- The nodes of targets stand among their callbacks. -/
theorem TraceTarget.isAmong_callbacks {next : Nat} {ts : List TraceTarget} {n : TaskNode}
    (h : n ∈ TraceTarget.nodesAll next ts) :
    n.IsAmong {} (callbacksOf (TraceTarget.stepsAll next ts)) := by
  induction ts generalizing next with
  | nil => cases h
  | cons t ts ih =>
    rw [TraceTarget.nodesAll, List.mem_append] at h
    rw [TraceTarget.callbacksOf_stepsAll]
    obtain hhere | hlater := h
    · exact (TraceTask.isAmong_callbacksAll hhere).widen [_] rfl _
    · -- The targets before it have run to their ends, which leaves nothing in execution.
      have hstack : List.foldl CallStack.track {}
          ([.targetStarted t.target] ++ callbacksOf (TraceTask.stepsAll t next t.tasks).1 ++
            [.targetFinished t.target]) = {} := by
        rw [List.foldl_append, List.foldl_append]
        exact TraceTask.track_callbacksAll t next {} t.tasks
      have hothers := (ih hlater).widen _ hstack []
      simpa using hothers

/-- The callbacks of a build are its start, those of its targets, and its end. -/
theorem Trace.events_eq_targets (t : Trace) :
    t.events = [.buildStarted t.initialProperties.all] ++
      callbacksOf (TraceTarget.stepsAll 0 t.targets) ++ [.buildFinished] := by
  rw [Trace.events_eq]
  unfold Trace.replay
  simp

/-- No two nodes of a trace have the same frame. -/
theorem Trace.nodup_ids (t : Trace) : (t.nodes.map TaskNode.id).Nodup := by
  have hnumbers : (t.nodes.map TaskNode.id).map FrameId.index = t.nodes.map TaskNode.number := by
    rw [List.map_map]
    rfl
  refine List.Nodup.of_map FrameId.index ?_
  rw [hnumbers]
  exact t.nodup_numbers

/-- No frame is started twice. -/
theorem Trace.nodup_started (t : Trace) : (t.events.filterMap BuildEvent.started?).Nodup := by
  have hstarted : t.events.filterMap BuildEvent.started? = t.nodes.map TaskNode.id := by
    rw [Trace.events_eq_targets, List.filterMap_append, List.filterMap_append,
      TraceTarget.started_callbacks]
    simp [BuildEvent.started?, Trace.nodes, List.filterMap_cons]
  rw [hstarted]
  exact t.nodup_ids

/-- No frame is finished twice. -/
theorem Trace.nodup_finished (t : Trace) : (t.events.filterMap BuildEvent.finished?).Nodup := by
  have hfinished : (t.events.filterMap BuildEvent.finished?).Perm (t.nodes.map TaskNode.id) := by
    rw [Trace.events_eq_targets, List.filterMap_append, List.filterMap_append]
    simpa [BuildEvent.finished?, Trace.nodes, List.filterMap_cons] using
      TraceTarget.finished_callbacks 0 t.targets
  exact hfinished.nodup_iff.2 t.nodup_ids

/-- Where the callbacks of a build are cut in two, no frame is started on both sides. -/
theorem Trace.started_apart {t : Trace} {before later : List BuildEvent}
    (h : t.events = before ++ later) {f : CallFrame} (hbefore : .taskStarted f ∈ before) :
    .taskStarted f ∉ later := by
  intro hlater
  have hnodup := t.nodup_started
  rw [h, List.filterMap_append] at hnodup
  exact (List.nodup_append.1 hnodup).2.2 f.id (List.mem_filterMap.2 ⟨_, hbefore, rfl⟩) f.id
    (List.mem_filterMap.2 ⟨_, hlater, rfl⟩) rfl

/-- Nor is one finished on both sides. -/
theorem Trace.finished_apart {t : Trace} {before later : List BuildEvent}
    (h : t.events = before ++ later) {f : CallFrame}
    (hbefore : f.id ∈ before.filterMap BuildEvent.finished?) : .taskFinished f ∉ later := by
  intro hlater
  have hnodup := t.nodup_finished
  rw [h, List.filterMap_append] at hnodup
  exact (List.nodup_append.1 hnodup).2.2 f.id hbefore f.id
    (List.mem_filterMap.2 ⟨_, hlater, rfl⟩) rfl

/-- The callbacks of a build around a node. Before its start just its ancestors are in execution and
it has not finished, and its start is called back only there. -/
theorem Trace.events_eq_append {t : Trace} {n : TaskNode} (h : n ∈ t.nodes) :
    ∃ before later,
      t.events = before ++ .taskStarted n.frame :: (n.inner ++ .taskFinished n.frame :: later) ∧
      before.foldl CallStack.track {} = ⟨n.ancestors⟩ ∧
      n.id ∉ before.filterMap BuildEvent.finished? ∧
      .taskStarted n.frame ∉ before ∧
      .taskStarted n.frame ∉ n.inner ++ .taskFinished n.frame :: later := by
  have hamong : n.IsAmong {} t.events := by
    rw [Trace.events_eq_targets]
    exact (TraceTarget.isAmong_callbacks h).widen _ rfl _
  obtain ⟨before, later, hevents, hstack⟩ := hamong
  have hsplit : t.events =
      before ++ .taskStarted n.frame :: (n.inner ++ .taskFinished n.frame :: later) := by
    rw [hevents]
    simp [TaskNode.events]
  -- Cut behind the start, so that the start itself is among what came before.
  have hbehind : t.events =
      (before ++ [.taskStarted n.frame]) ++ (n.inner ++ .taskFinished n.frame :: later) := by
    rw [hsplit, List.append_assoc]
    rfl
  refine ⟨before, later, hsplit, hstack, fun hmem => ?_, fun hmem => ?_, ?_⟩
  · exact Trace.finished_apart (f := n.frame) hsplit hmem (by simp)
  · exact Trace.started_apart hsplit hmem List.mem_cons_self
  · exact Trace.started_apart hbehind (by simp)

end BuildStepper
