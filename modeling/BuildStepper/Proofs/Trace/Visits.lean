import BuildStepper.Proofs.Session.Transitions
import BuildStepper.Proofs.Trace.Nodes

/-!
# The visits of a trace

A walk through the tasks of a trace, depth first, visits every task twice: when it starts, and when
everything inside it is done (`Trace.visits`). The callbacks of a replay are these visits
(`Trace.map_event_visits`), with those of the targets and of the build around them.

At each visit a session that has been told all callbacks so far reports the tasks that contain the
place (`Visit.report`): at the start of a task itself and its ancestors, at its finish the ancestors
alone, and where there are none the target. `reportsAlong` collects what is reported along
callbacks, and `Trace.reportsAlong_events` finds these reports in the replay. A task leaves the
tasks in execution as it finds them, which carries the induction from one task to the next.
-/

namespace BuildStepper

open Wire (FrameRecord)

/-- Whether a callback is the start or the finish of a task. -/
def BuildEvent.isOfTask : BuildEvent → Bool
  | .taskStarted _ | .taskFinished _ => true
  | _ => false

/-- One visit of a walk through tasks. -/
inductive Visit where
  | start (node : TaskNode)
  | finish (node : TaskNode)

namespace Visit

/-- The callback of a visit. -/
def event : Visit → BuildEvent
  | start n => .taskStarted n.frame
  | finish n => .taskFinished n.frame

/-- What is reported of the stack at a visit. -/
def report : Visit → List FrameRecord
  | start n => (n.frame :: n.ancestors).map CallFrame.record
  | finish n =>
    if n.ancestors = [] then [n.target.target.record] else n.ancestors.map CallFrame.record

end Visit

mutual

/-- The visits of a task, with those of the tasks inside it between its own. -/
def TraceTask.visits (target : TraceTarget) (ancestors : List CallFrame) (next : Nat) :
    TraceTask → List Visit
  | .mk name file line defines tasks =>
    let node : TaskNode := ⟨target, .mk name file line defines tasks, next, ancestors⟩
    .start node ::
      (TraceTask.visitsAll target (node.frame :: ancestors) (next + 1) tasks ++ [.finish node])

/-- The visits of tasks one after the other. -/
def TraceTask.visitsAll (target : TraceTarget) (ancestors : List CallFrame) (next : Nat) :
    List TraceTask → List Visit
  | [] => []
  | task :: tasks =>
    task.visits target ancestors next ++
      TraceTask.visitsAll target ancestors (task.steps target next).2 tasks

end

/-- The visits of targets one after the other. -/
def TraceTarget.visitsAll (next : Nat) : List TraceTarget → List Visit
  | [] => []
  | t :: ts => TraceTask.visitsAll t [] next t.tasks ++ TraceTarget.visitsAll (t.steps next).2 ts

/-- The visits of a trace. -/
def Trace.visits (t : Trace) : List Visit :=
  TraceTarget.visitsAll 0 t.targets

/-! ## How many there are -/

mutual

/-- A task is visited twice, and so is every task inside it. -/
theorem TraceTask.length_visits (target : TraceTarget) (ancestors : List CallFrame) (next : Nat) :
    (task : TraceTask) → (task.visits target ancestors next).length =
      2 * (task.nodes target ancestors next).length
  | .mk name file line defines tasks => by
    simp only [TraceTask.visits, TraceTask.nodes, List.length_cons, List.length_append,
      List.length_nil, TraceTask.length_visitsAll]
    omega

/-- The same for tasks one after the other. -/
theorem TraceTask.length_visitsAll (target : TraceTarget) (ancestors : List CallFrame)
    (next : Nat) : (tasks : List TraceTask) →
      (TraceTask.visitsAll target ancestors next tasks).length =
        2 * (TraceTask.nodesAll target ancestors next tasks).length
  | [] => rfl
  | task :: tasks => by
    rw [TraceTask.visitsAll, TraceTask.nodesAll, List.length_append, List.length_append,
      TraceTask.length_visits, TraceTask.length_visitsAll]
    omega

end

/-- There are two visits for each task of a trace, at whatever depth. -/
theorem Trace.length_visits (t : Trace) : t.visits.length = 2 * t.nodes.length := by
  have htargets (next : Nat) (ts : List TraceTarget) : (TraceTarget.visitsAll next ts).length =
      2 * (TraceTarget.nodesAll next ts).length := by
    induction ts generalizing next with
    | nil => rfl
    | cons target ts ih =>
      rw [TraceTarget.visitsAll, TraceTarget.nodesAll, List.length_append, List.length_append,
        TraceTask.length_visitsAll, ih]
      omega
  exact htargets 0 t.targets

/-! ## The callbacks -/

mutual

/-- The callbacks of a task are those of its visits. -/
theorem TraceTask.map_event_visits (target : TraceTarget) (ancestors : List CallFrame)
    (next : Nat) : (task : TraceTask) →
      (task.visits target ancestors next).map Visit.event =
        callbacksOf (task.steps target next).1
  | .mk name file line defines tasks => by
    rw [TraceTask.callbacksOf_steps target ancestors, TraceTask.visits, List.map_cons,
      List.map_append, TraceTask.map_event_visitsAll]
    rfl

/-- The same for tasks one after the other. -/
theorem TraceTask.map_event_visitsAll (target : TraceTarget) (ancestors : List CallFrame)
    (next : Nat) : (tasks : List TraceTask) →
      (TraceTask.visitsAll target ancestors next tasks).map Visit.event =
        callbacksOf (TraceTask.stepsAll target next tasks).1
  | [] => rfl
  | task :: tasks => by
    rw [TraceTask.visitsAll, List.map_append, TraceTask.map_event_visits,
      TraceTask.map_event_visitsAll, TraceTask.stepsAll_cons, callbacksOf_append]

end

/-- All visits are of tasks. -/
theorem filter_isOfTask_map_event (visits : List Visit) :
    (visits.map Visit.event).filter BuildEvent.isOfTask = visits.map Visit.event := by
  rw [List.filter_eq_self]
  intro event hevent
  obtain ⟨v, -, rfl⟩ := List.mem_map.1 hevent
  cases v <;> rfl

/-- The starts and finishes of tasks in a replay are called back in the order of the visits. -/
theorem Trace.map_event_visits (t : Trace) :
    t.visits.map Visit.event = t.events.filter BuildEvent.isOfTask := by
  have htargets (next : Nat) (ts : List TraceTarget) :
      (TraceTarget.visitsAll next ts).map Visit.event =
        (callbacksOf (TraceTarget.stepsAll next ts)).filter BuildEvent.isOfTask := by
    induction ts generalizing next with
    | nil => rfl
    | cons target ts ih =>
      have htasks := TraceTask.map_event_visitsAll target [] next target.tasks
      rw [TraceTarget.visitsAll, List.map_append, ih, TraceTarget.callbacksOf_stepsAll, ← htasks]
      simp [BuildEvent.isOfTask, filter_isOfTask_map_event]
  rw [Trace.events_eq_targets, Trace.visits, htargets]
  simp [BuildEvent.isOfTask]

/-! ## The reports -/

namespace Session

/-- What a session that is told these callbacks reports of the stack at each start and finish of a
task. -/
def reportsAlong (s : Session) : List BuildEvent → List (List FrameRecord)
  | [] => []
  | event :: events =>
    (if event.isOfTask then [(s.note event).stackRecords] else []) ++
      (s.note event).reportsAlong events

/-- Reports can be collected piece by piece. -/
theorem reportsAlong_append (s : Session) (first later : List BuildEvent) :
    s.reportsAlong (first ++ later) =
      s.reportsAlong first ++ (first.foldl note s).reportsAlong later := by
  induction first generalizing s with
  | nil => rfl
  | cons event first ih =>
    rw [List.cons_append, reportsAlong, ih, reportsAlong, List.append_assoc, List.foldl_cons]

/-- There is a report for each start and finish of a task. -/
theorem length_reportsAlong (s : Session) (events : List BuildEvent) :
    (s.reportsAlong events).length = events.countP BuildEvent.isOfTask := by
  induction events generalizing s with
  | nil => rfl
  | cons event events ih =>
    rw [reportsAlong, List.length_append, ih, List.countP_cons]
    cases event.isOfTask <;> simp [Nat.add_comm]

/-- Just these tasks are in execution, and just this target. -/
structure Executes (s : Session) (frames : List CallFrame) (t : Target) : Prop where
  stack : s.stack = ⟨frames⟩
  targets : s.targets = [t]

namespace Executes

variable {s : Session} {frames : List CallFrame} {t : Target}

/-- The frames in execution are reported, or the target if there is none. -/
theorem stackRecords (h : s.Executes frames t) :
    s.stackRecords = if frames = [] then [t.record] else frames.map CallFrame.record := by
  unfold Session.stackRecords
  rw [h.stack, h.targets]
  cases frames <;> rfl

/-- A task that starts is in execution from then on. -/
theorem noteStart (h : s.Executes frames t) (f : CallFrame) :
    (s.note (.taskStarted f)).Executes (f :: frames) t where
  stack := congrArg (CallStack.push · f) h.stack
  targets := h.targets

/-- A task that finishes is not. -/
theorem noteFinish {f : CallFrame} (h : s.Executes (f :: frames) t) :
    (s.note (.taskFinished f)).Executes frames t where
  stack := by
    change s.stack.pop f.id = _
    rw [h.stack]
    exact CallStack.pop_push_self ⟨frames⟩ f
  targets := h.targets

/-- When the target finishes, no target is in execution. -/
theorem noteTargetFinish (h : s.Executes frames t) :
    (s.note (.targetFinished t)).stack = ⟨frames⟩ ∧ (s.note (.targetFinished t)).targets = [] := by
  refine ⟨h.stack, ?_⟩
  change s.targets.eraseP (·.same t) = []
  rw [h.targets]
  simp [Target.same]

end Executes

end Session

mutual

/-- Along a task the session reports what it should at the visits, and then has in execution what it
had before. -/
theorem TraceTask.reportsAlong_callbacks {target : TraceTarget} {ancestors : List CallFrame}
    {s : Session} (next : Nat) (h : s.Executes ancestors target.target) : (task : TraceTask) →
      s.reportsAlong (callbacksOf (task.steps target next).1) =
          (task.visits target ancestors next).map Visit.report ∧
        ((callbacksOf (task.steps target next).1).foldl Session.note s).Executes ancestors
          target.target
  | .mk name file line defines tasks => by
    let n : TaskNode := ⟨target, .mk name file line defines tasks, next, ancestors⟩
    have hstart := h.noteStart n.frame
    -- The tasks inside run with this one on the stack, and leave it there.
    obtain ⟨hinner, hbetween⟩ := TraceTask.reportsAlong_callbacksAll (next + 1) hstart tasks
    have hfinish := hbetween.noteFinish
    have hfirst : (s.note (.taskStarted n.frame)).stackRecords = (Visit.start n).report := by
      rw [hstart.stackRecords, if_neg (List.cons_ne_nil _ _)]
      rfl
    have hlast := hfinish.stackRecords
    have hevents : callbacksOf ((TraceTask.mk name file line defines tasks).steps target next).1 =
        .taskStarted n.frame :: (callbacksOf (TraceTask.stepsAll target (next + 1) tasks).1 ++
          [.taskFinished n.frame]) :=
      TraceTask.callbacksOf_steps target ancestors next _
    rw [hevents, List.foldl_cons, List.foldl_append, Session.reportsAlong,
      Session.reportsAlong_append, hinner, hfirst, TraceTask.visits, List.map_cons,
      List.map_append]
    refine ⟨?_, hfinish⟩
    simp only [Session.reportsAlong, BuildEvent.isOfTask, if_true, hlast, List.append_nil,
      List.cons_append, List.nil_append]
    rfl

/-- The same for tasks one after the other. -/
theorem TraceTask.reportsAlong_callbacksAll {target : TraceTarget} {ancestors : List CallFrame}
    {s : Session} (next : Nat) (h : s.Executes ancestors target.target) :
    (tasks : List TraceTask) →
      s.reportsAlong (callbacksOf (TraceTask.stepsAll target next tasks).1) =
          (TraceTask.visitsAll target ancestors next tasks).map Visit.report ∧
        ((callbacksOf (TraceTask.stepsAll target next tasks).1).foldl Session.note s).Executes
          ancestors target.target
  | [] => ⟨rfl, h⟩
  | task :: tasks => by
    obtain ⟨hfirst, hbetween⟩ := TraceTask.reportsAlong_callbacks next h task
    obtain ⟨hlater, hafter⟩ :=
      TraceTask.reportsAlong_callbacksAll (task.steps target next).2 hbetween tasks
    rw [TraceTask.stepsAll_cons, callbacksOf_append, Session.reportsAlong_append,
      List.foldl_append, hfirst, hlater, TraceTask.visitsAll, List.map_append]
    exact ⟨rfl, hafter⟩

end

/-- Along a replay a session reports what it should at the visits, if it has nothing in execution
before. -/
theorem Trace.reportsAlong_events (t : Trace) {s : Session} (hstack : s.stack = {})
    (htargets : s.targets = []) : s.reportsAlong t.events = t.visits.map Visit.report := by
  have hall (next : Nat) (ts : List TraceTarget) (s : Session) (hstack : s.stack = {})
      (htargets : s.targets = []) :
      s.reportsAlong (callbacksOf (TraceTarget.stepsAll next ts)) =
        (TraceTarget.visitsAll next ts).map Visit.report := by
    induction ts generalizing next s with
    | nil => rfl
    | cons target ts ih =>
      have hstart : (s.note (.targetStarted target.target)).Executes [] target.target :=
        ⟨hstack, by simp [Session.note, Session.noteTarget, htargets]⟩
      obtain ⟨htasks, hbetween⟩ :=
        TraceTask.reportsAlong_callbacksAll next hstart target.tasks
      -- The target that finishes is the only one in execution.
      obtain ⟨hnothing, hnone⟩ := hbetween.noteTargetFinish
      have hlater := ih (target.steps next).2 _ hnothing hnone
      rw [TraceTarget.callbacksOf_stepsAll, Session.reportsAlong_append,
        Session.reportsAlong_append, List.foldl_append, TraceTarget.visitsAll, List.map_append,
        ← htasks, ← hlater]
      rfl
  rw [Trace.events_eq_targets, Session.reportsAlong_append, Session.reportsAlong_append]
  have htasks := hall 0 t.targets (s.note (.buildStarted t.initialProperties.all)) hstack htargets
  simpa [Session.reportsAlong, BuildEvent.isOfTask, Session.note, Trace.visits] using htasks

end BuildStepper
