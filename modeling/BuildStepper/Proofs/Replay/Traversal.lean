import BuildStepper.Proofs.Replay.Progress

/-!
# The order of a replay

A replay walks through the tasks of a trace depth first and brackets them: the callbacks of a task
are the start of a frame, those of the tasks inside it, and the finish of the same frame.
`TaskCallbacks` and `TargetCallbacks` say so of tasks and of targets, one case for each way in which
a list is made, and leave open how frames are told apart.

That no two frames are alike comes from their numbers (`Trace.nodup_started`). `Trace.traversed`
puts both together: a finish is always that of the task that started last among those not yet
finished, and it makes no difference who listens.
-/

namespace BuildStepper

/-- Whether a callback is the start or the end of the build. -/
def BuildEvent.isOfBuild : BuildEvent → Bool
  | .buildStarted _ | .buildFinished => true
  | _ => false

/-- A frame that stands for an execution of a task under a target. A task that names no file is in
that of the target. -/
structure CallFrame.IsOf (f : CallFrame) (target : TraceTarget) (task : TraceTask) : Prop where
  file : f.file = task.file.getD target.file
  line : f.line = task.line
  target : f.target = target.name
  task : f.task = task.name

/-- The callbacks of tasks under a target, one task after the other: each is started and finished as
one frame, and between the two come the callbacks of the tasks inside it. -/
inductive TaskCallbacks (target : TraceTarget) : List TraceTask → List BuildEvent → Prop
  | nil : TaskCallbacks target [] []
  | cons {task : TraceTask} {tasks : List TraceTask} {f : CallFrame}
      {inner later : List BuildEvent} (frame : f.IsOf target task)
      (nested : TaskCallbacks target task.tasks inner) (others : TaskCallbacks target tasks later) :
      TaskCallbacks target (task :: tasks)
        (.taskStarted f :: (inner ++ .taskFinished f :: later))

/-- The callbacks of targets, one target after the other: the start and the finish of each stand
around the callbacks of its tasks. -/
inductive TargetCallbacks : List TraceTarget → List BuildEvent → Prop
  | nil : TargetCallbacks [] []
  | cons {t : TraceTarget} {ts : List TraceTarget} {inner later : List BuildEvent}
      (tasks : TaskCallbacks t t.tasks inner) (others : TargetCallbacks ts later) :
      TargetCallbacks (t :: ts)
        (.targetStarted t.target :: (inner ++ .targetFinished t.target :: later))

/-- The frame of a node is one of its task. -/
theorem TaskNode.isOf (n : TaskNode) : n.frame.IsOf n.target n.task := ⟨rfl, rfl, rfl, rfl⟩

mutual

/-- A task calls back its start and its finish around what the tasks in it call back. -/
theorem TraceTask.taskCallbacks (target : TraceTarget) (next : Nat) : (task : TraceTask) →
    TaskCallbacks target [task] (callbacksOf (task.steps target next).1)
  | .mk name file line defines tasks => by
    rw [TraceTask.callbacksOf_steps target []]
    exact .cons (TaskNode.isOf _) (TraceTask.taskCallbacksAll target (next + 1) tasks) .nil

/-- The same for tasks one after the other. -/
theorem TraceTask.taskCallbacksAll (target : TraceTarget) (next : Nat) :
    (tasks : List TraceTask) →
      TaskCallbacks target tasks (callbacksOf (TraceTask.stepsAll target next tasks).1)
  | [] => .nil
  | task :: tasks => by
    have hothers := TraceTask.taskCallbacksAll target (task.steps target next).2 tasks
    rw [TraceTask.stepsAll_cons, callbacksOf_append]
    have hfirst := TraceTask.taskCallbacks target next task
    generalize callbacksOf (task.steps target next).1 = first at hfirst ⊢
    cases hfirst with
    | cons hframe hnested hnone =>
      cases hnone
      rw [List.cons_append, List.append_assoc]
      exact .cons hframe hnested hothers

end

/-- Targets call back one after the other, each around the callbacks of its tasks. -/
theorem TraceTarget.targetCallbacks (next : Nat) (ts : List TraceTarget) :
    TargetCallbacks ts (callbacksOf (TraceTarget.stepsAll next ts)) := by
  induction ts generalizing next with
  | nil => exact .nil
  | cons t ts ih =>
    rw [TraceTarget.callbacksOf_stepsAll, List.append_assoc]
    exact .cons (TraceTask.taskCallbacksAll t next t.tasks) (ih _)

/-! ## Starts and ends of the build -/

/-- Tasks do not call back the start or the end of the build. -/
theorem TaskCallbacks.not_isOfBuild {target : TraceTarget} {tasks : List TraceTask}
    {events : List BuildEvent} (h : TaskCallbacks target tasks events) :
    ∀ event ∈ events, event.isOfBuild = false := by
  induction h with
  | nil => simp
  | cons _ _ _ hinner hlater => grind [BuildEvent.isOfBuild]

/-- Targets do not either. -/
theorem TargetCallbacks.not_isOfBuild {ts : List TraceTarget} {events : List BuildEvent}
    (h : TargetCallbacks ts events) : ∀ event ∈ events, event.isOfBuild = false := by
  induction h with
  | nil => simp
  | cons htasks _ hlater =>
    have hinner := htasks.not_isOfBuild
    grind [BuildEvent.isOfBuild]

/-! ## The task that finishes -/

/-- Along callbacks it is always the innermost of the tasks in execution that finishes. -/
def CallStack.FinishesInnermost (stack : CallStack) : List BuildEvent → Prop
  | [] => True
  | event :: events =>
    (∀ f, event = .taskFinished f → stack.top? = some f) ∧
      (stack.track event).FinishesInnermost events

/-- Frames finish innermost along two rows of callbacks if they do along the first, and then along
the second on the stack that the first leaves. -/
theorem CallStack.finishesInnermost_append {stack : CallStack} {first later : List BuildEvent} :
    stack.FinishesInnermost (first ++ later) ↔
      stack.FinishesInnermost first ∧ (first.foldl track stack).FinishesInnermost later := by
  induction first generalizing stack with
  | nil => simp [FinishesInnermost]
  | cons event first ih => simp [FinishesInnermost, ih, and_assoc]

/-- Bracketed tasks finish innermost first, and leave in execution what was before. -/
theorem TaskCallbacks.finishesInnermost {target : TraceTarget} {tasks : List TraceTask}
    {events : List BuildEvent} (h : TaskCallbacks target tasks events) (stack : CallStack) :
    stack.FinishesInnermost events ∧ events.foldl CallStack.track stack = stack := by
  induction h generalizing stack with
  | nil => exact ⟨trivial, rfl⟩
  | @cons task tasks f inner later _ _ _ hinner hlater =>
    obtain ⟨hnested, hback⟩ := hinner (stack.push f)
    obtain ⟨hothers, hend⟩ := hlater stack
    -- Those nested in the task have finished, so that it is the innermost one again.
    have hpop : (stack.push f).track (.taskFinished f) = stack := stack.pop_push_self f
    have hpush : stack.track (.taskStarted f) = stack.push f := rfl
    constructor
    · refine ⟨by simp, ?_⟩
      rw [hpush, CallStack.finishesInnermost_append, hback]
      refine ⟨hnested, ?_, by rwa [hpop]⟩
      rintro g hg
      cases hg
      rfl
    · rw [List.foldl_cons, List.foldl_append, hpush, hback, List.foldl_cons, hpop, hend]

/-- Along the callbacks of targets the innermost frame finishes, and the stack is in the end what it
was. -/
theorem TargetCallbacks.finishesInnermost {ts : List TraceTarget} {events : List BuildEvent}
    (h : TargetCallbacks ts events) (stack : CallStack) :
    stack.FinishesInnermost events ∧ events.foldl CallStack.track stack = stack := by
  induction h generalizing stack with
  | nil => exact ⟨trivial, rfl⟩
  | @cons t ts inner later htasks _ hlater =>
    obtain ⟨hnested, hback⟩ := htasks.finishesInnermost stack
    obtain ⟨hothers, hend⟩ := hlater stack
    have hstart : stack.track (.targetStarted t.target) = stack := rfl
    have hfinish : stack.track (.targetFinished t.target) = stack := rfl
    constructor
    · refine ⟨by simp, ?_⟩
      rw [hstart, CallStack.finishesInnermost_append, hback]
      exact ⟨hnested, by simp, by rwa [hfinish]⟩
    · rw [List.foldl_cons, List.foldl_append, hstart, hback, List.foldl_cons, hfinish, hend]

/-! ## Whoever listens -/

/-- What a listener does when it is called back, to its own state and to the properties of the
build. -/
structure Listener (σ : Type) where
  respond : σ → BuildProperties → BuildEvent → σ × BuildProperties

/-- The callbacks that a listener is given by a replay of these steps, which are done one after the
other. -/
def Listener.given {σ : Type} (listener : Listener σ) (s : σ) (p : BuildProperties) :
    List ReplayStep → List BuildEvent
  | [] => []
  | .callback event :: steps =>
    let (s, p) := listener.respond s p event
    event :: listener.given s p steps
  | .define name value :: steps => listener.given s (p.define name value).2 steps

/-- A listener is given all callbacks, whatever it answers. -/
theorem Listener.given_eq {σ : Type} (listener : Listener σ) (s : σ) (p : BuildProperties)
    (steps : List ReplayStep) : listener.given s p steps = callbacksOf steps := by
  induction steps generalizing s p with
  | nil => rfl
  | cons step steps ih =>
    cases step with
    | callback event => exact congrArg (event :: ·) (ih _ _)
    | define name value => exact ih _ _

/-- What holds of the callbacks of a replay. -/
structure Trace.Traversed (t : Trace) : Prop where
  /-- The start of the build comes first and its end last, each of them once, and between them stand
  the targets with their tasks, bracketed and in order. -/
  bracketed : ∃ middle,
    t.events = .buildStarted t.initialProperties.all :: (middle ++ [.buildFinished]) ∧
      (∀ event ∈ middle, event.isOfBuild = false) ∧ TargetCallbacks t.targets middle
  /-- No two tasks are started as one frame. -/
  distinct : (t.events.filterMap BuildEvent.started?).Nodup
  /-- A task that finishes is the one that started last among those not yet finished. -/
  innermost : ∀ before f later, t.events = before ++ .taskFinished f :: later →
    (before.foldl CallStack.track {}).top? = some f
  /-- Every listener is given these callbacks, whatever it does. -/
  given : ∀ {σ : Type} (listener : Listener σ) (s : σ),
    listener.given s t.initialProperties t.replay = t.events
  /-- A session that listens, and may block the build, has been given the first of them, whatever
  its client and others do; the rest is still to come. -/
  heard : ∀ settings turns,
    ((DebuggedReplay.ofTrace settings t).play turns).2.1 ++
      ((DebuggedReplay.ofTrace settings t).play turns).1.coming = t.events

/-- A replay is the bracketed walk through its trace, depth first. -/
theorem Trace.traversed (t : Trace) : t.Traversed where
  bracketed := by
    have htargets := TraceTarget.targetCallbacks 0 t.targets
    exact ⟨_, t.events_eq_targets, htargets.not_isOfBuild, htargets⟩
  distinct := t.nodup_started
  innermost := by
    intro before f later hevents
    obtain ⟨hmiddle, -⟩ := (TraceTarget.targetCallbacks 0 t.targets).finishesInnermost {}
    have hall : CallStack.FinishesInnermost {} t.events := by
      rw [t.events_eq_targets, CallStack.finishesInnermost_append,
        CallStack.finishesInnermost_append]
      exact ⟨⟨⟨by simp, trivial⟩, hmiddle⟩, by simp, trivial⟩
    rw [hevents, CallStack.finishesInnermost_append] at hall
    exact hall.2.1 f rfl
  given listener s := listener.given_eq s t.initialProperties t.replay
  heard settings turns :=
    ((DebuggedReplay.replaying_ofTrace settings t).play turns).split

end BuildStepper
