import BuildStepper.Proofs.Breakpoints
import BuildStepper.Proofs.Session.Coherence

/-!
# When a callback holds the build

`Due` says, of the history alone, for which reason a callback has to hold the build: a breakpoint at
what starts, else a step into or the end of a step over that the client asked for since the build
was last held, else a plain request to suspend. `callback_holds_iff_due` shows that a session holds
the build for exactly that reason, and otherwise lets it go on.

The session keeps of the commands no more than three requests. `pending_after` shows that the
requests are those of the commands since the last hold, and coherence (`coherent_after`) that a task
which is being stepped over is not the one that finished last, unless it finishes now.
-/

namespace BuildStepper.Session

open Wire (Command Notification SuspendReason)

/-! ## What is asked for -/

/-- A command of a history, with the session that it met, asks to stop at the next start or finish
of a task. A step over does so where there is nothing to step over. -/
def AsksStep (d : Session × Command) : Prop :=
  d.2 = .stepInto ∨ d.2 = .stepOver ∧ d.1.stepOverTarget? = none

instance (d : Session × Command) : Decidable (AsksStep d) := inferInstanceAs (Decidable (_ ∨ _))

/-- The task that a command asks to step over. -/
def steppedOver? (d : Session × Command) : Option FrameId :=
  if d.2 = .stepOver then d.1.stepOverTarget? else none

/-- What commands ask for together. Of several tasks to step over the last one counts. -/
def requestsOf (h : List (Session × Command)) : Requests where
  stepInto := h.any (AsksStep ·)
  stepOver := (h.filterMap steppedOver?).getLast?
  suspend := h.any (·.2 = .suspend)

/-- A step into is asked for just if some command asks for it. -/
theorem requestsOf_stepInto (h : List (Session × Command)) :
    (requestsOf h).stepInto = true ↔ ∃ d ∈ h, AsksStep d := by
  simp [requestsOf]

/-- A suspension is asked for just if some command asks for it. -/
theorem requestsOf_suspend (h : List (Session × Command)) :
    (requestsOf h).suspend = true ↔ ∃ d ∈ h, d.2 = .suspend := by
  simp [requestsOf]

/-- What a command adds to what is asked for. -/
theorem requestsOf_concat (h : List (Session × Command)) (d : Session × Command) :
    requestsOf (h ++ [d]) =
      { stepInto := (requestsOf h).stepInto || decide (AsksStep d)
        stepOver := (steppedOver? d).or (requestsOf h).stepOver
        suspend := (requestsOf h).suspend || decide (d.2 = .suspend) } := by
  unfold requestsOf
  rw [List.any_append, List.any_append, List.filterMap_append]
  cases hover : steppedOver? d <;> simp [hover]

/-- The commands that a live session carries out leave it with what they ask for. -/
theorem dispatch_pending_requestsOf {s : Session} (live : s.status.isLive = true)
    (all user : PropertyTable) {command : Command} (hterminate : command ≠ .terminate)
    {h : List (Session × Command)} (hpending : s.pending = requestsOf h) :
    (s.dispatch all user command).1.pending = requestsOf (h ++ [(s, command)]) := by
  rw [dispatch_pending live, requestsOf_concat, hpending]
  cases command with
  | terminate => exact absurd rfl hterminate
  | stepOver => cases htarget : s.stepOverTarget? <;> simp [AsksStep, steppedOver?, htarget]
  | _ => simp [AsksStep, steppedOver?]

/-- A callback of a running session comes to hold the build exactly if it finds a reason. -/
theorem holds_build {s : Session} (running : s.status = .running) {event : BuildEvent}
    (hover : event ≠ .buildFinished) :
    (Moment.mk s (.build event)).holds = (s.holdReason? event).isSome := by
  have live : s.status.isLive = true := by rw [running]; rfl
  simp only [Moment.holds, Moment.after, step]
  rw [callback_status live hover, running]
  cases s.holdReason? event <;> rfl

/-- No other moment of a live session comes to hold the build. -/
theorem holds_eq_false_of_live {s : Session} (live : s.status.isLive = true) {event : SessionEvent}
    (hother : ∀ called, event ≠ .build called) : (Moment.mk s event).holds = false := by
  rw [Bool.eq_false_iff]
  intro hholds
  simp only [Moment.holds, Moment.after, Bool.and_eq_true, Bool.not_eq_true'] at hholds
  obtain ⟨hbefore, hheld⟩ := hholds
  cases hafter : (s.step event).1.status with
  | suspended hold =>
    obtain ⟨called, heq, -⟩ | rfl := eq_build_or_attached_of_held hbefore hafter
    · exact hother called heq
    · rw [step_of_live live (.inl rfl)] at hheld
      exact absurd (hbefore.symm.trans hheld) (by decide)
  | _ =>
    rw [hafter] at hheld
    cases hheld

/-- One step of a live session keeps its requests those of the commands: a hold begins a new list of
them, and any other step adds the command that it carries out. -/
theorem step_pending_requestsOf {s : Session} (live : s.status.isLive = true) {event : SessionEvent}
    (hadmits : s.admits event = true) (hnext : (s.step event).1.status.isLive = true)
    {h : List (Session × Command)} (hpending : s.pending = requestsOf h) :
    (s.step event).1.pending =
      requestsOf (if (Moment.mk s event).holds then []
        else h ++ (Moment.mk s event).dispatch?.toList) := by
  cases event with
  | build event =>
    by_cases hover : event = .buildFinished
    · subst hover
      cases hnext
    · -- A callback holds the build exactly if it finds a reason, and then takes all requests up.
      have hrunning := running_of_admits live hadmits hover
      rw [holds_build hrunning hover, step, callback_pending live hover]
      cases (s.holdReason? event).isSome with
      | true => rfl
      | false => simp [Moment.dispatch?, hpending]
  | command all user command =>
    -- The session stays live, so that the command is not the one to end it.
    have hterminate : command ≠ .terminate := by
      rintro rfl
      rw [step_status_of_live live] at hnext
      cases hnext
    rw [holds_eq_false_of_live live (by simp)]
    exact dispatch_pending_requestsOf live all user hterminate hpending
  | disconnected =>
    rw [step_status_of_live live] at hnext
    cases hnext
  | attached =>
    rw [holds_eq_false_of_live live (by simp), step_of_live live (.inl rfl)]
    simpa [Moment.dispatch?] using hpending
  | abandoned =>
    rw [holds_eq_false_of_live live (by simp), step_of_live live (.inr rfl)]
    simpa [Moment.dispatch?] using hpending

/-- While a session is live, its requests are those of the commands since the build was last
held. -/
theorem pending_after (settings : DebugSettings) {events : List SessionEvent}
    (serial : ({ settings } : Session).Serial events) (orderly : Orderly events)
    (live : (after settings events).status.isLive = true) :
    (after settings events).pending = requestsOf (commandsSinceHeld settings events) := by
  induction events using List.reverseRecOn with
  | nil => cases live
  | append_singleton events event ih =>
    obtain ⟨hserial, hadmits⟩ := serial.concat
    obtain ⟨horderly, -, -⟩ := orderly.concat
    have hcoherent := coherent_after settings horderly
    replace ih := ih hserial horderly
    rw [commandsSinceHeld_concat]
    rw [after_concat] at live ⊢
    change (after settings events).admits event = true at hadmits
    generalize after settings events = s at *
    cases hlive : s.status.isLive with
    | true => exact step_pending_requestsOf hlive hadmits live (ih hlive)
    | false =>
      -- The session becomes live, which is a hold; without a client nothing was asked for.
      have hclear := hcoherent.atRest hlive
      obtain ⟨rfl, port, hwaiting⟩ := eq_attached_of_live hlive live
      have hholds : (Moment.mk s .attached).holds = true := by
        simp [Moment.holds, Moment.after, step, attach, hwaiting, Status.isSuspended]
      rw [if_pos hholds]
      simp only [step, attach, hwaiting]
      exact hclear

/-! ## What is due -/

/-- A breakpoint is set at a place: the lines agree, and the files do as paths. -/
def BreaksAt (s : Session) (place b : Location) : Prop :=
  b ∈ s.breakpoints.locations ∧ b.file.same place.file = true ∧ b.line = place.line

/-- A task starts at a breakpoint. -/
def StartsAtBreakpoint (s : Session) (event : BuildEvent) : Prop :=
  ∃ f b, event = .taskStarted f ∧ s.BreaksAt f.location b

/-- A task starts or finishes. -/
def IsTaskEvent (event : BuildEvent) : Prop :=
  ∃ f, event = .taskStarted f ∨ event = .taskFinished f

/-- The commands `h` ask for a stop at a start or finish of a task, by a step into, by a step over
that met nothing to step over, or because the last task stepped over finishes. -/
def StepDue (h : List (Session × Command)) (event : BuildEvent) : Prop :=
  (∃ d ∈ h, AsksStep d) ∨
    ∃ f, event = .taskFinished f ∧ (h.filterMap steppedOver?).getLast? = some f.id

/-- For which reason a callback has to hold the build, `h` being the commands since it was last
held. Breakpoints go before steps, and steps before requests to suspend. -/
inductive Due (settings : DebugSettings) (s : Session) (h : List (Session × Command)) :
    BuildEvent → SuspendReason → Prop where
  | task {f : CallFrame} {b : Location} (hset : s.BreaksAt f.location b) :
    Due settings s h (.taskStarted f) (.breakpoint b)
  | target {t : Target} {b : Location} (hon : settings.targetBreakpoints = true)
    (hset : s.BreaksAt t.location b) : Due settings s h (.targetStarted t) (.breakpoint b)
  | step {event : BuildEvent} (htask : IsTaskEvent event) (hfree : ¬ s.StartsAtBreakpoint event)
    (hdue : StepDue h event) : Due settings s h event .step
  | clientRequest {event : BuildEvent} (htask : IsTaskEvent event)
    (hfree : ¬ s.StartsAtBreakpoint event) (hdue : ¬ StepDue h event)
    (hasked : ∃ d ∈ h, d.2 = .suspend) : Due settings s h event .clientRequest

/-- A callback holds the build: it tells the client why, and nothing else, and no request outlasts
it. -/
def HoldsFor (s : Session) (event : BuildEvent) (reason : SuspendReason) : Prop :=
  (s.callback event).2 = [.suspended reason] ∧
    (s.callback event).1.status = .suspended (.ofReason reason) ∧
    (s.callback event).1.pending = {}

/-- A callback returns, and the build runs on without a word to the client. -/
def GoesOn (s : Session) (event : BuildEvent) : Prop :=
  (s.callback event).2 = [] ∧ (s.callback event).1.status = .running

/-- A running session holds the build for the reason that it finds. -/
theorem holdsFor_iff {s : Session} (running : s.status = .running) {event : BuildEvent}
    (hover : event ≠ .buildFinished) {reason : SuspendReason} :
    s.HoldsFor event reason ↔ s.holdReason? event = some reason := by
  have live : s.status.isLive = true := by rw [running]; rfl
  unfold HoldsFor
  rw [callback_pending live hover, callback_status live hover, callback_of_live live hover,
    suspendIf_snd, running]
  cases s.holdReason? event with
  | none => simp
  | some found =>
    constructor
    · rintro ⟨hsent, -, -⟩
      simpa using hsent
    · intro heq
      cases heq
      exact ⟨rfl, rfl, rfl⟩

/-- A running session that finds no reason lets the build go on. -/
theorem goesOn_of_none {s : Session} (running : s.status = .running) {event : BuildEvent}
    (hover : event ≠ .buildFinished) (hnone : s.holdReason? event = none) : s.GoesOn event := by
  have live : s.status.isLive = true := by rw [running]; rfl
  unfold GoesOn
  rw [callback_status live hover, callback_of_live live hover, suspendIf_snd, hnone, running]
  exact ⟨rfl, rfl⟩

/-- A breakpoint is found at a place exactly if it is set there. -/
theorem at?_eq_some_iff {s : Session} {place b : Location} :
    s.breakpoints.at? place = some b ↔ s.BreaksAt place b := by
  rw [Breakpoints.at?_eq_some_iff]
  unfold BreaksAt Location.same
  simp only [Bool.and_eq_true, decide_eq_true_eq]
  rw [and_comm (a := b.line = _)]

/-- No breakpoint is found at a place exactly if none is set there. -/
theorem at?_eq_none_iff {s : Session} {place : Location} :
    s.breakpoints.at? place = none ↔ ∀ b, ¬ s.BreaksAt place b := by
  rw [Option.eq_none_iff_forall_ne_some]
  simp only [ne_eq, at?_eq_some_iff]

/-- The requests ask for a stop now: at any start or finish of a task, or because of the task that
has just finished. -/
def StepReady (s : Session) : Prop :=
  s.pending.stepInto = true ∨ ∃ id, s.pending.stepOver = some id ∧ s.lastFinished = some id

/-- The reasons to hold the build, in the order in which they count. -/
theorem suspendReason?_eq_some_iff {s : Session} {place : Option Location}
    {reason : SuspendReason} :
    s.suspendReason? place = some reason ↔
      (∃ b, place.bind s.breakpoints.at? = some b ∧ reason = .breakpoint b) ∨
        (place.bind s.breakpoints.at? = none ∧ s.StepReady ∧ reason = .step) ∨
        (place.bind s.breakpoints.at? = none ∧ ¬ s.StepReady ∧ s.pending.suspend = true ∧
          reason = .clientRequest) := by
  -- The test for the end of a step over, as the property that it decides.
  have hover : (s.pending.stepOver.isSome && decide (s.pending.stepOver = s.lastFinished)) = true ↔
      ∃ id, s.pending.stepOver = some id ∧ s.lastFinished = some id := by
    rw [Bool.and_eq_true, decide_eq_true_eq, Option.isSome_iff_exists]
    constructor
    · rintro ⟨⟨id, hid⟩, heq⟩
      exact ⟨id, hid, heq ▸ hid⟩
    · rintro ⟨id, hid, hlast⟩
      exact ⟨⟨id, hid⟩, hid.trans hlast.symm⟩
  unfold suspendReason? StepReady
  rw [← hover]
  cases place.bind s.breakpoints.at? with
  | some b => simp [@eq_comm _ reason]
  | none =>
    cases s.pending.stepInto <;>
      cases s.pending.stepOver.isSome && decide (s.pending.stepOver = s.lastFinished) <;>
      cases s.pending.suspend <;> simp [@eq_comm _ reason]

variable {started : List FrameId} {s : Session} {h : List (Session × Command)}

/-- At the start of a task a stop is asked for exactly if it is due. A step over is no reason: its
task is in execution, so that it is not the one that finished last. -/
theorem stepReady_noteStart_iff (hcoherent : Coherent started s)
    (hpending : s.pending = requestsOf h) (f : CallFrame) :
    (s.noteStart f).StepReady ↔ StepDue h (.taskStarted f) := by
  have hinto : s.pending.stepInto = true ↔ ∃ d ∈ h, AsksStep d := by
    rw [hpending, requestsOf_stepInto]
  unfold StepReady StepDue
  change (s.pending.stepInto = true ∨ _) ↔ _
  rw [hinto]
  constructor
  · rintro (hasked | ⟨id, hover, hlast⟩)
    · exact .inl hasked
    · exact absurd (hcoherent.stepOver id hover) (hcoherent.finished id hlast).2
  · rintro (hasked | ⟨g, hevent, -⟩)
    · exact .inl hasked
    · cases hevent

/-- At the finish of a task a stop is asked for exactly if it is due. -/
theorem stepReady_noteFinish_iff (hpending : s.pending = requestsOf h) (f : CallFrame) :
    (s.noteFinish f).StepReady ↔ StepDue h (.taskFinished f) := by
  have hinto : s.pending.stepInto = true ↔ ∃ d ∈ h, AsksStep d := by
    rw [hpending, requestsOf_stepInto]
  have hover : s.pending.stepOver = (h.filterMap steppedOver?).getLast? := by
    rw [hpending]
    rfl
  unfold StepReady StepDue
  change (s.pending.stepInto = true ∨ ∃ id, s.pending.stepOver = some id ∧ some f.id = some id) ↔ _
  rw [hinto, hover]
  constructor
  · rintro (hasked | ⟨id, hlast, heq⟩)
    · exact .inl hasked
    · exact .inr ⟨f, rfl, by rw [hlast, heq]⟩
  · rintro (hasked | ⟨g, hevent, hlast⟩)
    · exact .inl hasked
    · cases hevent
      exact .inr ⟨f.id, hlast, rfl⟩

/-- What is due at the start or finish of a task, in the order in which it counts. -/
theorem due_task_iff {settings : DebugSettings} {event : BuildEvent} (htask : IsTaskEvent event)
    {reason : SuspendReason} :
    Due settings s h event reason ↔
      (∃ f b, event = .taskStarted f ∧ s.BreaksAt f.location b ∧ reason = .breakpoint b) ∨
        (¬ s.StartsAtBreakpoint event ∧ StepDue h event ∧ reason = .step) ∨
        (¬ s.StartsAtBreakpoint event ∧ ¬ StepDue h event ∧ (∃ d ∈ h, d.2 = .suspend) ∧
          reason = .clientRequest) := by
  constructor
  · intro hdue
    cases hdue with
    | task hset => exact .inl ⟨_, _, rfl, hset, rfl⟩
    | target => simp [IsTaskEvent] at htask
    | step _ hfree hdue => exact .inr (.inl ⟨hfree, hdue, rfl⟩)
    | clientRequest _ hfree hdue hasked => exact .inr (.inr ⟨hfree, hdue, hasked, rfl⟩)
  · rintro (⟨f, b, rfl, hset, rfl⟩ | ⟨hfree, hdue, rfl⟩ | ⟨hfree, hdue, hasked, rfl⟩)
    · exact .task hset
    · exact .step htask hfree hdue
    · exact .clientRequest htask hfree hdue hasked

/-- What is due at the start of a target. -/
theorem due_target_iff {settings : DebugSettings} {t : Target} {reason : SuspendReason} :
    Due settings s h (.targetStarted t) reason ↔
      settings.targetBreakpoints = true ∧
        ∃ b, s.BreaksAt t.location b ∧ .breakpoint b = reason := by
  constructor
  · intro hdue
    cases hdue with
    | target hon hset => exact ⟨hon, _, hset, rfl⟩
    | step htask => simp [IsTaskEvent] at htask
    | clientRequest htask => simp [IsTaskEvent] at htask
  · rintro ⟨hon, b, hset, rfl⟩
    exact .target hon hset

/-- What a coherent session finds at a callback, its requests being those of the commands `h`, is
what is due. -/
theorem holdReason?_eq_some_iff (hcoherent : Coherent started s)
    (hpending : s.pending = requestsOf h) {event : BuildEvent} {reason : SuspendReason} :
    s.holdReason? event = some reason ↔ Due s.settings s h event reason := by
  have hsuspend : s.pending.suspend = true ↔ ∃ d ∈ h, d.2 = .suspend := by
    rw [hpending, requestsOf_suspend]
  cases event with
  | taskStarted f =>
    have hfree : ¬ s.StartsAtBreakpoint (.taskStarted f) ↔ s.breakpoints.at? f.location = none := by
      rw [at?_eq_none_iff]
      simp [StartsAtBreakpoint]
    unfold holdReason?
    rw [due_task_iff ⟨f, .inl rfl⟩, hfree, suspendReason?_eq_some_iff,
      stepReady_noteStart_iff hcoherent hpending]
    change (∃ b, s.breakpoints.at? f.location = some b ∧ _) ∨
      (s.breakpoints.at? f.location = none ∧ _) ∨
      (s.breakpoints.at? f.location = none ∧ _ ∧ s.pending.suspend = true ∧ _) ↔ _
    simp [at?_eq_some_iff, hsuspend]
  | taskFinished f =>
    -- A finish has no place, so that no breakpoint is looked for.
    have hfree : ¬ s.StartsAtBreakpoint (.taskFinished f) := by
      rintro ⟨g, b, hevent, -⟩
      cases hevent
    unfold holdReason?
    rw [due_task_iff ⟨f, .inr rfl⟩, suspendReason?_eq_some_iff, stepReady_noteFinish_iff hpending]
    change (∃ b, none = some b ∧ _) ∨ (none = none ∧ _) ∨
      (none = none ∧ _ ∧ s.pending.suspend = true ∧ _) ↔ _
    simp [hfree, hsuspend]
  | targetStarted t =>
    rw [due_target_iff]
    simp only [holdReason?, ← at?_eq_some_iff]
    cases s.settings.targetBreakpoints <;> simp
  | _ =>
    constructor
    · intro hfound
      cases hfound
    · intro hdue
      cases hdue with
      | step htask => simp [IsTaskEvent] at htask
      | clientRequest htask => simp [IsTaskEvent] at htask

/-- The settings are those that the session began with. -/
theorem settings_after (settings : DebugSettings) (events : List SessionEvent) :
    (after settings events).settings = settings := by
  induction events using List.reverseRecOn with
  | nil => rfl
  | append_singleton events event ih => rw [after_concat, step_settings, ih]

/-- The law of suspension. Take any history of a session under a build that is one thread and whose
frames are orderly, and a callback that comes next. If the session is live, the callback holds the
build for exactly the reason that is due by the commands since the build was last held, and returns
with the build running and nothing sent if none is due. If the session is not live, a callback about
a target or a task does nothing. -/
theorem callback_holds_iff_due (settings : DebugSettings) {events : List SessionEvent}
    {event : BuildEvent}
    (serial : ({ settings } : Session).Serial (events ++ [.build event]))
    (orderly : Orderly (events ++ [.build event])) :
    ((after settings events).status.isLive = true →
      (∀ reason, (after settings events).HoldsFor event reason ↔
        Due settings (after settings events) (commandsSinceHeld settings events) event reason) ∧
      (event ≠ .buildFinished →
        (∀ reason, ¬ Due settings (after settings events) (commandsSinceHeld settings events)
          event reason) →
        (after settings events).GoesOn event)) ∧
    ((after settings events).status.isLive = false →
      (∀ baseline, event ≠ .buildStarted baseline) → event ≠ .buildFinished →
      (after settings events).callback event = (after settings events, [])) := by
  obtain ⟨hserial, hadmits⟩ := serial.concat
  obtain ⟨horderly, -, -⟩ := orderly.concat
  have hcoherent := coherent_after settings horderly
  have hsettings := settings_after settings events
  constructor
  · intro live
    have hpending := pending_after settings hserial horderly live
    change (after settings events).admits (.build event) = true at hadmits
    generalize after settings events = s at *
    have hdue (reason : SuspendReason) : s.holdReason? event = some reason ↔
        Due settings s (commandsSinceHeld settings events) event reason := by
      have hfound : s.holdReason? event = some reason ↔
          Due s.settings s (commandsSinceHeld settings events) event reason :=
        holdReason?_eq_some_iff hcoherent hpending
      rwa [hsettings] at hfound
    by_cases hover : event = .buildFinished
    · -- The end of the build ends the session: it neither holds the build nor has a reason to.
      subst hover
      refine ⟨fun reason => ⟨?_, ?_⟩, fun h => absurd rfl h⟩
      · rintro ⟨-, hstatus, -⟩
        cases hstatus
      · intro hdue'
        cases (hdue reason).2 hdue'
    · -- A live session that is called back is running, where a hold is a reason found.
      have hrunning := running_of_admits live hadmits hover
      refine ⟨fun reason => (holdsFor_iff hrunning hover).trans (hdue reason), fun _ hnone => ?_⟩
      refine goesOn_of_none hrunning hover ?_
      rw [Option.eq_none_iff_forall_ne_some]
      exact fun reason hfound => hnone reason ((hdue reason).1 hfound)
  · intro hdead hstart hover
    refine callback_of_not_live hdead ?_ hover
    cases event with
    | buildStarted baseline => exact absurd rfl (hstart baseline)
    | _ => rfl

/-- A task that runs `nestedTask`. -/
def enclosingTask : CallFrame := ⟨⟨0⟩, "dist", "antcall", ⟨"build.xml"⟩, 4⟩

/-- A task that runs inside `enclosingTask`. -/
def nestedTask : CallFrame := ⟨⟨1⟩, "dist", "echo", ⟨"build.xml"⟩, 5⟩

/-- A history in which the client steps into a task and asks to step over it. -/
def steppingOver : List SessionEvent :=
  [.build (.buildStarted {}), .attached, .command {} {} .stepInto,
    .build (.taskStarted enclosingTask), .command {} {} .stepOver, .build (.taskStarted nestedTask),
    .build (.taskFinished nestedTask)]

/-- The task inside is passed over, and the finish of the task stepped over holds the build. -/
theorem steppingOver_holds_at_finish :
    (after { port := some 0 } steppingOver).HoldsFor (.taskFinished enclosingTask) .step := by
  have serial : ({ settings := { port := some 0 } } : Session).Serial
      (steppingOver ++ [.build (.taskFinished enclosingTask)]) :=
    ⟨rfl, rfl, rfl, rfl, rfl, rfl, rfl, rfl, trivial⟩
  have orderly : Orderly (steppingOver ++ [.build (.taskFinished enclosingTask)]) := by
    simp [Orderly, OrderlyFrom, steppingOver, SessionEvent.started?, SessionEvent.finished?,
      enclosingTask, nestedTask]
  have hlaw := callback_holds_iff_due { port := some 0 } serial orderly
  have hfree : ¬ (after { port := some 0 } steppingOver).StartsAtBreakpoint
      (.taskFinished enclosingTask) := by
    rintro ⟨f, b, hevent, -⟩
    cases hevent
  exact ((hlaw.1 rfl).1 .step).2
    (.step ⟨enclosingTask, .inr rfl⟩ hfree (.inr ⟨enclosingTask, rfl, rfl⟩))

end BuildStepper.Session
