import BuildStepper.Proofs.Replay.Progress
import BuildStepper.Proofs.Session.Output
import Mathlib.Data.List.Induction

/-!
# Stepping over a task of a trace

`stepOver_runs_to_finish` follows a client that steps over a task of any trace, at any depth. From
the start of the task, where the build is held, the replay makes all callbacks of what is nested in
the task without a hold, and the next hold is the end of the step, inside the finish of the task,
with just the ancestors of the task on the stack.

The invariant is `SteppingOver`. Its heart is that the session waits for the identity of one frame,
and that the callbacks ahead finish other frames: those nested in a task have greater numbers, even
where they are the same in name and place. It is kept by each callback ahead
(`SteppingOver.callback`), and the finish of the task breaks it (`SteppingOver.finish`). Queries of
the client in between change no more than what has been reported.
-/

namespace BuildStepper

open Wire (Command Notification SuspendReason)

/-- Whether a turn is that of the build. -/
def Turn.isAdvance : Turn → Bool
  | .advance => true
  | _ => false

/-- Whether a turn is that of the build, or a query of the client. -/
def Turn.isQuiet : Turn → Bool
  | .advance => true
  | .command c => c.asks
  | _ => false

/-- The holds that a client is told of, with their reasons. -/
def suspensions (sent : List Notification) : List SuspendReason :=
  sent.filterMap fun
    | .suspended reason => some reason
    | _ => none

/-- What is told of suspensions can be collected piece by piece. -/
theorem suspensions_append (first later : List Notification) :
    suspensions (first ++ later) = suspensions first ++ suspensions later :=
  List.filterMap_append

/-- An answer tells of no hold. -/
theorem suspensions_eq_nil_of_answered {sent : List Notification} {c : Command}
    (h : ∀ n ∈ sent, n.answered? = some c) : suspensions sent = [] := by
  unfold suspensions
  rw [List.filterMap_eq_nil_iff]
  intro n hn
  have hanswer := h n hn
  cases n with
  | suspended reason => cases hanswer
  | _ => rfl

namespace Session

/-- What the build tells of tasks is kept on the stack. -/
theorem note_stack (s : Session) (event : BuildEvent) :
    (s.note event).stack = s.stack.track event := by
  cases event <;> rfl

/-- What the build tells in several callbacks is kept on the stack one after the other. -/
theorem foldl_note_stack (s : Session) (events : List BuildEvent) :
    (events.foldl note s).stack = events.foldl CallStack.track s.stack := by
  induction events generalizing s with
  | nil => rfl
  | cons event events ih => rw [List.foldl_cons, List.foldl_cons, ih, note_stack]

/-- The task that finished last is among those that have finished. -/
theorem foldl_note_lastFinished {s : Session} (hnone : s.lastFinished = none)
    {events : List BuildEvent} {id : FrameId}
    (h : (events.foldl note s).lastFinished = some id) :
    id ∈ events.filterMap BuildEvent.finished? := by
  induction events using List.reverseRecOn with
  | nil =>
    rw [List.foldl_nil, hnone] at h
    cases h
  | append_singleton events event ih =>
    rw [List.foldl_append, List.foldl_cons, List.foldl_nil] at h
    rw [List.filterMap_append]
    cases event with
    | taskFinished f =>
      cases h
      exact List.mem_append_right _ (by simp [BuildEvent.finished?])
    | _ => exact List.mem_append_left _ (ih h)

end Session

namespace DebuggedReplay

open Session

/-- A query is no callback, changes no more than what has been reported, and is not answered by a
hold. -/
theorem turn_of_asks (r : DebuggedReplay) {c : Command} (h : c.asks = true) :
    (∃ report, (r.turn (.command c)).1.session = { r.session with report }) ∧
      (r.turn (.command c)).1.coming = r.coming ∧ (r.turn (.command c)).2.1 = [] ∧
      suspensions (r.turn (.command c)).2.2 = [] := by
  obtain ⟨hsession, hcoming, hsent⟩ := turn_of_outside (r := r) (t := .command c) rfl
  obtain ⟨⟨report, hreport⟩, hanswers⟩ :=
    dispatch_of_asks r.session r.properties.all r.properties.user h
  refine ⟨⟨report, hsession.trans hreport⟩, hcoming, ?_, ?_⟩
  · rw [hsent]
  · rw [hsent]
    exact suspensions_eq_nil_of_answered hanswers

/-- While the build is held, quiet turns change no more than what has been reported. -/
theorem play_held {r : DebuggedReplay} (hheld : r.session.status.isSuspended = true)
    {turns : List Turn} (hquiet : ∀ turn ∈ turns, turn.isQuiet = true) :
    (∃ report, (r.play turns).1.session = { r.session with report }) ∧
      (r.play turns).1.coming = r.coming ∧ (r.play turns).2.1 = [] ∧
      suspensions (r.play turns).2.2 = [] := by
  induction turns generalizing r with
  | nil => exact ⟨⟨r.session.report, rfl⟩, rfl, rfl, rfl⟩
  | cons turn turns ih =>
    have hturn := hquiet turn List.mem_cons_self
    have hrest : ∀ turn ∈ turns, turn.isQuiet = true :=
      fun later hlater => hquiet later (List.mem_cons_of_mem _ hlater)
    have hblocked : r.session.status.blocksBuild = true := by
      cases hs : r.session.status <;> simp_all [Status.isSuspended, Status.blocksBuild]
    rw [play_cons]
    cases turn with
    | advance =>
      -- The build is blocked, so that its turn is none.
      have hsame : r.turn .advance = (r, [], []) := advance_of_blocked hblocked
      rw [hsame]
      exact ih hheld hrest
    | command c =>
      obtain ⟨⟨report, hreport⟩, hcoming, hcalled, hsilent⟩ := turn_of_asks r hturn
      have hstill : (r.turn (.command c)).1.session.status.isSuspended = true := by
        rw [hreport]
        exact hheld
      obtain ⟨⟨last, hlast⟩, hcoming', hcalled', hsilent'⟩ := ih hstill hrest
      refine ⟨⟨last, ?_⟩, hcoming'.trans hcoming, ?_, ?_⟩
      · rw [hlast, hreport]
      · rw [hcalled, hcalled']
        rfl
      · rw [suspensions_append, hsilent, hsilent']
        rfl
    | _ => cases hturn

end DebuggedReplay

namespace Session

/-- While a node is stepped over, `ahead` being the callbacks that are still to come before it
finishes. -/
structure SteppingOver (n : TaskNode) (ahead : List BuildEvent) (s : Session) : Prop where
  running : s.status = .running
  /-- The session waits for the node to finish, and for nothing else. -/
  pending : s.pending = { stepOver := some n.id }
  /-- The node has not finished last. -/
  last : s.lastFinished ≠ some n.id
  /-- No breakpoint is set where a nested task starts. -/
  clear : ∀ m ∈ n.nested, s.breakpoints.at? m.frame.location = none
  /-- What is ahead leaves the node and its ancestors in execution. -/
  stack : ahead.foldl CallStack.track s.stack = ⟨n.frame :: n.ancestors⟩
  /-- What is ahead is nested in the node. -/
  inside : ∀ event ∈ ahead, event ∈ n.inner

namespace SteppingOver

variable {n : TaskNode} {ahead : List BuildEvent} {s : Session}

/-- While a node is stepped over the session is live. -/
theorem isLive (h : SteppingOver n ahead s) : s.status.isLive = true := by
  rw [h.running]
  rfl

/-- While a node is stepped over the build goes on. -/
theorem isFree (h : SteppingOver n ahead s) : s.status.blocksBuild = false := by
  rw [h.running]
  rfl

/-- What has been reported is of no matter. -/
theorem withReport (h : SteppingOver n ahead s) (report : PropertyReport) :
    SteppingOver n ahead { s with report } :=
  { h with }

/-- A nested task is another frame. -/
theorem id_ne {m : TaskNode} (hm : m ∈ n.nested) : m.id ≠ n.id := by
  intro heq
  have hlt := TaskNode.number_lt_of_nested hm
  have hnumber : m.number = n.number := congrArg FrameId.index heq
  omega

/-- Without a breakpoint there is no reason to hold the build until the node finishes. -/
theorem suspendReason?_eq_none {s : Session} {place : Option Location}
    (hplace : place.bind s.breakpoints.at? = none)
    (hpending : s.pending = { stepOver := some n.id }) (hlast : s.lastFinished ≠ some n.id) :
    s.suspendReason? place = none := by
  have hother : ¬ some n.id = s.lastFinished := fun heq => hlast heq.symm
  unfold suspendReason?
  rw [hplace, hpending]
  simp [hother]

/-- Nothing that is ahead holds the build. -/
theorem holdReason?_eq_none {event : BuildEvent} (h : SteppingOver n (event :: ahead) s) :
    s.holdReason? event = none := by
  obtain ⟨m, hm, rfl | rfl⟩ := TaskNode.mem_inner (h.inside event List.mem_cons_self)
  -- At a start nothing has finished since, at a finish it was another frame.
  · exact suspendReason?_eq_none (s := s.noteStart m.frame) (h.clear m hm) h.pending h.last
  · have hlast : (s.noteFinish m.frame).lastFinished ≠ some n.id := by
      intro heq
      exact id_ne hm (Option.some.inj heq)
    have hplace : Option.bind none (s.noteFinish m.frame).breakpoints.at? = none := rfl
    exact suspendReason?_eq_none hplace h.pending hlast

/-- A callback ahead is made without a hold, and brings the end of the step nearer. -/
theorem callback {event : BuildEvent} (h : SteppingOver n (event :: ahead) s) :
    SteppingOver n ahead (s.callback event).1 ∧ (s.callback event).2 = [] := by
  obtain ⟨m, hm, hevent⟩ := TaskNode.mem_inner (h.inside event List.mem_cons_self)
  have hover : event ≠ .buildFinished := by
    rintro rfl
    obtain heq | heq := hevent <;> cases heq
  -- What is inside the node is never its own finish.
  have hlast : (s.note event).lastFinished ≠ some n.id := by
    obtain rfl | rfl := hevent
    · exact h.last
    · intro heq
      exact id_ne hm (Option.some.inj heq)
  obtain ⟨hstatus, hpending, hbreakpoints, -, -⟩ := note_keeps s event
  rw [callback_of_live h.isLive hover, h.holdReason?_eq_none, suspendIf_none]
  refine ⟨⟨?_, ?_, hlast, ?_, ?_, ?_⟩, rfl⟩
  · rw [hstatus]
    exact h.running
  · rw [hpending]
    exact h.pending
  · rw [hbreakpoints]
    exact h.clear
  · rw [note_stack]
    exact h.stack
  · exact fun later hlater => h.inside later (List.mem_cons_of_mem _ hlater)

/-- The finish of the node ends the step, with just its ancestors on the stack. -/
theorem finish (h : SteppingOver n [] s) :
    (s.callback (.taskFinished n.frame)).1.status = .suspended .step ∧
      (s.callback (.taskFinished n.frame)).1.stack.frames = n.ancestors ∧
      (s.callback (.taskFinished n.frame)).2 = [.suspended .step] := by
  have hreason : s.holdReason? (.taskFinished n.frame) = some .step := by
    have hpending : (s.noteFinish n.frame).pending = { stepOver := some n.id } := h.pending
    change (s.noteFinish n.frame).suspendReason? none = some .step
    unfold suspendReason?
    rw [hpending]
    simp [noteFinish, TaskNode.frame]
  have hstack : s.stack = ⟨n.frame :: n.ancestors⟩ := h.stack
  rw [callback_of_live h.isLive (by simp), hreason, suspendIf_some]
  refine ⟨rfl, ?_, rfl⟩
  simp [note, noteFinish, hstack]

end SteppingOver

end Session

namespace DebuggedReplay

open Session

/-- While a node is stepped over, a turn of the build makes the next callback ahead, without a
hold. -/
theorem turn_steppingOver {n : TaskNode} {event : BuildEvent} {ahead later : List BuildEvent}
    {r : DebuggedReplay} (h : SteppingOver n (event :: ahead) r.session)
    (hcoming : r.coming = event :: later) :
    SteppingOver n ahead (r.turn .advance).1.session ∧ (r.turn .advance).1.coming = later ∧
      (r.turn .advance).2 = ([event], []) := by
  obtain ⟨hsession, hlater, hmade⟩ := advance_of_coming h.isFree hcoming
  obtain ⟨hnext, hsilent⟩ := h.callback
  rw [← hsession] at hnext
  rw [hsilent] at hmade
  exact ⟨hnext, hlater, hmade⟩

/-- With nothing ahead it makes the finish of the node, and the build is held there. -/
theorem turn_finish {n : TaskNode} {later : List BuildEvent} {r : DebuggedReplay}
    (h : SteppingOver n [] r.session) (hcoming : r.coming = .taskFinished n.frame :: later) :
    (r.turn .advance).1.session.status = .suspended .step ∧
      (r.turn .advance).1.session.stack.frames = n.ancestors ∧
      (r.turn .advance).2 = ([.taskFinished n.frame], [.suspended .step]) := by
  obtain ⟨hsession, -, hmade⟩ := advance_of_coming h.isFree hcoming
  obtain ⟨hstatus, hstack, hsent⟩ := h.finish
  rw [← hsession] at hstatus hstack
  rw [hsent] at hmade
  exact ⟨hstatus, hstack, hmade⟩

/-- The build is played on while a node is stepped over: it makes the callbacks ahead without a
hold, and is held inside the finish of the node. -/
theorem play_steppingOver {n : TaskNode} {ahead later : List BuildEvent} {r : DebuggedReplay}
    (h : SteppingOver n ahead r.session)
    (hcoming : r.coming = ahead ++ .taskFinished n.frame :: later) {go : List Turn}
    (hquiet : ∀ turn ∈ go, turn.isQuiet = true) :
    (r.play go).2.1 =
        List.take (go.countP Turn.isAdvance) (ahead ++ [.taskFinished n.frame]) ∧
      suspensions (r.play go).2.2 =
        (if go.countP Turn.isAdvance ≤ ahead.length then [] else [.step]) ∧
      (r.play go).1.session.status =
        (if go.countP Turn.isAdvance ≤ ahead.length then .running else .suspended .step) ∧
      (ahead.length < go.countP Turn.isAdvance →
        (r.play go).1.session.stack.frames = n.ancestors) := by
  induction go generalizing ahead r with
  | nil => exact ⟨rfl, rfl, h.running, fun hlt => absurd hlt (Nat.not_lt_zero _)⟩
  | cons turn go ih =>
    have hturn := hquiet turn List.mem_cons_self
    have hrest : ∀ turn ∈ go, turn.isQuiet = true :=
      fun later hlater => hquiet later (List.mem_cons_of_mem _ hlater)
    rw [play_cons]
    cases turn with
    | command c =>
      obtain ⟨⟨report, hreport⟩, hstill, hcalled, hsilent⟩ := turn_of_asks r hturn
      have hnext : SteppingOver n ahead (r.turn (.command c)).1.session := by
        rw [hreport]
        exact h.withReport report
      have hcount : (Turn.command c :: go).countP Turn.isAdvance = go.countP Turn.isAdvance :=
        List.countP_cons_of_neg (by simp [Turn.isAdvance])
      rw [hcount, hcalled, List.nil_append, suspensions_append, hsilent, List.nil_append]
      exact ih hnext (hstill.trans hcoming) hrest
    | advance =>
      have hcount : (Turn.advance :: go).countP Turn.isAdvance = go.countP Turn.isAdvance + 1 :=
        List.countP_cons_of_pos rfl
      rw [hcount]
      cases ahead with
      | cons event ahead =>
        obtain ⟨hnext, hlater, hmade⟩ := turn_steppingOver h hcoming
        obtain ⟨hcalled, hholds, hstatus, hstack⟩ := ih hnext hlater hrest
        rw [hmade]
        simp only [List.length_cons, Nat.add_le_add_iff_right, Nat.add_lt_add_iff_right]
        refine ⟨?_, hholds, hstatus, hstack⟩
        rw [hcalled]
        rfl
      | nil =>
        -- The step is over, and what is left of the turns is played while the build is held.
        obtain ⟨hstatus, hstack, hmade⟩ := turn_finish h hcoming
        have hheld : (r.turn .advance).1.session.status.isSuspended = true := by
          rw [hstatus]
          rfl
        obtain ⟨⟨report, hreport⟩, -, hcalled, hsilent⟩ := play_held hheld hrest
        have hover : ¬ go.countP Turn.isAdvance + 1 ≤ ([] : List BuildEvent).length :=
          Nat.not_succ_le_zero _
        rw [if_neg hover, if_neg hover, hmade, hcalled, suspensions_append, hsilent, hreport]
        refine ⟨?_, rfl, hstatus, fun _ => hstack⟩
        rw [List.nil_append, List.take_succ_cons, List.take_nil]
        rfl
    | _ => cases hturn

/-- The replay `r` of a trace has just come to be held inside the start of a node. -/
def HeldAtStart (settings : DebugSettings) (t : Trace) (n : TaskNode) (r : DebuggedReplay) : Prop :=
  ∃ before : List Turn,
    (((ofTrace settings t).play before).1.turn .advance).1 = r ∧
      (((ofTrace settings t).play before).1.turn .advance).2.1 = [.taskStarted n.frame] ∧
      r.session.status.isSuspended = true

/-- A turn of the build that leaves it held leaves no request, if it made a callback. -/
theorem pending_of_turn_held {r : DebuggedReplay} (hmade : (r.turn .advance).2.1 ≠ [])
    (hheld : (r.turn .advance).1.session.status.isSuspended = true) :
    (r.turn .advance).1.session.pending = {} := by
  have hadvance : r.turn .advance = r.advance 1 := rfl
  rw [hadvance] at hmade hheld ⊢
  cases hblocked : r.session.status.blocksBuild with
  | true =>
    rw [advance_of_blocked hblocked] at hmade
    exact absurd rfl hmade
  | false =>
    cases hcoming : r.coming with
    | nil =>
      obtain ⟨-, -, hnothing⟩ := advance_of_done hblocked hcoming
      rw [hnothing] at hmade
      exact absurd rfl hmade
    | cons event later =>
      obtain ⟨hsession, -, -⟩ := advance_of_coming hblocked hcoming
      rw [hsession] at hheld ⊢
      exact pending_of_held hblocked hheld

/-- What a replay has before it, and its session knows, when it is held inside the start of a
node. -/
theorem HeldAtStart.spec {settings : DebugSettings} {t : Trace} {n : TaskNode} {r : DebuggedReplay}
    (hn : n ∈ t.nodes) (h : HeldAtStart settings t n r) :
    (∃ later, r.coming = n.inner ++ .taskFinished n.frame :: later) ∧
      r.session.pending = {} ∧ r.session.stepOverTarget? = some n.id ∧
      r.session.lastFinished ≠ some n.id ∧ r.session.stack = ⟨n.frame :: n.ancestors⟩ := by
  obtain ⟨before, hr, hcalled, hheld⟩ := h
  have hreplaying := ((replaying_ofTrace settings t).play before).turn .advance
  rw [List.nil_append, hcalled, hr] at hreplaying
  obtain ⟨first, later, hevents, hstack, hunfinished, hfirst, hlater⟩ := Trace.events_eq_append hn
  -- The start of the node stands at one place only, so the callbacks made end there.
  have hsplit := hreplaying.split
  rw [hevents, List.append_assoc, List.singleton_append] at hsplit
  obtain ⟨rfl, -, hcoming⟩ := (List.append_cons_inj_of_notMem hfirst hlater).1 hsplit.symm
  have hgoing : r.session.status ≠ .terminated := by
    intro hover
    rw [hover] at hheld
    cases hheld
  have htold := hreplaying.told hgoing
  rw [List.foldl_append, List.foldl_cons, List.foldl_nil] at htold
  refine ⟨⟨later, hcoming.symm⟩, ?_, ?_, ?_, ?_⟩
  · rw [← hr] at hheld ⊢
    exact pending_of_turn_held (by rw [hcalled]; exact List.cons_ne_nil _ _) hheld
  · have hcurrent : r.session.current = some n.id := htold.current
    have hflag : r.session.atTargetStart = false := htold.atTargetStart
    unfold stepOverTarget?
    rw [hflag, hcurrent]
    rfl
  · rw [htold.lastFinished]
    exact fun hlast => hunfinished (foldl_note_lastFinished rfl hlast)
  · rw [htold.stack, note_stack, foldl_note_stack, hstack]
    rfl

/-- A step over that is asked for while the build is held inside the start of a node begins the
stepping over of the node. -/
theorem HeldAtStart.stepOver {settings : DebugSettings} {t : Trace} {n : TaskNode}
    {r : DebuggedReplay} (hn : n ∈ t.nodes) (h : HeldAtStart settings t n r)
    (hclear : ∀ m ∈ n.nested, r.session.breakpoints.at? m.frame.location = none)
    {next : DebuggedReplay} {report : PropertyReport}
    (hwaited : next.session = { r.session with report }) :
    SteppingOver n n.inner (next.turn (.command .stepOver)).1.session ∧
      (next.turn (.command .stepOver)).2 = ([], []) := by
  obtain ⟨-, hpending, htarget, hlast, hstack⟩ := h.spec hn
  obtain ⟨-, -, -, hheld⟩ := h
  have live : next.session.status.isLive = true := by
    rw [hwaited]
    exact Status.isLive_of_isSuspended hheld
  -- What a client is told meanwhile changes only what has been reported.
  have hnext : next.session.stepOverTarget? = some n.id := by
    rw [hwaited]
    exact htarget
  obtain ⟨hsession, -, hsent⟩ := turn_of_outside (r := next) (t := .command .stepOver) rfl
  rw [Session.step, dispatch_stepOver live _ _ hnext] at hsession hsent
  rw [hsession, hsent, hwaited]
  refine ⟨⟨rfl, ?_, hlast, hclear, ?_, fun _ hevent => hevent⟩, rfl⟩
  · -- The hold has taken up all requests, so that the step over is the only one.
    simp only [hpending]
  · change n.inner.foldl CallStack.track r.session.stack = _
    rw [hstack]
    exact TraceTask.track_callbacksAll _ _ _ _

/-- A step over ends at the right depth. Let a replay of any trace, under any settings and after any
turns, come to be held inside the start of any of its tasks, and let no breakpoint be set where a
task nested in it starts. From then on let the turns be those of the build, queries of the client,
and one step over. Then the build makes no callback before the step over. After it, it makes the
callbacks of all that is nested in the task, one for each of its turns, running and without a hold.
The callback that follows is the finish of the task; there the client is told of a hold, the only
one and for a step, and just the proper ancestors of the task are on the stack, innermost first. -/
theorem stepOver_runs_to_finish (settings : DebugSettings) {t : Trace} {n : TaskNode}
    (hn : n ∈ t.nodes) {r : DebuggedReplay} (hheld : HeldAtStart settings t n r)
    (hclear : ∀ m ∈ n.nested, r.session.breakpoints.at? m.frame.location = none)
    {wait go : List Turn} (hwait : ∀ turn ∈ wait, turn.isQuiet = true)
    (hgo : ∀ turn ∈ go, turn.isQuiet = true) :
    (r.play wait).2.1 = [] ∧ suspensions (r.play wait).2.2 = [] ∧
      (r.play wait).1.session.status = r.session.status ∧
    (r.play (wait ++ .command .stepOver :: go)).2.1 =
      List.take (go.countP Turn.isAdvance) (n.inner ++ [.taskFinished n.frame]) ∧
    suspensions (r.play (wait ++ .command .stepOver :: go)).2.2 =
      (if go.countP Turn.isAdvance ≤ n.inner.length then [] else [.step]) ∧
    (r.play (wait ++ .command .stepOver :: go)).1.session.status =
      (if go.countP Turn.isAdvance ≤ n.inner.length then .running else .suspended .step) ∧
    (n.inner.length < go.countP Turn.isAdvance →
      (r.play (wait ++ .command .stepOver :: go)).1.session.stack.frames = n.ancestors) := by
  obtain ⟨⟨later, hcoming⟩, -⟩ := hheld.spec hn
  have hsuspended : r.session.status.isSuspended = true := by
    obtain ⟨-, -, -, hsuspended⟩ := hheld
    exact hsuspended
  obtain ⟨⟨report, hreport⟩, hstill, hcalled, hsilent⟩ := play_held hsuspended hwait
  obtain ⟨hstep, hsent⟩ := hheld.stepOver hn hclear hreport
  -- Neither the queries nor the step over itself make a callback.
  have hnext : ((r.play wait).1.turn (.command .stepOver)).1.coming =
      n.inner ++ .taskFinished n.frame :: later := by
    obtain ⟨-, hsame, -⟩ := turn_of_outside (r := (r.play wait).1) (t := .command .stepOver) rfl
    rw [hsame, hstill, hcoming]
  obtain ⟨hmade, hholds, hstatus, hstack⟩ := play_steppingOver hstep hnext hgo
  rw [play_append, play_cons, hcalled, hsent]
  simp only [List.nil_append, suspensions_append, hsilent]
  refine ⟨trivial, trivial, ?_, hmade, hholds, hstatus, hstack⟩
  rw [hreport]

/-- A target whose task runs itself, as far as names and places go, and that runs another. -/
def recursiveTarget : TraceTarget :=
  ⟨"dist", ⟨"build.xml"⟩, 3,
    [.mk "antcall" none 4 {} [.mk "antcall" none 4 {} [.mk "echo" none 9 {} []]]]⟩

/-- The inner one of the two tasks that look the same. -/
def recursiveNode : TaskNode :=
  ⟨recursiveTarget, .mk "antcall" none 4 {} [.mk "echo" none 9 {} []], 1,
    [⟨⟨0⟩, "dist", "antcall", ⟨"build.xml"⟩, 4⟩]⟩

/-- The client steps into both of the tasks that look the same. -/
def steppedInto : DebuggedReplay :=
  (((ofTrace { port := some 0 } { targets := [recursiveTarget] }).play
    [.advance, .attach, .command .stepInto, .advance, .advance, .command .stepInto]).1.turn
      .advance).1

/-- The inner task is stepped over, which ends when it finishes, and the outer one is left. -/
theorem steppedInto_stepOver :
    suspensions (steppedInto.play [.command .stack, .command .stepOver, .advance, .advance,
        .advance]).2.2 = [.step] ∧
      (steppedInto.play [.command .stack, .command .stepOver, .advance, .advance,
        .advance]).1.session.stack.frames = [⟨⟨0⟩, "dist", "antcall", ⟨"build.xml"⟩, 4⟩] := by
  have hn : recursiveNode ∈ ({ targets := [recursiveTarget] } : Trace).nodes := .tail _ (.head _)
  have hheld : HeldAtStart { port := some 0 } { targets := [recursiveTarget] } recursiveNode
      steppedInto :=
    ⟨[.advance, .attach, .command .stepInto, .advance, .advance, .command .stepInto], rfl,
      by decide +kernel, by decide +kernel⟩
  have hnone : steppedInto.session.breakpoints.locations = [] := by decide +kernel
  have hclear : ∀ m ∈ recursiveNode.nested,
      steppedInto.session.breakpoints.at? m.frame.location = none := by
    intro m hm
    unfold Breakpoints.at?
    rw [hnone]
    rfl
  have hwait : ∀ turn ∈ [Turn.command .stack], turn.isQuiet = true := by decide
  have hgo : ∀ turn ∈ [Turn.advance, .advance, .advance], turn.isQuiet = true := by decide
  have hlaw := stepOver_runs_to_finish { port := some 0 } hn hheld hclear hwait hgo
  -- Fewer callbacks are inside the node than turns are taken, so that its finish is among them.
  have hinner : recursiveNode.inner.length < [Turn.advance, .advance, .advance].countP
      Turn.isAdvance := by decide +kernel
  obtain ⟨-, -, -, -, hholds, -, hstack⟩ := hlaw
  rw [if_neg (Nat.not_le.2 hinner)] at hholds
  exact ⟨hholds, hstack hinner⟩

end DebuggedReplay

end BuildStepper
