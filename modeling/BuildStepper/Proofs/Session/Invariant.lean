import BuildStepper.Proofs.Session.Leftover
import BuildStepper.Proofs.Session.StepOver
import BuildStepper.Proofs.Session.Suspension

/-!
# What can be relied on between two steps

A session decides on a few fields, and it decides right because of what holds of them together
whenever nothing is under way. `Invariant` lists it: the task that started last is the innermost
one, the task that is to be stepped over is in execution, the task that finished last is not, and no
request outlives the suspension that follows it. `invariant_after` proves it of every history with
orderly frames, whatever the threads do: tasks may finish out of order, several threads may call
back, and a notification that cannot be written is no matter, since that ends the session as the end
of the connection would right after it.

The part about the stack is coherence (`coherent_after`). The part about requests goes by the
moments at which a suspension begins (`Moment.Suspends`). There nothing is asked for, and what is
asked for later was asked for by a command since (`pending_within`).
-/

namespace BuildStepper

open Wire (Command Notification SuspendReason)

/-- Whatever is asked for is asked for there too. -/
structure Requests.Within (p q : Requests) : Prop where
  stepInto : p.stepInto = true → q.stepInto = true
  stepOver : ∀ id, p.stepOver = some id → q.stepOver = some id
  suspend : p.suspend = true → q.suspend = true

/-- Where nothing is asked for, there is nothing to be found elsewhere. -/
theorem Requests.within_of_none (q : Requests) : Requests.Within {} q where
  stepInto h := by cases h
  stepOver _ h := by cases h
  suspend h := by cases h

namespace Session

/-! ## The moments at which a suspension begins -/

/-- A suspension begins at the moment: the client is greeted or told why the build is held. -/
def Moment.Suspends (m : Moment) : Prop :=
  .buildStarted ∈ m.sent ∨ ∃ reason, .suspended reason ∈ m.sent

/-- A build that comes to be held is so by a suspension that begins. -/
theorem Moment.suspends_of_held {m : Moment} (hbefore : m.before.status.isSuspended = false)
    (hafter : m.after.status.isSuspended = true) : m.Suspends := by
  obtain ⟨s, event⟩ := m
  change s.status.isSuspended = false at hbefore
  change (s.step event).1.status.isSuspended = true at hafter
  cases live : s.status.isLive with
  | false =>
    have hlive := Status.isLive_of_isSuspended hafter
    -- Only by attaching its client does a session come to be live, and then it is held.
    exact .inl (Moment.buildStarted_mem_sent_iff.2 ⟨live, hlive⟩)
  | true =>
    cases hheld : (s.step event).1.status with
    | suspended hold =>
      obtain ⟨called, rfl, hover⟩ | rfl := eq_build_or_attached_of_held hbefore hheld
      · -- The callback has found a reason, and tells it.
        have hsent : (s.step (.build called)).2 = ((s.holdReason? called).map .suspended).toList :=
          callback_sent live hover
        cases hreason : s.holdReason? called with
        | some reason =>
          refine .inr ⟨reason, ?_⟩
          rw [Moment.sent, hsent, hreason]
          exact List.mem_singleton_self _
        | none =>
          rw [step, callback_status live hover, hreason] at hafter
          exact absurd (hbefore.symm.trans hafter) (by decide)
      · -- A second client changes nothing.
        rw [step_of_live live (.inl rfl)] at hafter
        exact absurd (hbefore.symm.trans hafter) (by decide)
    | _ =>
      rw [hheld] at hafter
      cases hafter

/-- When a suspension begins nothing is asked for. -/
theorem Moment.pending_of_suspends {m : Moment} (h : m.Suspends)
    (hrest : m.before.status.isLive = false → m.before.pending = {}) : m.after.pending = {} := by
  obtain hgreeted | ⟨reason, htold⟩ := h
  · -- Without a client nothing has been asked for, and the client has only just come.
    obtain ⟨hdead, hlive⟩ := Moment.buildStarted_mem_sent_iff.1 hgreeted
    obtain ⟨s, event⟩ := m
    obtain ⟨rfl, port, hwaiting⟩ := eq_attached_of_live hdead hlive
    change s.status = .awaiting port at hwaiting
    have hnone : s.pending = {} := hrest hdead
    simp [Moment.after, step, attach, hwaiting, hnone]
  · obtain ⟨s, event⟩ := m
    obtain ⟨live, called, hevent, hover, hreason⟩ := eq_build_of_suspended_mem htold
    change event = .build called at hevent
    subst hevent
    change (s.callback called).1.pending = {}
    have hreason : s.holdReason? called = some reason := hreason
    rw [callback_pending live hover, hreason]
    rfl

/-- A build that is held after a moment at which no suspension begins was held before. -/
theorem Moment.held_before {m : Moment} (hnone : ¬ m.Suspends)
    (hafter : m.after.status.isSuspended = true) : m.before.status.isSuspended = true := by
  by_contra hfree
  exact hnone (Moment.suspends_of_held (by simpa using hfree) hafter)

/-- A history, cut after one of its events. -/
theorem after_cut (settings : DebugSettings) (before : List SessionEvent) (event : SessionEvent)
    (later : List SessionEvent) :
    after settings (before ++ event :: later) =
      ((after settings (before ++ [event])).run later).1 := by
  unfold after
  rw [List.append_cons, run_append]

/-- While a build is held, its suspension has begun at some moment, and since then it has been held
without another one. -/
theorem exists_suspends_of_held (settings : DebugSettings) {events : List SessionEvent}
    (hheld : (after settings events).status.isSuspended = true) :
    ∃ before event later, events = before ++ event :: later ∧
      (Moment.mk (after settings before) event).Suspends ∧
      ∀ m ∈ (after settings (before ++ [event])).moments later,
        m.before.status.isSuspended = true ∧ ¬ m.Suspends := by
  -- The last event begins a suspension, or the build was held before it, by the suspension sought.
  induction events using List.reverseRecOn with
  | nil => cases hheld
  | append_singleton events event ih =>
    by_cases hbegins : (Moment.mk (after settings events) event).Suspends
    · exact ⟨events, event, [], rfl, hbegins, by simp [moments]⟩
    · rw [after_concat] at hheld
      have hbefore : (after settings events).status.isSuspended = true :=
        Moment.held_before hbegins hheld
      obtain ⟨before, first, later, rfl, hfirst, hsince⟩ := ih hbefore
      refine ⟨before, first, later ++ [event], by simp, hfirst, ?_⟩
      rw [moments_concat, ← after_cut]
      intro m hm
      obtain hm | hm := List.mem_append.1 hm
      · exact hsince m hm
      · rw [List.mem_singleton.1 hm]
        exact ⟨hbefore, hbegins⟩

/-! ## What is asked for since -/

/-- The commands that the client sends, each with the session that it meets. -/
def commandsIn (s : Session) (events : List SessionEvent) : List (Session × Command) :=
  (s.moments events).filterMap Moment.dispatch?

/-- The last event adds the command that it is, if it is one. -/
theorem commandsIn_concat (s : Session) (events : List SessionEvent) (event : SessionEvent) :
    s.commandsIn (events ++ [event]) =
      s.commandsIn events ++ (Moment.mk (s.run events).1 event).dispatch?.toList := by
  unfold commandsIn
  rw [moments_concat, List.filterMap_append]
  cases hcommand : (Moment.mk (s.run events).1 event).dispatch? <;> simp [hcommand]

/-- A command that is carried out adds no more than it asks for. -/
theorem within_dispatch {s : Session} (live : s.status.isLive = true) (all user : PropertyTable)
    (command : Command) {h : List (Session × Command)} (hin : s.pending.Within (requestsOf h)) :
    (s.dispatch all user command).1.pending.Within (requestsOf (h ++ [(s, command)])) := by
  obtain ⟨hinto, hover, hsuspend⟩ := hin
  rw [dispatch_pending live, requestsOf_concat]
  cases command with
  | terminate => exact Requests.within_of_none _
  | stepInto =>
    exact ⟨by simp [AsksStep], by simpa [steppedOver?] using hover, by simpa using hsuspend⟩
  | suspend =>
    exact ⟨by simpa [AsksStep] using hinto, by simpa [steppedOver?] using hover, by simp⟩
  | stepOver =>
    cases htarget : s.stepOverTarget? with
    | none =>
      exact ⟨by simp [AsksStep, htarget], by simpa [steppedOver?, htarget] using hover,
        by simpa using hsuspend⟩
    | some id =>
      exact ⟨by simpa [AsksStep, htarget] using hinto, by simp [steppedOver?, htarget],
        by simpa using hsuspend⟩
  | _ =>
    exact ⟨by simpa [AsksStep] using hinto, by simpa [steppedOver?] using hover,
      by simpa using hsuspend⟩

/-- A step is a command, or it leaves the requests, or takes them all up. -/
theorem step_pending_cases (s : Session) (event : SessionEvent) :
    (∃ all user command, event = .command all user command) ∨
      (Moment.mk s event).dispatch? = none ∧
        ((s.step event).1.pending = {} ∨ (s.step event).1.pending = s.pending) := by
  cases event with
  | command all user command => exact .inl ⟨all, user, command, rfl⟩
  | build called =>
    refine .inr ⟨rfl, ?_⟩
    cases live : s.status.isLive with
    | true =>
      by_cases hover : called = .buildFinished
      · subst hover
        exact .inl rfl
      · rw [step, callback_pending live hover]
        split
        · exact .inl rfl
        · exact .inr rfl
    | false =>
      cases called with
      | buildStarted baseline =>
        right
        simp only [step, callback, buildStarted]
        split <;> rfl
      | buildFinished => exact .inl rfl
      -- A session that is not live takes no notice of targets and tasks.
      | _ => exact .inr (by rw [step, callback_of_not_live live rfl (by simp)])
  | attached =>
    refine .inr ⟨rfl, .inr ?_⟩
    simp only [step, attach]
    split <;> rfl
  | abandoned =>
    refine .inr ⟨rfl, ?_⟩
    simp only [step, abandon]
    split
    · exact .inl rfl
    · exact .inr rfl
  | disconnected =>
    refine .inr ⟨rfl, ?_⟩
    simp only [step, disconnect]
    split
    · exact .inl rfl
    · exact .inr rfl

/-- One step adds no more requests than its command, if it is one. -/
theorem step_within {s : Session} (hrest : s.status.isLive = false → s.pending = {})
    (event : SessionEvent) {h : List (Session × Command)}
    (hin : s.pending.Within (requestsOf h)) :
    (s.step event).1.pending.Within
      (requestsOf (h ++ (Moment.mk s event).dispatch?.toList)) := by
  obtain ⟨all, user, command, rfl⟩ | ⟨hsilent, hpending⟩ := step_pending_cases s event
  · cases live : s.status.isLive with
    | true => exact within_dispatch live all user command hin
    | false =>
      -- A command that comes when nobody is connected is not carried out.
      rw [step, dispatch_of_not_live live, hrest live]
      exact Requests.within_of_none _
  · rw [hsilent, Option.toList_none, List.append_nil]
    obtain hnone | hsame := hpending
    · rw [hnone]
      exact Requests.within_of_none _
    · rwa [hsame]

/-- Since a suspension began, the requests are among those of the commands since. -/
theorem pending_within (settings : DebugSettings) {before later : List SessionEvent}
    {event : SessionEvent} (orderly : Orderly (before ++ event :: later))
    (hbegins : (Moment.mk (after settings before) event).Suspends) :
    (after settings (before ++ event :: later)).pending.Within
      (requestsOf ((after settings (before ++ [event])).commandsIn later)) := by
  induction later using List.reverseRecOn with
  | nil =>
    have hrest := (coherent_after settings orderly.of_append).atRest
    have hnone : (after settings (before ++ [event])).pending = {} := by
      rw [after_concat]
      exact Moment.pending_of_suspends hbegins hrest
    rw [hnone]
    exact Requests.within_of_none _
  | append_singleton later last ih =>
    have hsplit : before ++ event :: (later ++ [last]) = before ++ event :: later ++ [last] := by
      simp
    rw [hsplit] at orderly ⊢
    have horderly := orderly.of_append
    rw [after_concat, commandsIn_concat, ← after_cut]
    exact step_within (coherent_after settings horderly).atRest last (ih horderly)

/-- While the build is held, no step is asked for: whoever asks for one lets the build go. -/
theorem no_step_while_held (settings : DebugSettings) {events : List SessionEvent}
    (orderly : Orderly events) (hheld : (after settings events).status.isSuspended = true) :
    (after settings events).pending.stepInto = false ∧
      (after settings events).pending.stepOver = none := by
  induction events using List.reverseRecOn with
  | nil => cases hheld
  | append_singleton events event ih =>
    have horderly := orderly.of_append
    have hrest := (coherent_after settings horderly).atRest
    rw [after_concat] at hheld ⊢
    by_cases hbegins : (Moment.mk (after settings events) event).Suspends
    · have hnone : ((after settings events).step event).1.pending = {} :=
        Moment.pending_of_suspends hbegins hrest
      rw [hnone]
      exact ⟨rfl, rfl⟩
    · -- The build was held before, and the event has let it stay so.
      have hbefore : (after settings events).status.isSuspended = true :=
        Moment.held_before hbegins hheld
      have live := Status.isLive_of_isSuspended hbefore
      replace ih := ih horderly hbefore
      generalize after settings events = s at *
      obtain ⟨all, user, command, rfl⟩ | ⟨-, hnone | hsame⟩ := step_pending_cases s event
      · -- The commands that ask for a step let the build go, which is held still.
        rw [step, dispatch_status live] at hheld
        rw [step, dispatch_pending live]
        cases command with
        | stepInto => cases hheld
        | stepOver => cases hheld
        | terminate => cases hheld
        | _ => exact ih
      · rw [hnone]
        exact ⟨rfl, rfl⟩
      · rwa [hsame]

/-! ## The invariant -/

/-- What holds of a session after a history. -/
structure Invariant (settings : DebugSettings) (events : List SessionEvent) : Prop where
  /-- The task that started last is the innermost one, and no target has started since. -/
  current : ∀ id, (after settings events).current = some id →
    (after settings events).stack.top?.map CallFrame.id = some id ∧
      (after settings events).atTargetStart = false
  /-- A task that is to be stepped over is in execution, and did not finish last. -/
  stepOver : ∀ id, (after settings events).pending.stepOver = some id →
    id ∈ (after settings events).stack.ids ∧ (after settings events).lastFinished ≠ some id
  /-- The task that finished last is not in execution. -/
  finished : ∀ f ∈ (after settings events).stack.frames,
    (after settings events).lastFinished ≠ some f.id
  /-- When a suspension begins nothing is asked for, and what is asked for later is asked for by the
  commands since. -/
  begins : ∀ before event later, events = before ++ event :: later →
    (Moment.mk (after settings before) event).Suspends →
    (after settings (before ++ [event])).pending = {} ∧
      (after settings events).pending.Within
        (requestsOf ((after settings (before ++ [event])).commandsIn later))
  /-- While the build is held, a suspension has begun that lasts, and no step is asked for. -/
  held : (after settings events).status.isSuspended = true →
    (∃ before event later, events = before ++ event :: later ∧
      (Moment.mk (after settings before) event).Suspends ∧
      ∀ m ∈ (after settings (before ++ [event])).moments later,
        m.before.status.isSuspended = true ∧ ¬ m.Suspends) ∧
    (after settings events).pending.stepInto = false ∧
    (after settings events).pending.stepOver = none
  /-- A step over is for the innermost task, if it is for a task at all. -/
  target : (after settings events).stepOverTarget? =
    if (after settings events).atTargetStart then none
    else (after settings events).stack.top?.map CallFrame.id
  /-- At the start of a task, that one is to be stepped over is no reason to hold the build. -/
  start : ∀ f, (after settings events).holdReason? (.taskStarted f) =
    { after settings events with
      pending := { (after settings events).pending with stepOver := none } }.holdReason?
        (.taskStarted f)

/-- Where the task to be stepped over did not finish last, the request to step over it is no
reason to hold the build. -/
theorem suspendReason?_of_stepOver_ne {s : Session}
    (hne : ∀ id, s.pending.stepOver = some id → s.lastFinished ≠ some id)
    (place : Option Location) :
    s.suspendReason? place =
      { s with pending := { s.pending with stepOver := none } }.suspendReason? place := by
  unfold suspendReason?
  cases hover : s.pending.stepOver with
  | none => simp
  | some id => simp [Ne.symm (hne id hover)]

/-- The invariant holds after every history in which each frame starts at most once and finishes
only after it started. -/
theorem invariant_after (settings : DebugSettings) {events : List SessionEvent}
    (orderly : Orderly events) : Invariant settings events := by
  have htop := currentOnTop_after settings events
  have hcoherent := coherent_after settings orderly
  have hne (id : FrameId) (hid : (after settings events).pending.stepOver = some id) :
      (after settings events).lastFinished ≠ some id :=
    fun hlast => (hcoherent.finished id hlast).2 (hcoherent.stepOver id hid)
  exact {
    current := by
      intro id hid
      rw [CallStack.map_id_top?]
      exact htop id hid
    stepOver := fun id hid => ⟨hcoherent.stepOver id hid, hne id hid⟩
    finished := fun f hf hlast =>
      (hcoherent.finished f.id hlast).2 (List.mem_map_of_mem hf)
    begins := by
      rintro before event later rfl hbegins
      refine ⟨?_, pending_within settings orderly hbegins⟩
      rw [after_concat]
      exact Moment.pending_of_suspends hbegins (coherent_after settings orderly.of_append).atRest
    held := fun hheld =>
      ⟨exists_suspends_of_held settings hheld, no_step_while_held settings orderly hheld⟩
    target := by
      rw [htop.stepOverTarget?_eq, CallStack.map_id_top?]
    start := fun f => suspendReason?_of_stepOver_ne (s := (after settings events).noteStart f) hne _
  }

/-- A history in which a step over is asked for while the build runs, and the task around the one to
be stepped over finishes first. When that one finishes too the build is held, and the client asks
for a suspension once more. -/
def outerFinishesFirst : List SessionEvent :=
  [.build (.buildStarted {}), .attached, .command {} {} .resume,
    .build (.targetStarted emptyTarget), .build (.taskStarted enclosingTask),
    .build (.taskStarted nestedTask), .command {} {} .stepOver,
    .build (.taskFinished enclosingTask), .command {} {} .suspend,
    .build (.taskFinished nestedTask), .command {} {} .suspend]

/-- The task that is to be stepped over is in execution although the one around it has finished. The
request for a suspension that came before the build was held is gone, and the later one is kept. -/
theorem outerFinishesFirst_invariant :
    (Orderly (outerFinishesFirst.take 9) ∧
      (after { port := some 0 } (outerFinishesFirst.take 9)).pending =
        { stepOver := some nestedTask.id, suspend := true } ∧
      Invariant { port := some 0 } (outerFinishesFirst.take 9)) ∧
    Orderly outerFinishesFirst ∧
      (after { port := some 0 } outerFinishesFirst).status = .suspended .step ∧
      (after { port := some 0 } outerFinishesFirst).pending = { suspend := true } ∧
      Invariant { port := some 0 } outerFinishesFirst := by
  have orderly : Orderly outerFinishesFirst := by
    simp [Orderly, OrderlyFrom, outerFinishesFirst, SessionEvent.started?, SessionEvent.finished?,
      enclosingTask, nestedTask]
  have hcut : Orderly (outerFinishesFirst.take 9 ++ outerFinishesFirst.drop 9) := orderly
  have horderly : Orderly (outerFinishesFirst.take 9) := hcut.of_append
  exact ⟨⟨horderly, rfl, invariant_after _ horderly⟩, orderly, rfl, rfl, invariant_after _ orderly⟩

end Session

end BuildStepper
