import BuildStepper.Proofs.Session.History
import BuildStepper.Proofs.Session.Transitions

/-!
# The invariant of a session

The fields of a session hang together. The task that started last is the innermost one, as long as
it is kept (`CurrentOnTop`), whatever the build tells. For a build whose frames are orderly,
`Coherent` says how the stack, the task that finished last, the requests and the status go together,
and `coherent_after` that they do after every history.

What carries the stepping is the field `stepOver` together with `finished`: a task that is being
stepped over is still in execution, and the task that finished last is not, so the two agree only at
the moment at which the task stepped over finishes. That moment holds the build, and a hold takes up
all requests; this is why the pair survives the finish of a task.
-/

namespace BuildStepper.Session

open Wire (Command Notification SuspendReason)

/-- The task that started last is the innermost one, and no target has started since. -/
def CurrentOnTop (s : Session) : Prop :=
  ∀ id, s.current = some id → s.stack.ids.head? = some id ∧ s.atTargetStart = false

namespace CurrentOnTop

variable {s t : Session}

/-- The task that a step over runs to the end of is the innermost one. -/
theorem stepOverTarget?_eq (h : s.CurrentOnTop) :
    s.stepOverTarget? = if s.atTargetStart then none else s.stack.ids.head? := by
  unfold stepOverTarget?
  rw [CallStack.map_id_top?]
  cases hcurrent : s.current with
  | none => simp
  | some id =>
    obtain ⟨htop, hflag⟩ := h id hcurrent
    simp [hflag, htop]

/-- The task that started last stays on top for as long as the build tells nothing. -/
theorem of_sameBuild (h : s.CurrentOnTop) (same : s.SameBuild t) : t.CurrentOnTop := by
  unfold CurrentOnTop
  rw [same.stack, same.current, same.atTargetStart]
  exact h

/-- It stays so whatever the build tells next. -/
theorem note (h : s.CurrentOnTop) (event : BuildEvent) : (s.note event).CurrentOnTop := by
  cases event with
  | taskStarted f => exact fun _ hid => ⟨hid, rfl⟩
  | taskFinished f =>
    intro id hid
    cases hid
  | targetStarted t =>
    intro id hid
    cases hid
  | _ => exact h

/-- It stays so whatever happens next. -/
theorem step (h : s.CurrentOnTop) (event : SessionEvent) : (s.step event).1.CurrentOnTop := by
  by_cases hover : event = .build .buildFinished
  · subst hover
    intro id hid
    cases hid
  · refine of_sameBuild ?_ (told_sameBuild s hover)
    cases event with
    | build event =>
      simp only [told]
      split
      · exact h.note event
      · exact h
    | _ => exact h

end CurrentOnTop

/-- After any history the task that started last is the innermost one. -/
theorem currentOnTop_after (settings : DebugSettings) (events : List SessionEvent) :
    (after settings events).CurrentOnTop := by
  induction events using List.reverseRecOn with
  | nil =>
    intro id hid
    cases hid
  | append_singleton events event ih =>
    rw [after_concat]
    exact ih.step event

/-- How the fields of a session hang together, `started` being the frames that have started. -/
structure Coherent (started : List FrameId) (s : Session) : Prop where
  /-- What is in execution has started. -/
  openStarted : ∀ id ∈ s.stack.ids, id ∈ started
  /-- Nothing is in execution twice. -/
  openDistinct : s.stack.ids.Nodup
  /-- The task that finished last has started, and is not in execution. -/
  finished : ∀ id, s.lastFinished = some id → id ∈ started ∧ id ∉ s.stack.ids
  /-- A task that is to be stepped over is in execution. -/
  stepOver : ∀ id, s.pending.stepOver = some id → id ∈ s.stack.ids
  /-- Without a client nothing is asked for. -/
  atRest : s.status.isLive = false → s.pending = {}

/-- A session in its beginning is coherent. -/
theorem coherent_start (settings : DebugSettings) : Coherent [] { settings } where
  openStarted := by simp [CallStack.ids]
  openDistinct := by simp [CallStack.ids]
  finished := by simp
  stepOver := by simp
  atRest := fun _ => rfl

namespace Coherent

variable {started : List FrameId} {s t : Session}

/-- More frames may have started than are told of. -/
theorem mono (h : Coherent started s) {more : List FrameId} (hmore : started ⊆ more) :
    Coherent more s where
  openStarted := fun id hid => hmore (h.openStarted id hid)
  openDistinct := h.openDistinct
  finished := fun id hid => ⟨hmore (h.finished id hid).1, (h.finished id hid).2⟩
  stepOver := h.stepOver
  atRest := h.atRest

/-- Coherence rests on what the build has told and on the requests. -/
theorem of_sameBuild (h : Coherent started s) (same : s.SameBuild t)
    (hover : ∀ id, t.pending.stepOver = some id → id ∈ s.stack.ids)
    (hrest : t.status.isLive = false → t.pending = {}) : Coherent started t where
  openStarted := by rw [same.stack]; exact h.openStarted
  openDistinct := by rw [same.stack]; exact h.openDistinct
  finished := by rw [same.stack, same.lastFinished]; exact h.finished
  stepOver := by rw [same.stack]; exact hover
  atRest := hrest

/-- Where all requests are dropped, coherence rests on what the build has told. -/
theorem of_cleared (h : Coherent started s) (same : s.SameBuild t) (hclear : t.pending = {}) :
    Coherent started t :=
  h.of_sameBuild same (by simp [hclear]) (fun _ => hclear)

/-- A hold keeps coherence, if there is one. -/
theorem suspendIf (h : Coherent started s) (reason : Option SuspendReason) :
    Coherent started (s.suspendIf reason).1 := by
  cases reason with
  | none => exact h
  | some reason => exact h.of_cleared (suspendIf_sameBuild s (some reason)) rfl

/-- A command keeps coherence. -/
theorem dispatch (h : Coherent started s) (htop : s.CurrentOnTop) (all user : PropertyTable)
    (command : Command) : Coherent started (s.dispatch all user command).1 := by
  cases live : s.status.isLive with
  | false => rw [dispatch_of_not_live live]; exact h
  | true =>
    refine h.of_sameBuild (dispatch_sameBuild s all user command) ?_ ?_
    · intro id hid
      rw [dispatch_pending live] at hid
      cases command with
      | stepOver =>
        cases htarget : s.stepOverTarget? with
        | none =>
          simp only [htarget] at hid
          exact h.stepOver id hid
        | some target =>
          -- The step over is asked for now, and then its task is the innermost one.
          simp only [htarget, Option.some.injEq] at hid
          rw [htop.stepOverTarget?_eq] at htarget
          split at htarget
          · cases htarget
          · rw [← hid]
            exact List.mem_of_mem_head? htarget
      | terminate => simp at hid
      | _ => exact h.stepOver id hid
    · intro hdead
      rw [dispatch_status live] at hdead
      rw [dispatch_pending live]
      by_cases hterminate : command = .terminate
      · rw [hterminate]
      · rw [if_neg hterminate] at hdead
        split at hdead
        · simp [Status.isLive] at hdead
        · rw [live] at hdead
          cases hdead

/-- The start of a frame that has not started before keeps coherence. -/
theorem noteStart (h : Coherent started s) (live : s.status.isLive = true) {f : CallFrame}
    (hnew : f.id ∉ started) : Coherent (started ++ [f.id]) (s.noteStart f) where
  openStarted := by
    intro id hid
    rcases List.mem_cons.1 hid with rfl | hid
    · simp
    · exact List.mem_append_left _ (h.openStarted id hid)
  openDistinct := List.nodup_cons.2 ⟨fun hid => hnew (h.openStarted _ hid), h.openDistinct⟩
  finished := by
    intro id hid
    obtain ⟨hstarted, hopen⟩ := h.finished id hid
    refine ⟨List.mem_append_left _ hstarted, fun hmem => ?_⟩
    rcases List.mem_cons.1 hmem with rfl | hmem
    · exact hnew hstarted
    · exact hopen hmem
  stepOver := fun id hid => List.mem_cons_of_mem _ (h.stepOver id hid)
  atRest := fun hdead => absurd (live.symm.trans hdead) (by decide)

/-- The finish of a frame that has started keeps coherence. If it was to be stepped over, the build
is held now and nothing is asked for any more. -/
theorem noteFinish (h : Coherent started s) (live : s.status.isLive = true) {f : CallFrame}
    (hold : f.id ∈ started) :
    Coherent started ((s.noteFinish f).suspendIf ((s.noteFinish f).suspendReason? none)).1 := by
  -- But for the request, what is taken down is coherent whichever task finished.
  have hbare : Coherent started
      { s.noteFinish f with pending := { s.pending with stepOver := none } } :=
    { openStarted := by
        intro id hid
        rw [Session.noteFinish, CallStack.ids_pop] at hid
        exact h.openStarted id (List.mem_of_mem_erase hid)
      openDistinct := by
        rw [Session.noteFinish, CallStack.ids_pop]
        exact h.openDistinct.erase f.id
      finished := by
        rintro id hid
        cases hid
        rw [Session.noteFinish, CallStack.ids_pop]
        exact ⟨hold, h.openDistinct.not_mem_erase⟩
      stepOver := by simp
      atRest := fun hdead => absurd (live.symm.trans hdead) (by decide) }
  by_cases hover : s.pending.stepOver = some f.id
  · -- The task was stepped over: the session finds a reason, and the hold drops the request.
    have hreason : ((s.noteFinish f).suspendReason? none).isSome = true :=
      isSome_suspendReason?_of_stepOver (s := s.noteFinish f) hover rfl none
    obtain ⟨reason, hreason⟩ := Option.isSome_iff_exists.1 hreason
    rw [hreason]
    exact hbare.of_cleared ⟨rfl, rfl, rfl, rfl, rfl, rfl⟩ rfl
  · -- Another task is stepped over, if any, and that one is still in execution.
    refine Coherent.suspendIf ?_ _
    refine hbare.of_sameBuild ⟨rfl, rfl, rfl, rfl, rfl, rfl⟩ ?_ ?_
    · intro id hid
      have hne : id ≠ f.id := fun heq => hover (heq ▸ hid)
      rw [Session.noteFinish, CallStack.ids_pop]
      exact (List.mem_erase_of_ne hne).2 (h.stepOver id hid)
    · exact fun hdead => absurd (live.symm.trans hdead) (by decide)

/-- The start of a target keeps coherence. -/
theorem noteTarget (h : Coherent started s) (target : Target) :
    Coherent started (s.noteTarget target) :=
  { h with }

/-- The end of the build keeps coherence, since it leaves nothing in execution. -/
theorem buildFinished (h : Coherent started s) : Coherent started s.buildFinished.1 where
  openStarted := by simp [Session.buildFinished, CallStack.ids]
  openDistinct := by simp [Session.buildFinished, CallStack.ids]
  finished := fun id hid => ⟨(h.finished id hid).1, by simp [Session.buildFinished, CallStack.ids]⟩
  stepOver := by simp [Session.buildFinished, terminate]
  atRest := fun _ => rfl

/-- A callback of a live session keeps coherence, if the build keeps its promise about frames. -/
theorem callback_of_live (h : Coherent started s) (live : s.status.isLive = true)
    {event : BuildEvent}
    (hnew : ∀ id, (SessionEvent.build event).started? = some id → id ∉ started)
    (hold : ∀ id, (SessionEvent.build event).finished? = some id → id ∈ started) :
    Coherent (started ++ (SessionEvent.build event).started?.toList) (s.callback event).1 := by
  have hmore : Coherent (started ++ (SessionEvent.build event).started?.toList) s :=
    h.mono (List.subset_append_left _ _)
  by_cases hover : event = .buildFinished
  · subst hover
    exact hmore.buildFinished
  · rw [Session.callback_of_live live hover]
    cases event with
    | buildStarted baseline => exact hmore
    | targetStarted target => exact (hmore.noteTarget target).suspendIf _
    | targetFinished target => exact { hmore with }
    | taskStarted f => exact (h.noteStart live (hnew f.id rfl)).suspendIf _
    | taskFinished f => exact hmore.noteFinish live (List.mem_append_left _ (hold f.id rfl))
    | buildFinished => exact absurd rfl hover

/-- So does a callback of any other session, which hardly listens. -/
theorem callback_of_not_live (h : Coherent started s) (hdead : s.status.isLive = false)
    (event : BuildEvent) : Coherent started (s.callback event).1 := by
  cases event with
  | buildStarted baseline =>
    have same : s.SameBuild (s.step (.build (.buildStarted baseline))).1 := step_sameBuild s rfl
    refine h.of_cleared same ?_
    simp only [callback, buildStarted]
    split <;> exact h.atRest hdead
  | buildFinished => exact h.buildFinished
  | _ => rwa [Session.callback_of_not_live hdead rfl (by simp)]

/-- What happens next keeps coherence, if the build keeps its promise about frames. -/
theorem step (h : Coherent started s) (htop : s.CurrentOnTop) {event : SessionEvent}
    (hnew : ∀ id, event.started? = some id → id ∉ started)
    (hold : ∀ id, event.finished? = some id → id ∈ started) :
    Coherent (started ++ event.started?.toList) (s.step event).1 := by
  have hmore : Coherent (started ++ event.started?.toList) s := h.mono (List.subset_append_left _ _)
  cases event with
  | build event =>
    cases live : s.status.isLive with
    | true => exact h.callback_of_live live hnew hold
    | false => exact hmore.callback_of_not_live live event
  | command all user command => exact hmore.dispatch htop all user command
  | attached =>
    -- Attaching drops the requests of a session that had none.
    have same : s.SameBuild (s.step .attached).1 := step_sameBuild s rfl
    simp only [Session.step, attach] at same ⊢
    split
    next hwaiting =>
      refine hmore.of_cleared ?_ (h.atRest (by simp [hwaiting, Status.isLive]))
      simpa only [hwaiting] using same
    next => exact hmore
  | abandoned =>
    simp only [Session.step, abandon]
    split
    · exact hmore.of_cleared ⟨rfl, rfl, rfl, rfl, rfl, rfl⟩ rfl
    · exact hmore
  | disconnected =>
    simp only [Session.step, disconnect]
    split
    · exact hmore.of_cleared ⟨rfl, rfl, rfl, rfl, rfl, rfl⟩ rfl
    · exact hmore

end Coherent

/-- A session is coherent after every orderly history. -/
theorem coherent_after (settings : DebugSettings) {events : List SessionEvent}
    (orderly : Orderly events) : Coherent (startedIn events) (after settings events) := by
  induction events using List.reverseRecOn with
  | nil => exact coherent_start settings
  | append_singleton events event ih =>
    obtain ⟨hevents, hnew, hold⟩ := orderly.concat
    rw [after_concat, startedIn_concat]
    exact (ih hevents).step (currentOnTop_after settings events) hnew hold

end BuildStepper.Session
