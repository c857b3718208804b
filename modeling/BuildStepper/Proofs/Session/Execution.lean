import BuildStepper.Proofs.Session.Output
import Mathlib.Data.List.Nodup

/-!
# What is in execution

A session keeps the tasks and targets in execution. What it should keep can be said of the history
alone: a task is in execution if it has started and not finished since (`openFrames`), and a target
if it has started and not finished, where the target that finishes is always the innermost one
(`openTargets`). A session is told only while it is live, so that what counts is the part of the
history since it came to be (`sinceLive`).

`KnowsExecution` says that a live session keeps exactly that, that this is what its client is told
of the stack, and that no command of the client touches it; `knows_execution` proves it. The proof
takes the events off at the end of the history. What carries it is that no task is on the stack
twice, so that taking off one frame takes off all with its identity, and that the targets of the
session are the innermost ones of all that are in execution, so that the one which finishes is the
innermost one of the session too, or none of them.
-/

namespace BuildStepper

open Wire (Command Notification FrameRecord)

/-! ## Tasks -/

/-- The task that an event starts. -/
def SessionEvent.frame? : SessionEvent → Option CallFrame
  | .build (.taskStarted f) => some f
  | _ => none

/-- A task starts under its identity. -/
theorem SessionEvent.map_id_frame? (event : SessionEvent) :
    event.frame?.map CallFrame.id = event.started? := by
  cases event with
  | build called => cases called <;> rfl
  | _ => rfl

/-- Only the start of a task has a frame that comes to be in execution. -/
theorem SessionEvent.eq_of_frame? {event : SessionEvent} {f : CallFrame}
    (h : event.frame? = some f) : event = .build (.taskStarted f) := by
  cases event with
  | build called =>
    cases called with
    | taskStarted g => exact congrArg _ (congrArg _ (Option.some.inj h))
    | _ => cases h
  | _ => cases h

/-- The frames that events finish, in order. -/
def finishedIn (events : List SessionEvent) : List FrameId :=
  events.filterMap SessionEvent.finished?

/-- Without events nothing has finished. -/
@[simp] theorem finishedIn_nil : finishedIn [] = [] := rfl

/-- What has finished can be collected piece by piece. -/
theorem finishedIn_append (before later : List SessionEvent) :
    finishedIn (before ++ later) = finishedIn before ++ finishedIn later :=
  List.filterMap_append

/-- In one event finishes what it is the finish of. -/
theorem finishedIn_singleton (event : SessionEvent) :
    finishedIn [event] = event.finished?.toList := by
  cases h : event.finished? <;> simp [finishedIn, h]

/-- The tasks that events start and do not finish thereafter, the last to start first. -/
def openFrames : List SessionEvent → List CallFrame
  | [] => []
  | event :: later =>
    openFrames later ++ (event.frame?.filter fun f => f.id ∉ finishedIn later).toList

/-- What is in execution stays so unless it finishes. -/
theorem openFrames_append (before later : List SessionEvent) :
    openFrames (before ++ later) =
      openFrames later ++ (openFrames before).filter fun f => f.id ∉ finishedIn later := by
  induction before with
  | nil => simp [openFrames]
  | cons event before ih =>
    simp only [List.cons_append, openFrames, ih, finishedIn_append, List.filter_append,
      List.append_assoc]
    cases event.frame? with
    | none => rfl
    | some f =>
      by_cases hbefore : f.id ∈ finishedIn before <;> by_cases hlater : f.id ∈ finishedIn later <;>
        simp [Option.filter, hbefore, hlater]

/-- What is in execution after one more event. -/
theorem openFrames_concat (events : List SessionEvent) (event : SessionEvent) :
    openFrames (events ++ [event]) =
      event.frame?.toList ++ (openFrames events).filter fun f => event.finished? ≠ some f.id := by
  have hlast : openFrames [event] = event.frame?.toList := by
    cases hframe : event.frame? <;> simp [openFrames, Option.filter, hframe]
  rw [openFrames_append, hlast, finishedIn_singleton]
  congr 1
  refine List.filter_congr fun f _ => ?_
  cases event.finished? <;> simp [eq_comm]

/-- What is in execution has started, in this order. -/
theorem ids_openFrames_sublist (events : List SessionEvent) :
    ((openFrames events).map CallFrame.id).Sublist (startedIn events).reverse := by
  induction events with
  | nil => exact List.Sublist.refl []
  | cons event events ih =>
    have hstarted : startedIn (event :: events) = event.started?.toList ++ startedIn events := by
      cases hstart : event.started? <;> simp [startedIn, hstart]
    rw [hstarted, List.reverse_append, openFrames, List.map_append]
    refine ih.append ?_
    rw [← event.map_id_frame?]
    cases event.frame? with
    | none => exact List.Sublist.refl []
    | some f =>
      by_cases hfinished : f.id ∈ finishedIn events <;> simp [Option.filter, hfinished]

/-- No task finishes before it starts. -/
def FinishesLater (events : List SessionEvent) : Prop :=
  ∀ before f later, events = before ++ .build (.taskStarted f) :: later → f.id ∉ finishedIn before

/-- Where no task finishes before it starts, what is in execution has started and is finished by no
event. -/
theorem FinishesLater.openFrames_eq {events : List SessionEvent} (h : FinishesLater events) :
    openFrames events = (events.filterMap SessionEvent.frame?).reverse.filter fun f =>
      f.id ∉ finishedIn events := by
  induction events using List.reverseRecOn with
  | nil => rfl
  | append_singleton events event ih =>
    have hevents : FinishesLater events := fun before f later heq =>
      h before f (later ++ [event]) (by rw [heq, List.append_assoc, List.cons_append])
    rw [openFrames_concat, ih hevents, List.filterMap_append, List.reverse_append,
      List.filter_append, List.filter_filter]
    congr 1
    · -- The event itself finishes nothing if it starts a task, and that task did not finish before.
      cases event with
      | build called =>
        cases called with
        | taskStarted f =>
          have hnot : f.id ∉ finishedIn (events ++ [.build (.taskStarted f)]) := by
            rw [finishedIn_append, finishedIn_singleton]
            simpa [SessionEvent.finished?] using h events f [] rfl
          simp [SessionEvent.frame?, hnot]
        | _ => rfl
      | _ => rfl
    · refine List.filter_congr fun f _ => ?_
      rw [finishedIn_append, finishedIn_singleton]
      cases event.finished? <;> simp [eq_comm, and_comm]

/-! ## Targets -/

/-- The targets that are left once one finishes: it is the innermost one, or none of them. -/
def finishTarget (t : Target) : List Target → List Target
  | [] => []
  | u :: targets => if u.same t then targets else u :: targets

/-- The targets in execution, innermost first, after an event. -/
def SessionEvent.targets (running : List Target) : SessionEvent → List Target
  | .build (.targetStarted t) => t :: running
  | .build (.targetFinished t) => finishTarget t running
  | _ => running

/-- The targets that events start and do not finish, innermost first. -/
def openTargets (events : List SessionEvent) : List Target :=
  events.foldl SessionEvent.targets []

/-- The last event starts or finishes a target of those that were open before it. -/
theorem openTargets_concat (events : List SessionEvent) (event : SessionEvent) :
    openTargets (events ++ [event]) = event.targets (openTargets events) := by
  unfold openTargets
  rw [List.foldl_append]
  rfl

/-- What the build promises of its targets, those in `running` being in execution: if the one that
finishes is in execution, it is the innermost one. Targets are told apart by what they say of
themselves. -/
def NestedFrom (running : List Target) : List SessionEvent → Prop
  | [] => True
  | event :: events =>
    (∀ t, event = .build (.targetFinished t) → running.any (·.same t) = true →
      running.head?.any (·.same t) = true) ∧
      NestedFrom (event.targets running) events

/-- The innermost target is the first to finish. -/
def TargetsNested (events : List SessionEvent) : Prop :=
  NestedFrom [] events

/-- If targets nest along a history, they do up to its last event, and a target that finishes there
is the innermost one. -/
theorem nestedFrom_concat {running : List Target} {events : List SessionEvent}
    {event : SessionEvent} (h : NestedFrom running (events ++ [event])) :
    NestedFrom running events ∧ ∀ t, event = .build (.targetFinished t) →
      (events.foldl SessionEvent.targets running).any (·.same t) = true →
        (events.foldl SessionEvent.targets running).head?.any (·.same t) = true := by
  induction events generalizing running with
  | nil => exact ⟨trivial, h.1⟩
  | cons first events ih =>
    obtain ⟨hfirst, hrest⟩ := h
    obtain ⟨hevents, hlast⟩ := ih hrest
    exact ⟨⟨hfirst, hevents⟩, hlast⟩

/-- The promise, taken apart at the last event. -/
theorem TargetsNested.concat {events : List SessionEvent} {event : SessionEvent}
    (h : TargetsNested (events ++ [event])) :
    TargetsNested events ∧ ∀ t, event = .build (.targetFinished t) →
      (openTargets events).any (·.same t) = true →
        (openTargets events).head?.any (·.same t) = true :=
  nestedFrom_concat h

/-- Where the innermost target is the first to finish, so it is among the innermost ones. -/
theorem eraseP_eq_finishTarget {t : Target} {inner outer : List Target}
    (hnested : (inner ++ outer).any (·.same t) = true →
      (inner ++ outer).head?.any (·.same t) = true) :
    inner.eraseP (·.same t) = finishTarget t inner := by
  cases inner with
  | nil => rfl
  | cons u inner =>
    cases hsame : u.same t with
    | true => simp [finishTarget, hsame]
    | false =>
      -- The innermost target does not finish, so that none does.
      have hnone : ∀ v ∈ inner, v.same t = false := by
        intro v hv
        by_contra hv'
        have hhead := hnested (List.any_eq_true.2 ⟨v, by simp [hv], by simpa using hv'⟩)
        simp [hsame] at hhead
      rw [finishTarget, List.eraseP_cons_of_neg (by simp [hsame]),
        List.eraseP_of_forall_not (by simpa using hnone)]
      simp [hsame]

/-- What finishes among the innermost targets is what finishes among all. -/
theorem finishTarget_append {t : Target} {inner outer : List Target}
    (hnested : (inner ++ outer).any (·.same t) = true →
      (inner ++ outer).head?.any (·.same t) = true) :
    ∃ outer', finishTarget t (inner ++ outer) = finishTarget t inner ++ outer' := by
  cases inner with
  | nil => exact ⟨finishTarget t outer, rfl⟩
  | cons u inner =>
    refine ⟨outer, ?_⟩
    simp only [List.cons_append, finishTarget]
    split <;> rfl


namespace Session

/-! ## The part of a history that a session is told -/

/-- What happened since a session came to be live. -/
def sinceLive (settings : DebugSettings) (events : List SessionEvent) : List SessionEvent :=
  ((({ settings } : Session).moments events).dropWhile (!·.before.status.isLive)).map Moment.event

/-- Without events nothing has happened. -/
@[simp] theorem sinceLive_nil (settings : DebugSettings) : sinceLive settings [] = [] := rfl

/-- The last event counts if the session was live before it, or has been since another event. -/
theorem sinceLive_concat (settings : DebugSettings) (events : List SessionEvent)
    (event : SessionEvent) :
    sinceLive settings (events ++ [event]) =
      if (after settings events).status.isLive || !(sinceLive settings events).isEmpty then
        sinceLive settings events ++ [event]
      else [] := by
  have hmoments : ({ settings } : Session).moments (events ++ [event]) =
      ({ settings } : Session).moments events ++ [⟨after settings events, event⟩] :=
    moments_concat _ _ _
  unfold sinceLive
  rw [hmoments, List.dropWhile_append]
  generalize (({ settings } : Session).moments events).dropWhile _ = ms
  cases ms <;> cases h : (after settings events).status.isLive <;> simp [h]

/-- The events of the moments of a history. -/
theorem map_event_moments (s : Session) (events : List SessionEvent) :
    (s.moments events).map Moment.event = events := by
  induction events generalizing s with
  | nil => rfl
  | cons event events ih => simp [moments, ih]

/-- What a session is told since it came to be live is the end of the history. -/
theorem sinceLive_suffix (settings : DebugSettings) (events : List SessionEvent) :
    sinceLive settings events <:+ events := by
  have hsuffix := (List.dropWhile_suffix (l := ({ settings } : Session).moments events)
    (!·.before.status.isLive)).map Moment.event
  rwa [map_event_moments] at hsuffix

/-- The end of the build leaves no session live. -/
theorem ne_buildFinished_of_live {settings : DebugSettings} {events : List SessionEvent}
    {event : SessionEvent} (live : (after settings (events ++ [event])).status.isLive = true) :
    event ≠ .build .buildFinished := by
  rintro rfl
  rw [after_concat] at live
  cases live

/-- A session that is not live, and not over, has been told nothing. -/
theorem untold_of_not_live (settings : DebugSettings) {events : List SessionEvent}
    (hdead : (after settings events).status.isLive = false)
    (hgoing : (after settings events).status ≠ .terminated) :
    sinceLive settings events = [] ∧ (after settings events).stack = {} ∧
      (after settings events).targets = [] := by
  induction events using List.reverseRecOn with
  | nil => exact ⟨rfl, rfl, rfl⟩
  | append_singleton events event ih =>
    rw [after_concat] at hdead hgoing ⊢
    obtain ⟨hbefore, hearlier⟩ := unattended_of_step hdead hgoing
    have hover : event ≠ .build .buildFinished := by
      rintro rfl
      exact hgoing rfl
    obtain ⟨hsince, hstack, htargets⟩ := ih hbefore hearlier
    -- It is not told of the event either.
    have same := told_sameBuild (after settings events) hover
    rw [told_of_not_live hbefore] at same
    refine ⟨?_, by rw [same.stack, hstack], by rw [same.targets, htargets]⟩
    rw [sinceLive_concat, hsince, hbefore]
    rfl

/-! ## What a session keeps of it -/

/-- Where no frame is on the stack twice, all with an identity leave it with one of them. -/
theorem frames_pop_eq_filter {stack : CallStack} (hnodup : stack.ids.Nodup) (id : FrameId) :
    (stack.pop id).frames = stack.frames.filter (·.id ≠ id) := by
  obtain ⟨frames⟩ := stack
  simp only [CallStack.frames_pop, CallStack.ids] at hnodup ⊢
  induction frames with
  | nil => rfl
  | cons f frames ih =>
    obtain ⟨hnew, hnodup⟩ := List.nodup_cons.1 hnodup
    by_cases hid : f.id = id
    · subst hid
      -- The frame is the only one with its identity.
      have hothers : frames.filter (·.id ≠ f.id) = frames := by
        refine List.filter_eq_self.2 fun g hg => ?_
        have hne : g.id ≠ f.id := fun heq => hnew (heq ▸ List.mem_map_of_mem hg)
        simpa using hne
      simpa using hothers.symm
    · simp [hid, ih hnodup]

/-- A live session takes down the task that starts or finishes. -/
theorem told_frames {s : Session} (live : s.status.isLive = true) (hnodup : s.stack.ids.Nodup)
    (event : SessionEvent) :
    (s.told event).stack.frames =
      event.frame?.toList ++ s.stack.frames.filter fun f => event.finished? ≠ some f.id := by
  have hkept : s.stack.frames =
      s.stack.frames.filter fun f => (none : Option FrameId) ≠ some f.id := by simp
  cases event with
  | build called =>
    simp only [told, if_pos live]
    cases called with
    | taskFinished f =>
      simp only [note, noteFinish, frames_pop_eq_filter hnodup, SessionEvent.frame?,
        SessionEvent.finished?, Option.toList_none, List.nil_append]
      exact List.filter_congr fun g _ => by simp [eq_comm]
    | taskStarted f => exact congrArg (f :: ·) hkept
    | _ => exact hkept
  | _ => exact hkept

/-- A live session takes down the target that starts or finishes. -/
theorem told_targets {s : Session} (live : s.status.isLive = true) {event : SessionEvent}
    (hinner : ∀ t, event = .build (.targetFinished t) →
      s.targets.eraseP (·.same t) = finishTarget t s.targets) :
    (s.told event).targets = event.targets s.targets := by
  cases event with
  | build called =>
    simp only [told, if_pos live]
    cases called with
    | targetFinished t => exact hinner t rfl
    | _ => rfl
  | _ => rfl

/-- A live session keeps the tasks in execution, if no frame starts twice. -/
theorem frames_after (settings : DebugSettings) {events : List SessionEvent}
    (once : (startedIn events).Nodup) (live : (after settings events).status.isLive = true) :
    (after settings events).stack.frames = openFrames (sinceLive settings events) := by
  induction events using List.reverseRecOn with
  | nil => cases live
  | append_singleton events event ih =>
    have hevents : (startedIn events).Nodup := by
      rw [startedIn_concat] at once
      exact once.of_append_left
    have hover := ne_buildFinished_of_live live
    rw [after_concat] at live ⊢
    rw [(told_sameBuild (after settings events) hover).stack, sinceLive_concat]
    cases hbefore : (after settings events).status.isLive with
    | true =>
      have hframes := ih hevents hbefore
      -- No frame is on the stack twice, since none has started twice.
      have hnodup : (after settings events).stack.ids.Nodup := by
        have hsub := (sinceLive_suffix settings events).sublist.filterMap SessionEvent.started?
        rw [CallStack.ids, hframes]
        exact (List.nodup_reverse.2 (hevents.sublist hsub)).sublist (ids_openFrames_sublist _)
      rw [Bool.true_or, if_pos rfl, openFrames_concat, ← hframes]
      exact told_frames hbefore hnodup event
    | false =>
      -- The session comes to be live, and has been told nothing.
      obtain ⟨rfl, port, hwaiting⟩ := eq_attached_of_live hbefore live
      obtain ⟨hsince, hstack, -⟩ := untold_of_not_live settings hbefore (by rw [hwaiting]; simp)
      rw [hsince]
      exact congrArg CallStack.frames hstack

/-- A live session keeps the targets in execution, if the innermost one is the first to finish. They
are the innermost ones of all that are in execution. -/
theorem targets_after (settings : DebugSettings) {events : List SessionEvent}
    (nested : TargetsNested events) (live : (after settings events).status.isLive = true) :
    (after settings events).targets = openTargets (sinceLive settings events) ∧
      ∃ outer, openTargets events = (after settings events).targets ++ outer := by
  induction events using List.reverseRecOn with
  | nil => cases live
  | append_singleton events event ih =>
    obtain ⟨hnested, hinner⟩ := nested.concat
    have hover := ne_buildFinished_of_live live
    rw [after_concat] at live ⊢
    -- What a live session is told of targets it keeps, and the onlooker keeps the same.
    rw [(told_sameBuild (after settings events) hover).targets, openTargets_concat,
      sinceLive_concat]
    cases hbefore : (after settings events).status.isLive with
    | true =>
      obtain ⟨htargets, outer, houter⟩ := ih hnested hbefore
      rw [houter] at hinner ⊢
      have htold := told_targets hbefore fun t heq => eraseP_eq_finishTarget (hinner t heq)
      rw [Bool.true_or, if_pos rfl, openTargets_concat, ← htargets]
      refine ⟨htold, ?_⟩
      rw [htold]
      cases event with
      | build called =>
        cases called with
        | targetFinished t => exact finishTarget_append (hinner t rfl)
        | _ => exact ⟨outer, rfl⟩
      | _ => exact ⟨outer, rfl⟩
    | false =>
      -- A session comes to be live with no target, whatever is in execution outside.
      obtain ⟨rfl, port, hwaiting⟩ := eq_attached_of_live hbefore live
      obtain ⟨hsince, -, htargets⟩ := untold_of_not_live settings hbefore (by rw [hwaiting]; simp)
      rw [hsince]
      exact ⟨htargets, openTargets events, (congrArg (· ++ openTargets events) htargets).symm⟩

/-- Where no task finishes before it starts, a task that has started since the session is live is in
execution unless anything in the history finishes it. -/
theorem openFrames_sinceLive (settings : DebugSettings) {events : List SessionEvent}
    (h : FinishesLater events) :
    openFrames (sinceLive settings events) =
      ((sinceLive settings events).filterMap SessionEvent.frame?).reverse.filter fun f =>
        f.id ∉ finishedIn events := by
  obtain ⟨before, hsplit⟩ := sinceLive_suffix settings events
  generalize sinceLive settings events = since at hsplit ⊢
  subst hsplit
  have hsince : FinishesLater since := by
    rintro front f back rfl hmem
    refine h (before ++ front) f back (by rw [List.append_assoc]) ?_
    rw [finishedIn_append]
    exact List.mem_append_right _ hmem
  rw [hsince.openFrames_eq]
  refine List.filter_congr fun f hf => ?_
  -- What starts since the session is live did not finish before that.
  have hnot : f.id ∉ finishedIn before := by
    obtain ⟨event, hevent, hstarts⟩ := List.mem_filterMap.1 (List.mem_reverse.1 hf)
    obtain ⟨front, back, rfl⟩ := List.append_of_mem hevent
    obtain rfl := SessionEvent.eq_of_frame? hstarts
    have hfresh := h (before ++ front) f back (by rw [List.append_assoc])
    rw [finishedIn_append, List.mem_append, not_or] at hfresh
    exact hfresh.1
  simp [finishedIn_append, hnot]

/-! ## Builds that begin with their start -/

/-- The build reports its start before anything else. -/
def BeginsWithStart (events : List SessionEvent) : Prop :=
  ∀ before called later, events = before ++ .build called :: later →
    (∃ baseline, called = .buildStarted baseline) ∨
      ∃ baseline, .build (.buildStarted baseline) ∈ before

/-- A session that is idle has not been told that the build has started. -/
theorem not_started_of_idle (settings : DebugSettings) {events : List SessionEvent}
    (hidle : (after settings events).status = .idle) (baseline : PropertyTable) :
    .build (.buildStarted baseline) ∉ events := by
  induction events using List.reverseRecOn with
  | nil => exact List.not_mem_nil
  | append_singleton events event ih =>
    rw [after_concat] at hidle
    have hbefore := idle_of_step_idle hidle
    intro hmem
    rcases List.mem_append.1 hmem with hmem | hmem
    · exact ih hbefore hmem
    · -- The start of the build would have been the end of idleness.
      obtain rfl := List.mem_singleton.1 hmem
      rw [step_status_of_not_live (by rw [hbefore]; rfl), hbefore] at hidle
      cases hport : (after settings events).settings.listenPort? baseline <;> simp [hport] at hidle

/-- Before such a session is live the build tells nothing of targets and tasks. -/
theorem not_told_of_not_live (settings : DebugSettings) {events : List SessionEvent}
    (serial : ({ settings } : Session).Serial events) (begins : BeginsWithStart events)
    (hdead : (after settings events).status.isLive = false)
    (hgoing : (after settings events).status ≠ .terminated) :
    ∀ event ∈ events, event.tellsOfBuild = false := by
  induction events using List.reverseRecOn with
  | nil => simp
  | append_singleton events event ih =>
    rw [after_concat] at hdead hgoing
    obtain ⟨hserial, hadmits⟩ := serial.concat
    change (after settings events).admits event = true at hadmits
    have hbegins : BeginsWithStart events := fun before called later heq =>
      begins before called (later ++ [event]) (by rw [heq, List.append_assoc, List.cons_append])
    obtain ⟨hbefore, hnotover⟩ := unattended_of_step hdead hgoing
    have hearlier := ih hserial hbegins hbefore hnotover
    intro e he
    rcases List.mem_append.1 he with he | he
    · exact hearlier e he
    · obtain rfl := List.mem_singleton.1 he
      cases e with
      | build called =>
        cases hs : (after settings events).status with
        | idle =>
          -- The build has not started, so that this is its start.
          obtain ⟨baseline, rfl⟩ | ⟨baseline, hmem⟩ := begins events called [] rfl
          · rfl
          · exact absurd hmem (not_started_of_idle settings hs baseline)
        | awaiting port =>
          -- The thread of the build waits, so that another one ends the build.
          cases called <;> first
            | exact absurd rfl hgoing
            | simp [admits, hs, Status.blocksBuild] at hadmits
        | running => simp [hs, Status.isLive] at hbefore
        | suspended hold => simp [hs, Status.isLive] at hbefore
        | terminated => exact absurd (step_terminated hs _) hgoing
      | _ => rfl

/-- Where nothing is told, nothing comes to be in execution. -/
theorem open_of_not_told {events : List SessionEvent}
    (hnone : ∀ event ∈ events, event.tellsOfBuild = false) :
    openFrames events = [] ∧ openTargets events = [] := by
  induction events using List.reverseRecOn with
  | nil => exact ⟨rfl, rfl⟩
  | append_singleton events event ih =>
    obtain ⟨hframes, htargets⟩ := ih fun e he => hnone e (List.mem_append_left _ he)
    have hlast := hnone event (by simp)
    rw [openFrames_concat, openTargets_concat, hframes, htargets]
    cases event with
    | build called => cases called <;> first | exact ⟨rfl, rfl⟩ | cases hlast
    | _ => exact ⟨rfl, rfl⟩

/-- Such a session is live before anything comes to be in execution. -/
theorem open_sinceLive (settings : DebugSettings) {events : List SessionEvent}
    (serial : ({ settings } : Session).Serial events) (begins : BeginsWithStart events)
    (live : (after settings events).status.isLive = true) :
    openFrames (sinceLive settings events) = openFrames events ∧
      openTargets (sinceLive settings events) = openTargets events := by
  induction events using List.reverseRecOn with
  | nil => exact ⟨rfl, rfl⟩
  | append_singleton events event ih =>
    rw [after_concat] at live
    obtain ⟨hserial, -⟩ := serial.concat
    have hbegins : BeginsWithStart events := fun before called later heq =>
      begins before called (later ++ [event]) (by rw [heq, List.append_assoc, List.cons_append])
    cases hbefore : (after settings events).status.isLive with
    | true =>
      obtain ⟨hframes, htargets⟩ := ih hserial hbegins hbefore
      rw [sinceLive_concat, hbefore, Bool.true_or, if_pos rfl, openFrames_concat,
        openFrames_concat, openTargets_concat, openTargets_concat, hframes, htargets]
      exact ⟨rfl, rfl⟩
    | false =>
      -- Up to this event only the start of the build was called back.
      obtain ⟨rfl, port, hwaiting⟩ := eq_attached_of_live hbefore live
      have hgoing : (after settings events).status ≠ .terminated := by
        rw [hwaiting]
        simp
      obtain ⟨hframes, htargets⟩ :=
        open_of_not_told (not_told_of_not_live settings hserial hbegins hbefore hgoing)
      rw [sinceLive_concat, (untold_of_not_live settings hbefore hgoing).1, hbefore,
        openFrames_concat, openTargets_concat, hframes, htargets]
      exact ⟨rfl, rfl⟩

/-! ## What a live session knows -/

/-- What is reported of the tasks and targets in execution: the tasks or, where there is none, the
innermost target. -/
def reportOf : List CallFrame → List Target → List FrameRecord
  | [], [] => []
  | [], t :: _ => [t.record]
  | f :: frames, _ => (f :: frames).map CallFrame.record

/-- What a session knows of the execution after a history that leaves it live. -/
structure KnowsExecution (settings : DebugSettings) (events : List SessionEvent) : Prop where
  /-- On the stack are the tasks that have started since the session is live and not finished
  thereafter, the last to start first. -/
  frames : (after settings events).stack.frames = openFrames (sinceLive settings events)
  /-- Where no task finishes before it starts, these are the tasks that have started since then and
  that nothing in the history finishes. -/
  unfinished : FinishesLater events →
    (after settings events).stack.frames =
      ((sinceLive settings events).filterMap SessionEvent.frame?).reverse.filter fun f =>
        f.id ∉ finishedIn events
  /-- A client that asks for the stack is told of these tasks or, where there is none, of the target
  that was the last to start of those which have started since then and not finished. -/
  answer : ∀ all user,
    (after settings events).dispatch all user .stack =
      (after settings events, [.stack (reportOf (openFrames (sinceLive settings events))
        (openTargets (sinceLive settings events)))])
  /-- No command touches the stack, or what is reported of it. -/
  commands : ∀ all user command,
    ((after settings events).dispatch all user command).1.stack = (after settings events).stack ∧
      ((after settings events).dispatch all user command).1.stackRecords =
        (after settings events).stackRecords
  /-- If the build calls back from one thread and begins with its start, then all that is in
  execution has started since the session is live. -/
  whole : ({ settings } : Session).Serial events → BeginsWithStart events →
    openFrames (sinceLive settings events) = openFrames events ∧
      openTargets (sinceLive settings events) = openTargets events

/-- What is reported is what the session keeps. -/
theorem stackRecords_eq (s : Session) : s.stackRecords = reportOf s.stack.frames s.targets := by
  unfold stackRecords CallStack.isEmpty
  cases s.stack.frames with
  | nil => cases s.targets <;> rfl
  | cons f frames => rfl

/-- A live session knows exactly what is in execution, however tasks finish, as long as no frame
starts twice and the innermost target is the first to finish. -/
theorem knows_execution (settings : DebugSettings) {events : List SessionEvent}
    (once : (startedIn events).Nodup) (nested : TargetsNested events)
    (live : (after settings events).status.isLive = true) : KnowsExecution settings events := by
  have hframes := frames_after settings once live
  obtain ⟨htargets, -⟩ := targets_after settings nested live
  refine ⟨hframes, fun hlater => hframes.trans (openFrames_sinceLive settings hlater), ?_, ?_,
    fun serial begins => open_sinceLive settings serial begins live⟩
  · intro all user
    unfold dispatch
    rw [if_pos live, stackRecords_eq, hframes, htargets]
  · intro all user command
    have same := dispatch_sameBuild (after settings events) all user command
    exact ⟨same.stack, by rw [stackRecords_eq, stackRecords_eq, same.stack, same.targets]⟩

/-- A target in which a task runs another one. -/
def packageTarget : Target := ⟨"package", ⟨"build.xml"⟩, 3⟩

/-- The task that runs the other one. -/
def outerTask : CallFrame := ⟨⟨0⟩, "package", "antcall", ⟨"build.xml"⟩, 4⟩

/-- The task that it runs. -/
def innerTask : CallFrame := ⟨⟨1⟩, "package", "zip", ⟨"build.xml"⟩, 5⟩

/-- A history in which the outer task is the first to finish, and a task finishes that has never
started. -/
def tangledTasks : List SessionEvent :=
  [.build (.buildStarted {}), .attached, .command {} {} .resume,
    .build (.targetStarted packageTarget), .build (.taskStarted outerTask),
    .build (.taskStarted innerTask), .build (.taskFinished outerTask),
    .build (.taskFinished { outerTask with id := ⟨7⟩ }), .command {} {} .suspend]

/-- The session knows that the inner task is left, and after the finish of that one tells of the
target. -/
theorem tangledTasks_known :
    (after { port := some 0 } tangledTasks).stack.frames = [innerTask] ∧
      ((after { port := some 0 } tangledTasks).dispatch {} {} .stack).2 =
        [.stack [⟨"package", "zip", "build.xml", 5⟩]] ∧
      ((after { port := some 0 } (tangledTasks ++ [.build (.taskFinished innerTask)])).dispatch
        {} {} .stack).2 = [.stack [⟨"package", "", "build.xml", 3⟩]] := by
  have nested : TargetsNested (tangledTasks ++ [.build (.taskFinished innerTask)]) := by
    refine ⟨?_, ?_, ?_, ?_, ?_, ?_, ?_, ?_, ?_, ?_, trivial⟩ <;> simp
  have hknown : KnowsExecution { port := some 0 } tangledTasks :=
    knows_execution _ (by decide) nested.concat.1 rfl
  have hlater : KnowsExecution { port := some 0 }
      (tangledTasks ++ [.build (.taskFinished innerTask)]) :=
    knows_execution _ (by decide) nested rfl
  exact ⟨hknown.frames, congrArg Prod.snd (hknown.answer {} {}),
    congrArg Prod.snd (hlater.answer {} {})⟩

end Session

end BuildStepper
