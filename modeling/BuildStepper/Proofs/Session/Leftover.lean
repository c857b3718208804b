import BuildStepper.Proofs.Session.Execution

/-!
# Tasks that are left over on the stack

By rule the stack lists tasks in execution only, so that a task which has finished is not on it. A
session keeps the rule while it is live, and after the end of the build, which clears the stack. But
a session that ends before the build does, because the client terminates it or is gone, stops
listening and keeps the stack that it has. The tasks on it stay there when they finish
(`LeftOver`). `finished_on_stack_iff` shows that this is exactly where the rule fails.

A history falls into three kinds (`stack_after_cases`): nothing is on the stack, or the session is
live and keeps what is in execution, or the session has ended with the build going on and its stack
is that of the moment at which it ended.
-/

namespace BuildStepper

open Wire (Command Notification)

/-! ## Orderly histories -/

/-- The frames of an orderly history are orderly from the beginning to any point of it. -/
theorem Orderly.of_append {before later : List SessionEvent} (h : Orderly (before ++ later)) :
    Orderly before := by
  induction later using List.reverseRecOn with
  | nil => rwa [List.append_nil] at h
  | append_singleton later event ih =>
    rw [← List.append_assoc] at h
    exact ih h.concat.1

/-- In an orderly history no frame starts twice. -/
theorem Orderly.nodup {events : List SessionEvent} (h : Orderly events) :
    (startedIn events).Nodup := by
  induction events using List.reverseRecOn with
  | nil => exact List.nodup_nil
  | append_singleton events event ih =>
    obtain ⟨hevents, hnew, -⟩ := h.concat
    rw [startedIn_concat]
    cases hstart : event.started? with
    | none => simpa using ih hevents
    | some id =>
      refine List.nodup_append.2 ⟨ih hevents, List.nodup_singleton id, ?_⟩
      rintro a ha b hb rfl
      exact hnew id hstart (List.mem_singleton.1 hb ▸ ha)

/-- In an orderly history what finishes has started. -/
theorem Orderly.finishedIn_subset {events : List SessionEvent} (h : Orderly events) :
    finishedIn events ⊆ startedIn events := by
  induction events using List.reverseRecOn with
  | nil => exact List.Subset.refl []
  | append_singleton events event ih =>
    obtain ⟨hevents, -, hold⟩ := h.concat
    rw [startedIn_concat, finishedIn_append, finishedIn_singleton]
    intro id hid
    refine List.mem_append_left _ ?_
    rcases List.mem_append.1 hid with hid | hid
    · exact ih hevents hid
    · exact hold id (Option.mem_toList.1 hid)

/-- In an orderly history no task finishes before it starts. -/
theorem Orderly.finishesLater {events : List SessionEvent} (h : Orderly events) :
    FinishesLater events := by
  rintro before f later rfl hfinished
  have hstart : Orderly (before ++ [.build (.taskStarted f)]) := by
    rw [← List.singleton_append, ← List.append_assoc] at h
    exact h.of_append
  obtain ⟨hbefore, hnew, -⟩ := hstart.concat
  exact hnew f.id rfl (hbefore.finishedIn_subset hfinished)

namespace Session

/-! ## Sessions that end before the build -/

/-- The session ends at the moment `m` while the build goes on, and nothing of what comes later is
the end of the build. -/
def EndsEarly (m : Moment) (later : List Moment) : Prop :=
  m.Ends ∧ ∀ n ∈ m :: later, n.event ≠ .build .buildFinished

/-- The end of a session changes nothing of what the build has told it. -/
theorem EndsEarly.sameBuild {m : Moment} {later : List Moment} (h : EndsEarly m later) :
    m.before.SameBuild m.after := by
  obtain ⟨hends, hgoing⟩ := h
  have hover := hgoing m List.mem_cons_self
  have same := told_sameBuild m.before hover
  have htold : m.before.told m.event = m.before := by
    obtain ⟨-, hevent | ⟨all, user, hevent⟩⟩ | hevent := hends.cases
    · exact absurd hevent hover
    · rw [hevent]
      rfl
    · rw [hevent]
      rfl
  rwa [htold] at same

/-- A session that is over keeps what it has been told until the end of the build. -/
theorem run_sameBuild_of_terminated {s : Session} (hterminated : s.status = .terminated)
    {events : List SessionEvent} (hgoing : .build .buildFinished ∉ events) :
    s.SameBuild (s.run events).1 := by
  induction events generalizing s with
  | nil => exact .refl s
  | cons event events ih =>
    rw [List.mem_cons, not_or] at hgoing
    have same := told_sameBuild s (Ne.symm hgoing.1)
    rw [told_of_not_live (by rw [hterminated]; rfl)] at same
    exact same.trans (ih (step_terminated hterminated event) hgoing.2)

/-- What the stack holds after a history: nothing, or what a live session keeps, or what was there
when the session ended before the build. -/
theorem stack_after_cases (settings : DebugSettings) (events : List SessionEvent) :
    (after settings events).stack = {} ∨ (after settings events).status.isLive = true ∨
      ∃ before m later, ({ settings } : Session).moments events = before ++ m :: later ∧
        EndsEarly m later ∧ (after settings events).stack = m.before.stack := by
  induction events using List.reverseRecOn with
  | nil => exact .inl rfl
  | append_singleton events event ih =>
    rw [after_concat, moments_concat]
    by_cases hover : event = .build .buildFinished
    · subst hover
      exact .inl rfl
    cases live : ((after settings events).step event).1.status.isLive with
    | true => exact .inr (.inl rfl)
    | false =>
      cases hbefore : (after settings events).status.isLive with
      | true =>
        -- The session ends here.
        have hends : EndsEarly ⟨after settings events, event⟩ [] :=
          ⟨⟨hbefore, terminated_of_step hbefore live⟩, by simpa using hover⟩
        exact .inr (.inr ⟨_, _, [], rfl, hends, hends.sameBuild.stack⟩)
      | false =>
        -- The session is told nothing more.
        have same := told_sameBuild (after settings events) hover
        rw [told_of_not_live hbefore] at same
        rw [same.stack]
        obtain hempty | hlive | ⟨before, m, later, hsplit, ⟨hends, hgoing⟩, hstack⟩ := ih
        · exact .inl hempty
        · exact absurd (hlive.symm.trans hbefore) (by decide)
        · refine .inr (.inr ⟨before, m, later ++ [⟨after settings events, event⟩], ?_,
            ⟨hends, ?_⟩, hstack⟩)
          · rw [hsplit, List.append_assoc]
            rfl
          · intro n hn
            rw [← List.cons_append] at hn
            rcases List.mem_append.1 hn with hn | hn
            · exact hgoing n hn
            · rw [List.mem_singleton.1 hn]
              exact hover

/-! ## What is left over -/

/-- A task is left over: it was on the stack when the session ended, it has finished since, and the
build goes on. -/
def LeftOver (moments : List Moment) (f : CallFrame) : Prop :=
  ∃ before m later, moments = before ++ m :: later ∧ EndsEarly m later ∧
    f ∈ m.before.stack.frames ∧ f.id ∈ finishedIn (later.map Moment.event)

section

variable {settings : DebugSettings} {events : List SessionEvent}
  {before later : List Moment} {m : Moment}

/-- Where a session has ended before the build, its stack is the one that it had then. -/
theorem EndsEarly.stack (h : EndsEarly m later)
    (hsplit : ({ settings } : Session).moments events = before ++ m :: later) :
    (after settings events).stack = m.before.stack := by
  obtain ⟨es, fs, rfl, -, hbefore, rfl⟩ := exists_of_moments_eq hsplit
  have hlater : .build .buildFinished ∉ fs := by
    intro hmem
    rw [← map_event_moments m.after fs] at hmem
    obtain ⟨n, hn, hevent⟩ := List.mem_map.1 hmem
    exact h.2 n (List.mem_cons_of_mem m hn) hevent
  have hrun : after settings (es ++ m.event :: fs) = (m.after.run fs).1 := by
    unfold after Moment.after
    rw [run_append, run_cons, hbefore]
  rw [hrun, (run_sameBuild_of_terminated h.1.2 hlater).stack, h.sameBuild.stack]

/-- What is on the stack of a live session has not finished. -/
theorem not_finished_of_live (orderly : Orderly events)
    (live : (after settings events).status.isLive = true) {f : CallFrame}
    (hf : f ∈ (after settings events).stack.frames) :
    f.id ∉ finishedIn events := by
  rw [frames_after settings orderly.nodup live,
    openFrames_sinceLive settings orderly.finishesLater] at hf
  simpa using (List.mem_filter.1 hf).2

/-- What is on the stack of a live session is in execution. -/
theorem frames_sublist_openFrames (orderly : Orderly events)
    (live : (after settings events).status.isLive = true) :
    (after settings events).stack.frames.Sublist (openFrames events) := by
  obtain ⟨before, hsplit⟩ := sinceLive_suffix settings events
  rw [frames_after settings orderly.nodup live]
  generalize sinceLive settings events = since at hsplit ⊢
  rw [← hsplit, openFrames_append]
  exact List.sublist_append_left _ _

/-- What is on the stack when the session ends before the build finishes later, or not at all. -/
theorem EndsEarly.finished_iff (h : EndsEarly m later)
    (hsplit : ({ settings } : Session).moments events = before ++ m :: later)
    (orderly : Orderly events) {f : CallFrame} (hf : f ∈ m.before.stack.frames) :
    f.id ∈ finishedIn events ↔ f.id ∈ finishedIn (later.map Moment.event) := by
  obtain ⟨es, fs, rfl, -, hbefore, rfl⟩ := exists_of_moments_eq hsplit
  change m.before = after settings es at hbefore
  have live := h.1.1
  rw [hbefore] at live hf
  have hnot := not_finished_of_live orderly.of_append live hf
  -- The end of the session finishes no task.
  have hquiet : m.event.finished? = none := by
    obtain ⟨-, hevent | ⟨all, user, hevent⟩⟩ | hevent := h.1.cases <;> rw [hevent] <;> rfl
  rw [map_event_moments, ← List.singleton_append, finishedIn_append, finishedIn_append,
    finishedIn_singleton, hquiet]
  simp [hnot]

/-- What is on the stack when the session ends stays in execution if it does not finish. -/
theorem EndsEarly.frames_sublist_openFrames (h : EndsEarly m later)
    (hsplit : ({ settings } : Session).moments events = before ++ m :: later)
    (orderly : Orderly events) (hnone : ∀ f ∈ m.before.stack.frames, f.id ∉ finishedIn events) :
    m.before.stack.frames.Sublist (openFrames events) := by
  obtain ⟨es, fs, rfl, -, hbefore, rfl⟩ := exists_of_moments_eq hsplit
  change m.before = after settings es at hbefore
  have live := h.1.1
  rw [hbefore] at live hnone ⊢
  have hall : (after settings es).stack.frames.filter
      (fun f => f.id ∉ finishedIn (m.event :: fs)) = (after settings es).stack.frames := by
    refine List.filter_eq_self.2 fun f hf => ?_
    have hnot := hnone f hf
    rw [finishedIn_append, List.mem_append, not_or] at hnot
    simpa using hnot.2
  rw [openFrames_append, ← hall]
  exact ((Session.frames_sublist_openFrames orderly.of_append live).filter _).trans
    (List.sublist_append_right _ _)

end

/-- After an orderly history a task that has finished is on the stack exactly if it is left over: it
was on the stack of a session which ended before the build did. Where none is, the stack lists tasks
in execution only, each once and in their order, so that there are no fewer of them. -/
theorem finished_on_stack_iff (settings : DebugSettings) {events : List SessionEvent}
    (orderly : Orderly events) :
    (∀ f, f ∈ (after settings events).stack.frames ∧ f.id ∈ finishedIn events ↔
      LeftOver (({ settings } : Session).moments events) f) ∧
    ((∀ f ∈ (after settings events).stack.frames, f.id ∉ finishedIn events) →
      (after settings events).stack.frames.Sublist (openFrames events)) := by
  constructor
  · intro f
    constructor
    · rintro ⟨hstack, hfinished⟩
      -- The stack is empty, or the session is live, or it is over and keeps the stack with which it
      -- ended.
      obtain hempty | live | ⟨before, m, later, hsplit, hends, hkept⟩ :=
        stack_after_cases settings events
      · rw [hempty] at hstack
        cases hstack
      · exact absurd hfinished (not_finished_of_live orderly live hstack)
      · rw [hkept] at hstack
        exact ⟨before, m, later, hsplit, hends, hstack,
          (hends.finished_iff hsplit orderly hstack).1 hfinished⟩
    · rintro ⟨before, m, later, hsplit, hends, hstack, hfinished⟩
      exact ⟨by rwa [hends.stack hsplit], (hends.finished_iff hsplit orderly hstack).2 hfinished⟩
  · intro hnone
    obtain hempty | live | ⟨before, m, later, hsplit, hends, hkept⟩ :=
      stack_after_cases settings events
    · rw [hempty]
      exact List.nil_sublist _
    · exact frames_sublist_openFrames orderly live
    · rw [hkept] at hnone ⊢
      exact hends.frames_sublist_openFrames hsplit orderly hnone

/-- A history in which the client ends the session while a task runs, and the task finishes. -/
def abandonedTask : List SessionEvent :=
  [.build (.buildStarted {}), .attached, .command {} {} .resume, .build (.taskStarted outerTask),
    .command {} {} .terminate, .build (.taskFinished outerTask)]

/-- The task stays on the stack, although nothing is in execution. -/
theorem abandonedTask_leftOver :
    (outerTask ∈ (after { port := some 0 } abandonedTask).stack.frames ∧
      outerTask.id ∈ finishedIn abandonedTask) ∧ openFrames abandonedTask = [] := by
  have orderly : Orderly abandonedTask := by
    simp [Orderly, OrderlyFrom, abandonedTask, SessionEvent.started?, SessionEvent.finished?]
  refine ⟨((finished_on_stack_iff { port := some 0 } orderly).1 outerTask).2 ?_, rfl⟩
  exact ⟨({ settings := { port := some 0 } } : Session).moments (abandonedTask.take 4),
    ⟨after { port := some 0 } (abandonedTask.take 4), .command {} {} .terminate⟩,
    [⟨after { port := some 0 } (abandonedTask.take 5), .build (.taskFinished outerTask)⟩], rfl,
    ⟨⟨rfl, rfl⟩, by simp⟩, List.mem_singleton_self _, List.mem_singleton_self _⟩

end Session

end BuildStepper
