import BuildStepper.Proofs.Session.Suspension

/-!
# What a step over is for

By rule a step over is for the innermost task. Only where no task is in execution, or where a target
that started since the last start or finish of a task is still in execution, it acts like a step
into.

A session does not keep this rule to the letter. It remembers that a target started, and forgets it
only at the next start or finish of a task; the finish of the target makes no difference to it. An
onlooker who remembers both (`TargetWatch`) can say where the two part: `stepOver_rule_iff` shows
that a step over departs from the rule exactly if a task is in execution and targets started since
the last start or finish of a task, all of which have finished. There it acts like a step into.

The proof relates the onlooker to the session by `Watched`, which holds as long as the session is
not over. In particular the targets that the onlooker takes for unfinished are the innermost ones
that the session has.
-/

namespace BuildStepper.Session

open Wire (Notification)

/-- What an onlooker remembers of the targets that started since the last start or finish of a task,
innermost first. -/
structure TargetWatch where
  /-- All of them. -/
  started : List Target := []
  /-- Those that have not finished. -/
  unfinished : List Target := []

/-- What the onlooker remembers after a moment. Nothing counts that a session is not told. -/
def TargetWatch.see (w : TargetWatch) (m : Moment) : TargetWatch :=
  if m.before.status.isLive then
    match m.event with
    | .build (.targetStarted t) => ⟨t :: w.started, t :: w.unfinished⟩
    | .build (.targetFinished t) => { w with unfinished := w.unfinished.eraseP (·.same t) }
    | .build (.taskStarted _) | .build (.taskFinished _) => {}
    | _ => w
  else w

/-- What the onlooker remembers after a history. -/
def watch (settings : DebugSettings) (events : List SessionEvent) : TargetWatch :=
  (({ settings } : Session).moments events).foldl TargetWatch.see {}

/-- The onlooker sees the last event after all others. -/
theorem watch_concat (settings : DebugSettings) (events : List SessionEvent)
    (event : SessionEvent) :
    watch settings (events ++ [event]) =
      (watch settings events).see ⟨after settings events, event⟩ := by
  unfold watch
  rw [moments_concat, List.foldl_append]
  rfl

/-- What the onlooker remembers agrees with what a session has. -/
structure Watched (w : TargetWatch) (s : Session) : Prop where
  /-- The session knows whether a target started. -/
  started : s.atTargetStart = !w.started.isEmpty
  /-- The unfinished targets are the innermost ones that the session has. -/
  unfinished : w.unfinished <+: s.targets
  /-- What has not finished did start. -/
  sublist : w.unfinished.Sublist w.started

namespace Watched

variable {w : TargetWatch} {s t : Session}

/-- What the onlooker remembers stays right for as long as the build tells nothing. -/
theorem of_sameBuild (h : Watched w s) (same : s.SameBuild t) : Watched w t where
  started := by rw [same.atTargetStart]; exact h.started
  unfinished := by rw [same.targets]; exact h.unfinished
  sublist := h.sublist

/-- The innermost target like the one that finishes leaves both lists, or only the longer one. -/
theorem eraseP_prefix {p : Target → Bool} {inner targets : List Target}
    (h : inner <+: targets) : inner.eraseP p <+: targets.eraseP p := by
  obtain ⟨outer, rfl⟩ := h
  rw [List.eraseP_append]
  split
  · exact List.prefix_append _ _
  · next hnone =>
    have hkeep : inner.eraseP p = inner := List.eraseP_of_forall_not (by simpa using hnone)
    rw [hkeep]
    exact List.prefix_append _ _

/-- What the session is told, the onlooker sees. -/
theorem told (h : Watched w s) (event : SessionEvent) :
    Watched (w.see ⟨s, event⟩) (s.told event) := by
  unfold TargetWatch.see
  cases event with
  | build event =>
    simp only [Session.told]
    split
    · cases event with
      | targetStarted t =>
        exact ⟨rfl, List.cons_prefix_cons.2 ⟨rfl, h.unfinished⟩, h.sublist.cons_cons t⟩
      | targetFinished t =>
        exact ⟨h.started, eraseP_prefix h.unfinished, List.eraseP_sublist.trans h.sublist⟩
      | taskStarted f => exact ⟨rfl, List.nil_prefix, List.Sublist.refl []⟩
      | taskFinished f => exact ⟨rfl, List.nil_prefix, List.Sublist.refl []⟩
      | _ => exact h
    · exact h
  | _ =>
    simp only [Session.told, ite_self]
    exact h

end Watched

/-- Until a session is over, the onlooker agrees with it. -/
theorem watched_after (settings : DebugSettings) {events : List SessionEvent}
    (hgoing : (after settings events).status ≠ .terminated) :
    Watched (watch settings events) (after settings events) := by
  induction events using List.reverseRecOn with
  | nil => exact ⟨rfl, List.nil_prefix, List.Sublist.refl []⟩
  | append_singleton events event ih =>
    rw [after_concat] at hgoing ⊢
    rw [watch_concat]
    -- A session that is over stays so, and the end of the build would make it so.
    have hbefore : (after settings events).status ≠ .terminated :=
      fun hover => hgoing (step_terminated hover event)
    have hover : event ≠ .build .buildFinished := by
      rintro rfl
      exact hgoing rfl
    exact ((ih hbefore).told event).of_sameBuild (told_sameBuild _ hover)

/-- The rule: a step over is for the innermost task, unless a target that started since the last
start or finish of a task is unfinished. It is for none where no task is in execution. -/
def KeepsStepOverRule (s : Session) (w : TargetWatch) : Prop :=
  s.stepOverTarget? = if w.unfinished.isEmpty then s.stack.top?.map CallFrame.id else none

/-- After every history that leaves a session live: a step over asks for the end of the task that it
is for, and acts like a step into where there is none; that task is the innermost one if no target
started since the last start or finish of a task, and there is none otherwise; and this departs from
the rule exactly if a task is in execution and such targets started, all of which have finished. -/
theorem stepOver_rule_iff (settings : DebugSettings) {events : List SessionEvent}
    (live : (after settings events).status.isLive = true) :
    (∀ all user, (after settings events).dispatch all user .stepOver =
      match (after settings events).stepOverTarget? with
      | some id =>
        ({ after settings events with
            pending := { (after settings events).pending with stepOver := some id }
            status := .running }, [])
      | none => (after settings events).dispatch all user .stepInto) ∧
    (after settings events).stepOverTarget? =
      (if (watch settings events).started.isEmpty then
        (after settings events).stack.top?.map CallFrame.id else none) ∧
    ((after settings events).KeepsStepOverRule (watch settings events) ↔
      ¬ ((after settings events).stack.isEmpty = false ∧
        (watch settings events).started.isEmpty = false ∧
        (watch settings events).unfinished.isEmpty = true)) ∧
    (watch settings events).unfinished <+: (after settings events).targets := by
  have hgoing : (after settings events).status ≠ .terminated := by
    intro hover
    rw [hover] at live
    cases live
  have hwatched := watched_after settings hgoing
  have htop := currentOnTop_after settings events
  generalize after settings events = s at *
  generalize watch settings events = w at *
  have htarget : s.stepOverTarget? =
      if w.started.isEmpty then s.stack.top?.map CallFrame.id else none := by
    rw [htop.stepOverTarget?_eq, hwatched.started, CallStack.map_id_top?]
    cases w.started.isEmpty <;> rfl
  refine ⟨?_, htarget, ?_, hwatched.unfinished⟩
  · intro all user
    cases hover : s.stepOverTarget? with
    | some id => exact dispatch_stepOver live all user hover
    | none =>
      unfold dispatch stepOver
      rw [if_pos live, if_pos live, hover]
  · unfold KeepsStepOverRule
    rw [htarget]
    cases hstarted : w.started with
    | nil =>
      -- Without a start there is nothing unfinished, and both say the same.
      have hnone : w.unfinished = [] := by
        have hsub := hwatched.sublist
        rwa [hstarted, List.sublist_nil] at hsub
      simp [hnone]
    | cons t ts =>
      cases hunfinished : w.unfinished with
      | nil =>
        -- All that started has finished: by rule the innermost task counts, if there is one.
        cases hframes : s.stack.frames <;> simp [CallStack.top?, CallStack.isEmpty, hframes]
      | cons u us =>
        -- A target is unfinished, so that there is none by rule either.
        simp

/-- A target without a task. -/
def emptyTarget : Target := ⟨"package", ⟨"build.xml"⟩, 9⟩

/-- A history in which a target without a task has come and gone inside a task. -/
def passingTarget : List SessionEvent :=
  [.build (.buildStarted {}), .attached, .command {} {} .resume,
    .build (.taskStarted enclosingTask), .build (.targetStarted emptyTarget),
    .build (.targetFinished emptyTarget)]

/-- After a target without a task a step over departs from the rule: it should be for the task in
execution, and the start of the next task inside it holds the build. -/
theorem passingTarget_departs :
    ¬ (after { port := some 0 } passingTarget).KeepsStepOverRule
        (watch { port := some 0 } passingTarget) ∧
      (after { port := some 0 } (passingTarget ++ [.command {} {} .stepOver])).HoldsFor
        (.taskStarted nestedTask) .step := by
  have live : (after { port := some 0 } passingTarget).status.isLive = true := rfl
  have hlaw := stepOver_rule_iff { port := some 0 } live
  constructor
  · rw [hlaw.2.2.1]
    exact not_not_intro ⟨rfl, rfl, rfl⟩
  · exact ⟨rfl, rfl, rfl⟩

end BuildStepper.Session
