import BuildStepper.Session.Run

/-!
# What a step can do to a session

The fields of a session fall into two parts. What the build has told it (the stack, the targets, the
flags about the last start and finish) is changed by the callbacks of targets and tasks and by the
end of the build, and by nothing else: `SameBuild` relates two sessions that agree there, and
`SessionEvent.tellsOfBuild` marks the events that may break it. What the client has asked for and
where the session stands is changed by commands, and `dispatch_pending` and `dispatch_status` say
how.

The other modules about sessions take their cases from here.
-/

namespace BuildStepper

open Wire (Command Notification SuspendReason)

/-- Whether a command lets go a build that is held. -/
def Wire.Command.releases : Command → Bool
  | .stepInto | .stepOver | .resume => true
  | _ => false

/-- Whether a command only asks. -/
def Wire.Command.asks : Command → Bool
  | .stack | .properties => true
  | _ => false

/-- Whether the event is a callback that says something about what is executed. -/
def SessionEvent.tellsOfBuild : SessionEvent → Bool
  | .build (.buildStarted _) => false
  | .build _ => true
  | _ => false

namespace Session

/-- Two sessions that have been told the same by the build, under the same settings. -/
structure SameBuild (s t : Session) : Prop where
  settings : t.settings = s.settings
  stack : t.stack = s.stack
  targets : t.targets = s.targets
  current : t.current = s.current
  atTargetStart : t.atTargetStart = s.atTargetStart
  lastFinished : t.lastFinished = s.lastFinished

/-- A session has been told the same as itself. -/
theorem SameBuild.refl (s : Session) : s.SameBuild s := ⟨rfl, rfl, rfl, rfl, rfl, rfl⟩

/-- What is the same for two sessions and for the second and a third is so for the first and the
third. -/
theorem SameBuild.trans {s t u : Session} (hst : s.SameBuild t) (htu : t.SameBuild u) :
    s.SameBuild u where
  settings := htu.settings.trans hst.settings
  stack := htu.stack.trans hst.stack
  targets := htu.targets.trans hst.targets
  current := htu.current.trans hst.current
  atTargetStart := htu.atTargetStart.trans hst.atTargetStart
  lastFinished := htu.lastFinished.trans hst.lastFinished

/-- A hold changes nothing of what the build has told. -/
theorem suspendIf_sameBuild (s : Session) (reason : Option SuspendReason) :
    s.SameBuild (s.suspendIf reason).1 := by
  rw [suspendIf_fst]
  exact ⟨rfl, rfl, rfl, rfl, rfl, rfl⟩

/-- The client changes nothing of what the build has told. -/
theorem dispatch_sameBuild (s : Session) (all user : PropertyTable) (command : Command) :
    s.SameBuild (s.dispatch all user command).1 := by
  unfold dispatch stepOver
  split
  · cases command <;> simp only [release_eq, terminate] <;> exact ⟨rfl, rfl, rfl, rfl, rfl, rfl⟩
  · exact .refl s

/-- Only a callback about targets and tasks, or the end of the build, changes what the build has
told. -/
theorem step_sameBuild (s : Session) {event : SessionEvent} (h : event.tellsOfBuild = false) :
    s.SameBuild (s.step event).1 := by
  cases event with
  | build event =>
    cases event <;> simp only [SessionEvent.tellsOfBuild, Bool.true_eq_false] at h
    simp only [step, callback, buildStarted]
    split
    · exact ⟨rfl, rfl, rfl, rfl, rfl, rfl⟩
    · exact .refl s
  | attached =>
    simp only [step, attach]
    split <;> exact ⟨rfl, rfl, rfl, rfl, rfl, rfl⟩
  | abandoned =>
    simp only [step, abandon, terminate]
    split <;> exact ⟨rfl, rfl, rfl, rfl, rfl, rfl⟩
  | command all user command => exact dispatch_sameBuild s all user command
  | disconnected =>
    simp only [step, disconnect, terminate]
    split <;> exact ⟨rfl, rfl, rfl, rfl, rfl, rfl⟩

/-! ## Callbacks

At a callback a live session first takes down what the build tells it, and then decides whether to
hold the build. -/

/-- What is taken down at the start of a target. -/
def noteTarget (s : Session) (t : Target) : Session :=
  { s with targets := t :: s.targets, current := none, atTargetStart := true }

/-- What is taken down at the finish of a target. -/
def noteTargetFinish (s : Session) (t : Target) : Session :=
  { s with targets := s.targets.eraseP (·.same t) }

/-- What is taken down at the start of a task. -/
def noteStart (s : Session) (f : CallFrame) : Session :=
  { s with stack := s.stack.push f, current := some f.id, atTargetStart := false }

/-- What is taken down at the finish of a task. -/
def noteFinish (s : Session) (f : CallFrame) : Session :=
  { s with
    stack := s.stack.pop f.id, lastFinished := some f.id, current := none, atTargetStart := false }

/-- What is taken down at a callback while the build goes on. -/
def note (s : Session) : BuildEvent → Session
  | .targetStarted t => s.noteTarget t
  | .targetFinished t => s.noteTargetFinish t
  | .taskStarted f => s.noteStart f
  | .taskFinished f => s.noteFinish f
  | .buildStarted _ | .buildFinished => s

/-- Why a callback holds the build, if it does. -/
def holdReason? (s : Session) : BuildEvent → Option SuspendReason
  | .targetStarted t =>
    if s.settings.targetBreakpoints then (s.breakpoints.at? t.location).map .breakpoint else none
  | .taskStarted f => (s.noteStart f).suspendReason? (some f.location)
  | .taskFinished f => (s.noteFinish f).suspendReason? none
  | .targetFinished _ | .buildStarted _ | .buildFinished => none

/-- A callback of a live session, other than the end of the build, in its two parts. -/
theorem callback_of_live {s : Session} (live : s.status.isLive = true) {event : BuildEvent}
    (hover : event ≠ .buildFinished) :
    s.callback event = (s.note event).suspendIf (s.holdReason? event) := by
  cases event with
  | buildStarted baseline =>
    have hbegun : s.status ≠ .idle := fun hidle => by simp [hidle, Status.isLive] at live
    simp only [callback, buildStarted, if_neg hbegun]
    rfl
  | buildFinished => exact absurd rfl hover
  | targetStarted t =>
    simp only [callback, targetStarted, if_pos live, note, holdReason?, noteTarget]
    cases s.settings.targetBreakpoints <;> rfl
  | targetFinished t =>
    simp only [callback, targetFinished, if_pos live]
    rfl
  | taskStarted f =>
    simp only [callback, taskStarted, if_pos live]
    rfl
  | taskFinished f =>
    simp only [callback, taskFinished, if_pos live]
    rfl

/-- A session that is not live takes no notice of targets and tasks. -/
theorem callback_of_not_live {s : Session} (h : s.status.isLive = false) {event : BuildEvent}
    (htells : (SessionEvent.build event).tellsOfBuild = true) (hover : event ≠ .buildFinished) :
    s.callback event = (s, []) := by
  cases event with
  | buildStarted baseline => cases htells
  | buildFinished => exact absurd rfl hover
  | targetStarted t => simp [callback, targetStarted, h]
  | targetFinished t => simp [callback, targetFinished, h]
  | taskStarted f => simp [callback, taskStarted, h]
  | taskFinished f => simp [callback, taskFinished, h]

/-- Taking down what the build tells leaves alone where the session stands and what the client has
said. -/
theorem note_keeps (s : Session) (event : BuildEvent) :
    (s.note event).status = s.status ∧ (s.note event).pending = s.pending ∧
      (s.note event).breakpoints = s.breakpoints ∧ (s.note event).report = s.report ∧
      (s.note event).settings = s.settings := by
  cases event <;> exact ⟨rfl, rfl, rfl, rfl, rfl⟩

/-- Two sessions that have been told the same go on to be so when they are told the same. -/
theorem SameBuild.note {s t : Session} (h : s.SameBuild t) (event : BuildEvent) :
    (s.note event).SameBuild (t.note event) := by
  obtain ⟨hsettings, hstack, htargets, hcurrent, hflag, hlast⟩ := h
  cases event with
  | targetStarted target => exact ⟨hsettings, hstack, by simp [Session.note, noteTarget, htargets],
      rfl, rfl, hlast⟩
  | targetFinished target => exact ⟨hsettings, hstack,
      by simp [Session.note, noteTargetFinish, htargets], hcurrent, hflag, hlast⟩
  | taskStarted f => exact ⟨hsettings, by simp [Session.note, noteStart, hstack], htargets, rfl,
      rfl, hlast⟩
  | taskFinished f => exact ⟨hsettings, by simp [Session.note, noteFinish, hstack], htargets, rfl,
      rfl, rfl⟩
  | _ => exact ⟨hsettings, hstack, htargets, hcurrent, hflag, hlast⟩

/-- When the task that is to be stepped over has finished, there is a reason to hold the build. -/
theorem isSome_suspendReason?_of_stepOver {s : Session} {id : FrameId}
    (hover : s.pending.stepOver = some id) (hlast : s.lastFinished = some id)
    (place : Option Location) : (s.suspendReason? place).isSome = true := by
  unfold suspendReason?
  split
  · rfl
  · simp [hover, hlast]

/-- Where a callback leads a live session: to a hold, if there is a reason. -/
theorem callback_status {s : Session} (live : s.status.isLive = true) {event : BuildEvent}
    (hover : event ≠ .buildFinished) :
    (s.callback event).1.status =
      ((s.holdReason? event).map fun r => .suspended (.ofReason r)).getD s.status := by
  rw [callback_of_live live hover, suspendIf_fst, (note_keeps s event).1]

/-- What a callback leaves of the requests of a live session: a hold takes them all up. -/
theorem callback_pending {s : Session} (live : s.status.isLive = true) {event : BuildEvent}
    (hover : event ≠ .buildFinished) :
    (s.callback event).1.pending =
      if (s.holdReason? event).isSome then {} else s.pending := by
  rw [callback_of_live live hover, suspendIf_fst, (note_keeps s event).2.1]

/-- A session with what it is told of the build by an event. Only a live one listens. -/
def told (s : Session) : SessionEvent → Session
  | .build event => if s.status.isLive then s.note event else s
  | _ => s

/-- A session that is not live does not listen. -/
theorem told_of_not_live {s : Session} (h : s.status.isLive = false) (event : SessionEvent) :
    s.told event = s := by
  cases event <;> simp [told, h]

/-- Short of the end of the build, an event tells a session no more of the build than that. -/
theorem told_sameBuild (s : Session) {event : SessionEvent}
    (hover : event ≠ .build .buildFinished) : (s.told event).SameBuild (s.step event).1 := by
  cases event with
  | build event =>
    have hover : event ≠ .buildFinished := fun heq => hover (heq ▸ rfl)
    simp only [told, step]
    cases live : s.status.isLive with
    | true =>
      rw [callback_of_live live hover]
      exact suspendIf_sameBuild _ _
    | false =>
      cases htells : (SessionEvent.build event).tellsOfBuild with
      | true =>
        rw [callback_of_not_live live htells hover]
        exact .refl s
      | false => exact step_sameBuild s htells
  | _ => exact step_sameBuild s rfl

/-- A callback that leaves the build held takes up all requests. -/
theorem pending_of_held {s : Session} (hfree : s.status.blocksBuild = false) {event : BuildEvent}
    (hheld : (s.callback event).1.status.isSuspended = true) :
    (s.callback event).1.pending = {} := by
  have hover : event ≠ .buildFinished := by
    rintro rfl
    cases hheld
  have hunheld : s.status.isSuspended = false := by
    cases hs : s.status <;> simp_all [Status.blocksBuild, Status.isSuspended]
  cases live : s.status.isLive with
  | true =>
    rw [callback_pending live hover]
    rw [callback_status live hover] at hheld
    cases hreason : s.holdReason? event with
    | some reason => rfl
    | none =>
      rw [hreason] at hheld
      exact absurd (hunheld.symm.trans hheld) (by decide)
  | false =>
    cases htells : (SessionEvent.build event).tellsOfBuild with
    | true =>
      rw [callback_of_not_live live htells hover] at hheld
      exact absurd (hunheld.symm.trans hheld) (by decide)
    | false =>
      -- The start of the build does not hold it.
      cases event with
      | buildStarted baseline =>
        simp only [callback, buildStarted] at hheld
        split at hheld
        · cases hport : s.settings.listenPort? baseline <;>
            simp [hport, Status.isSuspended] at hheld
        · exact absurd (hunheld.symm.trans hheld) (by decide)
      | _ => cases htells

/-- The settings never change. -/
theorem step_settings (s : Session) (event : SessionEvent) :
    (s.step event).1.settings = s.settings := by
  by_cases hover : event = .build .buildFinished
  · subst hover
    rfl
  · rw [(told_sameBuild s hover).settings]
    cases event with
    | build event =>
      simp only [told]
      split
      · exact (note_keeps s event).2.2.2.2
      · rfl
    | _ => rfl

/-! ## Commands -/

/-- What a command that a live session carries out does to the requests. -/
theorem dispatch_pending {s : Session} (live : s.status.isLive = true) (all user : PropertyTable)
    (command : Command) :
    (s.dispatch all user command).1.pending =
      match command with
      | .stepInto => { s.pending with stepInto := true }
      | .stepOver => match s.stepOverTarget? with
        | some id => { s.pending with stepOver := some id }
        | none => { s.pending with stepInto := true }
      | .suspend => { s.pending with suspend := true }
      | .terminate => {}
      | _ => s.pending := by
  unfold dispatch stepOver
  rw [if_pos live]
  cases command with
  | stepOver =>
    cases s.stepOverTarget? with
    | some id => simp only [release_eq]
    | none => simp only [release_eq]
  | stepInto => simp only [release_eq]
  | resume => simp only [release_eq]
  | _ => rfl

/-- What a command that a live session carries out does to where it stands. -/
theorem dispatch_status {s : Session} (live : s.status.isLive = true) (all user : PropertyTable)
    (command : Command) :
    (s.dispatch all user command).1.status =
      if command = .terminate then .terminated
      else if command.releases then .running
      else s.status := by
  have hrunning : (if s.status.isSuspended then Status.running else s.status) = .running := by
    cases h : s.status <;> simp_all [Status.isLive, Status.isSuspended]
  unfold dispatch stepOver
  rw [if_pos live]
  cases command <;> simp [release_eq, terminate, Command.releases, hrunning]

/-- A step over that has a task to step over asks for the end of that task, and lets the build
go. -/
theorem dispatch_stepOver {s : Session} (live : s.status.isLive = true) (all user : PropertyTable)
    {id : FrameId} (htarget : s.stepOverTarget? = some id) :
    s.dispatch all user .stepOver =
      ({ s with pending := { s.pending with stepOver := some id }, status := .running }, []) := by
  have hrunning : (if s.status.isSuspended then Status.running else s.status) = .running := by
    cases h : s.status <;> simp_all [Status.isLive, Status.isSuspended]
  unfold dispatch stepOver
  rw [if_pos live]
  simp only [htarget, release_eq, hrunning]

/-- What a live session answers to a command. -/
theorem dispatch_sent {s : Session} (live : s.status.isLive = true) (all user : PropertyTable)
    (command : Command) :
    (s.dispatch all user command).2 =
      match command with
      | .terminate => [.terminated]
      | .stack => [.stack s.stackRecords]
      | .properties => [.properties (s.report.delta all user)]
      | _ => [] := by
  unfold dispatch
  rw [if_pos live]
  cases command <;> rfl

/-- A session that is not live drops all commands. -/
theorem dispatch_of_not_live {s : Session} (h : s.status.isLive = false) (all user : PropertyTable)
    (command : Command) : s.dispatch all user command = (s, []) := by
  unfold dispatch
  rw [if_neg (by simp [h])]

/-! ## Where a step leads -/

/-- What becomes of the wait for a client is of no matter to a live session. -/
theorem step_of_live {s : Session} (live : s.status.isLive = true) {event : SessionEvent}
    (h : event = .attached ∨ event = .abandoned) : s.step event = (s, []) := by
  rcases h with rfl | rfl <;>
    cases hs : s.status <;> simp_all [step, attach, abandon, Status.isLive]

/-- Where a step leads a session that is live. -/
theorem step_status_of_live {s : Session} (live : s.status.isLive = true) (event : SessionEvent) :
    (s.step event).1.status =
      match event with
      | .build .buildFinished | .disconnected => .terminated
      | .build event => ((s.holdReason? event).map fun r => .suspended (.ofReason r)).getD s.status
      | .command _ _ command =>
        if command = .terminate then .terminated else if command.releases then .running
        else s.status
      | .attached | .abandoned => s.status := by
  cases event with
  | build event =>
    by_cases hover : event = .buildFinished
    · subst hover
      rfl
    · simp only [step]
      rw [callback_status live hover]
  | command all user command => exact dispatch_status live all user command
  | disconnected => simp only [step, disconnect, if_pos live, terminate]
  | attached => rw [step_of_live live (.inl rfl)]
  | abandoned => rw [step_of_live live (.inr rfl)]

/-- Where a step leads a session that is not live. -/
theorem step_status_of_not_live {s : Session} (h : s.status.isLive = false) (event : SessionEvent) :
    (s.step event).1.status =
      match event, s.status with
      | .build (.buildStarted baseline), .idle =>
        match s.settings.listenPort? baseline with
        | some port => .awaiting port
        | none => .terminated
      | .build .buildFinished, _ | .abandoned, .awaiting _ => .terminated
      | .attached, .awaiting _ => .suspended .buildStart
      | _, status => status := by
  cases event with
  | build event =>
    simp only [step]
    cases event with
    | buildFinished => rfl
    | buildStarted baseline =>
      by_cases hidle : s.status = .idle
      · cases hport : s.settings.listenPort? baseline with
        | some port => simp [callback, buildStarted, hidle, hport]
        | none => simp [callback, buildStarted, hidle, hport]
      · -- Only the first start of a build is heeded.
        simp only [callback, buildStarted, if_neg hidle]
        cases hs : s.status with
        | idle => exact absurd hs hidle
        | _ => rfl
    | _ => rw [callback_of_not_live h rfl (by simp)]
  | command all user command => simp [step, dispatch_of_not_live h]
  | disconnected => simp [step, disconnect, h]
  | attached => cases hs : s.status <;> simp_all [step, attach]
  | abandoned => cases hs : s.status <;> simp_all [step, abandon, terminate]

/-- A session that is over stays over. -/
theorem step_terminated {s : Session} (h : s.status = .terminated) (event : SessionEvent) :
    (s.step event).1.status = .terminated := by
  rw [step_status_of_not_live (by rw [h]; rfl), h]
  split <;> simp_all

/-- No session becomes idle. -/
theorem idle_of_step_idle {s : Session} {event : SessionEvent}
    (h : (s.step event).1.status = .idle) : s.status = .idle := by
  cases live : s.status.isLive with
  | true =>
    rw [step_status_of_live live] at h
    split at h
    · cases h
    · cases h
    · next called _ =>
      -- A hold is not idleness, and without one the status is the old one.
      cases hreason : s.holdReason? called with
      | none => rwa [hreason] at h
      | some reason =>
        rw [hreason] at h
        cases h
    · split at h
      · cases h
      · split at h
        · cases h
        · exact h
    · exact h
    · exact h
  | false =>
    rw [step_status_of_not_live live] at h
    split at h
    · next hidle => exact hidle
    · cases h
    · cases h
    · cases h
    · exact h

/-- Only a callback, or a client that connects, holds a build that was not held before. -/
theorem eq_build_or_attached_of_held {s : Session} {event : SessionEvent} {hold : Hold}
    (hbefore : s.status.isSuspended = false) (hafter : (s.step event).1.status = .suspended hold) :
    (∃ called, event = .build called ∧ called ≠ .buildFinished) ∨ event = .attached := by
  have hkept : s.status ≠ .suspended hold := by
    intro heq
    rw [heq] at hbefore
    cases hbefore
  cases event with
  | build called =>
    refine .inl ⟨called, rfl, ?_⟩
    rintro rfl
    cases hafter
  | attached => exact .inr rfl
  -- Whatever else there is lets the build go, or leaves it as it was.
  | command all user command =>
    cases live : s.status.isLive with
    | true =>
      rw [step, dispatch_status live] at hafter
      split at hafter
      · cases hafter
      · split at hafter
        · cases hafter
        · exact absurd hafter hkept
    | false =>
      rw [step, dispatch_of_not_live live] at hafter
      exact absurd hafter hkept
  | disconnected =>
    simp only [step, disconnect] at hafter
    split at hafter
    · cases hafter
    · exact absurd hafter hkept
  | abandoned =>
    simp only [step, abandon] at hafter
    split at hafter
    · cases hafter
    · exact absurd hafter hkept

/-- Only a client that connects while the build waits for one makes a session live. -/
theorem eq_attached_of_live {s : Session} (h : s.status.isLive = false) {event : SessionEvent}
    (live : (s.step event).1.status.isLive = true) :
    event = .attached ∧ ∃ port, s.status = .awaiting port := by
  rw [step_status_of_not_live h] at live
  cases event with
  | attached =>
    cases hs : s.status with
    | awaiting port => exact ⟨rfl, port, rfl⟩
    | _ => simp_all [Status.isLive]
  | build event =>
    cases event with
    | buildStarted baseline =>
      cases hs : s.status with
      | idle => cases hport : s.settings.listenPort? baseline <;> simp_all [Status.isLive]
      | _ => simp_all [Status.isLive]
    | buildFinished => cases live
    | _ => simp [h] at live
  | abandoned => cases hs : s.status <;> simp_all [Status.isLive]
  | _ => simp [h] at live

end Session

end BuildStepper
