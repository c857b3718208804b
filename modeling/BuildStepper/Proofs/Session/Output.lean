import BuildStepper.Proofs.Session.History
import BuildStepper.Proofs.Session.Lifecycle

/-!
# What the client is told, and in which order

`OutputOrder` collects what holds of the notifications that the client of a build is sent: which
comes first and which last, that the build is let go between two holds, which notification answers
which command, and which ends of a session are told. `output_order` proves it, whatever the parties
do.

The proof takes a history apart into its moments. What a single step sends is said once
(`step_sent_of_live`, `step_sent_of_not_live`), and every part of the order is read off it. Two
parts need more than one moment. That the build is let go between two holds rests on `AtRest`, which
a step keeps unless it lets the build go; and nothing is told after the end, since a session that is
over is silent (`Over.run`).
-/

namespace BuildStepper

open Wire (Command Notification SuspendReason)

/-- Whether a notification belongs between the first and the last one of a session. -/
def Wire.Notification.isReport : Notification → Bool
  | .suspended _ | .stack _ | .properties _ => true
  | .buildStarted | .terminated => false

/-- The command that a notification answers, for those that only come as answers. -/
def Wire.Notification.answered? : Notification → Option Command
  | .stack _ => some .stack
  | .properties _ => some .properties
  | _ => none

namespace Session

/-! ## What a step sends -/

/-- A callback of a live session tells of the hold, if there is one. -/
theorem callback_sent {s : Session} (live : s.status.isLive = true) {event : BuildEvent}
    (hover : event ≠ .buildFinished) :
    (s.callback event).2 = ((s.holdReason? event).map .suspended).toList := by
  rw [callback_of_live live hover, suspendIf_snd]

/-- What a live session sends. -/
theorem step_sent_of_live {s : Session} (live : s.status.isLive = true) (event : SessionEvent) :
    (s.step event).2 =
      match event with
      | .build .buildFinished => [.terminated]
      | .build event => ((s.holdReason? event).map .suspended).toList
      | .command _ _ .terminate => [.terminated]
      | .command _ _ .stack => [.stack s.stackRecords]
      | .command all user .properties => [.properties (s.report.delta all user)]
      | _ => [] := by
  cases event with
  | build event =>
    cases event with
    | buildFinished => simp [step, callback, buildFinished, live]
    | _ => exact callback_sent live (by simp)
  | command all user command =>
    simp only [step]
    rw [dispatch_sent live]
    cases command <;> rfl
  | attached => rw [step_of_live live (.inl rfl)]
  | abandoned => rw [step_of_live live (.inr rfl)]
  | disconnected => rfl

/-- A session that is not live sends nothing, except that it greets a client it waits for. -/
theorem step_sent_of_not_live {s : Session} (h : s.status.isLive = false) (event : SessionEvent) :
    (s.step event).2 =
      match event, s.status with
      | .attached, .awaiting _ => [.buildStarted]
      | _, _ => [] := by
  cases event with
  | build event =>
    cases event with
    | buildStarted baseline => rfl
    | buildFinished => simp [step, callback, buildFinished, h]
    | _ => simp only [step]; rw [callback_of_not_live h rfl (by simp)]
  | command all user command => simp only [step]; rw [dispatch_of_not_live h]
  | attached => cases hs : s.status <;> simp [step, attach, hs]
  | abandoned => rfl
  | disconnected => rfl

/-- A query changes no more than what has been reported, and only its answer is sent. -/
theorem dispatch_of_asks (s : Session) (all user : PropertyTable) {command : Command}
    (h : command.asks = true) :
    (∃ report, (s.dispatch all user command).1 = { s with report }) ∧
      ∀ n ∈ (s.dispatch all user command).2, n.answered? = some command := by
  cases live : s.status.isLive with
  | false =>
    rw [dispatch_of_not_live live]
    exact ⟨⟨s.report, rfl⟩, by simp⟩
  | true =>
    rw [dispatch_sent live]
    unfold dispatch
    rw [if_pos live]
    cases command <;> simp only [Command.asks, Bool.false_eq_true] at h
    · exact ⟨⟨s.report, rfl⟩, by simp [Notification.answered?]⟩
    · exact ⟨⟨_, rfl⟩, by simp [Notification.answered?]⟩

/-- A hold is told of by the callback that finds the reason for it. -/
theorem eq_build_of_suspended_mem {s : Session} {event : SessionEvent} {reason : SuspendReason}
    (h : .suspended reason ∈ (s.step event).2) :
    s.status.isLive = true ∧
      ∃ called, event = .build called ∧ called ≠ .buildFinished ∧
        s.holdReason? called = some reason := by
  cases live : s.status.isLive with
  | true =>
    refine ⟨rfl, ?_⟩
    cases event with
    | build called =>
      by_cases hover : called = .buildFinished
      · subst hover
        rw [step_sent_of_live live] at h
        simp at h
      · -- A callback sends the reason that it finds, and nothing else.
        have hsent : .suspended reason ∈ (s.callback called).2 := h
        rw [callback_sent live hover] at hsent
        exact ⟨called, rfl, hover, by simpa using hsent⟩
    | command all user command =>
      rw [step_sent_of_live live] at h
      cases command <;> simp at h
    | _ =>
      rw [step_sent_of_live live] at h
      simp at h
  | false =>
    rw [step_sent_of_not_live live] at h
    split at h <;> simp at h

/-! ## Moments -/

namespace Moment

/-- What the client is sent at the moment. -/
def sent (m : Moment) : List Notification :=
  (m.before.step m.event).2

/-- A client comes to be attached at the moment. -/
def Attaches (m : Moment) : Prop :=
  m.before.status.isLive = false ∧ m.after.status.isLive = true

/-- A session with a client ends at the moment. -/
def Ends (m : Moment) : Prop :=
  m.before.status.isLive = true ∧ m.after.status = .terminated

/-- The command that a live session carries out at the moment. -/
def command? (m : Moment) : Option Command :=
  if m.before.status.isLive then m.dispatch?.map Prod.snd else none

/-- The client lets the build go at the moment, or would if it were held. -/
def Releases (m : Moment) : Prop :=
  ∃ command, m.command? = some command ∧ command.releases = true

/-- The session ends at the moment because it is told to: by the client or by the build. -/
def EndsOnRequest (m : Moment) : Prop :=
  m.Ends ∧ (m.event = .build .buildFinished ∨ ∃ all user, m.event = .command all user .terminate)

/-- A client is greeted exactly when it comes to be attached. -/
theorem buildStarted_mem_sent_iff {m : Moment} : .buildStarted ∈ m.sent ↔ m.Attaches := by
  obtain ⟨s, event⟩ := m
  unfold sent Attaches
  simp only [Moment.after]
  cases live : s.status.isLive with
  | true =>
    rw [step_sent_of_live live]
    split <;> simp
  | false =>
    rw [step_sent_of_not_live live]
    constructor
    · intro hsent
      split at hsent
      · next hwaiting => simp [step, attach, hwaiting, Status.isLive]
      · cases hsent
    · rintro ⟨-, hlive⟩
      obtain ⟨rfl, port, hwaiting⟩ := eq_attached_of_live live hlive
      simp [hwaiting]

/-- Where a hold is told, the build is held. -/
theorem after_of_suspended_mem {m : Moment} {reason : SuspendReason}
    (h : .suspended reason ∈ m.sent) : m.after.status = .suspended (.ofReason reason) := by
  obtain ⟨s, event⟩ := m
  obtain ⟨live, called, hevent, hover, hreason⟩ := eq_build_of_suspended_mem h
  change event = .build called at hevent
  subst hevent
  change (s.callback called).1.status = _
  have hreason : s.holdReason? called = some reason := hreason
  rw [callback_status live hover, hreason]
  rfl

/-- That the session is over is told exactly when it ends because it is told to. -/
theorem terminated_mem_sent_iff {m : Moment} : .terminated ∈ m.sent ↔ m.EndsOnRequest := by
  obtain ⟨s, event⟩ := m
  unfold sent EndsOnRequest Ends
  simp only [Moment.after]
  cases live : s.status.isLive with
  | true =>
    cases event with
    | build called =>
      by_cases hover : called = .buildFinished
      · subst hover
        rw [step_sent_of_live live, step_status_of_live live]
        simp
      · -- No other callback tells of an end.
        have hsent : (s.step (.build called)).2 = ((s.holdReason? called).map .suspended).toList :=
          callback_sent live hover
        rw [hsent]
        cases s.holdReason? called <;> simp [hover]
    | command all user command =>
      rw [step_sent_of_live live, step_status_of_live live]
      cases command <;> simp
    | _ =>
      rw [step_sent_of_live live, step_status_of_live live]
      simp
  | false =>
    rw [step_sent_of_not_live live]
    split <;> simp

/-- The stack and the properties are sent exactly as answers to the commands that ask for them. -/
theorem answered_sent (m : Moment) :
    m.sent.filterMap Notification.answered? = (m.command?.filter Command.asks).toList := by
  obtain ⟨s, event⟩ := m
  unfold sent command? dispatch?
  cases live : s.status.isLive with
  | true =>
    cases event with
    | build called =>
      by_cases hover : called = .buildFinished
      · subst hover
        rw [step_sent_of_live live]
        rfl
      · -- No callback asks for anything.
        have hsent : (s.step (.build called)).2 = ((s.holdReason? called).map .suspended).toList :=
          callback_sent live hover
        rw [hsent]
        cases s.holdReason? called <;> rfl
    | command all user command =>
      rw [step_sent_of_live live]
      cases command <;> rfl
    | _ =>
      rw [step_sent_of_live live]
      rfl
  | false =>
    rw [step_sent_of_not_live live]
    split <;> rfl

/-- A session ends because it is told to, or because the connection is gone. -/
theorem Ends.cases {m : Moment} (h : m.Ends) : m.EndsOnRequest ∨ m.event = .disconnected := by
  obtain ⟨s, event⟩ := m
  obtain ⟨live, hover⟩ := h
  have hends : (Moment.mk s event).Ends := ⟨live, hover⟩
  have hlive : s.status ≠ .terminated := by
    intro heq
    rw [heq] at live
    cases live
  change (s.step event).1.status = .terminated at hover
  rw [step_status_of_live live] at hover
  cases event with
  | build called =>
    by_cases hlast : called = .buildFinished
    · exact .inl ⟨hends, .inl (congrArg _ hlast)⟩
    · -- Any other callback leaves the status, or holds the build.
      cases hreason : s.holdReason? called <;> simp [hreason, hlive] at hover
  | command all user command =>
    -- Any other command leaves the session live.
    by_cases hterminate : command = .terminate
    · exact .inl ⟨hends, .inr ⟨all, user, congrArg _ hterminate⟩⟩
    · simp only [if_neg hterminate] at hover
      split at hover
      · cases hover
      · exact absurd hover hlive
  | disconnected => exact .inr rfl
  | attached => exact absurd hover hlive
  | abandoned => exact absurd hover hlive

end Moment

/-- What is sent, moment by moment. -/
theorem run_sent (s : Session) (events : List SessionEvent) :
    (s.run events).2 = (s.moments events).flatMap Moment.sent := by
  induction events generalizing s with
  | nil => rfl
  | cons event events ih => simp [moments, ih, Moment.sent]

/-- Where the moments of a history are cut, the history is. -/
theorem exists_of_moments_eq {s : Session} {events : List SessionEvent} {before later : List Moment}
    {m : Moment} (h : s.moments events = before ++ m :: later) :
    ∃ es fs, events = es ++ m.event :: fs ∧ before = s.moments es ∧ m.before = (s.run es).1 ∧
      later = m.after.moments fs := by
  induction before generalizing s events with
  | nil =>
    cases events with
    | nil => cases h
    | cons event events =>
      obtain ⟨rfl, rfl⟩ := List.cons.inj h
      exact ⟨[], events, rfl, rfl, rfl, rfl⟩
  | cons first before ih =>
    cases events with
    | nil => cases h
    | cons event events =>
      obtain ⟨rfl, hrest⟩ := List.cons.inj h
      obtain ⟨es, fs, rfl, rfl, hbefore, hlater⟩ := ih hrest
      exact ⟨event :: es, fs, rfl, rfl, hbefore, hlater⟩

/-- A serial history is serial on both sides of an event, and the event can happen between. -/
theorem Serial.split {s : Session} {before later : List SessionEvent} {event : SessionEvent}
    (h : s.Serial (before ++ event :: later)) :
    s.Serial before ∧ (s.run before).1.admits event = true ∧
      ((s.run before).1.step event).1.Serial later := by
  induction before generalizing s with
  | nil => exact ⟨trivial, h.1, h.2⟩
  | cons first before ih =>
    obtain ⟨hbefore, hadmits, hlater⟩ := ih h.2
    exact ⟨⟨h.1, hbefore⟩, hadmits, hlater⟩

/-! ## Between two holds -/

/-- The build is held, or there is nothing more to hold it. -/
def AtRest (s : Session) : Prop :=
  s.status.isSuspended = true ∨ s.status = .terminated

/-- A build at rest is not held anew. -/
theorem AtRest.not_suspended_mem {s : Session} (h : s.AtRest) {event : SessionEvent}
    (hadmits : s.admits event = true) (reason : SuspendReason) :
    .suspended reason ∉ (s.step event).2 := by
  intro hsent
  obtain ⟨live, called, rfl, hover, -⟩ := eq_build_of_suspended_mem hsent
  have hrunning := running_of_admits live hadmits hover
  unfold AtRest at h
  rw [hrunning] at h
  simp [Status.isSuspended] at h

/-- A build at rest stays so unless the client lets it go. -/
theorem AtRest.step {s : Session} (h : s.AtRest) {event : SessionEvent}
    (hadmits : s.admits event = true) (hkept : ¬ (Moment.mk s event).Releases) :
    (s.step event).1.AtRest := by
  obtain hheld | hover := h
  · have live : s.status.isLive = true := Status.isLive_of_isSuspended hheld
    unfold AtRest
    rw [step_status_of_live live]
    cases event with
    | build called =>
      by_cases hlast : called = .buildFinished
      · subst hlast
        exact .inr rfl
      · -- A build that is held makes no callback but its end.
        have hrunning := running_of_admits live hadmits hlast
        rw [hrunning] at hheld
        cases hheld
    | command all user command =>
      have hnot : ¬ command.releases = true := fun hreleases =>
        hkept ⟨command, by simp [Moment.command?, Moment.dispatch?, live], hreleases⟩
      by_cases hterminate : command = .terminate
      · simp [hterminate]
      · simp only [if_neg hterminate, if_neg hnot]
        exact .inl hheld
    | disconnected => exact .inr rfl
    | attached => exact .inl hheld
    | abandoned => exact .inl hheld
  · exact .inr (step_terminated hover event)

/-- A build at rest stays so until the client lets it go. -/
theorem AtRest.run {s : Session} (h : s.AtRest) {events : List SessionEvent}
    (serial : s.Serial events) (hkept : ∀ m ∈ s.moments events, ¬ m.Releases) :
    (s.run events).1.AtRest := by
  induction events generalizing s with
  | nil => exact h
  | cons event events ih =>
    obtain ⟨hadmits, hserial⟩ := serial
    have hnext := h.step hadmits (hkept _ List.mem_cons_self)
    exact ih hnext hserial fun m hm => hkept m (List.mem_cons_of_mem _ hm)

/-- Once a client is greeted, or told of a hold, the build is at rest. -/
theorem Moment.after_atRest {m : Moment}
    (h : .buildStarted ∈ m.sent ∨ ∃ reason, .suspended reason ∈ m.sent) : m.after.AtRest := by
  obtain hstarted | ⟨reason, hsuspended⟩ := h
  · obtain ⟨hdead, live⟩ := Moment.buildStarted_mem_sent_iff.1 hstarted
    obtain ⟨s, event⟩ := m
    obtain ⟨rfl, port, hwaiting⟩ := eq_attached_of_live hdead live
    change s.status = .awaiting port at hwaiting
    left
    simp [Moment.after, Session.step, attach, hwaiting, Status.isSuspended]
  · left
    rw [Moment.after_of_suspended_mem hsuspended]
    rfl

/-- Between two holds of the build the client lets it go. -/
theorem releases_between {s : Session} {events : List SessionEvent} (serial : s.Serial events)
    {before between later : List Moment} {m n : Moment}
    (hsplit : s.moments events = before ++ m :: (between ++ n :: later))
    (hm : .buildStarted ∈ m.sent ∨ ∃ reason, .suspended reason ∈ m.sent)
    (hn : ∃ reason, .suspended reason ∈ n.sent) : ∃ k ∈ between, k.Releases := by
  by_contra hnone
  obtain ⟨es, fs, rfl, -, hbefore, hrest⟩ := exists_of_moments_eq hsplit
  obtain ⟨gs, hs, rfl, rfl, hnbefore, -⟩ := exists_of_moments_eq hrest.symm
  obtain ⟨-, -, hserial⟩ := serial.split
  rw [← hbefore] at hserial
  obtain ⟨hbetween, hadmits, -⟩ := Serial.split hserial
  -- The build rests from the first of the two moments on, so that the other one cannot hold it.
  have hrest : n.before.AtRest := by
    rw [hnbefore]
    exact (Moment.after_atRest hm).run hbetween fun k hk hreleases => hnone ⟨k, hk, hreleases⟩
  have hn' : n.before.admits n.event = true := by
    rw [hnbefore]
    exact hadmits
  obtain ⟨reason, hreason⟩ := hn
  exact hrest.not_suspended_mem hn' reason hreason

/-! ## From the first notification to the last -/

/-- A session that is no longer live is over. -/
theorem terminated_of_step {s : Session} (live : s.status.isLive = true) {event : SessionEvent}
    (hdead : (s.step event).1.status.isLive = false) : (s.step event).1.status = .terminated := by
  have hstatus := step_status_of_live live event
  generalize (s.step event).1.status = status at hdead hstatus ⊢
  split at hstatus
  · exact hstatus
  · exact hstatus
  · next called _ =>
    -- A hold is no end, and without one the session is as live as before.
    cases hreason : s.holdReason? called with
    | some reason =>
      rw [hstatus, hreason] at hdead
      cases hdead
    | none =>
      rw [hstatus, hreason] at hdead
      exact absurd (live.symm.trans hdead) (by decide)
  · split at hstatus
    · exact hstatus
    · split at hstatus
      · rw [hstatus] at hdead
        cases hdead
      · rw [hstatus] at hdead
        exact absurd (live.symm.trans hdead) (by decide)
  · rw [hstatus] at hdead
    exact absurd (live.symm.trans hdead) (by decide)
  · rw [hstatus] at hdead
    exact absurd (live.symm.trans hdead) (by decide)

/-- A session that still has no client had none before, and was not over. -/
theorem unattended_of_step {s : Session} {event : SessionEvent}
    (hdead : (s.step event).1.status.isLive = false)
    (hgoing : (s.step event).1.status ≠ .terminated) :
    s.status.isLive = false ∧ s.status ≠ .terminated := by
  refine ⟨?_, fun hterminated => hgoing (step_terminated hterminated event)⟩
  by_contra hlive
  exact hgoing (terminated_of_step (by simpa using hlive) hdead)

/-- What is sent while a session stays live is neither the first nor the last notification. -/
theorem Moment.isReport_of_mem_sent {m : Moment} (hbefore : m.before.status.isLive = true)
    (hafter : m.after.status.isLive = true) : ∀ n ∈ m.sent, n.isReport = true := by
  intro n hn
  cases n with
  | buildStarted =>
    have hdead := (Moment.buildStarted_mem_sent_iff.1 hn).1
    rw [hbefore] at hdead
    cases hdead
  | terminated =>
    have hover := (Moment.terminated_mem_sent_iff.1 hn).1.2
    rw [hover] at hafter
    cases hafter
  | _ => rfl

/-- What is sent at the end of a session: that it is over, or nothing. -/
theorem Moment.Ends.sent {m : Moment} (h : m.Ends) : m.sent = [] ∨ m.sent = [.terminated] := by
  obtain ⟨s, event⟩ := m
  have live : s.status.isLive = true := h.1
  unfold Moment.sent
  rw [step_sent_of_live live]
  obtain ⟨-, hevent | ⟨all, user, hevent⟩⟩ | hevent := h.cases
  all_goals
    change event = _ at hevent
    subst hevent
  · exact .inr rfl
  · exact .inr rfl
  · exact .inl rfl

/-- What a live session still sends: reports, and at last that it is over, or not even that. -/
theorem run_sent_of_live {s : Session} (live : s.status.isLive = true)
    (events : List SessionEvent) :
    ∃ reports ending, (s.run events).2 = reports ++ ending ∧
      (∀ n ∈ reports, n.isReport = true) ∧ (ending = [] ∨ ending = [.terminated]) := by
  induction events generalizing s with
  | nil => exact ⟨[], [], rfl, by simp, .inl rfl⟩
  | cons event events ih =>
    cases hnext : (s.step event).1.status.isLive with
    | true =>
      obtain ⟨reports, ending, hlater, hreports, hending⟩ := ih hnext
      have hfirst : ∀ n ∈ (s.step event).2, n.isReport = true :=
        (Moment.mk s event).isReport_of_mem_sent live hnext
      refine ⟨(s.step event).2 ++ reports, ending, ?_, ?_, hending⟩
      · rw [run_cons, hlater, List.append_assoc]
      · intro n hn
        rcases List.mem_append.1 hn with hn | hn
        · exact hfirst n hn
        · exact hreports n hn
    | false =>
      -- The session is over now, and what is over is silent.
      have hover := terminated_of_step live hnext
      have hsilent := (Over.run (s := (s.step event).1) ⟨hover, rfl, rfl⟩ events).2
      have hends : (Moment.mk s event).Ends := ⟨live, hover⟩
      refine ⟨[], (s.step event).2, ?_, by simp, hends.sent⟩
      rw [run_cons, hsilent]
      simp

/-- A session without a client sends nothing for as long as none comes to be attached. -/
theorem run_sent_of_unattended {s : Session} (hdead : s.status.isLive = false)
    {events : List SessionEvent} (hnone : ∀ m ∈ s.moments events, ¬ m.Attaches) :
    (s.run events).2 = [] ∧ (s.run events).1.status.isLive = false := by
  induction events generalizing s with
  | nil => exact ⟨rfl, hdead⟩
  | cons event events ih =>
    have hfirst : ¬ (Moment.mk s event).Attaches := hnone _ List.mem_cons_self
    have hnext : (s.step event).1.status.isLive = false := by
      cases hlive : (s.step event).1.status.isLive with
      | true => exact absurd ⟨hdead, hlive⟩ hfirst
      | false => rfl
    have hsent : (s.step event).2 = [] := by
      have hgreeting : .buildStarted ∉ (s.step event).2 := fun h =>
        hfirst (Moment.buildStarted_mem_sent_iff.1 h)
      rw [step_sent_of_not_live hdead] at hgreeting ⊢
      split at hgreeting
      · exact absurd List.mem_cons_self hgreeting
      · rfl
    obtain ⟨hlater, hlast⟩ := ih hnext fun m hm => hnone m (List.mem_cons_of_mem _ hm)
    exact ⟨by rw [run_cons, hsent, hlater]; rfl, hlast⟩

/-- All that a session sends which begins without a client and comes to have one. -/
theorem run_sent_of_attended {s : Session} (hdead : s.status.isLive = false)
    {events : List SessionEvent} (hsome : ∃ m ∈ s.moments events, m.Attaches) :
    ∃ reports ending, (s.run events).2 = .buildStarted :: (reports ++ ending) ∧
      (∀ n ∈ reports, n.isReport = true) ∧ (ending = [] ∨ ending = [.terminated]) := by
  induction events generalizing s with
  | nil =>
    obtain ⟨m, hm, -⟩ := hsome
    cases hm
  | cons event events ih =>
    cases hnext : (s.step event).1.status.isLive with
    | true =>
      -- The client attaches at this event, and all later ones find it there.
      obtain ⟨rfl, port, hwaiting⟩ := eq_attached_of_live hdead hnext
      obtain ⟨reports, ending, hlater, hreports, hending⟩ := run_sent_of_live hnext events
      refine ⟨reports, ending, ?_, hreports, hending⟩
      rw [run_cons, hlater, step_sent_of_not_live hdead, hwaiting]
      rfl
    | false =>
      -- Nothing is sent before, so that what is sent later is all.
      have hfirst : ¬ (Moment.mk s event).Attaches := fun h =>
        absurd (h.2.symm.trans hnext) (by decide)
      have hsent : (s.step event).2 = [] := by
        have hquiet : (s.run [event]).2 = [] :=
          (run_sent_of_unattended hdead (by simpa [moments])).1
        simpa using hquiet
      obtain ⟨m, hm, hattaches⟩ := hsome
      have hlater : m ∈ (s.step event).1.moments events := by
        rcases List.mem_cons.1 hm with rfl | hm
        · exact absurd hattaches hfirst
        · exact hm
      rw [run_cons, hsent]
      exact ih hnext ⟨m, hlater, hattaches⟩

/-- A session ends once. -/
theorem Moment.Ends.eq {s : Session} {events : List SessionEvent} {m n : Moment}
    (hm : m ∈ s.moments events) (hn : n ∈ s.moments events) (hends : m.Ends) (hends' : n.Ends) :
    m = n := by
  -- After an end the session is over, so that a moment which comes later is no end.
  have hlater {events : List SessionEvent} {m n : Moment} {before later : List Moment}
      (hsplit : s.moments events = before ++ m :: later) (hends : m.Ends) (hn : n ∈ later) :
      ¬ n.Ends := by
    obtain ⟨es, fs, -, -, -, rfl⟩ := exists_of_moments_eq hsplit
    obtain ⟨front, back, hfront⟩ := List.append_of_mem hn
    obtain ⟨gs, hs, -, -, hbefore, -⟩ := exists_of_moments_eq hfront
    intro hends'
    have hover := (Over.run (s := m.after) ⟨hends.2, rfl, rfl⟩ gs).1.status
    have live := hends'.1
    rw [hbefore, hover] at live
    cases live
  obtain ⟨before, later, hsplit⟩ := List.append_of_mem hm
  rw [hsplit] at hn
  rcases List.mem_append.1 hn with hn | hn
  · obtain ⟨front, back, hfront⟩ := List.append_of_mem hn
    rw [hfront, List.append_assoc] at hsplit
    exact absurd hends (hlater hsplit hends' List.mem_append_cons_self)
  · rcases List.mem_cons.1 hn with rfl | hn
    · rfl
    · exact absurd hends' (hlater hsplit hends hn)

end Session

/-! ## The client of a build -/

namespace DebuggedBuild

/-- What happens to the session while the parties do what they do. -/
def events (b : DebuggedBuild) : List Incident → List SessionEvent
  | [] => []
  | i :: incidents => (i.event? b.thread).toList ++ (b.step i).1.events incidents

/-- The parties run the session, event by event. -/
theorem run_eq_events (b : DebuggedBuild) (incidents : List Incident) :
    (b.run incidents).1.session = (b.session.run (b.events incidents)).1 ∧
      (b.run incidents).2 = (b.session.run (b.events incidents)).2 := by
  induction incidents generalizing b with
  | nil => exact ⟨rfl, rfl⟩
  | cons i incidents ih =>
    obtain ⟨hsession, hsent⟩ := ih (b.step i).1
    simp only [run, events]
    cases hevent : i.event? b.thread with
    | none =>
      rw [step_of_none hevent] at hsession hsent ⊢
      exact ⟨hsession, hsent⟩
    | some event =>
      rw [step_of_some hevent] at hsession hsent ⊢
      exact ⟨hsession, by rw [hsent]; rfl⟩

/-- An incident is nothing to the session that could not happen to it. -/
theorem Fits.admits {b : DebuggedBuild} (h : b.Fits) {i : Incident} {event : SessionEvent}
    (hevent : i.event? b.thread = some event) : b.session.admits event = true := by
  cases i with
  | calls called =>
    obtain ⟨s, thread⟩ := b
    cases thread with
    | working =>
      -- The thread is outside all callbacks, so that the session blocks nothing.
      obtain rfl := Option.some.inj hevent
      have hfree : s.status.blocksBuild = false := h
      cases called <;> simp [Session.admits, hfree]
    | waiting waited => cases hevent
    | held kept => cases hevent
  | ended =>
    obtain rfl := Option.some.inj hevent
    rfl
  | accepted =>
    cases hthread : b.thread <;> simp [hthread, Incident.event?] at hevent
    rw [← hevent]
    rfl
  | missed =>
    cases hthread : b.thread <;> simp [hthread, Incident.event?] at hevent
    rw [← hevent]
    rfl
  | read all user outcome =>
    obtain ⟨command, rfl⟩ | rfl := heard?_cases hevent <;> rfl

/-- The build calls its session back from one thread. -/
theorem Fits.serial_events {b : DebuggedBuild} (h : b.Fits) (incidents : List Incident) :
    b.session.Serial (b.events incidents) := by
  induction incidents generalizing b with
  | nil => trivial
  | cons i incidents ih =>
    have hlater := ih (h.step i)
    simp only [events]
    cases hevent : i.event? b.thread with
    | none => rwa [step_of_none hevent] at hlater ⊢
    | some event =>
      rw [step_of_some hevent] at hlater ⊢
      exact ⟨h.admits hevent, hlater⟩

/-- What the client is sent while the parties do what they do, from the beginning. -/
def sent (settings : DebugSettings) (incidents : List Incident) : List Notification :=
  (run ⟨{ settings }, .working⟩ incidents).2

/-- What happens to the session meanwhile, moment by moment. -/
def moments (settings : DebugSettings) (incidents : List Incident) : List Session.Moment :=
  ({ settings } : Session).moments (events ⟨{ settings }, .working⟩ incidents)

/-- What holds of the notifications that a client is sent while the session goes through moments. -/
structure OutputOrder (moments : List Session.Moment) (sent : List Notification) : Prop where
  /-- Without a client nothing is sent. -/
  unattended : (∀ m ∈ moments, ¬ m.Attaches) → sent = []
  /-- A client is told first that the build has started, then of holds, the stack and the
  properties, and at last perhaps that the session is over. -/
  course : (∃ m ∈ moments, m.Attaches) →
    ∃ reports ending, sent = .buildStarted :: (reports ++ ending) ∧
      (∀ n ∈ reports, n.isReport = true) ∧ (ending = [] ∨ ending = [.terminated])
  /-- Between the start of the build and a hold that is told of, and between any two such holds,
  the client has sent a step into, a step over or a resume, and the session has carried it out. -/
  released : ∀ before m between n later, moments = before ++ m :: (between ++ n :: later) →
    (.buildStarted ∈ m.sent ∨ ∃ reason, .suspended reason ∈ m.sent) →
    (∃ reason, .suspended reason ∈ n.sent) → ∃ k ∈ between, k.Releases
  /-- The stack and the properties are sent once for each command carried out that asks for them,
  and in the order of those commands. -/
  answered : sent.filterMap Notification.answered? =
    moments.filterMap fun m => m.command?.filter Command.asks
  /-- That the session is over is told exactly if it ends because the client or the build says
  so. -/
  told : .terminated ∈ sent ↔ ∃ m ∈ moments, m.EndsOnRequest
  /-- It is not told if the session ends because the connection is gone. -/
  untold : (∃ m ∈ moments, m.Ends ∧ m.event = .disconnected) → .terminated ∉ sent
  /-- There is no other end. -/
  ended : ∀ m ∈ moments, m.Ends → m.EndsOnRequest ∨ m.event = .disconnected

/-- What a client is sent is in order, whatever the parties do. -/
theorem output_order (settings : DebugSettings) (incidents : List Incident) :
    OutputOrder (moments settings incidents) (sent settings incidents) := by
  have serial := (fits_after settings []).serial_events incidents
  have hsent := (run_eq_events ⟨{ settings }, .working⟩ incidents).2
  change ({ settings } : Session).Serial (events ⟨{ settings }, .working⟩ incidents) at serial
  unfold moments sent
  rw [hsent]
  generalize events ⟨{ settings }, .working⟩ incidents = happened at serial
  -- All parts speak of what is sent moment by moment.
  have hmoments := Session.run_sent { settings } happened
  have htold : .terminated ∈ (({ settings } : Session).run happened).2 ↔
      ∃ m ∈ ({ settings } : Session).moments happened, m.EndsOnRequest := by
    simp only [hmoments, List.mem_flatMap, Session.Moment.terminated_mem_sent_iff]
  refine ⟨fun hnone => (Session.run_sent_of_unattended rfl hnone).1,
    Session.run_sent_of_attended rfl, ?_, ?_, htold, ?_, fun m _ hends => hends.cases⟩
  · exact fun before m between n later hsplit hm hn =>
      Session.releases_between serial hsplit hm hn
  · rw [hmoments, List.filterMap_flatMap]
    simp only [Session.Moment.answered_sent]
    rw [List.filterMap_eq_flatMap_toList]
  · -- The session ends once, so that the end which is told is no loss of the connection.
    rintro ⟨m, hm, hends, hgone⟩ hterminated
    obtain ⟨n, hn, hends', hevent⟩ := htold.1 hterminated
    have heq := Session.Moment.Ends.eq hm hn hends hends'
    rw [← heq, hgone] at hevent
    simp at hevent

end DebuggedBuild

end BuildStepper
