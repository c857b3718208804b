import BuildStepper.Proofs.Replay.Progress
import BuildStepper.Proofs.Session.Output
import BuildStepper.Proofs.Trace.Visits

/-!
# Stepping through a trace

`stepInto_visits` follows a client that steps into whatever comes: it answers every hold, that at
the start of the build included, with a step into, and sets no breakpoints. Over any trace the build
is then held once at every visit of a task and nowhere else, in the order of the visits, until the
client is told that the session is over.

The invariant is `Walking`. A step into is the only request there ever is, and it is there just
while the build runs; so every start or finish of a task is a hold, and nothing else is one. What
the client has been told follows from where the session stands and how many visits were called back
(`toldBy`), and what the session reports of the stack from what was called back (`Replaying`). Every
turn that keeps to the rule keeps the invariant (`Walking.turn`); and as long as the session is not
over there is one that brings its end nearer (`Walking.finishes`).
-/

namespace BuildStepper

open Wire (Command Notification FrameRecord)

/-- What a client is told without having asked. -/
def unasked (sent : List Notification) : List Notification :=
  sent.filter fun n => n.answered?.isNone

/-- What is told unasked can be collected piece by piece. -/
theorem unasked_append (first later : List Notification) :
    unasked (first ++ later) = unasked first ++ unasked later :=
  List.filter_append first later

/-- Answers are not told unasked. -/
theorem unasked_eq_nil_of_answered {sent : List Notification} {c : Command}
    (h : ∀ n ∈ sent, n.answered? = some c) : unasked sent = [] := by
  unfold unasked
  rw [List.filter_eq_nil_iff]
  intro n hn
  simp [h n hn]

/-- What a client that steps into whatever comes has been told without asking, once so many starts
and finishes of tasks were called back. -/
def toldBy (visited : Nat) : Status → List Notification
  | .idle | .awaiting _ => []
  | .running | .suspended _ => .buildStarted :: List.replicate visited (.suspended .step)
  | .terminated => .buildStarted :: (List.replicate visited (.suspended .step) ++ [.terminated])

/-- Whether a turn is one of the build, or of a client that steps into whatever comes: it connects,
it asks, and it steps into when the build is held. -/
def Turn.stepsInto (r : DebuggedReplay) : Turn → Bool
  | .advance | .attach => true
  | .command c => c.asks || (c = .stepInto && r.session.status.isSuspended)
  | .abandon | .disconnect | .giveUp => false

/-- Whether all turns are such. -/
def DebuggedReplay.stepsInto (r : DebuggedReplay) : List Turn → Bool
  | [] => true
  | turn :: turns => turn.stepsInto r && (r.turn turn).1.stepsInto turns

/-! ## The end of a trace -/

/-- The end of the build is no callback of targets. -/
theorem TraceTarget.buildFinished_not_mem (next : Nat) (ts : List TraceTarget) :
    .buildFinished ∉ callbacksOf (TraceTarget.stepsAll next ts) := by
  induction ts generalizing next with
  | nil => exact List.not_mem_nil
  | cons t ts ih =>
    have htasks : .buildFinished ∉ callbacksOf (TraceTask.stepsAll t next t.tasks).1 := by
      intro hmem
      have hfound : ∃ m ∈ TraceTask.nodesAll t [] next t.tasks,
          BuildEvent.buildFinished = .taskStarted m.frame ∨
            BuildEvent.buildFinished = .taskFinished m.frame := TraceTask.mem_callbacksAll hmem
      obtain ⟨m, -, heq | heq⟩ := hfound
      · cases heq
      · cases heq
    rw [TraceTarget.callbacksOf_stepsAll]
    simp [htasks, ih]

/-- The end of the build is the last callback of a trace, and no other. -/
theorem Trace.eq_buildFinished_iff {t : Trace} {called later : List BuildEvent} {event : BuildEvent}
    (h : called ++ event :: later = t.events) : event = .buildFinished ↔ later = [] := by
  rw [Trace.events_eq_targets] at h
  have hfirst : .buildFinished ∉ [BuildEvent.buildStarted t.initialProperties.all] ++
      callbacksOf (TraceTarget.stepsAll 0 t.targets) := by
    simp [TraceTarget.buildFinished_not_mem]
  constructor
  · rintro rfl
    exact ((List.append_cons_inj_of_notMem hfirst List.not_mem_nil).1 h.symm).2.2.symm
  · rintro rfl
    exact (List.cons.inj (List.append_inj_right' h rfl)).1

namespace Session

/-- A session with a step into and without breakpoints holds the build at every start and finish of
a task, and at nothing else. -/
theorem holdReason?_of_stepInto {s : Session} (hclear : s.breakpoints.locations = [])
    (hpending : s.pending = { stepInto := true }) (event : BuildEvent) :
    s.holdReason? event = if event.isOfTask then some .step else none := by
  have hnone (place : Location) : s.breakpoints.at? place = none := by
    simp [Breakpoints.at?, hclear]
  cases event with
  | targetStarted t => simp [holdReason?, hnone, BuildEvent.isOfTask]
  | taskStarted f =>
    simp [holdReason?, suspendReason?, noteStart, hnone, hpending, BuildEvent.isOfTask]
  | taskFinished f => simp [holdReason?, suspendReason?, noteFinish, hpending, BuildEvent.isOfTask]
  | _ => rfl

/-- A step into is noted and lets a build go that is held. -/
theorem dispatch_stepInto {s : Session} (hheld : s.status.isSuspended = true)
    (hpending : s.pending = {}) (all user : PropertyTable) :
    s.dispatch all user .stepInto =
      ({ s with pending := { stepInto := true }, status := .running }, []) := by
  have live := Status.isLive_of_isSuspended hheld
  unfold Session.dispatch
  rw [if_pos live]
  simp only [release_eq, hpending, hheld, if_true]

end Session

namespace DebuggedReplay

open Session

/-- Where the build can be once these callbacks were made. -/
def Stage (called : List BuildEvent) : Status → Prop
  | .idle | .awaiting _ | .suspended .buildStart => called.countP BuildEvent.isOfTask = 0
  | .suspended .step => ∃ before event, called = before ++ [event] ∧ event.isOfTask = true
  | .suspended _ => False
  | .running | .terminated => True

/-- How a replay of a trace stands while a client steps into whatever comes, once the callbacks
`called` have been made and the client has been sent `sent`. -/
structure Walking (settings : DebugSettings) (t : Trace) (called : List BuildEvent)
    (sent : List Notification) (r : DebuggedReplay) : Prop extends
    Replaying settings t called r where
  /-- No breakpoint is set. -/
  clear : r.session.breakpoints.locations = []
  /-- While the build runs it is stepped into, and else nothing is asked for. -/
  requests : r.session.pending = { stepInto := decide (r.session.status = .running) }
  /-- The session is over when all callbacks have been made, and not before. -/
  ending : r.session.status = .terminated ↔ r.coming = []
  /-- The build is held at a start or finish of a task, or at its own start. -/
  stage : Stage called r.session.status
  /-- The client has been told of each start and finish of a task. -/
  told_client : unasked sent = toldBy (called.countP BuildEvent.isOfTask) r.session.status

namespace Walking

variable {settings : DebugSettings} {t : Trace} {called : List BuildEvent}
  {sent : List Notification} {r : DebuggedReplay}

/-- When a replay begins, no callback was made and the client was told nothing. -/
theorem ofTrace (settings : DebugSettings) (t : Trace) :
    Walking settings t [] [] (ofTrace settings t) where
  toReplaying := replaying_ofTrace settings t
  clear := rfl
  requests := rfl
  ending := by
    have hcoming : (DebuggedReplay.ofTrace settings t).coming = t.events := rfl
    rw [hcoming, Trace.events_eq_targets]
    simp [DebuggedReplay.ofTrace]
  stage := rfl
  told_client := rfl

/-- A turn that makes no callback, changes no more than what has been reported, and tells nothing
unasked is of no matter. -/
theorem keep (h : Walking settings t called sent r) {next : DebuggedReplay}
    {more : List Notification} (hbase : Replaying settings t called next)
    (hsession : ∃ report, next.session = { r.session with report })
    (hcoming : next.coming = r.coming) (hmore : unasked more = []) :
    Walking settings t called (sent ++ more) next := by
  obtain ⟨report, hreport⟩ := hsession
  -- All of it depends on the session only, but for its report.
  exact {
    toReplaying := hbase
    clear := by
      rw [hreport]
      exact h.clear
    requests := by
      rw [hreport]
      exact h.requests
    ending := by
      rw [hreport, hcoming]
      exact h.ending
    stage := by
      rw [hreport]
      exact h.stage
    told_client := by
      rw [hreport, unasked_append, hmore, List.append_nil]
      exact h.told_client }

/-- The first callback is the start of the build, which then waits for a client. -/
theorem callback_of_idle (h : Walking settings t called sent r) {port : UInt16}
    (hport : settings.listenPort? t.initialProperties.all = some port)
    (hidle : r.session.status = .idle) {event : BuildEvent} {later : List BuildEvent}
    (hcoming : r.coming = event :: later) {next : DebuggedReplay}
    (hbase : Replaying settings t (called ++ [event]) next)
    (hsession : next.session = (r.session.callback event).1) (hlater : next.coming = later) :
    Walking settings t (called ++ [event]) (sent ++ (r.session.callback event).2) next := by
  have hnone := h.fresh hidle
  have hlistens : r.session.settings.listenPort? t.initialProperties.all = some port := by
    have htold := h.told (by simp [hidle])
    rw [hnone] at htold
    rw [htold.settings]
    exact hport
  subst hnone
  have hsplit : [] ++ event :: later = t.events := by rw [← hcoming]; exact h.split
  -- A new session has made no callback, so that this one is the first.
  have hevent := eq_buildStarted_of_events hsplit.symm
  -- It is not the last one too.
  have hmore : later ≠ [] := by
    intro hnil
    have hfinished := (Trace.eq_buildFinished_iff hsplit).2 hnil
    rw [hevent] at hfinished
    cases hfinished
  have hcallback : r.session.callback event = ({ r.session with
      report := .start t.initialProperties.all
      status := .awaiting port }, []) := by
    rw [hevent, Session.callback, buildStarted, if_pos hidle, hlistens]
  rw [hcallback] at hsession ⊢
  exact {
    toReplaying := hbase
    clear := by
      rw [hsession]
      exact h.clear
    requests := by
      rw [hsession]
      simpa [hidle] using h.requests
    ending := by
      simp [hsession, hlater, hmore]
    stage := by
      rw [hsession, hevent]
      rfl
    told_client := by
      rw [hsession, List.append_nil]
      simpa [hidle, toldBy] using h.told_client }

/-- While the build runs, a start or finish of a task holds it. -/
theorem visit_of_running (h : Walking settings t called sent r)
    (hrunning : r.session.status = .running) {event : BuildEvent} (htask : event.isOfTask = true)
    {next : DebuggedReplay} (hbase : Replaying settings t (called ++ [event]) next)
    (hsession : next.session =
      { r.session.note event with pending := {}, status := .suspended .step })
    (hmore : next.coming ≠ []) :
    Walking settings t (called ++ [event]) (sent ++ [.suspended .step]) next := by
  obtain ⟨-, -, hbreakpoints, -⟩ := note_keeps r.session event
  -- The client has been told of all visits so far, and is told of one more.
  have htold := h.told_client
  rw [hrunning, toldBy] at htold
  exact {
    toReplaying := hbase
    clear := by
      rw [hsession]
      exact hbreakpoints ▸ h.clear
    requests := by
      rw [hsession]
      rfl
    ending := by
      simp [hsession, hmore]
    stage := by
      rw [hsession]
      exact ⟨called, event, rfl, htask⟩
    told_client := by
      rw [hsession, unasked_append, htold, List.countP_append]
      simp [toldBy, htask, unasked, Notification.answered?, List.replicate_succ'] }

/-- Other callbacks let it run on, but for the last one. -/
theorem pass_of_running (h : Walking settings t called sent r)
    (hrunning : r.session.status = .running) {event : BuildEvent} (htask : event.isOfTask = false)
    {next : DebuggedReplay} (hbase : Replaying settings t (called ++ [event]) next)
    (hsession : next.session = r.session.note event) (hmore : next.coming ≠ []) :
    Walking settings t (called ++ [event]) sent next := by
  obtain ⟨hstatus, hkept, hbreakpoints, -⟩ := note_keeps r.session event
  have htold := h.told_client
  rw [hrunning] at hstatus htold
  exact {
    toReplaying := hbase
    clear := by
      rw [hsession]
      exact hbreakpoints ▸ h.clear
    requests := by
      rw [hsession, hkept, hstatus, h.requests, hrunning]
    ending := by
      simp [hsession, hstatus, hmore]
    stage := by
      rw [hsession, hstatus]
      trivial
    told_client := by
      rw [hsession, hstatus, htold, List.countP_append]
      simp [htask] }

/-- The end of the build ends the session. -/
theorem finish_of_running (h : Walking settings t called sent r)
    (hrunning : r.session.status = .running) {next : DebuggedReplay}
    (hbase : Replaying settings t (called ++ [.buildFinished]) next)
    (hsession : next.session = (r.session.callback .buildFinished).1)
    (hdone : next.coming = []) :
    Walking settings t (called ++ [.buildFinished])
      (sent ++ (r.session.callback .buildFinished).2) next := by
  -- The session forgets what is in execution and tells the client that it is over.
  have hcallback : r.session.callback .buildFinished =
      ({ r.session.terminate with
        stack := {}, targets := [], current := none, atTargetStart := false }, [.terminated]) := by
    simp [Session.callback, buildFinished, hrunning, Status.isLive]
  have htold := h.told_client
  rw [hrunning, toldBy] at htold
  rw [hcallback] at hsession ⊢
  exact {
    toReplaying := hbase
    clear := by
      rw [hsession]
      exact h.clear
    requests := by
      rw [hsession]
      rfl
    ending := by
      simp [hsession, hdone, Session.terminate]
    stage := by
      rw [hsession]
      trivial
    told_client := by
      rw [hsession, unasked_append, htold, List.countP_append]
      simp [Session.terminate, toldBy, BuildEvent.isOfTask, unasked, Notification.answered?] }

/-- Whatever comes while the build runs. -/
theorem callback_of_running (h : Walking settings t called sent r)
    (hrunning : r.session.status = .running) {event : BuildEvent} {later : List BuildEvent}
    (hcoming : r.coming = event :: later) {next : DebuggedReplay}
    (hbase : Replaying settings t (called ++ [event]) next)
    (hsession : next.session = (r.session.callback event).1) (hlater : next.coming = later) :
    Walking settings t (called ++ [event]) (sent ++ (r.session.callback event).2) next := by
  have hsplit : called ++ event :: later = t.events := by rw [← hcoming]; exact h.split
  have hlast := Trace.eq_buildFinished_iff hsplit
  -- The end of the build is the last callback, and no other is.
  by_cases hover : event = .buildFinished
  · rw [hlast.1 hover] at hlater
    subst hover
    exact h.finish_of_running hrunning hbase hsession hlater
  · have hmore : next.coming ≠ [] := by
      rw [hlater]
      exact fun hnil => hover (hlast.2 hnil)
    have hpending : r.session.pending = { stepInto := true } := by
      rw [h.requests, hrunning]
      rfl
    have hcallback := callback_of_live (by rw [hrunning]; rfl) hover
    -- Without breakpoints and with nothing but a step into asked for, tasks hold the build.
    rw [holdReason?_of_stepInto h.clear hpending] at hcallback
    cases htask : event.isOfTask with
    | true =>
      rw [htask, if_pos rfl, suspendIf_some] at hcallback
      rw [hcallback] at hsession ⊢
      exact h.visit_of_running hrunning htask hbase hsession hmore
    | false =>
      rw [htask, if_neg Bool.false_ne_true, suspendIf_none] at hcallback
      rw [hcallback] at hsession ⊢
      rw [List.append_nil]
      exact h.pass_of_running hrunning htask hbase hsession hmore

/-- A client that is waited for finds the build held, and is told that it has started. -/
theorem attach_of_awaiting (h : Walking settings t called sent r) {port : UInt16}
    (hwaiting : r.session.status = .awaiting port) {next : DebuggedReplay}
    {more : List Notification} (hbase : Replaying settings t called next)
    (hsession : next.session = { r.session with status := .suspended .buildStart })
    (hcoming : next.coming = r.coming) (hmore : more = [.buildStarted]) :
    Walking settings t called (sent ++ more) next := by
  -- While the session waits, no task has started or finished.
  have hstage : called.countP BuildEvent.isOfTask = 0 := by
    have hstage := h.stage
    rwa [hwaiting] at hstage
  have hgoing := h.ending
  rw [hwaiting] at hgoing
  have htold := h.told_client
  rw [hwaiting, hstage] at htold
  subst hmore
  exact {
    toReplaying := hbase
    clear := by
      rw [hsession]
      exact h.clear
    requests := by
      rw [hsession]
      simpa [hwaiting] using h.requests
    ending := by
      simpa [hsession, hcoming] using hgoing
    stage := by
      rw [hsession]
      exact hstage
    told_client := by
      rw [hsession, hstage, unasked_append, htold]
      rfl }

/-- A step into lets a build go that is held. -/
theorem stepInto_of_held (h : Walking settings t called sent r)
    (hheld : r.session.status.isSuspended = true) {next : DebuggedReplay} {all user : PropertyTable}
    (hbase : Replaying settings t called next)
    (hsession : next.session = (r.session.step (.command all user .stepInto)).1)
    (hcoming : next.coming = r.coming) :
    Walking settings t called (sent ++ (r.session.step (.command all user .stepInto)).2) next := by
  obtain ⟨hold, hs⟩ : ∃ hold, r.session.status = .suspended hold := by
    cases hs : r.session.status <;> simp [hs, Status.isSuspended] at hheld
    exact ⟨_, rfl⟩
  -- A hold has taken up all requests, so that the step into is the only one.
  have hpending : r.session.pending = {} := by
    rw [h.requests, hs]
    rfl
  have hgoing := h.ending
  rw [hs] at hgoing
  have htold := h.told_client
  rw [hs] at htold
  rw [step, dispatch_stepInto hheld hpending] at hsession ⊢
  exact {
    toReplaying := hbase
    clear := by
      rw [hsession]
      exact h.clear
    requests := by
      rw [hsession]
      rfl
    ending := by
      simpa [hsession, hcoming] using hgoing
    stage := by
      rw [hsession]
      trivial
    told_client := by
      rw [hsession, List.append_nil]
      exact htold }

/-- Every turn that keeps to the rule leaves a replay as it should stand. -/
theorem turn (h : Walking settings t called sent r) {port : UInt16}
    (hport : settings.listenPort? t.initialProperties.all = some port) {turn : Turn}
    (hrule : turn.stepsInto r = true) :
    Walking settings t (called ++ (r.turn turn).2.1) (sent ++ (r.turn turn).2.2)
      (r.turn turn).1 := by
  have hbase := h.toReplaying.turn turn
  cases turn with
  | advance =>
    have hadvance : r.turn .advance = r.advance 1 := rfl
    rw [hadvance] at hbase ⊢
    cases hblocked : r.session.status.blocksBuild with
    | true =>
      rw [advance_of_blocked hblocked, List.append_nil, List.append_nil]
      exact h
    | false =>
      cases hcoming : r.coming with
      | nil =>
        obtain ⟨hsession, hnothing, hmade⟩ := advance_of_done hblocked hcoming
        rw [hmade, List.append_nil] at hbase ⊢
        exact h.keep hbase ⟨_, hsession⟩ (hnothing.trans hcoming.symm) rfl
      | cons event later =>
        obtain ⟨hsession, hlater, hmade⟩ := advance_of_coming hblocked hcoming
        rw [hmade] at hbase ⊢
        cases hs : r.session.status with
        | idle => exact h.callback_of_idle hport hs hcoming hbase hsession hlater
        | running => exact h.callback_of_running hs hcoming hbase hsession hlater
        | terminated =>
          rw [h.ending.1 hs] at hcoming
          cases hcoming
        -- A session that waits, for a client or its commands, blocks the build.
        | awaiting port => simp [hs, Status.blocksBuild] at hblocked
        | suspended hold => simp [hs, Status.blocksBuild] at hblocked
  | attach =>
    obtain ⟨hsession, hcoming, hmade⟩ := turn_of_outside (r := r) (t := .attach) rfl
    rw [hmade, List.append_nil] at hbase ⊢
    cases hs : r.session.status with
    | awaiting port =>
      have hattach : r.session.step .attached =
          ({ r.session with status := .suspended .buildStart }, [.buildStarted]) := by
        simp only [step, attach, hs]
      exact h.attach_of_awaiting hs hbase (by rw [hsession, hattach]) hcoming (by rw [hattach])
    | _ =>
      have hattach : r.session.step .attached = (r.session, []) := by
        simp only [step, attach, hs]
      rw [hattach] at hsession ⊢
      exact h.keep hbase ⟨_, hsession⟩ hcoming rfl
  | command c =>
    obtain ⟨hsession, hcoming, hmade⟩ := turn_of_outside (r := r) (t := .command c) rfl
    rw [hmade, List.append_nil] at hbase ⊢
    -- A command only asks for something, or it is the step into.
    cases hasks : c.asks with
    | true =>
      obtain ⟨⟨report, hreport⟩, hanswers⟩ :=
        dispatch_of_asks r.session r.properties.all r.properties.user hasks
      exact h.keep hbase ⟨report, hsession.trans hreport⟩ hcoming
        (unasked_eq_nil_of_answered hanswers)
    | false =>
      simp only [Turn.stepsInto, hasks, Bool.false_or, Bool.and_eq_true, decide_eq_true_eq] at hrule
      obtain ⟨rfl, hheld⟩ := hrule
      exact h.stepInto_of_held hheld hbase hsession hcoming
  | abandon | disconnect | giveUp => cases hrule

/-- All turns that do leave it so. -/
theorem play (h : Walking settings t called sent r) {port : UInt16}
    (hport : settings.listenPort? t.initialProperties.all = some port) {turns : List Turn}
    (hrule : r.stepsInto turns = true) :
    Walking settings t (called ++ (r.play turns).2.1) (sent ++ (r.play turns).2.2)
      (r.play turns).1 := by
  induction turns generalizing called sent r with
  | nil =>
    rw [DebuggedReplay.play, List.append_nil, List.append_nil]
    exact h
  | cons turn turns ih =>
    rw [stepsInto, Bool.and_eq_true] at hrule
    rw [play_cons, ← List.append_assoc, ← List.append_assoc]
    exact ih (h.turn hport hrule.1) hrule.2

end Walking

/-- The turn that brings the end of the session nearer. -/
def dueTurn (r : DebuggedReplay) : Turn :=
  match r.session.status with
  | .awaiting _ => .attach
  | .suspended _ => .command .stepInto
  | _ => .advance

/-- How far the end is away: three for a callback to come, which may have to wait for a client and
for a step into. -/
def distance (r : DebuggedReplay) : Nat :=
  3 * r.coming.length +
    match r.session.status with
    | .awaiting _ => 2
    | .suspended _ => 1
    | _ => 0

/-- The end is at most three turns away for each callback to come, and two more. -/
theorem distance_le (r : DebuggedReplay) : r.distance ≤ 3 * r.coming.length + 2 := by
  unfold distance
  split <;> omega

namespace Walking

variable {settings : DebugSettings} {t : Trace} {called : List BuildEvent}
  {sent : List Notification} {r : DebuggedReplay}

/-- As long as the session is not over, the turn that is due keeps to the rule and brings the end
nearer. -/
theorem dueTurn_spec (h : Walking settings t called sent r)
    (hgoing : r.session.status ≠ .terminated) :
    r.dueTurn.stepsInto r = true ∧ (r.turn r.dueTurn).1.distance < r.distance := by
  -- A callback takes three off the distance, and adds two at most for what has to be waited for.
  have hadvance (hfree : r.session.status.blocksBuild = false) :
      (r.turn .advance).1.distance < r.distance := by
    have hmore : r.coming ≠ [] := fun hnil => hgoing (h.ending.2 hnil)
    obtain ⟨event, later, hcoming⟩ := List.exists_cons_of_ne_nil hmore
    obtain ⟨-, hlater, -⟩ := advance_of_coming hfree hcoming
    have hle := (r.turn .advance).1.distance_le
    have hnext : (r.turn .advance).1.coming = later := hlater
    have hlength : 3 * r.coming.length ≤ r.distance := Nat.le_add_right _ _
    rw [hcoming, List.length_cons] at hlength
    rw [hnext] at hle
    omega
  cases hs : r.session.status with
  | awaiting port =>
    have hdue : r.dueTurn = .attach := by simp only [dueTurn, hs]
    obtain ⟨hsession, hcoming, -⟩ := turn_of_outside (r := r) (t := .attach) rfl
    have hstatus : (r.turn .attach).1.session.status = .suspended .buildStart := by
      rw [hsession]
      simp only [step, attach, hs]
    rw [hdue]
    refine ⟨rfl, ?_⟩
    simp only [distance, hcoming, hstatus, hs]
    omega
  | suspended hold =>
    have hdue : r.dueTurn = .command .stepInto := by simp only [dueTurn, hs]
    have hheld : r.session.status.isSuspended = true := by
      rw [hs]
      rfl
    obtain ⟨hsession, hcoming, -⟩ := turn_of_outside (r := r) (t := .command .stepInto) rfl
    have hstatus : (r.turn (.command .stepInto)).1.session.status = .running := by
      rw [hsession, step, dispatch_status (Status.isLive_of_isSuspended hheld)]
      rfl
    rw [hdue]
    refine ⟨hheld, ?_⟩
    simp only [distance, hcoming, hstatus, hs]
    omega
  | terminated => exact absurd hs hgoing
  | _ =>
    have hdue : r.dueTurn = .advance := by simp only [dueTurn, hs]
    rw [hdue]
    exact ⟨rfl, hadvance (by rw [hs]; rfl)⟩

/-- The session can always be brought to its end. -/
theorem finishes (h : Walking settings t called sent r) {port : UInt16}
    (hport : settings.listenPort? t.initialProperties.all = some port) :
    ∃ more, r.stepsInto more = true ∧ (r.play more).1.session.status = .terminated := by
  induction hdistance : r.distance using Nat.strong_induction_on generalizing called sent r with
  | _ distance ih =>
  by_cases hover : r.session.status = .terminated
  · exact ⟨[], rfl, hover⟩
  · obtain ⟨hrule, hnearer⟩ := h.dueTurn_spec hover
    rw [hdistance] at hnearer
    obtain ⟨more, hmore, hend⟩ := ih _ hnearer (h.turn hport hrule) rfl
    refine ⟨r.dueTurn :: more, ?_, hend⟩
    rw [stepsInto, hrule, hmore]
    rfl

/-- What was called back are the first visits. -/
theorem filter_called (h : Walking settings t called sent r) :
    called.filter BuildEvent.isOfTask =
      (t.visits.take (called.countP BuildEvent.isOfTask)).map Visit.event := by
  rw [List.map_take, t.map_event_visits, ← h.split, List.filter_append,
    List.countP_eq_length_filter, List.take_left]

/-- Where the build is held at a visit, a client that asks for the stack is answered with the report
of the visit. -/
theorem answer (h : Walking settings t called sent r)
    (hheld : r.session.status = .suspended .step) :
    ∃ v, (t.visits.take (called.countP BuildEvent.isOfTask)).getLast? = some v ∧
      (r.turn (.command .stack)).2.2 = [.stack v.report] := by
  have hgoing : r.session.status ≠ .terminated := by simp [hheld]
  have hstage := h.stage
  rw [hheld] at hstage
  obtain ⟨before, event, rfl, htask⟩ := hstage
  -- What the session has reported along these callbacks are the reports of the first visits.
  have hfirst := t.reportsAlong_events (s := { settings }) rfl rfl
  rw [← h.split, reportsAlong_append] at hfirst
  replace hfirst := congrArg (List.take ((before ++ [event]).countP BuildEvent.isOfTask)) hfirst
  rw [← length_reportsAlong { settings } (before ++ [event]), List.take_left, ← List.map_take,
    length_reportsAlong, reportsAlong_append] at hfirst
  have hlast := congrArg List.getLast? hfirst
  simp only [reportsAlong, htask, if_true, List.append_nil, List.getLast?_append_cons,
    List.getLast?_singleton, List.getLast?_map] at hlast
  obtain ⟨v, hv, hrecords⟩ := Option.map_eq_some_iff.1 hlast.symm
  have htold := h.told hgoing
  rw [List.foldl_append, List.foldl_cons, List.foldl_nil] at htold
  have hstack : r.session.stackRecords = v.report := by
    rw [hrecords, Session.stackRecords, Session.stackRecords, htold.stack, htold.targets]
  refine ⟨v, hv, ?_⟩
  obtain ⟨-, -, hsent⟩ := turn_of_outside (r := r) (t := .command .stack) rfl
  rw [hsent, step_sent_of_live (by rw [hheld]; rfl), hstack]

end Walking

/-- What a client that steps into whatever comes has seen of a trace. -/
structure SteppedThrough (t : Trace) (called : List BuildEvent) (sent : List Notification)
    (r : DebuggedReplay) : Prop where
  /-- The starts and finishes of tasks so far are the first visits of the trace. -/
  visited : called.filter BuildEvent.isOfTask =
    (t.visits.take (called.countP BuildEvent.isOfTask)).map Visit.event
  /-- The client was told of one hold for each of them. -/
  told : unasked sent = toldBy (called.countP BuildEvent.isOfTask) r.session.status
  /-- The build is held at a visit, or at its start before any visit. -/
  held {hold : Hold} : r.session.status = .suspended hold →
    hold = .step ∨ hold = .buildStart ∧ called.countP BuildEvent.isOfTask = 0
  /-- A client that asks for the stack is answered with the report of the visit where the build is
  held. -/
  answer : r.session.status = .suspended .step →
    ∃ v, (t.visits.take (called.countP BuildEvent.isOfTask)).getLast? = some v ∧
      (r.turn (.command .stack)).2.2 = [.stack v.report]
  /-- When the session is over, all visits were made, and the end was told last. -/
  ending : r.session.status = .terminated → called = t.events ∧
    unasked sent =
      .buildStarted :: (List.replicate (2 * t.nodes.length) (.suspended .step) ++ [.terminated])

/-- A client that steps into whatever comes has seen the first visits of the trace. -/
theorem Walking.steppedThrough {settings : DebugSettings} {t : Trace} {called : List BuildEvent}
    {sent : List Notification} {r : DebuggedReplay} (h : Walking settings t called sent r) :
    SteppedThrough t called sent r where
  visited := h.filter_called
  told := h.told_client
  held := by
    intro hold hheld
    have hstage := h.stage
    rw [hheld] at hstage
    cases hold with
    | buildStart => exact .inr ⟨rfl, hstage⟩
    | step => exact .inl rfl
    | _ => exact hstage.elim
  answer := h.answer
  ending := by
    intro hover
    have hall : called = t.events := by rw [← h.split, h.ending.1 hover, List.append_nil]
    -- All callbacks were made, and each node has started and finished.
    have hcount : called.countP BuildEvent.isOfTask = 2 * t.nodes.length := by
      rw [hall, List.countP_eq_length_filter, ← t.map_event_visits, List.length_map,
        t.length_visits]
    refine ⟨hall, ?_⟩
    rw [h.told_client, hover, hcount]
    rfl

/-- Stepping into visits every task. Let a trace be replayed under settings that open a port, and
let the client answer what holds there are with steps into, and else only ask. Then, wherever the
replay stands, the build was held once at each start and each finish of a task, depth first and
whatever the depth, and nowhere else but at its own start; the client was told of just these holds;
and asked for at such a hold, the stack is that of the visit. When the session is over, it was told
so after two holds for each task of the trace. And until then the client can go on like this to
the end. -/
theorem stepInto_visits (settings : DebugSettings) (t : Trace) {port : UInt16}
    (hport : settings.listenPort? t.initialProperties.all = some port) {turns : List Turn}
    (hrule : (ofTrace settings t).stepsInto turns = true) :
    SteppedThrough t ((ofTrace settings t).play turns).2.1 ((ofTrace settings t).play turns).2.2
        ((ofTrace settings t).play turns).1 ∧
      ∃ more, ((ofTrace settings t).play turns).1.stepsInto more = true ∧
        (((ofTrace settings t).play turns).1.play more).1.session.status = .terminated := by
  have hwalking := (Walking.ofTrace settings t).play hport hrule
  rw [List.nil_append, List.nil_append] at hwalking
  exact ⟨hwalking.steppedThrough, hwalking.finishes hport⟩

/-- A target whose task runs another. -/
def nestingTarget : TraceTarget :=
  ⟨"dist", ⟨"build.xml"⟩, 3, [.mk "antcall" none 4 {} [.mk "echo" none 9 {} []]]⟩

/-- The client steps into the tasks of the target one after the other, and asks for the stack at the
start of the inner one. -/
def intoInner : List Turn :=
  [.advance, .attach, .command .stepInto, .advance, .advance, .command .stepInto, .advance,
    .command .stack]

/-- At the start of the inner task the client was told of two holds, and sees both tasks. -/
theorem intoInner_visits :
    SteppedThrough { targets := [nestingTarget] }
        ((ofTrace { port := some 0 } { targets := [nestingTarget] }).play intoInner).2.1
        ((ofTrace { port := some 0 } { targets := [nestingTarget] }).play intoInner).2.2
        ((ofTrace { port := some 0 } { targets := [nestingTarget] }).play intoInner).1 ∧
      unasked ((ofTrace { port := some 0 } { targets := [nestingTarget] }).play intoInner).2.2 =
        [.buildStarted, .suspended .step, .suspended .step] ∧
      ((ofTrace { port := some 0 } { targets := [nestingTarget] }).play intoInner).2.2.getLast? =
        some (.stack [⟨"dist", "echo", "build.xml", 9⟩, ⟨"dist", "antcall", "build.xml", 4⟩]) := by
  have hport : ({ port := some 0 } : DebugSettings).listenPort?
      ({ targets := [nestingTarget] } : Trace).initialProperties.all = some 0 := by decide +kernel
  have hrule : (ofTrace { port := some 0 } { targets := [nestingTarget] }).stepsInto intoInner =
      true := by
    decide +kernel
  exact ⟨(stepInto_visits _ _ hport hrule).1, by decide +kernel, by decide +kernel⟩

end DebuggedReplay

end BuildStepper
