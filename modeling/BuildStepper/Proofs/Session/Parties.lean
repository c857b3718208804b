import BuildStepper.Proofs.Session.Transitions
import BuildStepper.Proofs.Wire.CommandStream
import Mathlib.Data.List.Induction

/-!
# The parties of a session

Three parties meet in a session. The thread of the build calls back, and a callback may keep it: at
the start of the build until the wait for a client has an outcome, and at any callback for as long
as the session holds the build. A reader passes on what the client sends, line by line, until the
connection ends. And another thread of the build may end it at any time.

`DebuggedBuild` is a session together with the callback that keeps the thread, and `Incident` is
what any of the parties can do. All that an incident does to the session is one step of it
(`Incident.event?`). The reader is the loop that reads all commands off a stream, taken apart line
by line: `clientEvents_eq` shows that the loop passes on what `heard?` says of each line.

What carries the theory is `Fits`: the thread is kept exactly if the session blocks the build, but
for a build that was ended while it waited for a client, whose thread waits on.
-/

namespace BuildStepper

open Wire (Command Notification WireError Stream)

/-! ## The reader -/

/-- What the reading of a line brings. A command is passed on, and so is the end of the connection.
A line that cannot be read as a command brings nothing. -/
def heard? (all user : PropertyTable) : Except WireError (Option String) → Option SessionEvent
  | .ok (some line) =>
    match Command.decode line with
    | .ok command => some (.command all user command)
    | .error _ => none
  | .ok none | .error (.io _) => some .disconnected
  | .error _ => none

/-- All that a client brings about by what it sends. -/
def clientEvents (all user : PropertyTable) (stream : Stream) : List SessionEvent :=
  (Wire.commands stream).1.map (.command all user) ++ [.disconnected]

/-- The loop that reads all commands passes on what each line brings, until the connection ends. -/
theorem clientEvents_eq (all user : PropertyTable) (stream : Stream) :
    clientEvents all user stream =
      match heard? all user (Wire.readLine Wire.maxCommandBytes stream).1 with
      | some .disconnected => [.disconnected]
      | heard => heard.toList ++
        clientEvents all user (Wire.readLine Wire.maxCommandBytes stream).2 := by
  unfold clientEvents
  rw [Wire.commands_step]
  generalize Wire.readLine Wire.maxCommandBytes stream = read
  obtain ⟨outcome, rest⟩ := read
  cases outcome with
  | ok line? =>
    cases line? with
    | none => rfl
    | some line => cases hdecoded : Command.decode line <;> simp [heard?, hdecoded, Except.toOption]
  | error e => cases e <;> rfl

/-- What is heard is a command or the end of the connection. -/
theorem heard?_cases {all user : PropertyTable} {outcome : Except WireError (Option String)}
    {event : SessionEvent} (h : heard? all user outcome = some event) :
    (∃ command, event = .command all user command) ∨ event = .disconnected := by
  unfold heard? at h
  split at h
  · split at h
    · next command _ => exact .inl ⟨command, (Option.some.inj h).symm⟩
    · cases h
  · exact .inr (Option.some.inj h).symm
  · exact .inr (Option.some.inj h).symm
  · cases h

/-! ## The thread of the build -/

/-- Where the thread of the build is. -/
inductive BuildThread where
  /-- Outside all callbacks. -/
  | working
  /-- Inside this callback, until the wait for a client has an outcome. -/
  | waiting (event : BuildEvent)
  /-- Inside this callback, because the build is held. -/
  | held (event : BuildEvent)

/-- Where the thread is once a callback has done its work: it stays inside while the session blocks
the build. -/
def BuildThread.inside (event : BuildEvent) : Status → BuildThread
  | .awaiting _ => .waiting event
  | .suspended _ => .held event
  | _ => .working

/-- A session, and the thread of the build that it belongs to. -/
structure DebuggedBuild where
  session : Session
  thread : BuildThread := .working

/-- What a party can do. -/
inductive Incident where
  /-- The thread of the build calls back. -/
  | calls (event : BuildEvent)
  /-- Another thread ends the build. -/
  | ended
  /-- A client connects. -/
  | accepted
  /-- The wait for a client is over, and none has come. -/
  | missed
  /-- The reader has read so far while these are all properties and the user's. -/
  | read (all user : PropertyTable) (outcome : Except WireError (Option String))

/-- What an incident is to the session. The thread does not call back from inside a callback, and
the wait for a client has an outcome only while there is such a wait. -/
def Incident.event? : Incident → BuildThread → Option SessionEvent
  | .calls event, .working => some (.build event)
  | .calls _, _ => none
  | .ended, _ => some (.build .buildFinished)
  | .accepted, .waiting _ => some .attached
  | .missed, .waiting _ => some .abandoned
  | .accepted, _ | .missed, _ => none
  | .read all user outcome, _ => heard? all user outcome

/-- Where an incident leaves the thread, this being the status that comes of it. A thread that waits
for a client looks at the status only when the wait has an outcome. -/
def Incident.thread : Incident → BuildThread → Status → BuildThread
  | .calls event, .working, status => .inside event status
  | .accepted, .waiting event, status | .missed, .waiting event, status => .inside event status
  | _, .held event, status => .inside event status
  | _, thread, _ => thread

namespace DebuggedBuild

/-- What an incident does, and what the client is sent. -/
def step (b : DebuggedBuild) (i : Incident) : DebuggedBuild × List Notification :=
  match i.event? b.thread with
  | none => (b, [])
  | some event =>
    let (session, sent) := b.session.step event
    (⟨session, i.thread b.thread session.status⟩, sent)

/-- What incidents do one after the other, and all that the client is sent. -/
def run (b : DebuggedBuild) : List Incident → DebuggedBuild × List Notification
  | [] => (b, [])
  | i :: incidents =>
    (((b.step i).1.run incidents).1, (b.step i).2 ++ ((b.step i).1.run incidents).2)

/-- A build and its session after incidents, from their beginning. -/
def after (settings : DebugSettings) (incidents : List Incident) : DebuggedBuild :=
  (run ⟨{ settings }, .working⟩ incidents).1

/-- Incidents can be taken in two goes. -/
theorem run_append (b : DebuggedBuild) (before later : List Incident) :
    b.run (before ++ later) =
      (((b.run before).1.run later).1, (b.run before).2 ++ ((b.run before).1.run later).2) := by
  induction before generalizing b with
  | nil => simp [run]
  | cons i before ih => simp [run, ih]

/-- The last incident makes a step from what those before have led to. -/
theorem after_concat (settings : DebugSettings) (incidents : List Incident) (i : Incident) :
    after settings (incidents ++ [i]) = ((after settings incidents).step i).1 := by
  unfold after
  rw [run_append]
  rfl

/-- An incident that cannot occur leaves everything as it is. -/
theorem step_of_none {b : DebuggedBuild} {i : Incident} (h : i.event? b.thread = none) :
    b.step i = (b, []) := by
  unfold step
  rw [h]

/-- Any other incident is an event for the session, and moves the thread of the build. -/
theorem step_of_some {b : DebuggedBuild} {i : Incident} {event : SessionEvent}
    (h : i.event? b.thread = some event) :
    b.step i = (⟨(b.session.step event).1,
      i.thread b.thread (b.session.step event).1.status⟩, (b.session.step event).2) := by
  unfold step
  rw [h]

/-- The thread is where the status says, but for a build that was ended while it waited for a
client: there the thread waits on. -/
def Fits (b : DebuggedBuild) : Prop :=
  match b.thread with
  | .working => b.session.status.blocksBuild = false
  | .waiting _ => (∃ port, b.session.status = .awaiting port) ∨ b.session.status = .terminated
  | .held _ => b.session.status.isSuspended = true

/-- While the thread waits for a client there is none. -/
theorem Fits.isLive_of_waiting {s : Session} {event : BuildEvent}
    (h : Fits ⟨s, .waiting event⟩) : s.status.isLive = false := by
  change (∃ port, s.status = .awaiting port) ∨ s.status = .terminated at h
  obtain ⟨port, hs⟩ | hs := h
  · rw [hs]
    rfl
  · rw [hs]
    rfl

/-- The thread of a build that is held is inside a callback. -/
theorem Fits.thread_of_suspended {b : DebuggedBuild} (h : b.Fits) {hold : Hold}
    (hstatus : b.session.status = .suspended hold) : ∃ event, b.thread = .held event := by
  unfold Fits at h
  cases hthread : b.thread with
  | held event => exact ⟨event, rfl⟩
  | working => simp [hthread, hstatus, Status.blocksBuild] at h
  | waiting event => simp [hthread, hstatus] at h

/-- The thread of a build whose session is over is free, or waits for a client. -/
theorem Fits.thread_of_terminated {b : DebuggedBuild} (h : b.Fits)
    (hstatus : b.session.status = .terminated) :
    b.thread = .working ∨ ∃ event, b.thread = .waiting event := by
  unfold Fits at h
  cases hthread : b.thread with
  | working => exact .inl rfl
  | waiting event => exact .inr ⟨event, rfl⟩
  | held event => simp [hthread, hstatus, Status.isSuspended] at h

/-- An incident leaves the thread where it does by the status, also where it is nothing to the
session. -/
theorem Fits.step_thread {b : DebuggedBuild} (h : b.Fits) (i : Incident) :
    (b.step i).1.thread = i.thread b.thread (b.step i).1.session.status := by
  cases hevent : i.event? b.thread with
  | some event => rw [step_of_some hevent]
  | none =>
    rw [step_of_none hevent]
    obtain ⟨s, thread⟩ := b
    cases thread with
    | working =>
      cases i with
      | calls event => cases hevent
      | _ => rfl
    | waiting waited =>
      cases i with
      | accepted => cases hevent
      | missed => cases hevent
      | _ => rfl
    | held kept =>
      -- The thread looks at the status, which still holds it.
      have hinside : i.thread (.held kept) s.status = .inside kept s.status := by
        cases i <;> rfl
      have hheld : s.status.isSuspended = true := h
      change .held kept = i.thread (.held kept) s.status
      rw [hinside]
      cases hs : s.status with
      | suspended hold => rfl
      | _ => simp [hs, Status.isSuspended] at hheld

/-- A thread that has looked at the status fits it. -/
theorem fits_inside (event : BuildEvent) (s : Session) : Fits ⟨s, .inside event s.status⟩ := by
  unfold Fits
  cases s.status with
  | awaiting port => exact .inl ⟨port, rfl⟩
  | _ => rfl

/-- What the reader passes on never blocks a build. -/
theorem blocksBuild_of_heard {all user : PropertyTable}
    {outcome : Except WireError (Option String)} {event : SessionEvent}
    (h : heard? all user outcome = some event) {s : Session}
    (hfree : s.status.blocksBuild = false) : (s.step event).1.status.blocksBuild = false := by
  cases live : s.status.isLive with
  | true =>
    rw [Session.step_status_of_live live]
    obtain ⟨command, rfl⟩ | rfl := heard?_cases h
    · by_cases hterminate : command = .terminate
      · rw [hterminate]
        rfl
      · simp only [if_neg hterminate]
        split
        · rfl
        · exact hfree
    · rfl
  | false =>
    rw [Session.step_status_of_not_live live]
    obtain ⟨command, rfl⟩ | rfl := heard?_cases h
    · exact hfree
    · exact hfree

/-- What the reader passes on does not concern a session without a client. -/
theorem step_of_heard {all user : PropertyTable} {outcome : Except WireError (Option String)}
    {event : SessionEvent} (h : heard? all user outcome = some event) {s : Session}
    (hdead : s.status.isLive = false) : s.step event = (s, []) := by
  obtain ⟨command, rfl⟩ | rfl := heard?_cases h
  · exact Session.dispatch_of_not_live hdead all user command
  · simp [Session.step, Session.disconnect, hdead]

/-- Whatever a party does, the thread fits the status. -/
theorem Fits.step {b : DebuggedBuild} (h : b.Fits) (i : Incident) : (b.step i).1.Fits := by
  cases hevent : i.event? b.thread with
  | none => rwa [step_of_none hevent]
  | some event =>
    rw [step_of_some hevent]
    obtain ⟨s, thread⟩ := b
    cases thread with
    | working =>
      cases i with
      | calls event => exact fits_inside event _
      | ended =>
        cases hevent
        rfl
      | accepted => cases hevent
      | missed => cases hevent
      | read all user outcome =>
        have hheard : heard? all user outcome = some event := hevent
        exact blocksBuild_of_heard hheard h
    | waiting waited =>
      cases i with
      | calls event => cases hevent
      | ended =>
        cases hevent
        exact .inr rfl
      | accepted => exact fits_inside waited _
      | missed => exact fits_inside waited _
      | read all user outcome =>
        -- There is no client yet, so that the reader has nothing to say to the session.
        have hheard : heard? all user outcome = some event := hevent
        rw [step_of_heard hheard h.isLive_of_waiting]
        exact h
    | held kept =>
      -- Whatever wakes the thread, it looks at the status.
      have hinside : i.thread (.held kept) (s.step event).1.status =
          .inside kept (s.step event).1.status := by
        cases i <;> rfl
      rw [hinside]
      exact fits_inside kept _

/-- After any incidents the thread fits the status. -/
theorem fits_after (settings : DebugSettings) (incidents : List Incident) :
    (after settings incidents).Fits := by
  induction incidents using List.reverseRecOn with
  | nil => rfl
  | append_singleton incidents i ih =>
    rw [after_concat]
    exact ih.step i

end DebuggedBuild

end BuildStepper
