import BuildStepper.Proofs.Breakpoints
import BuildStepper.Proofs.Session.Output
import BuildStepper.Proofs.Wire.Command
import BuildStepper.Proofs.Wire.Items

/-!
# What the client reads is what the session sent

The client receives text, and it reads notifications. `received_as_sent` says that these are the
ones that the session sent, one by one and with every field as it was, whatever runs in the build
and whatever the client itself sends.

Of all that is sent only the file of a breakpoint is written without its length. It comes from the
client: a breakpoint is found among those that were set, and each was set by a command that was read
off one line. So a session keeps the invariant `PlainBreakpoints`, as long as its events are
`Plain`; and the events are, where the reader has read them off a stream (`Hears`).
-/

namespace BuildStepper

open Wire (Command Notification SuspendReason Stream bytesOf)

/-! ## The breakpoints of a session -/

/-- A breakpoint is set only in a file that can be written without its length. -/
def SessionEvent.Plain (event : SessionEvent) : Prop :=
  ∀ all user location, event = .command all user (.addBreakpoint location) → location.PlainFile

namespace Session

/-- The files of all breakpoints can be written without their lengths. -/
def PlainBreakpoints (s : Session) : Prop :=
  ∀ location ∈ s.breakpoints.locations, location.PlainFile

/-- The build sets no breakpoints and removes none. -/
theorem callback_breakpoints (s : Session) (event : BuildEvent) :
    (s.callback event).1.breakpoints = s.breakpoints := by
  by_cases hover : event = .buildFinished
  · subst hover
    rfl
  · cases live : s.status.isLive with
    | true =>
      rw [callback_of_live live hover, suspendIf_fst]
      exact (note_keeps s event).2.2.1
    | false =>
      cases event with
      | buildStarted baseline =>
        simp only [callback, buildStarted]
        split <;> rfl
      | buildFinished => exact absurd rfl hover
      | _ => rw [callback_of_not_live live rfl hover]

/-- A command sets a breakpoint only where it says so. -/
theorem mem_breakpoints_of_dispatch {s : Session} {all user : PropertyTable} {command : Command}
    {location : Location}
    (h : location ∈ (s.dispatch all user command).1.breakpoints.locations) :
    location ∈ s.breakpoints.locations ∨ command = .addBreakpoint location := by
  unfold dispatch at h
  split at h
  · cases command with
    | addBreakpoint l =>
      simp only [Breakpoints.locations_add] at h
      split at h
      · exact .inl h
      · obtain hold | hnew := List.mem_append.1 h
        · exact .inl hold
        · exact .inr (congrArg _ (List.mem_singleton.1 hnew).symm)
    | removeBreakpoint l => exact .inl (List.mem_of_mem_filter h)
    | stepOver => exact .inl (by simpa only [stepOver, release_eq] using h)
    | stepInto => exact .inl (by simpa only [release_eq] using h)
    | resume => exact .inl (by simpa only [release_eq] using h)
    | _ => exact .inl h
  · exact .inl h

/-- Plain events leave all breakpoints plain. -/
theorem PlainBreakpoints.step {s : Session} (h : s.PlainBreakpoints) {event : SessionEvent}
    (hplain : event.Plain) : (s.step event).1.PlainBreakpoints := by
  have hsame {t : Session} (hkept : t.breakpoints = s.breakpoints) : t.PlainBreakpoints := by
    unfold PlainBreakpoints
    rw [hkept]
    exact h
  cases event with
  | build event => exact hsame (callback_breakpoints s event)
  | attached =>
    refine hsame ?_
    simp only [Session.step, attach]
    split <;> rfl
  | abandoned =>
    refine hsame ?_
    simp only [Session.step, abandon]
    split <;> rfl
  | disconnected =>
    refine hsame ?_
    simp only [Session.step, disconnect]
    split <;> rfl
  | command all user command =>
    intro location hlocation
    -- A command adds a breakpoint in the spelling that it was read in, or none.
    obtain hold | rfl := mem_breakpoints_of_dispatch hlocation
    · exact h location hold
    · exact hplain all user location rfl

/-- The build is held for a breakpoint that is set. -/
theorem mem_of_holdReason? {s : Session} {event : BuildEvent} {location : Location}
    (h : s.holdReason? event = some (.breakpoint location)) :
    location ∈ s.breakpoints.locations := by
  -- A breakpoint that is given as a reason was found, and so it is set.
  have hfound (t : Session) (place : Option Location)
      (hreason : t.suspendReason? place = some (.breakpoint location)) :
      ∃ l, t.breakpoints.at? l = some location := by
    unfold suspendReason? at hreason
    split at hreason
    · next found hat =>
      obtain rfl := SuspendReason.breakpoint.inj (Option.some.inj hreason)
      obtain ⟨l, -, hl⟩ := Option.bind_eq_some_iff.1 hat
      exact ⟨l, hl⟩
    · split at hreason
      · cases hreason
      · split at hreason
        · cases hreason
        · split at hreason <;> cases hreason
  cases event with
  | targetStarted t =>
    simp only [holdReason?] at h
    split at h
    · obtain ⟨found, hat, heq⟩ := Option.map_eq_some_iff.1 h
      obtain rfl := SuspendReason.breakpoint.inj heq
      exact List.mem_of_find?_eq_some hat
    · cases h
  | taskStarted f =>
    obtain ⟨l, hl⟩ := hfound (s.noteStart f) (some f.location) h
    exact List.mem_of_find?_eq_some hl
  | taskFinished f =>
    obtain ⟨l, hl⟩ := hfound (s.noteFinish f) none h
    exact List.mem_of_find?_eq_some hl
  | targetFinished t => cases h
  | buildStarted baseline => cases h
  | buildFinished => cases h

/-- All that a session with such breakpoints sends can be written. -/
theorem PlainBreakpoints.plainFile_of_mem {s : Session} (h : s.PlainBreakpoints)
    {event : SessionEvent} : ∀ n ∈ (s.step event).2, n.PlainFile := by
  intro n hn
  cases n with
  | suspended reason =>
    obtain ⟨-, called, -, -, hreason⟩ := eq_build_of_suspended_mem hn
    cases reason with
    | breakpoint location => exact h location (mem_of_holdReason? hreason)
    | step => trivial
    | clientRequest => trivial
  | _ => trivial

/-- So can all that it sends in a run. -/
theorem PlainBreakpoints.run {s : Session} (h : s.PlainBreakpoints) {events : List SessionEvent}
    (hplain : ∀ event ∈ events, event.Plain) : ∀ n ∈ (s.run events).2, n.PlainFile := by
  induction events generalizing s with
  | nil => simp
  | cons event events ih =>
    intro n hn
    rw [run_cons] at hn
    obtain hfirst | hlater := List.mem_append.1 hn
    · exact h.plainFile_of_mem n hfirst
    · exact ih (h.step (hplain event List.mem_cons_self))
        (fun e he => hplain e (List.mem_cons_of_mem event he)) n hlater

/-- The text of notifications as items of a stream. -/
theorem bytesOf_sentText (sent : List Notification) :
    bytesOf (sentText sent).toList =
      (sent.map Wire.StreamItem.notification).flatMap Wire.StreamItem.bytes := by
  induction sent with
  | nil => rfl
  | cons n sent ih =>
    have hsplit : sentText (n :: sent) = n.encode ++ "\n" ++ sentText sent := by
      simp [sentText]
    rw [hsplit, List.map_cons, List.flatMap_cons, ← ih]
    simp only [Wire.StreamItem.bytes, Notification.encode, String.toList_append,
      String.toList_ofList, Wire.bytesOf_append]
    rfl

end Session

/-! ## The reader -/

/-- All that the reader has read in these incidents, line after line, is what the client has put on
this stream. -/
def Hears : Stream → List Incident → Prop
  | _, [] => True
  | fromClient, .read _ _ outcome :: incidents =>
    outcome = (Wire.readLine Wire.maxCommandBytes fromClient).1 ∧
      Hears (Wire.readLine Wire.maxCommandBytes fromClient).2 incidents
  | fromClient, _ :: incidents => Hears fromClient incidents

/-- What the reader passes on of a line is plain. -/
theorem plain_of_heard {all user : PropertyTable} {fromClient : Stream} {event : SessionEvent}
    (h : heard? all user (Wire.readLine Wire.maxCommandBytes fromClient).1 = some event) :
    event.Plain := by
  rintro all' user' location rfl
  unfold heard? at h
  split at h
  · next line hread =>
    split at h
    · next command hdecode =>
      obtain ⟨-, -, rfl⟩ := SessionEvent.command.inj (Option.some.inj h)
      exact Command.plainFile_of_readLine (Prod.ext hread rfl) hdecode rfl
    · cases h
  · cases Option.some.inj h
  · cases Option.some.inj h
  · cases h

/-- A command comes from the reader. -/
theorem Incident.eq_read_of_command {i : Incident} {thread : BuildThread} {all user : PropertyTable}
    {command : Command} (h : i.event? thread = some (.command all user command)) :
    ∃ all' user' outcome, i = .read all' user' outcome ∧
      heard? all' user' outcome = some (.command all user command) := by
  cases i with
  | read all' user' outcome => exact ⟨all', user', outcome, rfl, h⟩
  | calls event => cases thread <;> cases h
  | accepted => cases thread <;> cases h
  | missed => cases thread <;> cases h
  | ended => cases h

namespace DebuggedBuild

/-- What happens to the session of a client whose lines are read off a stream is plain. -/
theorem plain_of_hears {b : DebuggedBuild} {fromClient : Stream} {incidents : List Incident}
    (h : Hears fromClient incidents) : ∀ event ∈ b.events incidents, event.Plain := by
  induction incidents generalizing b fromClient with
  | nil => simp [events]
  | cons i incidents ih =>
    intro event hevent
    obtain hfirst | hlater := List.mem_append.1 hevent
    · rintro all user location rfl
      obtain ⟨all', user', outcome, rfl, hheard⟩ :=
        Incident.eq_read_of_command (Option.mem_toList.1 hfirst)
      rw [h.1] at hheard
      exact plain_of_heard hheard all user location rfl
    · cases i with
      | read all user outcome => exact ih h.2 event hlater
      | _ => exact ih h event hlater

/-- The client reads what the session sent: every notification, in order and as it was, and then
nothing more. -/
theorem received_as_sent (settings : DebugSettings) {incidents : List Incident}
    {fromClient : Stream} (hhears : Hears fromClient incidents)
    (hfits : ∀ n ∈ sent settings incidents, n.encode.utf8ByteSize ≤ Wire.maxNotificationBytes)
    {received : Stream}
    (hreceived : received.Delivers (bytesOf (Session.sentText (sent settings incidents)).toList))
    (k : Nat) :
    Wire.outcomes ((sent settings incidents).length + k) received =
      (sent settings incidents).map (fun n => .ok (some n)) ++ List.replicate k (.ok none) := by
  -- What is sent names breakpoints in the spelling of the client, and that is in one line.
  have hplain : ∀ n ∈ sent settings incidents, n.PlainFile := by
    unfold sent
    rw [(run_eq_events ⟨{ settings }, .working⟩ incidents).2]
    have hstart : ({ settings } : Session).PlainBreakpoints := by
      intro location hlocation
      cases hlocation
    exact hstart.run (plain_of_hears hhears)
  rw [Session.bytesOf_sentText] at hreceived
  have hitems : ∀ item ∈ (sent settings incidents).map Wire.StreamItem.notification,
      item.WellFormed := by
    intro item hitem
    obtain ⟨n, hn, rfl⟩ := List.mem_map.1 hitem
    exact ⟨hplain n hn, hfits n hn⟩
  have hall := Wire.outcomes_all hitems hreceived k
  rw [List.length_map, List.map_map] at hall
  exact hall

/-- A client that sets a breakpoint in a file with a colon in its name, spelled with two slashes,
lets the build go and asks for the stack. -/
def colonClient : Stream :=
  [.chunk "ADD_BREAKPOINT:a//b:c.xml:5\nRES".toByteArray, .interrupted,
    .chunk "UME\nSTACK\n".toByteArray]

/-- A build that comes to a task at that place, in a target with a line feed in its name. -/
def colonIncidents : List Incident :=
  [.calls (.buildStarted {}), .accepted,
    .read {} {} (.ok (some "ADD_BREAKPOINT:a//b:c.xml:5\n")), .read {} {} (.ok (some "RESUME\n")),
    .calls (.taskStarted ⟨⟨0⟩, "dist\n", "echo", ⟨"a/b:c.xml"⟩, 5⟩),
    .read {} {} (.ok (some "STACK\n"))]

/-- The session hears that client line by line. -/
theorem colonClient_heard : Hears colonClient colonIncidents := by
  have hfirst : colonClient.bytes = bytesOf "ADD_BREAKPOINT:a//b:c.xml:5".toList ++
      Wire.lineFeed :: bytesOf "RESUME\nSTACK\n".toList := by decide
  obtain ⟨s, hs, hsecond, -⟩ := Wire.readLine_chars Wire.maxCommandBytes (by decide) hfirst
  have hsecond : s.bytes = bytesOf "RESUME".toList ++
      Wire.lineFeed :: bytesOf "STACK\n".toList := hsecond.trans (by decide)
  obtain ⟨t, ht, hthird, -⟩ := Wire.readLine_chars Wire.maxCommandBytes (by decide) hsecond
  have hthird : t.bytes = bytesOf "STACK".toList ++ Wire.lineFeed :: [] := hthird.trans (by decide)
  obtain ⟨u, hu, -, -⟩ := Wire.readLine_chars Wire.maxCommandBytes (by decide) hthird
  simp only [colonIncidents, Hears, hs, ht, hu]
  exact ⟨rfl, rfl, rfl, trivial⟩

/-- The build is held at the breakpoint, and the client is told in its own spelling. -/
theorem sent_colonIncidents : sent { port := some 0 } colonIncidents =
    [.buildStarted, .suspended (.breakpoint ⟨⟨"a//b:c.xml"⟩, 5⟩),
      .stack [⟨"dist\n", "echo", "a/b:c.xml", 5⟩]] := by
  decide +kernel

/-- The client reads of the hold with its own spelling of the file, and the target with its line
feed. -/
theorem colonClient_reads :
    Wire.outcomes 4 (Wire.interruptedStream
      (bytesOf (Session.sentText (sent { port := some 0 } colonIncidents)).toList)) =
      [.ok (some .buildStarted), .ok (some (.suspended (.breakpoint ⟨⟨"a//b:c.xml"⟩, 5⟩))),
        .ok (some (.stack [⟨"dist\n", "echo", "a/b:c.xml", 5⟩])), .ok none] := by
  have hfits : ∀ n ∈ sent { port := some 0 } colonIncidents,
      n.encode.utf8ByteSize ≤ Wire.maxNotificationBytes := by
    rw [sent_colonIncidents]
    decide
  have hreads := received_as_sent { port := some 0 } colonClient_heard hfits
    (Wire.interruptedStream_delivers _) 1
  rw [sent_colonIncidents] at hreads ⊢
  exact hreads

end DebuggedBuild

end BuildStepper
