import BuildStepper.Proofs.Session.ClientView

/-!
# Lines that change nothing

Much that a client can send has no effect. A line that is no command is passed over; the stack is
told and stays as it is; a build that is not held cannot be let go; and a breakpoint is not set
where there is one, nor removed where there is none. `Session.Harmless` lists these lines by the
session that they meet.

Two runs are compared here. One has such a line somewhere among what happens, and the other has not.
A step over the line leaves the session and the thread of the build exactly as they were, in every
state that a run can come to (`DebuggedBuild.Fits.step_harmless`). So nothing that happens later can
tell the runs apart, and all that the client is sent besides is the stack, if it has asked for it
(`DebuggedBuild.harmless_transparent`).
-/

namespace BuildStepper

open Wire (Command Notification Stream)

namespace Session

/-- A line changes nothing, by the command on it if there is one. -/
inductive Harmless (s : Session) : Option Command → Prop
  /-- The line is too long, no text, or no command. -/
  | nothing : s.Harmless none
  | stack : s.Harmless (some .stack)
  | resume : s.status.isSuspended = false → s.Harmless (some .resume)
  | addBreakpoint {l : Location} :
      s.breakpoints.has l = true → s.Harmless (some (.addBreakpoint l))
  | removeBreakpoint {l : Location} :
      s.breakpoints.has l = false → s.Harmless (some (.removeBreakpoint l))

/-- What the client is sent for a harmless line: the stack if it has asked for it, and is there. -/
def replyTo (s : Session) : Option Command → List Notification
  | some .stack => if s.status.isLive then [.stack s.stackRecords] else []
  | _ => []

/-- A harmless command leaves the session as it is. -/
theorem Harmless.dispatch {s : Session} {command : Command} (h : s.Harmless (some command))
    (all user : PropertyTable) :
    s.dispatch all user command = (s, s.replyTo (some command)) := by
  cases live : s.status.isLive with
  | false =>
    rw [dispatch_of_not_live live]
    cases h with
    | stack => simp [replyTo, live]
    | _ => rfl
  | true =>
    cases h with
    | stack => simp [Session.dispatch, replyTo, live]
    | resume hfree => simp [Session.dispatch, replyTo, live, release, hfree]
    | addBreakpoint hset => simp [Session.dispatch, replyTo, live, Breakpoints.add_of_has hset]
    | removeBreakpoint hnone =>
      simp [Session.dispatch, replyTo, live, Breakpoints.remove_of_not_has hnone]

/-- What is sent can be written piece by piece. -/
theorem sentText_append (before later : List Notification) :
    sentText (before ++ later) = sentText before ++ sentText later := by
  simp [sentText]

end Session

/-- The reader has read a line with its line feed, which is not counted in. -/
def Incident.ofLine (all user : PropertyTable) (line : List UInt8) : Incident :=
  .read all user (Wire.lineOutcome Wire.maxCommandBytes line [Wire.lineFeed])

/-- The reader passes on the command on the line. -/
theorem heard?_line (all user : PropertyTable) (line : List UInt8) :
    heard? all user (Wire.lineOutcome Wire.maxCommandBytes line [Wire.lineFeed]) =
      (Wire.commandOn? line).map (.command all user) := by
  rw [Wire.decode_lineOutcome (.inr rfl)]
  obtain houtcome | houtcome | ⟨text, houtcome⟩ :=
    Wire.lineOutcome_cases Wire.maxCommandBytes line [Wire.lineFeed]
  · rw [houtcome]
    rfl
  · rw [houtcome]
    rfl
  · rw [houtcome]
    cases hdecoded : Command.decode text <;> simp [heard?, hdecoded, Except.toOption]

/-! ## Two streams -/

/-- Whether the reader reads. -/
def Incident.isRead : Incident → Bool
  | .read _ _ _ => true
  | _ => false

/-- Streams that deliver the same are heard alike. -/
theorem hears_congr {stream other : Stream} (hbytes : other.bytes = stream.bytes)
    (hbehind : other.behind = stream.behind) (incidents : List Incident) :
    Hears other incidents ↔ Hears stream incidents := by
  induction incidents generalizing stream other with
  | nil => exact Iff.rfl
  | cons i incidents ih =>
    cases i with
    | read all user outcome =>
      obtain ⟨hfirst, hrest, hleft⟩ :=
        Wire.readLine_congr Wire.maxCommandBytes hbytes hbehind
      simp only [Hears, hfirst, ih hrest hleft]
    | _ => exact ih hbytes hbehind

/-- A run that hears a stream hears one more line where the stream has one more, and else the
same. -/
theorem hears_insert {line back : List UInt8} (hline : Wire.lineFeed ∉ line)
    (all user : PropertyTable) (later : List Incident) {before : List Incident}
    {lines : List (List UInt8)} (hlines : ∀ l ∈ lines, Wire.lineFeed ∉ l)
    (hlength : lines.length = before.countP Incident.isRead) {stream stream' : Stream}
    (hstream : stream.bytes = lines.flatMap (· ++ [Wire.lineFeed]) ++ back)
    (hstream' : stream'.bytes =
      lines.flatMap (· ++ [Wire.lineFeed]) ++ (line ++ Wire.lineFeed :: back))
    (hbehind : stream'.behind = stream.behind) :
    Hears stream' (before ++ .ofLine all user line :: later) ↔ Hears stream (before ++ later) := by
  induction before generalizing lines stream stream' with
  | nil =>
    obtain rfl := List.length_eq_zero_iff.1 hlength
    obtain ⟨rest, hread, hrest, hleft⟩ :=
      Wire.readLine_line Wire.maxCommandBytes hline hstream'
    -- Behind the line that is inserted both streams have the same left.
    have hsame := hears_congr (hrest.trans hstream.symm) (hleft.trans hbehind) later
    simp only [List.nil_append, Incident.ofLine, Hears, hread, true_and, hsame]
  | cons i before ih =>
    cases i with
    | read all' user' outcome =>
      rw [List.countP_cons_of_pos rfl] at hlength
      obtain ⟨l, lines, rfl⟩ := List.exists_cons_of_length_eq_add_one hlength
      have hfirst := hlines l List.mem_cons_self
      simp only [List.flatMap_cons, List.append_assoc, List.singleton_append] at hstream hstream'
      obtain ⟨rest, hread, hrest, hleft⟩ :=
        Wire.readLine_line Wire.maxCommandBytes hfirst hstream
      obtain ⟨rest', hread', hrest', hleft'⟩ :=
        Wire.readLine_line Wire.maxCommandBytes hfirst hstream'
      -- Both streams begin with the same line, and differ only behind it.
      have hlater := ih (fun l hl => hlines l (List.mem_cons_of_mem _ hl))
        (Nat.succ.inj hlength) hrest hrest'
        (hleft'.trans (hbehind.trans hleft.symm))
      simp only [List.cons_append, Hears, hread, hread', hlater]
    | _ => exact ih hlines hlength hstream hstream' hbehind

/-! ## Two runs -/

namespace DebuggedBuild

/-- A line read does not move the thread, if the session is as before. -/
theorem Fits.thread_read {b : DebuggedBuild} (h : b.Fits) (all user : PropertyTable)
    (line : List UInt8) :
    (Incident.ofLine all user line).thread b.thread b.session.status = b.thread := by
  obtain ⟨s, thread⟩ := b
  cases thread with
  | held event =>
    have hheld : s.status.isSuspended = true := h
    cases hs : s.status with
    | suspended hold => rfl
    | _ => simp [hs, Status.isSuspended] at hheld
  | _ => rfl

/-- A harmless line leaves a build as it is. -/
theorem Fits.step_harmless {b : DebuggedBuild} (h : b.Fits) {line : List UInt8}
    (hharmless : b.session.Harmless (Wire.commandOn? line)) (all user : PropertyTable) :
    b.step (.ofLine all user line) = (b, b.session.replyTo (Wire.commandOn? line)) := by
  have hheard := heard?_line all user line
  cases hcommand : Wire.commandOn? line with
  | none =>
    rw [hcommand] at hheard
    exact step_of_none hheard
  | some command =>
    rw [hcommand] at hheard hharmless
    have hevent : (Incident.ofLine all user line).event? b.thread =
        some (.command all user command) := hheard
    have hstep : b.session.step (.command all user command) =
        (b.session, b.session.replyTo (some command)) := hharmless.dispatch all user
    rw [step_of_some hevent, hstep, h.thread_read]

/-- What it means that a line can as well be left out of what a client sends, where it comes behind
these incidents. -/
structure Transparent (settings : DebugSettings) (before : List Incident) (line : List UInt8)
    (all user : PropertyTable) : Prop where
  /-- However the run goes on, the session is at every time as it would be without the line: its
  status, stack and breakpoints and all that it decides by. So is the thread of the build. -/
  state : ∀ later, after settings (before ++ .ofLine all user line :: later) =
    after settings (before ++ later)
  /-- The client is sent the same, with the reply to the line in between. -/
  sent : ∀ later, ∃ rest, sent settings (before ++ later) = sent settings before ++ rest ∧
    sent settings (before ++ .ofLine all user line :: later) = sent settings before ++
      ((after settings before).session.replyTo (Wire.commandOn? line) ++ rest)
  /-- So it is in the text that the client receives. -/
  text : ∀ later, ∃ rest,
    Session.sentText (DebuggedBuild.sent settings (before ++ later)) =
      Session.sentText (DebuggedBuild.sent settings before) ++ rest ∧
    Session.sentText (DebuggedBuild.sent settings (before ++ .ofLine all user line :: later)) =
      Session.sentText (DebuggedBuild.sent settings before) ++
        (Session.sentText ((after settings before).session.replyTo (Wire.commandOn? line)) ++ rest)
  /-- The run with the line is the one that the reader sees whose client sends the bytes of the line
  behind the lines that were read before, however they are cut into reads. -/
  heard : ∀ (later : List Incident) (lines : List (List UInt8)) (back : List UInt8)
    (stream stream' : Stream), (∀ l ∈ lines, Wire.lineFeed ∉ l) →
    lines.length = before.countP Incident.isRead →
    stream.bytes = lines.flatMap (· ++ [Wire.lineFeed]) ++ back →
    stream'.bytes = lines.flatMap (· ++ [Wire.lineFeed]) ++ (line ++ Wire.lineFeed :: back) →
    stream'.behind = stream.behind →
    (Hears stream' (before ++ .ofLine all user line :: later) ↔ Hears stream (before ++ later))

/-- A harmless line is transparent, at whatever place of whatever run. -/
theorem harmless_transparent (settings : DebugSettings) {before : List Incident}
    {line : List UInt8} (hline : Wire.lineFeed ∉ line)
    (h : (after settings before).session.Harmless (Wire.commandOn? line))
    (all user : PropertyTable) : Transparent settings before line all user := by
  have hstep := (fits_after settings before).step_harmless h all user
  -- The reply stands where the line was inserted; what follows is the same run.
  have hsent (later : List Incident) : ∃ rest,
      sent settings (before ++ later) = sent settings before ++ rest ∧
      sent settings (before ++ .ofLine all user line :: later) = sent settings before ++
        ((after settings before).session.replyTo (Wire.commandOn? line) ++ rest) := by
    refine ⟨((after settings before).run later).2, ?_, ?_⟩
    · unfold sent
      rw [run_append]
      rfl
    · unfold sent
      rw [run_append, run]
      change _ ++ (((after settings before).step _).2 ++
        ((((after settings before).step _).1).run later).2) = _
      rw [hstep]
  refine ⟨fun later => ?_, hsent, fun later => ?_, ?_⟩
  · have hboth (rest : List Incident) : after settings (before ++ rest) =
        ((after settings before).run rest).1 := by
      unfold after
      rw [run_append]
    rw [hboth, hboth, run, hstep]
  · obtain ⟨rest, hwithout, hwith⟩ := hsent later
    refine ⟨Session.sentText rest, ?_, ?_⟩
    · rw [hwithout, Session.sentText_append]
    · rw [hwith, Session.sentText_append, Session.sentText_append]
  · intro later lines back stream stream' hlines hlength hstream hstream' hbehind
    exact hears_insert hline all user later hlines hlength hstream hstream' hbehind

/-- A client that has set a breakpoint. -/
def spelledOnce : List Incident :=
  [.calls (.buildStarted {}), .accepted,
    .read {} {} (.ok (some "ADD_BREAKPOINT:lib//build.xml:5\n"))]

/-- The client may set it again in another spelling. -/
theorem spelledOnce_transparent :
    Transparent { port := some 0 } spelledOnce
      (Wire.bytesOf "ADD_BREAKPOINT:lib/build.xml:5".toList) {} {} := by
  have hcommand : Wire.commandOn? (Wire.bytesOf "ADD_BREAKPOINT:lib/build.xml:5".toList) =
      some (.addBreakpoint ⟨⟨"lib/build.xml"⟩, 5⟩) := by
    rw [Wire.commandOn?, if_neg (by decide), Wire.fromUTF8?_bytesOf]
    decide +kernel
  refine harmless_transparent { port := some 0 } (by decide) ?_ {} {}
  rw [hcommand]
  exact .addBreakpoint (by decide +kernel)

end DebuggedBuild

end BuildStepper
