import BuildStepper.Proofs.Wire.Command
import BuildStepper.Proofs.Wire.CommandStream

/-!
# Commands that are sent, and those that arrive

A client writes its commands one after the other and ends each line with a line feed, or with a
carriage return and a line feed. The two sides of the wire do not agree on what belongs to the end
of a line. Reading a command drops the carriage return, but the limit on a line is applied before
that, to all that stands before the line feed. So a command arrives exactly if it is not too long
together with its carriage return, if there is one (`sent_commands_arrive`), and one that is as long
as a line can be arrives with a line feed alone and is passed over otherwise (`fullCommand_lost`).
-/

namespace BuildStepper.Wire

/-- What a sender ends a line with. -/
inductive LineEnd where
  | lineFeed
  /-- A carriage return, and a line feed behind it. -/
  | both
deriving DecidableEq

/-- What an end puts before the line feed. -/
def LineEnd.beforeFeed : LineEnd → List Char
  | .lineFeed => []
  | .both => ['\r']

/-- A command, and what its line is ended with. -/
structure SentCommand where
  command : Command
  ending : LineEnd

/-- The file of the location that a command carries fits on a line: it has a name, and no line
feed. -/
def Command.PlainFile (c : Command) : Prop :=
  ∀ location, c.location? = some location → location.PlainFile

/-- A plain file has a name. -/
theorem Command.PlainFile.namedFile {c : Command} (h : c.PlainFile) : c.NamedFile :=
  fun location hlocation => (h location hlocation).named

/-- A command is written on one line. -/
theorem Command.PlainFile.lineFeed_not_mem {c : Command} (h : c.PlainFile) :
    '\n' ∉ c.encodeChars := by
  have hname : '\n' ∉ c.name.toList := fun hmem => absurd (c.name_plain.2 _ hmem) (by decide)
  unfold Command.encodeChars
  split
  · exact hname
  · next location hlocation =>
    have hid : '\n' ∉ location.idChars := by
      simp only [Location.idChars, List.mem_append, List.mem_cons, not_or]
      exact ⟨(h location hlocation).oneLine, by decide, lineFeed_not_mem_numeral _⟩
    simp only [putRaw, List.mem_append, List.mem_cons, not_or]
    exact ⟨hname, by decide, hid⟩

/-- The size of a command is the number of its bytes. -/
theorem Command.utf8ByteSize_encode (c : Command) :
    c.encode.utf8ByteSize = (bytesOf c.encodeChars).length :=
  (length_bytesOf c.encodeChars).symm

namespace SentCommand

/-- What stands before the line feed. -/
def lineChars (s : SentCommand) : List Char :=
  s.command.encodeChars ++ s.ending.beforeFeed

/-- What is put on the stream. -/
def bytes (s : SentCommand) : List UInt8 :=
  bytesOf s.lineChars ++ [lineFeed]

/-- Whether the command is short enough, with its carriage return if there is one. -/
def fits (s : SentCommand) : Bool :=
  s.command.encode.utf8ByteSize + s.ending.beforeFeed.length ≤ maxCommandBytes

/-- A line is as long as its command, and longer by the carriage return if there is one. -/
theorem length_bytesOf_lineChars (s : SentCommand) :
    (bytesOf s.lineChars).length =
      s.command.encode.utf8ByteSize + s.ending.beforeFeed.length := by
  have hend : (bytesOf s.ending.beforeFeed).length = s.ending.beforeFeed.length := by
    cases s.ending <;> rfl
  rw [lineChars, bytesOf_append, List.length_append, s.command.utf8ByteSize_encode, hend]

/-- What stands before the line feed at the end of a line is dropped with it. -/
theorem isLineEnd_of_mem_beforeFeed (ending : LineEnd) :
    ∀ c ∈ ending.beforeFeed, isLineEnd c = true := by
  cases ending <;> simp [LineEnd.beforeFeed, isLineEnd]

/-- The line is one line. -/
theorem lineFeed_not_mem {s : SentCommand} (h : s.command.PlainFile) :
    lineFeed ∉ bytesOf s.lineChars := by
  have hend : '\n' ∉ s.ending.beforeFeed := by
    cases s.ending <;> simp [LineEnd.beforeFeed]
  rw [lineFeed_mem_bytesOf, lineChars, List.mem_append]
  exact not_or.2 ⟨h.lineFeed_not_mem, hend⟩

/-- The command on the line is the one that was sent, if it is not too long. -/
theorem commandOn?_line {s : SentCommand} (h : s.command.PlainFile) :
    commandOn? (bytesOf s.lineChars) = if s.fits then some s.command else none := by
  unfold commandOn? fits
  rw [length_bytesOf_lineChars]
  by_cases hlong : maxCommandBytes < s.command.encode.utf8ByteSize + s.ending.beforeFeed.length
  · rw [if_pos hlong, if_neg (by simpa using hlong)]
  · have hread : Command.decode (String.ofList s.lineChars) = .ok s.command := by
      rw [Command.decode, String.toList_ofList]
      exact h.namedFile.spelling_encodeChars.decodeChars (isLineEnd_of_mem_beforeFeed s.ending)
    rw [if_neg hlong, if_pos (by simpa using hlong), fromUTF8?_bytesOf, Option.bind_some, hread]
    rfl

/-- Those arrive, in order, that are not too long. -/
theorem commandsOn_sent {sent : List SentCommand} (h : ∀ s ∈ sent, s.command.PlainFile) :
    commandsOn (sent.flatMap bytes) = (sent.filter fits).map command := by
  have hnone : commandsOn [] = [] := by
    simp [commandsOn, List.splitOn_nil, commandOn?_nil]
  induction sent with
  | nil => exact hnone
  | cons s sent ih =>
    have hs := h s List.mem_cons_self
    have hline : commandsOn s.bytes = (if s.fits then some s.command else none).toList := by
      rw [← commandOn?_line hs, commandsOn, bytes,
        List.splitOn_append_cons_self_of_not_mem (lineFeed_not_mem hs) []]
      cases hcommand : commandOn? (bytesOf s.lineChars) <;>
        simp [List.splitOn_nil, commandOn?_nil, hcommand]
    have hsplit : commandsOn (s.bytes ++ sent.flatMap bytes) =
        commandsOn s.bytes ++ commandsOn (sent.flatMap bytes) :=
      commandsOn_append (.inr ⟨_, rfl⟩) _
    rw [List.flatMap_cons, hsplit, hline, ih fun t ht => h t (List.mem_cons_of_mem s ht),
      List.filter_cons]
    cases s.fits <;> rfl

end SentCommand

/-- What is sent is dispatched as far as it is not too long, and then the reader says once that
there is no more. -/
theorem serves_sent_iff {sent : List SentCommand} (hplain : ∀ s ∈ sent, s.command.PlainFile)
    {stream : Stream} (hdelivers : stream.Delivers (sent.flatMap SentCommand.bytes))
    (calls : List ReaderCall) :
    Serves stream calls ↔
      calls = ((sent.filter SentCommand.fits).map fun s => .dispatch s.command) ++
        [.disconnected .closed] := by
  have hcommands : commands stream = ((sent.filter SentCommand.fits).map SentCommand.command,
      .closed) := by
    rw [commands_eq, Stream.lines, Stream.ending, hdelivers.2, hdelivers.1]
    exact congrArg (·, StreamEnd.closed) (SentCommand.commandsOn_sent hplain)
  rw [serves_commands_iff, hcommands, callsOf, List.map_map]
  rfl

/-- Of the commands that a client sends those are dispatched, in order, that are not too long with
the carriage returns that it ends them with; these are all, if none is. Then the reader says once
that there is no more. How the bytes arrive does not matter. -/
theorem sent_commands_arrive {sent : List SentCommand} (hplain : ∀ s ∈ sent, s.command.PlainFile)
    {stream : Stream} (hdelivers : stream.Delivers (sent.flatMap SentCommand.bytes)) :
    ((∀ s ∈ sent, s.command.encode.utf8ByteSize + s.ending.beforeFeed.length ≤ maxCommandBytes) →
      ∀ calls, Serves stream calls ↔
        calls = sent.map (fun s => .dispatch s.command) ++ [.disconnected .closed]) ∧
    (∀ calls, Serves stream calls ↔
      calls = ((sent.filter SentCommand.fits).map fun s => .dispatch s.command) ++
        [.disconnected .closed]) := by
  have hserves := serves_sent_iff hplain hdelivers
  refine ⟨?_, hserves⟩
  intro hfits calls
  have hall : sent.filter SentCommand.fits = sent :=
    List.filter_eq_self.2 fun s hs => decide_eq_true (hfits s hs)
  rw [hserves, hall]

/-! ## At the limit -/

/-- Sets a breakpoint in a file with a name of `n` letters. -/
def longCommand (n : Nat) : Command :=
  .addBreakpoint ⟨⟨String.ofList (List.replicate n 'a')⟩, 1⟩

/-- It takes `n` bytes and 17 more. -/
theorem utf8ByteSize_longCommand (n : Nat) : (longCommand n).encode.utf8ByteSize = n + 17 := by
  have hname : (bytesOf "ADD_BREAKPOINT".toList).length = 14 := rfl
  have hline : (bytesOf (Text.numeral 1)).length = 1 := by decide
  have hletter : 'a'.utf8Size = 1 := rfl
  have hid : (longCommand n).encodeChars = "ADD_BREAKPOINT".toList ++
      delimiter :: (List.replicate n 'a' ++ delimiter :: Text.numeral 1) := by
    rw [Command.encodeChars]
    simp [longCommand, Command.location?, Command.name, putRaw, Location.idChars, delimiter]
  rw [Command.utf8ByteSize_encode, hid]
  simp only [bytesOf_append, List.length_append, length_bytesOf_delimiter,
    length_bytesOf_replicate, hletter, hname, hline]
  omega

/-- The file of the long command is plain. -/
theorem plainFile_longCommand (n : Nat) : (longCommand (n + 1)).PlainFile := by
  intro location hlocation
  obtain rfl := Option.some.inj hlocation
  exact ⟨by simp [List.replicate_succ], by simp⟩

/-- There is room for 65519 letters, one of which a carriage return takes. -/
theorem fits_longCommand (n : Nat) (ending : LineEnd) :
    SentCommand.fits ⟨longCommand n, ending⟩ =
      decide (n + ending.beforeFeed.length ≤ 65519) := by
  have hmax : maxCommandBytes = 65536 := rfl
  simp only [SentCommand.fits, utf8ByteSize_longCommand, hmax, decide_eq_decide]
  omega

/-- A command as long as a line can be, and one that leaves room for a carriage return. -/
def limitCommands : List SentCommand :=
  [⟨longCommand 65519, .lineFeed⟩, ⟨longCommand 65518, .both⟩, ⟨.stack, .both⟩]

/-- They arrive, and do so too among others that are too long. -/
theorem limitCommands_arrive :
    Serves [.chunk (limitCommands.flatMap SentCommand.bytes).toByteArray]
      [.dispatch (longCommand 65519), .dispatch (longCommand 65518), .dispatch .stack,
        .disconnected .closed] ∧
    Serves [.chunk ((⟨longCommand 65519, .both⟩ :: limitCommands).flatMap
        SentCommand.bytes).toByteArray]
      [.dispatch (longCommand 65519), .dispatch (longCommand 65518), .dispatch .stack,
        .disconnected .closed] := by
  have hdelivers (bytes : List UInt8) : Stream.Delivers [.chunk bytes.toByteArray] bytes :=
    ⟨by simp [Stream.bytes], rfl⟩
  have hstack : Command.stack.PlainFile := by
    intro location hlocation
    cases hlocation
  have hplain : ∀ s ∈ limitCommands, s.command.PlainFile := by
    simp only [limitCommands, List.forall_mem_cons]
    exact ⟨plainFile_longCommand 65518, plainFile_longCommand 65517, hstack,
      List.forall_mem_nil _⟩
  have hfits : ∀ s ∈ limitCommands, s.fits = true := by
    simp only [limitCommands, List.forall_mem_cons, fits_longCommand]
    exact ⟨by decide, by decide, by decide, List.forall_mem_nil _⟩
  constructor
  · refine ((sent_commands_arrive hplain (hdelivers _)).1 ?_ _).2 ?_
    · exact fun s hs => of_decide_eq_true (hfits s hs)
    · simp [limitCommands]
  · have hplain' : ∀ s ∈ ⟨longCommand 65519, .both⟩ :: limitCommands, s.command.PlainFile :=
      List.forall_mem_cons.2 ⟨plainFile_longCommand 65518, hplain⟩
    -- One character more, and with both line ends the line is too long.
    have hlong : ¬ SentCommand.fits ⟨longCommand 65519, .both⟩ = true := by
      rw [fits_longCommand]
      decide
    refine ((sent_commands_arrive hplain' (hdelivers _)).2 _).2 ?_
    rw [List.filter_cons_of_neg hlong, List.filter_eq_self.2 hfits]
    simp [limitCommands]

/-- With a carriage return, a command as long as a line can be does not arrive. -/
theorem fullCommand_lost :
    (longCommand 65519).PlainFile ∧
    (longCommand 65519).encode.utf8ByteSize ≤ maxCommandBytes ∧
    ¬ Serves [.chunk (SentCommand.bytes ⟨longCommand 65519, .both⟩).toByteArray]
      [.dispatch (longCommand 65519), .disconnected .closed] := by
  have hmax : maxCommandBytes = 65536 := rfl
  have hplain : ∀ s ∈ [(⟨longCommand 65519, .both⟩ : SentCommand)], s.command.PlainFile :=
    List.forall_mem_singleton.2 (plainFile_longCommand 65518)
  have hlong : ¬ SentCommand.fits ⟨longCommand 65519, .both⟩ = true := by
    rw [fits_longCommand]
    decide
  refine ⟨plainFile_longCommand 65518, by rw [utf8ByteSize_longCommand, hmax], ?_⟩
  rw [serves_sent_iff hplain ⟨by simp [Stream.bytes], rfl⟩, List.filter_cons_of_neg hlong]
  simp

end BuildStepper.Wire
