import BuildStepper.Proofs.Wire.Field
import BuildStepper.Proofs.Wire.Line
import BuildStepper.Wire.Inbox

/-!
# The commands of a stream, however it is cut

A stream of bytes falls into lines, and a line by itself decides whether there is a command on it
(`commandOn?`). `commands_eq` shows that reading a stream gives the commands on its lines, in their
order: how the reads cut the bytes does not show, and neither does a line that cannot be read. At
the end of the stream what is left is a line too, but a failure loses it.

The reader passes every command on when it has it, and at last says that there are no more. `Serves`
follows it from line to line, and `serves_commands_iff` tells all its calls. The same bytes can also
arrive piece by piece and be kept until a line is complete; `Inbox.serve_eq` shows that the commands
are the same. `ReadsCommands` puts these together.
-/

namespace BuildStepper.Wire

/-! ## The command on a line -/

/-- The command on a line, which is given without what ends it. There is none if the line is too
long, no text, or no command. -/
def commandOn? (line : List UInt8) : Option Command :=
  if maxCommandBytes < line.length then none
  else (String.fromUTF8? line.toByteArray).bind fun text => (Command.decode text).toOption

/-- There is no command on an empty line. -/
theorem commandOn?_nil : commandOn? [] = none := by
  have hempty : String.fromUTF8? [].toByteArray = some "" := fromUTF8?_bytesOf []
  rw [commandOn?, if_neg (by decide), hempty]
  rfl

/-- Whether a line feed ends the line does not matter to the command on it. -/
theorem decode_lineOutcome {line ending : List UInt8}
    (hending : ending = [] ∨ ending = [lineFeed]) :
    commandOn? line =
      match lineOutcome maxCommandBytes line ending with
      | .ok (some text) => (Command.decode text).toOption
      | _ => none := by
  unfold commandOn? lineOutcome
  split
  · rfl
  · obtain rfl | rfl := hending
    · rw [List.append_nil]
      cases String.fromUTF8? line.toByteArray <;> rfl
    · rw [fromUTF8?_append_lineFeed]
      cases String.fromUTF8? line.toByteArray with
      | none => rfl
      | some text =>
        simp only [Option.map_some, Option.bind_some, Command.decode, Command.decodeChars,
          String.toList_ofList]
        rw [stripLineEnds_append_ends text.toList isLineEnd_of_mem_lineFeed]

/-- A line is read as a text, or cannot be read. -/
theorem lineOutcome_cases (limit : Nat) (line ending : List UInt8) :
    lineOutcome limit line ending = .error (.lineTooLong limit) ∨
      lineOutcome limit line ending = .error .invalidUtf8 ∨
      ∃ text, lineOutcome limit line ending = .ok (some text) := by
  unfold lineOutcome
  split
  · exact .inl rfl
  · split
    · next text _ => exact .inr (.inr ⟨text, rfl⟩)
    · exact .inr (.inl rfl)

/-! ## The lines of a stream -/

/-- The commands on the lines of bytes. What is behind the last line feed is a line too. -/
def commandsOn (bytes : List UInt8) : List Command :=
  (bytes.splitOn lineFeed).filterMap commandOn?

/-- The lines to be read off a stream. What is behind the last line feed is a line if the stream
ends there, and is lost if it fails. -/
def Stream.lines (stream : Stream) : List (List UInt8) :=
  match stream.behind with
  | .failed _ :: _ => (stream.bytes.splitOn lineFeed).dropLast
  | _ => stream.bytes.splitOn lineFeed

/-- Why there are no more lines. -/
def Stream.ending (stream : Stream) : StreamEnd :=
  match stream.behind with
  | .failed reason :: _ => .failed (.io reason)
  | _ => .closed

/-- The lines of a stream are those up to the first line feed and those behind it. -/
theorem Stream.lines_of_line {stream stream' : Stream} {line : List UInt8}
    (hline : lineFeed ∉ line) (hbytes : stream.bytes = line ++ lineFeed :: stream'.bytes)
    (hbehind : stream'.behind = stream.behind) : stream.lines = line :: stream'.lines := by
  have hsplit : stream.bytes.splitOn lineFeed = line :: stream'.bytes.splitOn lineFeed := by
    rw [hbytes, List.splitOn_append_cons_self_of_not_mem hline]
  unfold lines
  rw [hbehind, hsplit]
  split
  · exact List.dropLast_cons_of_ne_nil (List.splitOn_ne_nil _ _)
  · rfl

/-- What the reading of commands does with one more line. -/
theorem commands_step (stream : Stream) :
    commands stream =
      match readLine maxCommandBytes stream with
      | (.ok none, _) => ([], .closed)
      | (.ok (some line), rest) =>
        ((Command.decode line).toOption.toList ++ (commands rest).1, (commands rest).2)
      | (.error (.io reason), _) => ([], .failed (.io reason))
      | (.error _, rest) => commands rest := by
  rw [commands]
  split
  · next h => simp only [h]
  · next line rest h =>
    simp only [h]
    cases Command.decode line <;> rfl
  · next h => simp only [h]
  · next h => simp only [h]

/-- A line that is read gives the command on it, if there is one, and reading goes on behind it. -/
theorem commands_of_line {stream stream' : Stream} {line ending : List UInt8}
    (hending : ending = [] ∨ ending = [lineFeed])
    (hread : readLine maxCommandBytes stream =
      (lineOutcome maxCommandBytes line ending, stream')) :
    commands stream = ((commandOn? line).toList ++ (commands stream').1, (commands stream').2) := by
  rw [commands_step, hread, decode_lineOutcome hending]
  obtain houtcome | houtcome | ⟨text, houtcome⟩ := lineOutcome_cases maxCommandBytes line ending
  · rw [houtcome]
    rfl
  · rw [houtcome]
    rfl
  · rw [houtcome]

/-- Reading a stream gives the commands on its lines. -/
theorem commands_eq (stream : Stream) :
    commands stream = (stream.lines.filterMap commandOn?, stream.ending) := by
  induction hlength : stream.bytes.length using Nat.strong_induction_on generalizing stream with
  | _ length ih =>
  generalize hread : readLine maxCommandBytes stream = read
  obtain ⟨outcome, rest⟩ := read
  cases LineRead.of_readLine hread with
  | @line line _ hline hbytes hbehind =>
    have hshorter : rest.bytes.length < length := by
      rw [← hlength, hbytes, List.length_append, List.length_cons]
      omega
    have hending : rest.ending = stream.ending := by
      unfold Stream.ending
      rw [hbehind]
    rw [commands_of_line (.inr rfl) hread, ih _ hshorter rest rfl,
      Stream.lines_of_line hline hbytes hbehind, hending, List.filterMap_cons]
    cases commandOn? line <;> rfl
  | last hmem _ hend =>
    have hnothing : commands [] = ([], .closed) := by
      rw [commands_step]
      rfl
    unfold Stream.lines Stream.ending
    rw [commands_of_line (.inl rfl) hread, hnothing, hend, List.splitOn_eq_singleton hmem]
    cases hcommand : commandOn? stream.bytes <;> simp [hcommand]
  | nothing hnil hend =>
    -- There is still one line, which is empty.
    unfold Stream.lines Stream.ending
    rw [commands_step, hread, hend, hnil]
    simp [List.splitOn_nil, commandOn?_nil]
  | failed hmem hfailed =>
    unfold Stream.lines Stream.ending
    rw [commands_step, hread, hfailed, List.splitOn_eq_singleton hmem]
    rfl

/-! ## The calls of the reader -/

/-- What the reader of a stream calls for. -/
inductive ReaderCall where
  /-- A command is to be carried out. -/
  | dispatch (command : Command)
  /-- There are no more. -/
  | disconnected (ending : StreamEnd)

/-- The reader makes these calls over a stream. It reads line by line, passes over a line that is
too long, no text or no command, and gives up at any other error. -/
inductive Serves : Stream → List ReaderCall → Prop
  | command {stream rest : Stream} {line : String} {command : Command} {calls : List ReaderCall} :
    readLine maxCommandBytes stream = (.ok (some line), rest) →
      Command.decode line = .ok command → Serves rest calls →
      Serves stream (.dispatch command :: calls)
  | malformed {stream rest : Stream} {line : String} {e : WireError} {calls : List ReaderCall} :
    readLine maxCommandBytes stream = (.ok (some line), rest) →
      Command.decode line = .error e → Serves rest calls → Serves stream calls
  | unreadable {stream rest : Stream} {e : WireError} {calls : List ReaderCall} :
    readLine maxCommandBytes stream = (.error e, rest) →
      (∃ limit, e = .lineTooLong limit) ∨ e = .invalidUtf8 → Serves rest calls →
      Serves stream calls
  | closed {stream rest : Stream} :
    readLine maxCommandBytes stream = (.ok none, rest) → Serves stream [.disconnected .closed]
  | failed {stream rest : Stream} {e : WireError} :
    readLine maxCommandBytes stream = (.error e, rest) →
      (∀ limit, e ≠ .lineTooLong limit) → e ≠ .invalidUtf8 →
      Serves stream [.disconnected (.failed e)]

/-- A line cannot be read because it is too long or no text, or because the stream fails. -/
theorem readLine_error {limit : Nat} {stream rest : Stream} {e : WireError}
    (h : readLine limit stream = (.error e, rest)) :
    e = .lineTooLong limit ∨ e = .invalidUtf8 ∨ ∃ reason, e = .io reason := by
  have hline {line ending : List UInt8} (heq : lineOutcome limit line ending = .error e) :
      e = .lineTooLong limit ∨ e = .invalidUtf8 ∨ ∃ reason, e = .io reason := by
    obtain houtcome | houtcome | ⟨text, houtcome⟩ := lineOutcome_cases limit line ending
    · exact .inl (Except.error.inj (heq.symm.trans houtcome))
    · exact .inr (.inl (Except.error.inj (heq.symm.trans houtcome)))
    · cases heq.symm.trans houtcome
  generalize heq : Except.error e = outcome at h
  cases LineRead.of_readLine h with
  | line _ _ _ => exact hline heq.symm
  | last _ _ _ => exact hline heq.symm
  | nothing _ _ => cases heq
  | @failed reason _ _ _ => exact .inr (.inr ⟨reason, Except.error.inj heq⟩)

/-- The calls that give these commands and end like this. -/
def callsOf (found : List Command × StreamEnd) : List ReaderCall :=
  found.1.map .dispatch ++ [.disconnected found.2]

/-- The reader makes the calls for the commands of the stream, and no others. -/
theorem serves_commands_iff (stream : Stream) (calls : List ReaderCall) :
    Serves stream calls ↔ calls = callsOf (commands stream) := by
  constructor
  · intro h
    induction h with
    | command hread hdecode _ ih =>
      rw [commands_step, hread, ih]
      simp only [hdecode]
      rfl
    | malformed hread hdecode _ ih =>
      rw [commands_step, hread, ih]
      simp only [hdecode]
      rfl
    | unreadable hread hskipped _ ih =>
      rw [commands_step, hread, ih]
      obtain ⟨limit, rfl⟩ | rfl := hskipped <;> rfl
    | closed hread =>
      rw [commands_step, hread]
      rfl
    | failed hread hfits htext =>
      -- A read fails in three ways, of which only a broken connection ends the reading.
      obtain rfl | rfl | ⟨reason, rfl⟩ := readLine_error hread
      · exact absurd rfl (hfits _)
      · exact absurd rfl htext
      · rw [commands_step, hread]
        rfl
  · rintro rfl
    fun_induction commands stream with
    | case1 stream rest hread => exact .closed hread
    | case2 stream line rest hread _ later ending hrest command hdecode ih =>
      rw [hrest] at ih
      exact .command hread hdecode ih
    | case3 stream line rest hread _ later ending hrest e hdecode ih =>
      rw [hrest] at ih
      exact .malformed hread hdecode ih
    | case4 stream reason rest hread => exact .failed hread (by simp) (by simp)
    | case5 stream e rest hnotio hread _ ih =>
      obtain rfl | rfl | ⟨reason, rfl⟩ := readLine_error hread
      · exact .unreadable hread (.inl ⟨_, rfl⟩) ih
      · exact .unreadable hread (.inr rfl) ih
      · exact absurd rfl (hnotio reason)

/-! ## Bytes that arrive in pieces -/

/-- Bytes that arrive at once give the commands on their lines. -/
theorem commands_chunk (bytes : ByteArray) :
    (commands [.chunk bytes]).1 = commandsOn bytes.data.toList := by
  have hbytes : Stream.bytes [.chunk bytes] = bytes.data.toList := List.append_nil _
  rw [commands_eq, commandsOn, ← hbytes]
  rfl

/-- Behind a line feed the commands are those of what is left. -/
theorem commandsOn_append {front : List UInt8}
    (hfront : front = [] ∨ ∃ bytes, front = bytes ++ [lineFeed]) (back : List UInt8) :
    commandsOn (front ++ back) = commandsOn front ++ commandsOn back := by
  unfold commandsOn
  obtain rfl | ⟨bytes, rfl⟩ := hfront
  · simp [List.splitOn_nil, commandOn?_nil]
  · rw [List.append_assoc, List.singleton_append, List.splitOn_append_cons_self,
      List.splitOn_append_cons_self]
    simp [List.splitOn_nil, commandOn?_nil]

/-- Bytes are cut behind the last line feed among the first so many. -/
theorem behindLast_spec (bytes : ByteArray) {n : Nat} (hn : n ≤ bytes.size) :
    ∃ front back, bytes.data.toList.take n = front ++ back ∧
      front.length = Inbox.behindLast bytes n ∧
      (front = [] ∨ ∃ line, front = line ++ [lineFeed]) ∧ lineFeed ∉ back := by
  induction n with
  | zero => exact ⟨[], [], rfl, rfl, .inl rfl, List.not_mem_nil⟩
  | succ n ih =>
    have hin : n < bytes.data.toList.length := hn
    have hlast : bytes.data.toList.take (n + 1) = bytes.data.toList.take n ++ [bytes[n]] := by
      rw [List.take_succ_eq_append_getElem hin]
      rfl
    rw [hlast, Inbox.behindLast]
    simp only [getElem?_pos bytes n hn, Option.some.injEq]
    split
    · next hfeed =>
      rw [hfeed]
      refine ⟨_, [], (List.append_nil _).symm, ?_, .inr ⟨_, rfl⟩, List.not_mem_nil⟩
      rw [List.length_append, List.length_take, Nat.min_eq_left hin.le, List.length_singleton]
    · next hother =>
      -- The last byte is no line feed, so that the cut lies further to the front.
      obtain ⟨front, back, hsplit, hlength, hfront, hback⟩ := ih (by omega)
      refine ⟨front, back ++ [bytes[n]], by rw [hsplit, List.append_assoc], hlength, hfront, ?_⟩
      rw [List.mem_append, List.mem_singleton]
      exact not_or.2 ⟨hback, fun heq => hother heq.symm⟩

namespace Inbox

/-- When bytes arrive, the commands on the lines that they complete are read at once, and what is
behind the last line feed is kept. -/
theorem receive_spec (inbox : Inbox) (bytes : ByteArray) :
    ∃ front back, inbox.kept.data.toList ++ bytes.data.toList = front ++ back ∧
      (front = [] ∨ ∃ line, front = line ++ [lineFeed]) ∧ lineFeed ∉ back ∧
      (inbox.receive bytes).1 = commandsOn front ∧
      (inbox.receive bytes).2.kept.data.toList = back := by
  have hall : inbox.kept.data.toList ++ bytes.data.toList = (inbox.kept ++ bytes).data.toList :=
    ByteArray.toList_data_append.symm
  rw [hall]
  simp only [receive]
  generalize inbox.kept ++ bytes = all
  obtain ⟨front, back, hsplit, hlength, hfront, hback⟩ := behindLast_spec all le_rfl
  have hsize : all.data.toList.length = all.size := rfl
  rw [← hsize, List.take_length] at hsplit
  refine ⟨front, back, hsplit, hfront, hback, ?_, ?_⟩
  · rw [commands_chunk, ← hlength]
    simp [ByteArray.data_extract, hsplit]
  · have hrest : back.length ≤ all.size - front.length := by
      rw [← hsize, hsplit, List.length_append]
      omega
    rw [← hlength]
    simpa [ByteArray.data_extract, hsplit] using hrest

/-- The commands read while pieces of bytes arrive one after the other, and the sender closes. -/
def serve (inbox : Inbox) : List ByteArray → List Command
  | [] => inbox.close
  | bytes :: pieces => (inbox.receive bytes).1 ++ (inbox.receive bytes).2.serve pieces

/-- Whatever the pieces are, they give the commands on the lines of all the bytes. -/
theorem serve_eq (inbox : Inbox) (pieces : List ByteArray) :
    inbox.serve pieces =
      commandsOn (inbox.kept.data.toList ++ pieces.flatMap fun bytes => bytes.data.toList) := by
  induction pieces generalizing inbox with
  | nil => rw [serve, close, commands_chunk, List.flatMap_nil, List.append_nil]
  | cons bytes pieces ih =>
    obtain ⟨front, back, hsplit, hfront, -, hread, hkept⟩ := inbox.receive_spec bytes
    rw [serve, hread, ih, hkept, List.flatMap_cons, ← List.append_assoc, hsplit,
      List.append_assoc, commandsOn_append hfront]

end Inbox

/-! ## What the reader makes of a stream -/

/-- What is read off a stream is decided by its bytes, and by whether it ends or fails. -/
theorem Stream.lines_congr {stream other : Stream} (hbytes : other.bytes = stream.bytes)
    (hending : other.ending = stream.ending) : other.lines = stream.lines := by
  unfold ending at hending
  unfold lines
  rw [hbytes]
  obtain hend | ⟨reason, rest, hfailed⟩ := stream.behind_cases <;>
    obtain hend' | ⟨reason', rest', hfailed'⟩ := other.behind_cases
  · rw [hend, hend']
  · simp [hend, hfailed'] at hending
  · simp [hfailed, hend'] at hending
  · rw [hfailed, hfailed']

/-- What holds of the calls that the reader makes over a stream. -/
structure ReadsCommands (stream : Stream) : Prop where
  /-- It calls for the commands on the lines in their order, then says once that there are no more,
  and makes no other calls. -/
  calls : ∀ calls, Serves stream calls ↔
    calls = (stream.lines.filterMap commandOn?).map .dispatch ++ [.disconnected stream.ending]
  /-- How the bytes are cut into reads, and how often a read is interrupted, does not matter. -/
  cut : ∀ other : Stream, other.bytes = stream.bytes → other.ending = stream.ending →
    ∀ calls, Serves other calls ↔ Serves stream calls
  /-- A line without a command can as well be left out. -/
  skipped : ∀ before line after, stream.lines = before ++ line :: after → commandOn? line = none →
    ∀ other : Stream, other.lines = before ++ after → other.ending = stream.ending →
      ∀ calls, Serves other calls ↔ Serves stream calls
  /-- Bytes that arrive in pieces, and are kept until a line is complete, give the same commands. -/
  pieces : stream.behind = [] → ∀ pieces : List ByteArray,
    (pieces.flatMap fun bytes => bytes.data.toList) = stream.bytes →
      Inbox.serve {} pieces = stream.lines.filterMap commandOn?

/-- The reader makes of every stream what its lines say. -/
theorem reads_commands (stream : Stream) : ReadsCommands stream := by
  have hserves (stream : Stream) (calls : List ReaderCall) : Serves stream calls ↔
      calls = (stream.lines.filterMap commandOn?).map .dispatch ++
        [.disconnected stream.ending] := by
    rw [serves_commands_iff, commands_eq, callsOf]
  refine ⟨hserves stream, ?_, ?_, ?_⟩
  · intro other hbytes hending calls
    rw [hserves, hserves, Stream.lines_congr hbytes hending, hending]
  · intro before line after hlines hnone other hothers hending calls
    rw [hserves, hserves, hlines, hothers, hending, List.filterMap_append, List.filterMap_append,
      List.filterMap_cons, hnone]
  · intro hend pieces hpieces
    rw [Inbox.serve_eq, hpieces, Stream.lines, hend]
    rfl

end BuildStepper.Wire
