import BuildStepper.Proofs.Lists
import BuildStepper.Wire.Line

/-!
# Lines, however the bytes are cut

`readLine` goes over a stream read by read, with a line under construction and a note that it is too
long. What comes of it can be said of the bytes alone. A stream delivers bytes (`Stream.bytes`) and
then ends or fails (`Stream.behind`); if there is a line feed among the bytes, what is read is the
line before it (`readLine_line`), and otherwise what is left of them (`readLine_end`). Where one
read ends and the next begins does not matter, nor how often a read is interrupted. `LineRead` lists
all that a call can do, for the proofs about many calls.

The invariant of the loop is `LineBuffer.of`: the line under construction holds all bytes read since
the last line feed, or is given up because they are too many.
-/

namespace BuildStepper.Wire

/-! ## Bytes of texts -/

/-- The bytes of characters, in UTF-8. -/
def bytesOf (cs : List Char) : List UInt8 :=
  cs.flatMap String.utf8EncodeChar

/-- No characters have no bytes. -/
@[simp] theorem bytesOf_nil : bytesOf [] = [] := rfl

/-- The bytes of two rows of characters stand in a row. -/
@[simp] theorem bytesOf_append (cs ds : List Char) :
    bytesOf (cs ++ ds) = bytesOf cs ++ bytesOf ds :=
  List.flatMap_append

/-- The line feed is one byte. -/
@[simp] theorem bytesOf_lineFeed : bytesOf ['\n'] = [lineFeed] := rfl

/-- A text is its bytes. -/
theorem toList_toByteArray (s : String) : s.toByteArray.data.toList = bytesOf s.toList := by
  rw [← String.utf8Encode_toList, List.utf8Encode, List.toList_data_toByteArray]
  rfl

/-- The number of the bytes of a row of characters is the size of its text. -/
theorem length_bytesOf (cs : List Char) :
    (bytesOf cs).length = (String.ofList cs).utf8ByteSize := by
  have hbytes := toList_toByteArray (String.ofList cs)
  rw [String.toList_ofList] at hbytes
  rw [← hbytes]
  rfl

/-- The size of a text is the number of its bytes. -/
theorem utf8ByteSize_eq (text : String) : text.utf8ByteSize = (bytesOf text.toList).length := by
  rw [length_bytesOf, String.ofList_toList]

/-- A character takes at least one byte. -/
theorem length_le_length_bytesOf (cs : List Char) : cs.length ≤ (bytesOf cs).length := by
  induction cs with
  | nil => exact Nat.le_refl 0
  | cons c cs ih =>
    have hsize := c.utf8Size_pos
    have hsplit : bytesOf (c :: cs) = String.utf8EncodeChar c ++ bytesOf cs := rfl
    rw [hsplit, List.length_append, String.length_utf8EncodeChar, List.length_cons]
    omega

/-- A repeated character takes as many times its own bytes. -/
theorem length_bytesOf_replicate (k : Nat) (c : Char) :
    (bytesOf (List.replicate k c)).length = k * c.utf8Size := by
  simp [bytesOf, List.length_flatMap, String.length_utf8EncodeChar]

/-- The byte that ends a line is no part of any other character. -/
theorem lineFeed_mem_utf8EncodeChar {c : Char} :
    lineFeed ∈ String.utf8EncodeChar c ↔ c = '\n' := by
  have hchar : c = '\n' ↔ c.val.toNat = 10 := by
    constructor
    · rintro rfl
      rfl
    · exact fun h => Char.ext (UInt32.toNat.inj h)
  have hbyte (n : Nat) : lineFeed = UInt8.ofNat n ↔ n % 256 = 10 := by
    unfold lineFeed
    constructor
    · intro h
      simpa using (congrArg UInt8.toNat h).symm
    · intro h
      exact UInt8.toNat.inj (by simpa using h.symm)
  rw [hchar]
  -- A character in one byte is that byte; all bytes of a longer one are 128 or more.
  unfold String.utf8EncodeChar
  dsimp only
  split
  · simp only [List.mem_singleton, hbyte]
    omega
  · split
    · simp only [List.mem_cons, List.not_mem_nil, or_false, hbyte]
      omega
    · split
      · simp only [List.mem_cons, List.not_mem_nil, or_false, hbyte]
        omega
      · simp only [List.mem_cons, List.not_mem_nil, or_false, hbyte]
        omega

/-- The byte of the line feed comes from line feeds only. -/
theorem lineFeed_mem_bytesOf {cs : List Char} : lineFeed ∈ bytesOf cs ↔ '\n' ∈ cs := by
  unfold bytesOf
  simp only [List.mem_flatMap, lineFeed_mem_utf8EncodeChar, exists_eq_right]

/-- A line feed at the end of the bytes of a text is one at the end of the text. -/
theorem exists_of_bytesOf_eq_concat {cs : List Char} {bytes : List UInt8}
    (h : bytesOf cs = bytes ++ [lineFeed]) : ∃ ds, cs = ds ++ ['\n'] ∧ bytesOf ds = bytes := by
  obtain rfl | ⟨ds, c, rfl⟩ := cs.eq_nil_or_concat
  · simp at h
  · rw [List.concat_eq_append] at h ⊢
    -- The last byte of the text belongs to its last character.
    have hsplit : bytesOf (ds ++ [c]) = bytesOf ds ++ String.utf8EncodeChar c := by
      rw [bytesOf_append, bytesOf, bytesOf, List.flatMap_singleton]
    have hlast : lineFeed ∈ String.utf8EncodeChar c := by
      have hlast := congrArg List.getLast? h
      rw [hsplit, List.getLast?_append, List.getLast?_concat] at hlast
      cases hchar : (String.utf8EncodeChar c).getLast? with
      | none =>
        have hsize := c.utf8Size_pos
        rw [List.getLast?_eq_none_iff] at hchar
        rw [← String.length_utf8EncodeChar, hchar] at hsize
        cases hsize
      | some b =>
        rw [hchar, Option.some_or] at hlast
        obtain rfl := Option.some.inj hlast
        exact List.mem_of_getLast? hchar
    obtain rfl := lineFeed_mem_utf8EncodeChar.1 hlast
    rw [bytesOf_append, bytesOf_lineFeed] at h
    exact ⟨ds, rfl, List.append_cancel_right h⟩

/-- The bytes of a text are read as the text. -/
theorem fromUTF8?_bytesOf (cs : List Char) :
    String.fromUTF8? (bytesOf cs).toByteArray = some (String.ofList cs) := by
  have hencode : (bytesOf cs).toByteArray = cs.utf8Encode := rfl
  rw [hencode, String.fromUTF8?, dif_pos ByteArray.isValidUTF8_utf8Encode]
  rfl

/-- Bytes that are read as a text are the bytes of it. -/
theorem eq_bytesOf_of_fromUTF8? {bytes : List UInt8} {text : String}
    (h : String.fromUTF8? bytes.toByteArray = some text) : bytes = bytesOf text.toList := by
  unfold String.fromUTF8? at h
  split at h
  · obtain rfl := Option.some.inj h
    rw [← toList_toByteArray]
    exact List.toList_data_toByteArray.symm
  · cases h

/-- Bytes are a text exactly if they are one with a line feed behind them. -/
theorem fromUTF8?_append_lineFeed (line : List UInt8) :
    String.fromUTF8? (line ++ [lineFeed]).toByteArray =
      (String.fromUTF8? line.toByteArray).map fun text =>
        String.ofList (text.toList ++ ['\n']) := by
  cases hline : String.fromUTF8? line.toByteArray with
  | some text =>
    obtain rfl := eq_bytesOf_of_fromUTF8? hline
    rw [← bytesOf_lineFeed, ← bytesOf_append, fromUTF8?_bytesOf, Option.map_some]
  | none =>
    cases htext : String.fromUTF8? (line ++ [lineFeed]).toByteArray with
    | none => rfl
    | some text =>
      obtain ⟨cs, -, rfl⟩ := exists_of_bytesOf_eq_concat (eq_bytesOf_of_fromUTF8? htext).symm
      rw [fromUTF8?_bytesOf] at hline
      cases hline

/-! ## What a stream delivers -/

/-- The bytes that a stream delivers before it ends or fails. -/
def Stream.bytes : Stream → List UInt8
  | [] => []
  | .chunk bytes :: reads => bytes.data.toList ++ Stream.bytes reads
  | .interrupted :: reads => Stream.bytes reads
  | .failed _ :: _ => []

/-- What comes behind those bytes: nothing, or a failure and what follows it. -/
def Stream.behind : Stream → Stream
  | [] => []
  | .chunk _ :: reads => Stream.behind reads
  | .interrupted :: reads => Stream.behind reads
  | .failed reason :: reads => .failed reason :: reads

/-- A stream delivers these bytes, and then it is at its end. -/
def Stream.Delivers (stream : Stream) (bytes : List UInt8) : Prop :=
  stream.bytes = bytes ∧ stream.behind = []

/-- What is put back on a stream is what was not taken of the read. -/
theorem Stream.bytes_unread (bytes : ByteArray) (n : Nat) (reads : Stream) :
    Stream.bytes (Stream.unread bytes n reads) =
      bytes.data.toList.drop n ++ Stream.bytes reads := by
  unfold Stream.unread
  split
  · simp only [Stream.bytes, ByteArray.data_extract, Array.toList_extract,
      List.extract_eq_take_drop]
    rw [List.take_of_length_le]
    simp
  · next hn =>
    have hnone : bytes.data.toList.drop n = [] := List.drop_of_length_le (by simpa using hn)
    rw [hnone, List.nil_append]

/-- Where the stream ends or fails stays the same. -/
theorem Stream.behind_unread (bytes : ByteArray) (n : Nat) (reads : Stream) :
    Stream.behind (Stream.unread bytes n reads) = Stream.behind reads := by
  unfold Stream.unread
  split <;> rfl

/-! ## The next line feed -/

/-- What is found is the first line feed at or after a place. -/
theorem lineFeedFrom_spec (bytes : ByteArray) (i : Nat) :
    match lineFeedFrom bytes i with
    | some n => ∃ content, bytes.data.toList.drop i =
        content ++ lineFeed :: bytes.data.toList.drop (n + 1) ∧ lineFeed ∉ content ∧
          i + content.length = n
    | none => lineFeed ∉ bytes.data.toList.drop i := by
  fun_induction lineFeedFrom bytes i with
  | case1 i hi heq =>
    refine ⟨[], ?_, List.not_mem_nil, rfl⟩
    rw [List.drop_eq_getElem_cons (by simpa using hi), List.nil_append]
    congr 1
  | case2 i hi hne ih =>
    have hdrop : bytes.data.toList.drop i = bytes[i] :: bytes.data.toList.drop (i + 1) := by
      rw [List.drop_eq_getElem_cons (by simpa using hi)]
      congr 1
    rw [hdrop]
    split at ih
    · obtain ⟨content, hsplit, hcontent, hlength⟩ := ih
      refine ⟨bytes[i] :: content, by rw [hsplit]; rfl, ?_, ?_⟩
      · exact List.not_mem_cons_of_ne_of_not_mem (Ne.symm hne) hcontent
      · rw [List.length_cons]
        omega
    · exact List.not_mem_cons_of_ne_of_not_mem (Ne.symm hne) ih
  | case3 i hi =>
    rw [List.drop_of_length_le (by simpa using hi)]
    exact List.not_mem_nil

/-- No line feed is found where there is none. -/
theorem lineFeedFrom_eq_none {bytes : ByteArray} (h : lineFeed ∉ bytes.data.toList) :
    lineFeedFrom bytes 0 = none := by
  have hspec := lineFeedFrom_spec bytes 0
  rw [List.drop_zero] at hspec
  split at hspec
  · obtain ⟨content, hsplit, -, -⟩ := hspec
    rw [hsplit] at h
    simp at h
  · assumption

/-! ## A line -/

/-- What a line is read as. It must not be too long, and be a text with what ends it. -/
def lineOutcome (limit : Nat) (line ending : List UInt8) : Except WireError (Option String) :=
  if limit < line.length then .error (.lineTooLong limit)
  else
    match String.fromUTF8? (line ++ ending).toByteArray with
    | some text => .ok (some text)
    | none => .error .invalidUtf8

/-- The line under construction after the bytes `read`, none of which ends it. -/
def LineBuffer.of (limit : Nat) (read : List UInt8) : LineBuffer :=
  if limit < read.length then none else some read.toByteArray

/-- Before any byte the line under construction is empty. -/
theorem LineBuffer.of_nil (limit : Nat) : LineBuffer.of limit [] = some .empty := by
  simp [LineBuffer.of]

/-- A chunk without the end of the line is added to it. -/
theorem LineBuffer.add_of (limit : Nat) (read : List UInt8) (bytes : ByteArray) :
    (LineBuffer.of limit read).add limit bytes bytes.size bytes.size =
      LineBuffer.of limit (read ++ bytes.data.toList) := by
  have hsize : bytes.data.toList.length = bytes.size := rfl
  have hwhole : bytes.extract 0 bytes.size = bytes.data.toList.toByteArray := by
    rw [ByteArray.extract_zero_size]
    exact ByteArray.ext (by simp)
  unfold LineBuffer.of
  by_cases hlong : limit < read.length
  · rw [if_pos hlong, if_pos (by rw [List.length_append]; omega)]
    rfl
  · rw [if_neg hlong]
    simp only [LineBuffer.add, List.size_toByteArray, List.length_append, hsize, hwhole,
      List.toByteArray_append]

/-- A chunk in which the line ends finishes it. -/
theorem LineBuffer.finish_add_of (limit : Nat) (read line rest : List UInt8) (bytes : ByteArray)
    (hbytes : bytes.data.toList = line ++ lineFeed :: rest) :
    ((LineBuffer.of limit read).add limit bytes line.length (line.length + 1)).finish limit =
      lineOutcome limit (read ++ line) [lineFeed] := by
  have htake : bytes.extract 0 (line.length + 1) = (line ++ [lineFeed]).toByteArray := by
    refine ByteArray.ext (Array.ext' ?_)
    simp [hbytes, List.take_append, List.take_of_length_le]
  unfold LineBuffer.of lineOutcome
  by_cases hlong : limit < read.length
  · rw [if_pos hlong, if_pos (by rw [List.length_append]; omega)]
    rfl
  · rw [if_neg hlong]
    simp only [LineBuffer.add, List.size_toByteArray, List.length_append]
    split
    · rfl
    · rw [htake, ← List.toByteArray_append, List.append_assoc]
      rfl

/-- What is left of a line at the end of the stream finishes it. -/
theorem LineBuffer.finish_of (limit : Nat) (read : List UInt8) :
    (LineBuffer.of limit read).finish limit = lineOutcome limit read [] := by
  unfold LineBuffer.of lineOutcome
  split
  · rfl
  · rw [List.append_nil]
    rfl

/-- A line feed among the bytes ends the line, wherever a chunk does. -/
theorem readLineFrom_line (limit : Nat) (read : List UInt8) {line rest : List UInt8}
    (hline : lineFeed ∉ line) {stream : Stream} (hbytes : stream.bytes = line ++ lineFeed :: rest) :
    ∃ stream', readLineFrom limit (.of limit read) stream =
        (lineOutcome limit (read ++ line) [lineFeed], stream') ∧
      stream'.bytes = rest ∧ stream'.behind = stream.behind := by
  induction stream generalizing read line with
  | nil => simp [Stream.bytes] at hbytes
  | cons first reads ih =>
    cases first with
    | interrupted => exact ih read hline hbytes
    | failed reason => simp [Stream.bytes] at hbytes
    | chunk bytes =>
      have hspec := lineFeedFrom_spec bytes 0
      simp only [List.drop_zero, Nat.zero_add] at hspec
      simp only [Stream.bytes] at hbytes
      cases hfeed : lineFeedFrom bytes 0 with
      | some n =>
        simp only [hfeed] at hspec
        obtain ⟨content, hsplit, hcontent, rfl⟩ := hspec
        -- The line feed found first ends the line, in the chunk as among all bytes.
        rw [hsplit, List.append_assoc, List.cons_append] at hbytes
        obtain ⟨rfl, hrest⟩ := split_at_first hcontent hline hbytes
        refine ⟨Stream.unread bytes (content.length + 1) reads, ?_, ?_, ?_⟩
        · simp only [readLineFrom, hfeed]
          rw [LineBuffer.finish_add_of limit read content _ bytes hsplit]
        · rw [Stream.bytes_unread, hrest]
        · rw [Stream.behind_unread]
          rfl
      | none =>
        -- The whole chunk belongs to the line, which goes on in the next read.
        simp only [hfeed] at hspec
        obtain ⟨more, rfl, hreads⟩ := exists_of_append_eq hspec hbytes
        have hmore : lineFeed ∉ more := fun hmem => hline (List.mem_append_right _ hmem)
        obtain ⟨stream', houtcome, hrest⟩ := ih (read ++ bytes.data.toList) hmore hreads
        refine ⟨stream', ?_, hrest⟩
        simp only [readLineFrom, hfeed]
        rw [LineBuffer.add_of, houtcome, List.append_assoc]

/-- Without a line feed among the bytes, what is left at the end of the stream is a line. -/
theorem readLineFrom_end (limit : Nat) {read : List UInt8} {stream : Stream}
    (hbytes : lineFeed ∉ stream.bytes) (hend : stream.behind = []) :
    readLineFrom limit (.of limit read) stream =
      (if read ++ stream.bytes = [] then .ok none
        else lineOutcome limit (read ++ stream.bytes) [], []) := by
  induction stream generalizing read with
  | nil =>
    simp only [Stream.bytes, List.append_nil]
    by_cases hread : read = []
    · subst hread
      simp [LineBuffer.of_nil, readLineFrom, ByteArray.isEmpty]
    · rw [if_neg hread, ← LineBuffer.finish_of]
      unfold LineBuffer.of
      split
      · rfl
      · have hsize : read.toByteArray.isEmpty = false := by
          simpa [ByteArray.isEmpty] using hread
        simp [readLineFrom, hsize]
  | cons first reads ih =>
    cases first with
    | interrupted => exact ih hbytes hend
    | failed reason => cases hend
    | chunk bytes =>
      have hsplit : Stream.bytes (.chunk bytes :: reads) =
          bytes.data.toList ++ Stream.bytes reads := rfl
      rw [hsplit, List.mem_append, not_or] at hbytes
      rw [hsplit, ← List.append_assoc, ← ih hbytes.2 hend, ← LineBuffer.add_of]
      simp only [readLineFrom, lineFeedFrom_eq_none hbytes.1]

/-- A failure before the line feed loses what was read of the line. -/
theorem readLineFrom_failed (limit : Nat) {buffer : LineBuffer} {stream rest : Stream}
    {reason : String} (hbytes : lineFeed ∉ stream.bytes)
    (hfailed : stream.behind = .failed reason :: rest) :
    readLineFrom limit buffer stream = (.error (.io reason), rest) := by
  induction stream generalizing buffer with
  | nil => cases hfailed
  | cons first reads ih =>
    cases first with
    | interrupted => exact ih hbytes hfailed
    | failed reason =>
      cases hfailed
      rfl
    | chunk bytes =>
      simp only [Stream.bytes, List.mem_append, not_or] at hbytes
      simp only [readLineFrom, lineFeedFrom_eq_none hbytes.1]
      exact ih hbytes.2 hfailed

variable {limit : Nat} {stream : Stream}

/-- What is read of a stream with a line feed is the line before it. -/
theorem readLine_line (limit : Nat) {line rest : List UInt8} (hline : lineFeed ∉ line)
    (hbytes : stream.bytes = line ++ lineFeed :: rest) :
    ∃ stream', readLine limit stream = (lineOutcome limit line [lineFeed], stream') ∧
      stream'.bytes = rest ∧ stream'.behind = stream.behind := by
  unfold readLine
  rw [← LineBuffer.of_nil limit]
  exact readLineFrom_line limit [] hline hbytes

/-- A line of characters is read as a text, with its line feed, if it is not too long. -/
theorem readLine_chars (limit : Nat) {cs : List Char} (hline : '\n' ∉ cs) {rest : List UInt8}
    (hbytes : stream.bytes = bytesOf cs ++ lineFeed :: rest) :
    ∃ stream', readLine limit stream =
        (if limit < (bytesOf cs).length then .error (.lineTooLong limit)
          else .ok (some (String.ofList (cs ++ ['\n']))), stream') ∧
      stream'.bytes = rest ∧ stream'.behind = stream.behind := by
  have hfeed : lineFeed ∉ bytesOf cs := fun h => hline (lineFeed_mem_bytesOf.1 h)
  obtain ⟨stream', hread, hrest⟩ := readLine_line limit hfeed hbytes
  refine ⟨stream', hread.trans ?_, hrest⟩
  unfold lineOutcome
  rw [← bytesOf_lineFeed, ← bytesOf_append, fromUTF8?_bytesOf]

/-- What is read of a stream without a line feed is all that it delivers. -/
theorem readLine_end (hbytes : lineFeed ∉ stream.bytes) (hend : stream.behind = []) :
    readLine limit stream =
      (if stream.bytes = [] then .ok none else lineOutcome limit stream.bytes [], []) := by
  unfold readLine
  rw [← LineBuffer.of_nil limit]
  exact readLineFrom_end limit hbytes hend

/-- A failure of the stream is read where it comes before the next line feed. -/
theorem readLine_failed {reason : String} {rest : Stream} (hbytes : lineFeed ∉ stream.bytes)
    (hfailed : stream.behind = .failed reason :: rest) :
    readLine limit stream = (.error (.io reason), rest) :=
  readLineFrom_failed limit hbytes hfailed

/-- Behind its bytes a stream is at its end or fails. -/
theorem Stream.behind_cases (stream : Stream) :
    stream.behind = [] ∨ ∃ reason rest, stream.behind = .failed reason :: rest := by
  induction stream with
  | nil => exact .inl rfl
  | cons first reads ih =>
    cases first with
    | failed reason => exact .inr ⟨reason, reads, rfl⟩
    | chunk bytes => exact ih
    | interrupted => exact ih

/-- What a call reads off a stream, and what it leaves. -/
inductive LineRead (limit : Nat) (stream : Stream) :
    Except WireError (Option String) → Stream → Prop
  /-- A line with its line feed. -/
  | line {bytes : List UInt8} {rest : Stream} :
    lineFeed ∉ bytes → stream.bytes = bytes ++ lineFeed :: rest.bytes →
      rest.behind = stream.behind →
      LineRead limit stream (lineOutcome limit bytes [lineFeed]) rest
  /-- A last line without one. -/
  | last :
    lineFeed ∉ stream.bytes → stream.bytes ≠ [] → stream.behind = [] →
      LineRead limit stream (lineOutcome limit stream.bytes []) []
  /-- Nothing, at the end of the stream. -/
  | nothing : stream.bytes = [] → stream.behind = [] → LineRead limit stream (.ok none) []
  /-- A failure, which loses what is before it of a line. -/
  | failed {reason : String} {rest : Stream} :
    lineFeed ∉ stream.bytes → stream.behind = .failed reason :: rest →
      LineRead limit stream (.error (.io reason)) rest

/-- A call reads no less and no more. -/
theorem lineRead_readLine (limit : Nat) (stream : Stream) :
    LineRead limit stream (readLine limit stream).1 (readLine limit stream).2 := by
  by_cases hmem : lineFeed ∈ stream.bytes
  · obtain ⟨line, rest, hbytes, hline⟩ := List.eq_append_cons_of_mem hmem
    obtain ⟨stream', hread, rfl, hbehind⟩ := readLine_line limit hline hbytes
    rw [hread]
    exact .line hline hbytes hbehind
  · obtain hend | ⟨reason, rest, hfailed⟩ := stream.behind_cases
    · rw [readLine_end hmem hend]
      split
      · next hnil => exact .nothing hnil hend
      · next hne => exact .last hmem hne hend
    · rw [readLine_failed hmem hfailed]
      exact .failed hmem hfailed

/-- Whatever a call returns, it is one of the outcomes that are listed. -/
theorem LineRead.of_readLine {outcome : Except WireError (Option String)} {rest : Stream}
    (h : readLine limit stream = (outcome, rest)) : LineRead limit stream outcome rest := by
  have hread := lineRead_readLine limit stream
  rwa [h] at hread

/-- A line that is read is not too long, and has the bytes of a text. -/
theorem lineOutcome_eq_ok {line ending : List UInt8} {text : Option String}
    (h : lineOutcome limit line ending = .ok text) :
    line.length ≤ limit ∧ ∃ cs, text = some cs ∧ bytesOf cs.toList = line ++ ending := by
  unfold lineOutcome at h
  split at h
  · cases h
  · next hlong =>
    split at h
    · next cs hread =>
      obtain rfl := Except.ok.inj h
      exact ⟨Nat.le_of_not_lt hlong, cs, rfl, (eq_bytesOf_of_fromUTF8? hread).symm⟩
    · cases h

/-- What is read as a line: not too many bytes, none of them a line feed but the last, and all that
the stream has before what it leaves. A line without a line feed is not empty. -/
theorem readLine_eq_ok {text : String} {stream' : Stream}
    (h : readLine limit stream = (.ok (some text), stream')) :
    ∃ line ending, text.toList = line ++ ending ∧ '\n' ∉ line ∧ (bytesOf line).length ≤ limit ∧
      stream.bytes = bytesOf (line ++ ending) ++ stream'.bytes ∧
      (ending = ['\n'] ∨ ending = [] ∧ line ≠ []) := by
  generalize houtcome : Except.ok (some text) = outcome at h
  cases LineRead.of_readLine h with
  | @line bytes _ hline hsplit _ =>
    obtain ⟨hlong, cs, heq, hbytes⟩ := lineOutcome_eq_ok houtcome.symm
    obtain rfl := Option.some.inj heq
    obtain ⟨line, htext, rfl⟩ := exists_of_bytesOf_eq_concat hbytes
    have hall : stream.bytes = bytesOf (line ++ ['\n']) ++ stream'.bytes := by
      rw [hsplit, bytesOf_append, bytesOf_lineFeed, List.append_assoc, List.singleton_append]
    exact ⟨line, ['\n'], htext, fun hchar => hline (lineFeed_mem_bytesOf.2 hchar), hlong, hall,
      .inl rfl⟩
  | last hmem hne _ =>
    obtain ⟨hlong, cs, heq, hbytes⟩ := lineOutcome_eq_ok houtcome.symm
    obtain rfl := Option.some.inj heq
    rw [List.append_nil] at hbytes
    rw [← hbytes] at hlong hmem hne
    refine ⟨text.toList, [], (List.append_nil _).symm, ?_, hlong, ?_, .inr ⟨rfl, ?_⟩⟩
    · exact fun hchar => hmem (lineFeed_mem_bytesOf.2 hchar)
    · rw [← hbytes, List.append_nil, Stream.bytes, List.append_nil]
    · exact fun hnil => hne (by rw [hnil]; rfl)
  | nothing _ _ => cases houtcome
  | failed _ _ => cases houtcome

/-- What is read is decided by what the stream delivers, and so is what it delivers then. -/
theorem readLine_congr (limit : Nat) {stream other : Stream}
    (hbytes : other.bytes = stream.bytes)
    (hbehind : other.behind = stream.behind) :
    (readLine limit other).1 = (readLine limit stream).1 ∧
      (readLine limit other).2.bytes = (readLine limit stream).2.bytes ∧
      (readLine limit other).2.behind = (readLine limit stream).2.behind := by
  by_cases hmem : lineFeed ∈ stream.bytes
  · obtain ⟨line, rest, hsplit, hline⟩ := List.eq_append_cons_of_mem hmem
    obtain ⟨left, hread, hrest, hleft⟩ := readLine_line limit hline hsplit
    obtain ⟨left', hread', hrest', hleft'⟩ := readLine_line limit hline (hbytes.trans hsplit)
    rw [hread, hread', hrest, hrest', hleft, hleft', hbehind]
    exact ⟨rfl, rfl, rfl⟩
  · have hmem' : lineFeed ∉ other.bytes := by rwa [hbytes]
    obtain hend | ⟨reason, rest, hfailed⟩ := stream.behind_cases
    · rw [readLine_end hmem hend, readLine_end hmem' (hbehind.trans hend), hbytes]
      exact ⟨rfl, rfl, rfl⟩
    · rw [readLine_failed hmem hfailed, readLine_failed hmem' (hbehind.trans hfailed)]
      exact ⟨rfl, rfl, rfl⟩

/-- A line that is read shortens the stream. -/
theorem size_lt_of_readLine {text : String} {stream' : Stream}
    (h : readLine limit stream = (.ok (some text), stream')) : stream'.size < stream.size := by
  obtain hlt | rfl := readLineFrom_size limit (some .empty) stream
  · rw [← readLine, h] at hlt
    exact hlt
  · simp [readLine, readLineFrom, ByteArray.isEmpty] at h

end BuildStepper.Wire
