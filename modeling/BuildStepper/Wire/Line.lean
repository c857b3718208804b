import BuildStepper.Wire.Error

/-!
# Lines off a stream

A stream is what its reads deliver, one after the other: a chunk of bytes, an interruption, which
only means to read again, or a failure. How the bytes are cut into chunks is an accident of
transport, and `readLine` never lets it show.

A line runs to its line feed, which it keeps; what is left at the end of the stream is a line too. A
line is at most `limit` bytes long, the line feed not counted. A longer one is skipped up to and
including its line feed, so that reading can go on behind it, and its bytes are not kept meanwhile.
-/

namespace BuildStepper.Wire

/-- The byte that ends a line. -/
def lineFeed : UInt8 := 10

/-- What one read of a stream delivers. -/
inductive Read where
  /-- Some bytes; none at all are passed over. -/
  | chunk (bytes : ByteArray)
  /-- Nothing yet; to be read again. -/
  | interrupted
  /-- The read failed. -/
  | failed (reason : String)

/-- A stream: what its reads deliver, in order. After the last one it is at its end. -/
abbrev Stream := List Read

/-- The index of the first line feed at or after `i`. -/
def lineFeedFrom (bytes : ByteArray) (i : Nat) : Option Nat :=
  if h : i < bytes.size then
    if bytes[i] = lineFeed then some i else lineFeedFrom bytes (i + 1)
  else none
termination_by bytes.size - i

/-- How much a stream can still deliver: its bytes and its reads. -/
def Stream.size : Stream → Nat
  | [] => 0
  | .chunk bytes :: reads => bytes.size + 1 + Stream.size reads
  | _ :: reads => 1 + Stream.size reads

/-- Puts back what is left of a chunk behind its first `n` bytes. -/
def Stream.unread (bytes : ByteArray) (n : Nat) (reads : Stream) : Stream :=
  if n < bytes.size then .chunk (bytes.extract n bytes.size) :: reads else reads

/-- A line under construction: its bytes so far, or `none` once it is too long. -/
abbrev LineBuffer := Option ByteArray

/-- Adds the bytes from `0` to `stop` of a chunk to a line; of these `content` bytes come before the
line feed. -/
def LineBuffer.add (limit : Nat) (buffer : LineBuffer) (bytes : ByteArray) (content stop : Nat) :
    LineBuffer :=
  match buffer with
  | none => none
  | some line => if limit < line.size + content then none else some (line ++ bytes.extract 0 stop)

/-- What a finished line is read as. -/
def LineBuffer.finish (limit : Nat) : LineBuffer → Except WireError (Option String)
  | none => .error (.lineTooLong limit)
  | some line =>
    match String.fromUTF8? line with
    | some text => .ok (some text)
    | none => .error .invalidUtf8

/-- Reads the rest of a line of which `buffer` is already read. -/
def readLineFrom (limit : Nat) (buffer : LineBuffer) :
    Stream → Except WireError (Option String) × Stream
  | [] =>
    match buffer with
    | some line => if line.isEmpty then (.ok none, []) else (buffer.finish limit, [])
    | none => (buffer.finish limit, [])
  | .interrupted :: reads => readLineFrom limit buffer reads
  | .failed reason :: reads => (.error (.io reason), reads)
  | .chunk bytes :: reads =>
    match lineFeedFrom bytes 0 with
    | some i =>
      ((buffer.add limit bytes i (i + 1)).finish limit, Stream.unread bytes (i + 1) reads)
    | none => readLineFrom limit (buffer.add limit bytes bytes.size bytes.size) reads

/-- Reads one line of at most `limit` bytes: the line, or `none` at the end of the stream, or why
there is none; and the stream behind it. A failure of the stream loses what was read of the line. -/
def readLine (limit : Nat) (stream : Stream) : Except WireError (Option String) × Stream :=
  readLineFrom limit (some .empty) stream

/-- With a byte taken off its first read, a stream has become smaller. -/
theorem Stream.size_unread (bytes : ByteArray) (n : Nat) (reads : Stream) (hn : 0 < n) :
    Stream.size (Stream.unread bytes n reads) < Stream.size (.chunk bytes :: reads) := by
  unfold Stream.unread
  split
  · simp only [Stream.size, ByteArray.size_extract]; omega
  · simp only [Stream.size]; omega

/-- A line, and equally the failure to read one, takes something off the stream; only at its end
nothing is taken. -/
theorem readLineFrom_size (limit : Nat) (buffer : LineBuffer) (stream : Stream) :
    (readLineFrom limit buffer stream).2.size < stream.size ∨ stream = [] := by
  fun_induction readLineFrom limit buffer stream with
  | case1 | case2 | case3 => exact .inr rfl
  | case4 buffer reads ih =>
    left
    rcases ih with ih | rfl
    · simp only [Stream.size]; omega
    · cases buffer with
      | none => simp [readLineFrom, Stream.size]
      | some line => simp only [readLineFrom]; split <;> simp [Stream.size]
  | case5 => left; simp only [Stream.size]; omega
  | case6 buffer bytes reads i h => exact .inl (Stream.size_unread _ _ _ (by omega))
  | case7 buffer bytes reads h ih =>
    left
    rcases ih with ih | rfl
    · simp only [Stream.size]; omega
    · cases buffer with
      | none => simp [readLineFrom, LineBuffer.add, Stream.size]
      | some line =>
        simp only [readLineFrom]
        split
        · split <;> simp [Stream.size]
        · simp [Stream.size]

end BuildStepper.Wire
