import BuildStepper.Proofs.Wire.Line

/-!
# Line after line

What successive calls of `readLine` return on a stream that may fail and go on. A stream delivers
its bytes in stretches: each ends with a failure, and the last one at the end of the stream
(`Stream.stretches`). Here the bytes of a stretch stand together, so that nothing is left of how the
reads cut them. A stretch is split at its line feeds, and every line is read by itself
(`Stretch.results`). What is behind the last line feed is a line if the stream ends there; a failure
loses it, and is what the next call returns.

One call takes the first of these results off the stream, and leaves a stream with the others
(`LineRead.results`). So the calls return one after the other, and then nothing more for ever
(`nthLine_eq_result`).
-/

namespace BuildStepper.Wire

/-! ## Stretches -/

/-- What a stream delivers without a failure in between, and the failure behind it if it is not the
end of the stream. -/
structure Stretch where
  bytes : List UInt8
  failure? : Option String
deriving DecidableEq

/-- The stretches of a stream, if `bytes` were already delivered of the first one. -/
def Stream.stretchesFrom (bytes : List UInt8) : Stream → List Stretch
  | [] => [⟨bytes, none⟩]
  | .chunk more :: reads => Stream.stretchesFrom (bytes ++ more.data.toList) reads
  | .interrupted :: reads => Stream.stretchesFrom bytes reads
  | .failed reason :: reads => ⟨bytes, some reason⟩ :: Stream.stretchesFrom [] reads

/-- The stretches in which a stream delivers its bytes. -/
def Stream.stretches (stream : Stream) : List Stretch :=
  stream.stretchesFrom []

namespace Stretch

/-- The lines that a line feed ends, without it. -/
def lines (s : Stretch) : List (List UInt8) :=
  (s.bytes.splitOn lineFeed).dropLast

/-- What is behind the last line feed. -/
def tail (s : Stretch) : List UInt8 :=
  (s.bytes.splitOn lineFeed).getLastD []

/-- What is read off a stretch: each line with the line feed that ends it, and then the failure. At
the end of the stream what is behind the last line feed is a line too, if there is anything. -/
def results (limit : Nat) (s : Stretch) : List (Except WireError (Option String)) :=
  s.lines.map (lineOutcome limit · [lineFeed]) ++
    match s.failure? with
    | some reason => [.error (.io reason)]
    | none => if s.tail = [] then [] else [lineOutcome limit s.tail []]

/-- The first line of a stretch is read first. -/
theorem results_of_line (limit : Nat) {line rest : List UInt8} (hline : lineFeed ∉ line)
    (failure? : Option String) :
    results limit ⟨line ++ lineFeed :: rest, failure?⟩ =
      lineOutcome limit line [lineFeed] :: results limit ⟨rest, failure?⟩ := by
  have hsplit : (line ++ lineFeed :: rest).splitOn lineFeed = line :: rest.splitOn lineFeed :=
    List.splitOn_append_cons_self_of_not_mem hline rest
  have hne : rest.splitOn lineFeed ≠ [] := List.splitOn_ne_nil _ _
  have hlines : lines ⟨line ++ lineFeed :: rest, failure?⟩ = line :: lines ⟨rest, failure?⟩ := by
    unfold lines
    rw [hsplit]
    exact List.dropLast_cons_of_ne_nil hne
  have htail : tail ⟨line ++ lineFeed :: rest, failure?⟩ = tail ⟨rest, failure?⟩ := by
    unfold tail
    rw [hsplit, List.getLastD_eq_getLast?, List.getLastD_eq_getLast?,
      List.getLast?_cons_of_ne_nil hne]
  unfold results
  rw [hlines, htail]
  rfl

/-- Without a line feed there is no line before the end of a stretch. -/
theorem results_of_no_line (limit : Nat) {bytes : List UInt8} (hbytes : lineFeed ∉ bytes)
    (failure? : Option String) :
    results limit ⟨bytes, failure?⟩ =
      match failure? with
      | some reason => [.error (.io reason)]
      | none => if bytes = [] then [] else [lineOutcome limit bytes []] := by
  have hsplit : bytes.splitOn lineFeed = [bytes] := List.splitOn_eq_singleton hbytes
  unfold results lines tail
  rw [hsplit]
  rfl

end Stretch

namespace Stream

/-- A stream delivers what comes before its first failure, and then what the rest delivers. -/
theorem stretchesFrom_eq (bytes : List UInt8) (stream : Stream) :
    stream.stretchesFrom bytes =
      match stream.behind with
      | .failed reason :: rest => ⟨bytes ++ stream.bytes, some reason⟩ :: stretches rest
      | _ => [⟨bytes ++ stream.bytes, none⟩] := by
  induction stream generalizing bytes with
  | nil => simp [stretchesFrom, behind, Stream.bytes]
  | cons first reads ih =>
    cases first with
    | chunk more =>
      rw [stretchesFrom, ih]
      simp only [behind, Stream.bytes, List.append_assoc]
    | interrupted => exact ih bytes
    | failed reason => simp [stretchesFrom, behind, Stream.bytes, stretches]

/-- What is read off a stream, stretch by stretch. -/
def results (limit : Nat) (stream : Stream) : List (Except WireError (Option String)) :=
  stream.stretches.flatMap (Stretch.results limit)

/-- A stream that ends is one stretch. -/
theorem results_of_ends (limit : Nat) {stream : Stream} (hend : stream.behind = []) :
    stream.results limit = Stretch.results limit ⟨stream.bytes, none⟩ := by
  unfold results stretches
  rw [stretchesFrom_eq, hend, List.nil_append, List.flatMap_singleton]

/-- A failure ends the first stretch of a stream, and the others follow. -/
theorem results_of_fails (limit : Nat) {stream rest : Stream} {reason : String}
    (hfailed : stream.behind = .failed reason :: rest) :
    stream.results limit =
      Stretch.results limit ⟨stream.bytes, some reason⟩ ++ rest.results limit := by
  unfold results stretches
  rw [stretchesFrom_eq, hfailed, List.nil_append, List.flatMap_cons]
  rfl

/-- The first line of a stream is read first. -/
theorem results_of_line (limit : Nat) {stream stream' : Stream} {line : List UInt8}
    (hline : lineFeed ∉ line) (hbytes : stream.bytes = line ++ lineFeed :: stream'.bytes)
    (hbehind : stream'.behind = stream.behind) :
    stream.results limit = lineOutcome limit line [lineFeed] :: stream'.results limit := by
  obtain hend | ⟨reason, rest, hfailed⟩ := stream.behind_cases
  · rw [results_of_ends limit hend, results_of_ends limit (hbehind.trans hend), hbytes,
      Stretch.results_of_line limit hline]
  · rw [results_of_fails limit hfailed, results_of_fails limit (hbehind.trans hfailed), hbytes,
      Stretch.results_of_line limit hline, List.cons_append]

end Stream

/-! ## Call after call -/

/-- What a call returns is the first result of the stream, and what it leaves has the others. Where
there is none, it returns nothing and nothing is left. -/
theorem LineRead.results {limit : Nat} {stream rest : Stream}
    {outcome : Except WireError (Option String)} (h : LineRead limit stream outcome rest) :
    stream.results limit = outcome :: rest.results limit ∨
      stream.results limit = [] ∧ outcome = .ok none ∧ rest = [] := by
  cases h with
  | line hline hbytes hbehind => exact .inl (Stream.results_of_line limit hline hbytes hbehind)
  | last hmem hne hend =>
    left
    rw [Stream.results_of_ends limit hend, Stretch.results_of_no_line limit hmem]
    simp only [hne, if_false]
    rfl
  | nothing hnil hend =>
    right
    rw [Stream.results_of_ends limit hend, hnil]
    exact ⟨rfl, rfl, rfl⟩
  | failed hmem hfailed =>
    left
    rw [Stream.results_of_fails limit hfailed, Stretch.results_of_no_line limit hmem]
    rfl

/-- What the call returns that comes behind `n` others. -/
def nthLine (limit : Nat) : Nat → Stream → Except WireError (Option String)
  | 0, stream => (readLine limit stream).1
  | n + 1, stream => nthLine limit n (readLine limit stream).2

/-- The calls return the results of the stream one by one, and then nothing. -/
theorem nthLine_eq (limit n : Nat) (stream : Stream) :
    nthLine limit n stream = (stream.results limit)[n]?.getD (.ok none) := by
  induction n generalizing stream with
  | zero =>
    obtain hmore | ⟨hnone, houtcome, -⟩ := (lineRead_readLine limit stream).results
    · rw [hmore]
      rfl
    · rw [hnone, nthLine, houtcome]
      rfl
  | succ n ih =>
    rw [nthLine, ih]
    obtain hmore | ⟨hnone, -, hrest⟩ := (lineRead_readLine limit stream).results
    · rw [hmore, List.getElem?_cons_succ]
    · rw [hnone, hrest]
      rfl

/-! ## Reads through a buffer -/

/-- Bytes in pieces of the given size, of which only the last can be shorter. -/
def piecesOfSize (size : Nat) (bytes : List UInt8) : List (List UInt8) :=
  if 0 < size ∧ size < bytes.length then
    bytes.take size :: piecesOfSize size (bytes.drop size)
  else [bytes]
termination_by bytes.length
decreasing_by
  rw [List.length_drop]
  omega

/-- Pieces of equal size have all the bytes. -/
theorem flatten_piecesOfSize (size : Nat) (bytes : List UInt8) :
    (piecesOfSize size bytes).flatten = bytes := by
  fun_induction piecesOfSize size bytes with
  | case1 bytes _ ih => rw [List.flatten_cons, ih, List.take_append_drop]
  | case2 bytes _ => exact List.flatten_singleton

/-- The reads of a stream through a buffer: a chunk that it cannot hold comes in pieces. -/
def Stream.buffered (size : Nat) : Stream → Stream
  | [] => []
  | .chunk bytes :: reads =>
    (piecesOfSize size bytes.data.toList).map (fun piece => .chunk piece.toByteArray) ++
      Stream.buffered size reads
  | read :: reads => read :: Stream.buffered size reads

/-- How the bytes of a stretch are cut makes no difference to it. -/
theorem Stream.stretchesFrom_pieces (bytes : List UInt8) (pieces : List (List UInt8))
    (reads : Stream) :
    Stream.stretchesFrom bytes (pieces.map (fun piece => .chunk piece.toByteArray) ++ reads) =
      Stream.stretchesFrom (bytes ++ pieces.flatten) reads := by
  induction pieces generalizing bytes with
  | nil => simp
  | cons piece pieces ih =>
    rw [List.map_cons, List.cons_append, Stream.stretchesFrom, ih, List.toList_data_toByteArray,
      List.flatten_cons, List.append_assoc]

/-- A buffer does not change what a stream delivers. -/
theorem Stream.stretches_buffered (size : Nat) (stream : Stream) :
    (stream.buffered size).stretches = stream.stretches := by
  have hfrom (bytes : List UInt8) :
      (stream.buffered size).stretchesFrom bytes = stream.stretchesFrom bytes := by
    induction stream generalizing bytes with
    | nil => rfl
    | cons first reads ih =>
      cases first with
      | chunk more =>
        rw [buffered, stretchesFrom_pieces, flatten_piecesOfSize, ih, stretchesFrom]
      | interrupted => exact ih bytes
      | failed reason => exact congrArg (⟨bytes, some reason⟩ :: ·) (ih [])
  exact hfrom []

/-! ## All calls -/

/-- The calls on a stream return, stretch by stretch, what every line is read as by itself, and
nothing for ever when there is no more. How the bytes are cut into reads does not matter, and nor
does the buffer. -/
theorem nthLine_eq_result (limit : Nat) (stream : Stream) :
    (∀ n, nthLine limit n stream =
      (stream.stretches.flatMap (Stretch.results limit))[n]?.getD (.ok none)) ∧
    (∀ other : Stream, other.stretches = stream.stretches →
      ∀ n, nthLine limit n other = nthLine limit n stream) ∧
    (∀ size n, nthLine limit n (stream.buffered size) = nthLine limit n stream) := by
  have hsame {other : Stream} (h : other.stretches = stream.stretches) (n : Nat) :
      nthLine limit n other = nthLine limit n stream := by
    have hresults : other.results limit = stream.results limit :=
      congrArg (List.flatMap (Stretch.results limit)) h
    rw [nthLine_eq, nthLine_eq, hresults]
  exact ⟨fun n => nthLine_eq limit n stream, fun _ h => hsame h,
    fun size => hsame (Stream.stretches_buffered size stream)⟩

/-- A line in two reads, one that is too long, one that is no text, a line that a failure loses, and
a last one that nothing ends. -/
def brokenStream : Stream :=
  [.chunk "ab".toUTF8, .interrupted, .chunk "c\nabcd".toUTF8, .chunk ⟨#[10, 255, 10, 120]⟩,
    .failed "reset", .chunk "yz".toUTF8]

/-- The same in as few reads as can be. -/
def brokenOnce : Stream :=
  [.chunk (⟨#[97, 98, 99, 10, 97, 98, 99, 100, 10, 255, 10, 120]⟩), .failed "reset",
    .chunk "yz".toUTF8]

/-- What the first calls return there, with at most three bytes to a line. -/
theorem nthLine_brokenStream :
    (List.range 7).map (nthLine 3 · brokenStream) =
      [.ok (some "abc\n"), .error (.lineTooLong 3), .error .invalidUtf8, .error (.io "reset"),
        .ok (some "yz"), .ok none, .ok none] ∧
    brokenOnce.stretches = brokenStream.stretches ∧
    ∀ n, nthLine 3 n brokenOnce = nthLine 3 n brokenStream := by
  obtain ⟨hresults, hsame, -⟩ := nthLine_eq_result 3 brokenStream
  have hcut : brokenOnce.stretches = brokenStream.stretches := by decide
  refine ⟨?_, hcut, hsame brokenOnce hcut⟩
  rw [List.map_congr_left fun n _ => hresults n]
  decide

end BuildStepper.Wire
