import BuildStepper.Proofs.Wire.Incoming

/-!
# Calls on a stream of notifications

What a sender puts on a stream are notifications, each with a line feed behind it, and there may be
lines among them that are no notification. Each call of `readNotification` takes exactly one of
these items, whatever they are: where a notification ends is found by reading it, and a line that
cannot be read is passed over as a whole. So the calls return the notifications and an error for
every other line, in order, and then nothing more (`outcomes_of_delivers`).
-/

namespace BuildStepper.Wire

/-- What the first `k` calls on a stream return. -/
def outcomes : Nat → Stream → List (Except WireError (Option Notification))
  | 0, _ => []
  | k + 1, stream => (readNotification stream).1 :: outcomes k (readNotification stream).2

/-- What a message is refused for at once: it is no notification, and no beginning of one. -/
def refusal? : Except WireError Notification → Option WireError
  | .ok _ => none
  | .error .truncated => none
  | .error fault => some fault

/-- What a line is refused for by itself: it is too long, or no text, or refused as a message. -/
def fault? (line : List UInt8) : Option WireError :=
  if maxNotificationBytes < line.length then some (.lineTooLong maxNotificationBytes)
  else
    match String.fromUTF8? line.toByteArray with
    | none => some .invalidUtf8
    | some text => refusal? (Notification.decode text)

/-- What a message is refused for is an error other than that it is truncated. -/
theorem refusal?_eq_some {outcome : Except WireError Notification} {fault : WireError}
    (h : refusal? outcome = some fault) : outcome = .error fault ∧ fault ≠ .truncated := by
  cases outcome with
  | ok n => cases h
  | error e =>
    cases e with
    | truncated => cases h
    | _ =>
      obtain rfl := Option.some.inj h
      exact ⟨rfl, by simp⟩

/-- What is put on a stream. -/
inductive StreamItem where
  | notification (n : Notification)
  /-- A line that is none, and what it is refused for. -/
  | junk (line : List UInt8) (fault : WireError)

namespace StreamItem

/-- A notification is not too long, and a line that is none is one line. -/
def WellFormed : StreamItem → Prop
  | notification n => n.PlainFile ∧ n.encode.utf8ByteSize ≤ maxNotificationBytes
  | junk line fault => lineFeed ∉ line ∧ fault? line = some fault

/-- An item on the stream. -/
def bytes : StreamItem → List UInt8
  | notification n => bytesOf n.encodeChars ++ [lineFeed]
  | junk line _ => line ++ [lineFeed]

/-- What the call that takes an item returns. -/
def outcome : StreamItem → Except WireError (Option Notification)
  | notification n => .ok (some n)
  | junk _ fault => .error fault

end StreamItem

/-! ## One item -/

variable {stream : Stream}

/-- A notification is read off the stream, or the first line of it that does not fit makes the call
fail. -/
theorem readNotification_written {n : Notification} (hcount : n.Countable) (hplain : n.PlainFile)
    {rest : List UInt8} (hbytes : stream.bytes = bytesOf n.encodeChars ++ lineFeed :: rest) :
    ∃ stream', readNotification stream =
        (outcomeOf n (overrun 0 (n.encodeChars.splitOn '\n')), stream') ∧
      stream'.behind = stream.behind ∧
      (overrun 0 (n.encodeChars.splitOn '\n') = none → stream'.bytes = rest) :=
  readNotificationFrom_written hcount hplain (List.nil_append _).symm hbytes

/-- A notification that is not too long is read off the stream. -/
theorem readNotification_notification {n : Notification} (hplain : n.PlainFile)
    (hfits : n.encode.utf8ByteSize ≤ maxNotificationBytes) {rest : List UInt8}
    (hbytes : stream.bytes = bytesOf n.encodeChars ++ lineFeed :: rest) :
    ∃ stream', readNotification stream = (.ok (some n), stream') ∧ stream'.bytes = rest ∧
      stream'.behind = stream.behind := by
  rw [n.utf8ByteSize_encode] at hfits
  have hcount : n.Countable := Notification.countable_of_length_lt
    (Nat.lt_of_le_of_lt hfits (by decide))
  have hnone : overrun 0 (n.encodeChars.splitOn '\n') = none :=
    overrun_splitOn_eq_none (by rwa [Nat.zero_add])
  obtain ⟨stream', hcall, hbehind, hrest⟩ := readNotification_written hcount hplain hbytes
  rw [hnone] at hcall
  exact ⟨stream', hcall, hrest hnone, hbehind⟩

/-- A line that is refused before it is read as a notification is passed over. -/
theorem readNotification_refused {line : List UInt8} {fault : WireError}
    (hrefused : lineOutcome maxNotificationBytes line [lineFeed] = .error fault)
    (hline : lineFeed ∉ line) {rest : List UInt8}
    (hbytes : stream.bytes = line ++ lineFeed :: rest) :
    ∃ stream', readNotification stream = (.error fault, stream') ∧ stream'.bytes = rest ∧
      stream'.behind = stream.behind := by
  have hroom : maxNotificationBytes - "".utf8ByteSize = maxNotificationBytes := rfl
  obtain ⟨stream', hread, hrest⟩ := readLine_line maxNotificationBytes hline hbytes
  rw [hrefused] at hread
  refine ⟨stream', ?_, hrest⟩
  rw [readNotification, readNotificationFrom_eq, hroom, hread]

/-- A line that is no notification is passed over. -/
theorem readNotification_junk {line : List UInt8} {fault : WireError}
    (hfault : fault? line = some fault) (hline : lineFeed ∉ line) {rest : List UInt8}
    (hbytes : stream.bytes = line ++ lineFeed :: rest) :
    ∃ stream', readNotification stream = (.error fault, stream') ∧ stream'.bytes = rest ∧
      stream'.behind = stream.behind := by
  unfold fault? at hfault
  split at hfault
  · next hlong =>
    obtain rfl := Option.some.inj hfault
    refine readNotification_refused ?_ hline hbytes
    rw [lineOutcome, if_pos hlong]
  · next hfits =>
    split at hfault
    · next hnone =>
      obtain rfl := Option.some.inj hfault
      refine readNotification_refused ?_ hline hbytes
      rw [lineOutcome, if_neg hfits, fromUTF8?_append_lineFeed, hnone]
      rfl
    · next text htext =>
      obtain rfl := eq_bytesOf_of_fromUTF8? htext
      have hchars : '\n' ∉ text.toList := fun h => hline (lineFeed_mem_bytesOf.2 h)
      obtain ⟨stream', hrest, hbehind, hcall⟩ := readNotificationFrom_line [] hchars hbytes
      have hroom : ¬ maxNotificationBytes - (bytesOf []).length < (bytesOf text.toList).length :=
        hfits
      obtain ⟨hdecode, hne⟩ := refusal?_eq_some hfault
      have hsame : Notification.decodeChars ([] ++ text.toList ++ ['\n']) = .error fault := by
        rw [← hdecode, Notification.decode, Notification.decodeChars, Notification.decodeChars,
          stripLineEnds_append_ends _ isLineEnd_of_mem_lineFeed, List.nil_append]
      refine ⟨stream', hcall.trans ?_, hrest, hbehind⟩
      rw [if_neg hroom, hsame]
      cases fault with
      | truncated => exact absurd rfl hne
      | _ => rfl

/-- A call takes one item. -/
theorem readNotification_item {item : StreamItem} (hitem : item.WellFormed) {rest : List UInt8}
    (hbytes : stream.bytes = item.bytes ++ rest) :
    ∃ stream', readNotification stream = (item.outcome, stream') ∧ stream'.bytes = rest ∧
      stream'.behind = stream.behind := by
  cases item with
  | notification n =>
    rw [StreamItem.bytes, List.append_assoc, List.singleton_append] at hbytes
    exact readNotification_notification hitem.1 hitem.2 hbytes
  | junk line fault =>
    rw [StreamItem.bytes, List.append_assoc, List.singleton_append] at hbytes
    exact readNotification_junk hitem.2 hitem.1 hbytes

/-! ## Item by item -/

/-- The calls take the items in order. -/
theorem outcomes_items {items : List StreamItem} (hitems : ∀ item ∈ items, item.WellFormed)
    {rest : List UInt8} (hbytes : stream.bytes = items.flatMap StreamItem.bytes ++ rest) (k : Nat) :
    ∃ stream', outcomes (items.length + k) stream =
        items.map StreamItem.outcome ++ outcomes k stream' ∧
      stream'.bytes = rest ∧ stream'.behind = stream.behind := by
  induction items generalizing stream with
  | nil =>
    refine ⟨stream, ?_, hbytes, rfl⟩
    rw [List.length_nil, Nat.zero_add]
    rfl
  | cons item items ih =>
    rw [List.flatMap_cons, List.append_assoc] at hbytes
    obtain ⟨stream', hcall, hlater, hbehind⟩ :=
      readNotification_item (hitems item List.mem_cons_self) hbytes
    obtain ⟨stream'', houtcomes, hrest, hbehind'⟩ :=
      ih (fun i hi => hitems i (List.mem_cons_of_mem item hi)) hlater
    refine ⟨stream'', ?_, hrest, hbehind'.trans hbehind⟩
    rw [List.length_cons, Nat.succ_add, outcomes, hcall, houtcomes]
    rfl

/-- At the end of the stream the calls return nothing more. -/
theorem outcomes_end (hend : stream.Delivers []) (k : Nat) :
    outcomes k stream = List.replicate k (.ok none) := by
  have hcall {s : Stream} (hs : s.Delivers []) : readNotification s = (.ok none, []) := by
    have hnone : lineFeed ∉ s.bytes := by
      rw [hs.1]
      exact List.not_mem_nil
    have hempty : "".isEmpty = true := rfl
    rw [readNotification, readNotificationFrom_eq, readLine_end hnone hs.2, if_pos hs.1]
    simp only [hempty, if_true]
  have hnil : Stream.Delivers [] [] := ⟨rfl, rfl⟩
  induction k generalizing stream with
  | zero => rfl
  | succ k ih =>
    rw [outcomes, hcall hend, ih hnil]
    rfl

/-- The calls take all that is put on a stream, and then return nothing more. -/
theorem outcomes_all {items : List StreamItem} (hitems : ∀ item ∈ items, item.WellFormed)
    (hdelivers : stream.Delivers (items.flatMap StreamItem.bytes)) (k : Nat) :
    outcomes (items.length + k) stream =
      items.map StreamItem.outcome ++ List.replicate k (.ok none) := by
  have hbytes : stream.bytes = items.flatMap StreamItem.bytes ++ [] := by
    rw [List.append_nil, hdelivers.1]
  obtain ⟨stream', houtcomes, hrest, hbehind⟩ := outcomes_items hitems hbytes k
  rw [houtcomes, outcomes_end ⟨hrest, hbehind.trans hdelivers.2⟩]

/-! ## A whole stream -/

/-- The calls on a stream return what was put on it: every notification as it was, an error for
every line that is none, and then nothing more, however the bytes arrive. Where a notification is
too long, the call fails at its first line that does not fit; and no call returns one that is too
long. -/
theorem outcomes_of_delivers {items : List StreamItem} (hitems : ∀ item ∈ items, item.WellFormed) :
    (∀ {stream : Stream}, stream.Delivers (items.flatMap StreamItem.bytes) → ∀ k,
      outcomes (items.length + k) stream =
        items.map StreamItem.outcome ++ List.replicate k (.ok none)) ∧
    (∀ {stream : Stream} {n : Notification} {after : List UInt8}, n.PlainFile → n.Countable →
      maxNotificationBytes < n.encode.utf8ByteSize →
      stream.bytes = items.flatMap StreamItem.bytes ++
        (bytesOf n.encodeChars ++ lineFeed :: after) →
      ∃ limit, overrun 0 (n.encodeChars.splitOn '\n') = some limit ∧
        outcomes (items.length + 1) stream =
          items.map StreamItem.outcome ++ [.error (.lineTooLong limit)]) ∧
    (∀ {stream rest : Stream} {n : Notification}, readNotification stream = (.ok (some n), rest) →
      n.encode.utf8ByteSize ≤ maxNotificationBytes) := by
  refine ⟨outcomes_all hitems, ?_, fun h => length_le_of_readNotificationFrom (.inl rfl) h⟩
  intro stream n after hplain hcount hlong hbytes
  obtain ⟨stream', houtcomes, hrest, -⟩ := outcomes_items hitems hbytes 1
  obtain ⟨stream'', hcall, -, -⟩ := readNotification_written hcount hplain hrest
  -- A notification that is too long is not returned, so that a line of it does not fit.
  cases hover : overrun 0 (n.encodeChars.splitOn '\n') with
  | none =>
    rw [hover] at hcall
    exact absurd (length_le_of_readNotificationFrom (.inl rfl) hcall) (Nat.not_le_of_lt hlong)
  | some limit =>
    refine ⟨limit, rfl, ?_⟩
    rw [houtcomes, outcomes, outcomes, hcall, hover]
    rfl

/-- Two notifications, one of them on several lines, and between them two lines that are none. -/
def fourItems : List StreamItem :=
  [.notification (.stack [⟨"a\nb", "c:d", "é\r\n", 7⟩]), .junk [255] .invalidUtf8,
    .junk [63] (.unknownNotification "?"), .notification .terminated]

/-- A property list with a text as long as the limit. -/
def longNotification : Notification :=
  .properties [⟨String.ofList (List.replicate maxNotificationBytes 'x'), "", .user⟩]

/-- Bytes that arrive in two reads, with an interruption between them. -/
def interruptedStream (bytes : List UInt8) : Stream :=
  [.chunk (bytes.take 9).toByteArray, .interrupted, .chunk (bytes.drop 9).toByteArray]

/-- The interruption makes no difference to the bytes. -/
theorem interruptedStream_delivers (bytes : List UInt8) :
    (interruptedStream bytes).Delivers bytes := by
  refine ⟨?_, rfl⟩
  simp only [interruptedStream, Stream.bytes, List.toList_data_toByteArray, List.append_nil,
    List.take_append_drop]

/-- Its text is as long as the limit. -/
theorem length_longNotification :
    (String.ofList (List.replicate maxNotificationBytes 'x')).length = maxNotificationBytes := by
  rw [String.length_ofList, List.length_replicate]

/-- The characters of its text can be counted. -/
theorem longNotification_countable : longNotification.Countable := by
  intro p hp
  obtain rfl := List.mem_singleton.1 hp
  refine ⟨?_, by decide⟩
  rw [length_longNotification]
  decide

/-- With all that stands around the text it is longer than the limit. -/
theorem longNotification_tooLong :
    maxNotificationBytes < longNotification.encode.utf8ByteSize := by
  have htext := Notification.length_bytesOf_putText_ge
    (String.ofList (List.replicate maxNotificationBytes 'x'))
  rw [length_longNotification] at htext
  have hname : (bytesOf "PROPERTIES".toList).length = 10 := rfl
  rw [Notification.utf8ByteSize_encode, longNotification, Notification.encodeChars,
    Notification.name, Notification.fieldChars, List.flatMap_cons, PropertyRecord.encodeChars]
  simp only [bytesOf_append, List.length_append]
  omega

/-- The four items are what they are called. -/
theorem fourItems_wellFormed : ∀ item ∈ fourItems, item.WellFormed := by
  intro item hitem
  simp only [fourItems, List.mem_cons, List.not_mem_nil, or_false] at hitem
  obtain rfl | rfl | rfl | rfl := hitem
  · exact ⟨trivial, by decide⟩
  · exact ⟨by decide, by decide⟩
  · exact ⟨by decide, by decide⟩
  · exact ⟨trivial, by decide⟩

/-- What the calls return on such a stream, and what on one with a notification behind it that is
too long. -/
theorem outcomes_fourItems :
    outcomes 5 (interruptedStream (fourItems.flatMap StreamItem.bytes)) =
      [.ok (some (.stack [⟨"a\nb", "c:d", "é\r\n", 7⟩])), .error .invalidUtf8,
        .error (.unknownNotification "?"), .ok (some .terminated), .ok none] ∧
    (∃ limit, overrun 0 (longNotification.encodeChars.splitOn '\n') = some limit ∧
      outcomes 5 (interruptedStream (fourItems.flatMap StreamItem.bytes ++
        (bytesOf longNotification.encodeChars ++ [lineFeed]))) =
        fourItems.map StreamItem.outcome ++ [.error (.lineTooLong limit)]) ∧
    (Notification.stack [⟨"a\nb", "c:d", "é\r\n", 7⟩]).encode.utf8ByteSize ≤
      maxNotificationBytes := by
  have hfour := outcomes_of_delivers fourItems_wellFormed
  have hall := hfour.1 (interruptedStream_delivers _) 1
  refine ⟨hall, ?_, ?_⟩
  · exact hfour.2.1 trivial longNotification_countable longNotification_tooLong
      (interruptedStream_delivers _).1
  · exact hfour.2.2 (Prod.ext (List.cons.inj hall).1 rfl)

end BuildStepper.Wire
