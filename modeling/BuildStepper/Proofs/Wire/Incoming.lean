import BuildStepper.Proofs.Wire.Notification
import BuildStepper.Wire.Inbox

/-!
# Notifications off a stream

A call of `readNotification` joins lines until they can be read. Where a notification was written,
this happens at its last line and not before (`readNotificationFrom_written`), since up to an
earlier line feed it is truncated. Every line may take what the lines before it have left of the
limit, so the call fails at the first line that does not fit (`overrun`).

What is returned was not too long (`length_le_of_readNotificationFrom`), whatever the stream is. The
limit is looked at line by line, and not where the message is complete: so the proof follows the
call, from one unfinished message to the next.
-/

namespace BuildStepper.Wire

/-! ## One line of a notification -/

/-- What a call does with one more line. -/
theorem readNotificationFrom_eq (message : String) (stream : Stream) :
    readNotificationFrom message stream =
      match readLine (maxNotificationBytes - message.utf8ByteSize) stream with
      | (.error e, rest) => (.error e, rest)
      | (.ok none, rest) => (if message.isEmpty then .ok none else .error .truncated, rest)
      | (.ok (some line), rest) =>
        match Notification.decode (message ++ line) with
        | .ok notification => (.ok (some notification), rest)
        | .error .truncated =>
          if line.toList.getLast? = some '\n' then readNotificationFrom (message ++ line) rest
          else (.error .truncated, rest)
        | .error e => (.error e, rest) := by
  rw [readNotificationFrom]
  split
  · next h => simp only [h]
  · next h => simp only [h]
  · next line rest h =>
    cases hdecode : Notification.decode (message ++ line) with
    | ok n => simp only [h, hdecode]
    | error e => cases e <;> simp only [h, hdecode]

/-- What a call does with a whole line behind the characters it has. -/
theorem readNotificationFrom_line (front : List Char) {line : List Char} (hline : '\n' ∉ line)
    {stream : Stream} {rest : List UInt8}
    (hbytes : stream.bytes = bytesOf line ++ lineFeed :: rest) :
    ∃ stream', stream'.bytes = rest ∧ stream'.behind = stream.behind ∧
      readNotificationFrom (String.ofList front) stream =
        if maxNotificationBytes - (bytesOf front).length < (bytesOf line).length then
          (.error (.lineTooLong (maxNotificationBytes - (bytesOf front).length)), stream')
        else
          match Notification.decodeChars (front ++ line ++ ['\n']) with
          | .ok n => (.ok (some n), stream')
          | .error .truncated =>
            readNotificationFrom (String.ofList (front ++ line ++ ['\n'])) stream'
          | .error e => (.error e, stream') := by
  obtain ⟨stream', hread, hrest, hbehind⟩ :=
    readLine_chars (maxNotificationBytes - (bytesOf front).length) hline hbytes
  refine ⟨stream', hrest, hbehind, ?_⟩
  have hmessage : String.ofList front ++ String.ofList (line ++ ['\n']) =
      String.ofList (front ++ line ++ ['\n']) := by
    rw [← String.ofList_append, List.append_assoc]
  rw [readNotificationFrom_eq, ← length_bytesOf, hread]
  by_cases hfits : maxNotificationBytes - (bytesOf front).length < (bytesOf line).length
  · rw [if_pos hfits, if_pos hfits]
  · rw [if_neg hfits, if_neg hfits]
    simp only [hmessage, Notification.decode, String.toList_ofList, List.getLast?_concat, if_true]

/-- What the first line that does not fit may take, if there is one; `read` bytes come before these
lines. -/
def overrun (read : Nat) : List (List Char) → Option Nat
  | [] => none
  | line :: lines =>
    if maxNotificationBytes - read < (bytesOf line).length then some (maxNotificationBytes - read)
    else overrun (read + (bytesOf line).length + 1) lines

/-- What comes of lines of which the first one that does not fit is known. -/
def outcomeOf (n : Notification) : Option Nat → Except WireError (Option Notification)
  | none => .ok (some n)
  | some limit => .error (.lineTooLong limit)

/-- A notification that was written is read, unless a line of it does not fit. -/
theorem readNotificationFrom_written {n : Notification} (hcount : n.Countable)
    (hplain : n.PlainFile) {front back : List Char} (h : n.encodeChars = front ++ back)
    {stream : Stream} {rest : List UInt8}
    (hbytes : stream.bytes = bytesOf back ++ lineFeed :: rest) :
    ∃ stream', readNotificationFrom (String.ofList front) stream =
        (outcomeOf n (overrun (bytesOf front).length (back.splitOn '\n')), stream') ∧
      stream'.behind = stream.behind ∧
      (overrun (bytesOf front).length (back.splitOn '\n') = none → stream'.bytes = rest) := by
  induction hlength : back.length using Nat.strong_induction_on generalizing front back stream with
  | _ length ih =>
  by_cases hmem : '\n' ∈ back
  · -- The first line behind `front` is an inner one, and the message is truncated behind it.
    obtain ⟨line, later, rfl, hline⟩ := List.eq_append_cons_of_mem hmem
    have hsplit : stream.bytes =
        bytesOf line ++ lineFeed :: (bytesOf later ++ lineFeed :: rest) := by
      rw [hbytes, bytesOf_append, List.append_assoc]
      rfl
    obtain ⟨stream', hrest, hbehind, hcall⟩ := readNotificationFrom_line front hline hsplit
    have hcut := Notification.decodeChars_cut hcount hplain
      (by rw [h, List.append_assoc] : n.encodeChars = (front ++ line) ++ '\n' :: later)
    rw [hcall, hcut, List.splitOn_append_cons_self_of_not_mem hline, overrun]
    split
    · exact ⟨stream', rfl, hbehind, fun hnone => by cases hnone⟩
    · have hwhole : n.encodeChars = (front ++ line ++ ['\n']) ++ later := by
        rw [h]
        simp
      have hshorter : later.length < length := by
        rw [← hlength, List.length_append, List.length_cons]
        omega
      have hread : (bytesOf (front ++ line ++ ['\n'])).length =
          (bytesOf front).length + (bytesOf line).length + 1 := by
        simp only [bytesOf_append, bytesOf_lineFeed, List.length_append, List.length_singleton]
      obtain ⟨stream'', hlater, hbehind', hnone⟩ := ih later.length hshorter hwhole hrest rfl
      rw [hread] at hlater hnone
      exact ⟨stream'', hlater, hbehind'.trans hbehind, hnone⟩
  · -- All that is left is the last line, which completes the message.
    obtain ⟨stream', hrest, hbehind, hcall⟩ := readNotificationFrom_line front hmem hbytes
    have hwhole :=
      Notification.decodeChars_encodeChars hcount hplain isLineEnd_of_mem_lineFeed
    rw [hcall, ← h, hwhole, List.splitOn_eq_singleton hmem, overrun, overrun]
    split
    · exact ⟨stream', rfl, hbehind, fun hnone => by cases hnone⟩
    · exact ⟨stream', rfl, hbehind, fun _ => hrest⟩

/-- The lines of what is not too long fit. -/
theorem overrun_splitOn_eq_none {cs : List Char} {read : Nat}
    (h : read + (bytesOf cs).length ≤ maxNotificationBytes) :
    overrun read (cs.splitOn '\n') = none := by
  induction hlength : cs.length using Nat.strong_induction_on generalizing cs read with
  | _ length ih =>
  by_cases hmem : '\n' ∈ cs
  · obtain ⟨line, later, rfl, hline⟩ := List.eq_append_cons_of_mem hmem
    have hbytes : (bytesOf (line ++ '\n' :: later)).length =
        (bytesOf line).length + 1 + (bytesOf later).length := by
      rw [bytesOf_append, List.length_append, Nat.add_assoc, Nat.add_comm 1]
      rfl
    have hshorter : later.length < length := by
      rw [← hlength, List.length_append, List.length_cons]
      omega
    rw [List.splitOn_append_cons_self_of_not_mem hline, overrun, if_neg (by omega)]
    exact ih later.length hshorter (by omega) rfl
  · rw [List.splitOn_eq_singleton hmem, overrun, overrun, if_neg (by omega)]

/-! ## What is never returned -/

/-- A call reads on behind this message: there is nothing of it yet, or it is truncated at the end
of a line. -/
def Unfinished (message : String) : Prop :=
  message = "" ∨
    Notification.decode message = .error .truncated ∧ message.toList.getLast? = some '\n'

/-- What a line completes is no longer than the limit. -/
theorem length_stripLineEnds_le {message line : String} {stream rest : Stream}
    (hread : readLine (maxNotificationBytes - message.utf8ByteSize) stream =
      (.ok (some line), rest))
    (hopen : Unfinished message) {n : Notification}
    (hdecode : Notification.decode (message ++ line) = .ok n) :
    (bytesOf (stripLineEnds (message ++ line).toList)).length ≤ maxNotificationBytes := by
  have hmessage := utf8ByteSize_eq message
  obtain ⟨cs, ending, hline, -, hlong, -, hending⟩ := readLine_eq_ok hread
  have hstrip : stripLineEnds (message ++ line).toList = stripLineEnds (message.toList ++ cs) := by
    rw [String.toList_append, hline, ← List.append_assoc,
      stripLineEnds_append_ends _ (isLineEnd_of_mem_ending hending)]
  rw [hstrip]
  by_cases hfull : maxNotificationBytes < message.utf8ByteSize
  · -- The line is empty, and behind a truncated message it completes nothing.
    have hcs : cs = [] := by
      have hchars := length_le_length_bytesOf cs
      exact List.length_eq_zero_iff.1 (by omega)
    obtain rfl | ⟨htruncated, -⟩ := hopen
    · exact absurd hfull (by decide)
    · have hsame : Notification.decode (message ++ line) = Notification.decode message := by
        rw [Notification.decode, Notification.decode, Notification.decodeChars,
          Notification.decodeChars, hstrip, hcs, List.append_nil]
      rw [hsame, htruncated] at hdecode
      cases hdecode
  · obtain ⟨dropped, hsplit⟩ := stripLineEnds_prefixOf (message.toList ++ cs)
    have hbytes := congrArg (fun ds => (bytesOf ds).length) hsplit
    simp only [bytesOf_append, List.length_append] at hbytes
    omega

/-- A notification that is too long is not returned. -/
theorem length_le_of_readNotificationFrom {message : String} {stream rest : Stream}
    {n : Notification} (hopen : Unfinished message)
    (h : readNotificationFrom message stream = (.ok (some n), rest)) :
    n.encode.utf8ByteSize ≤ maxNotificationBytes := by
  induction hsize : stream.size using Nat.strong_induction_on generalizing message stream with
  | _ size ih =>
  rw [readNotificationFrom_eq] at h
  split at h
  · cases h
  · split at h
    · cases h
    · cases h
  · next line rest' hread =>
    split at h
    · next n' hdecode =>
      obtain ⟨heq, -⟩ := Prod.mk.inj h
      obtain rfl := Option.some.inj (Except.ok.inj heq)
      have hshort := Notification.length_encodeChars_le hdecode
      rw [Notification.utf8ByteSize_encode]
      exact Nat.le_trans hshort (length_stripLineEnds_le hread hopen hdecode)
    · next htruncated =>
      split at h
      · next hlast =>
        -- The call goes on behind an unfinished message, on a stream that is shorter by the line.
        have hmore : Unfinished (message ++ line) := by
          refine .inr ⟨htruncated, ?_⟩
          rw [String.toList_append, List.getLast?_append, hlast]
          rfl
        exact ih rest'.size (hsize ▸ size_lt_of_readLine hread) hmore h rfl
      · cases h
    · cases h

end BuildStepper.Wire
