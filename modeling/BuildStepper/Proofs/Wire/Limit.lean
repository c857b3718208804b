import BuildStepper.Proofs.Wire.Incoming

/-!
# The limit on a notification

`Joined` says what a call of `readNotification` has joined of a stream when it goes on to read.
Every line may take what the lines before it have left of the limit, but what ends a line is not
counted where it is read (`within_or_empty`). So a message can reach the limit and one line end; and
from there on an empty line still fits, since it takes nothing. A message is longer than the limit
and one line end only by empty lines (`Joined.eq_append_replicate`), of which there may be any
number (`Joined.lineFeeds`).
-/

namespace BuildStepper.Wire

/-! ## What a call has joined -/

/-- A call on `stream` has joined the lines of `message`, and `rest` is behind them. -/
inductive Joined (stream : Stream) : String → Stream → Prop
  /-- It begins with nothing. -/
  | start : Joined stream "" stream
  /-- It reads on behind an unfinished message, and may take what that leaves of the limit. -/
  | line {message line : String} {rest rest' : Stream} (hjoined : Joined stream message rest)
      (hopen : Unfinished message)
      (hread : readLine (maxNotificationBytes - message.utf8ByteSize) rest =
        (.ok (some line), rest')) :
      Joined stream (message ++ line) rest'

variable {stream rest : Stream} {message : String}

/-- What a call comes to is settled by what it has joined and by what is behind that. -/
theorem Joined.readNotification_eq (h : Joined stream message rest) (hopen : Unfinished message) :
    readNotification stream = readNotificationFrom message rest := by
  induction h with
  | start => rfl
  | @line message line rest rest' hjoined hfirst hread ih =>
    obtain ⟨cs, ending, hline, -, -, -, hending⟩ := readLine_eq_ok hread
    have hne : line.toList ≠ [] := by
      rw [hline]
      obtain rfl | ⟨rfl, hcs⟩ := hending
      · simp
      · simpa using hcs
    -- The message has a line, so that it is not unfinished for being empty.
    obtain hempty | ⟨htruncated, hlast⟩ := hopen
    · have hnil := congrArg String.toList hempty
      rw [String.toList_append] at hnil
      exact absurd (List.append_eq_nil_iff.1 hnil).2 hne
    · rw [String.toList_append, List.getLast?_append_of_ne_nil _ hne] at hlast
      rw [ih hfirst, readNotificationFrom_eq, hread]
      simp only [htruncated, hlast, if_true]

/-- One more line keeps to the limit and one line end or, where nothing is left of the limit, it is
empty. -/
theorem within_or_empty {line : String} {rest' : Stream}
    (hread : readLine (maxNotificationBytes - message.utf8ByteSize) rest =
      (.ok (some line), rest')) :
    (message ++ line).utf8ByteSize ≤ maxNotificationBytes + 1 ∨
      maxNotificationBytes < message.utf8ByteSize ∧ line.toList = ['\n'] ∧
        rest.bytes = lineFeed :: rest'.bytes := by
  obtain ⟨cs, ending, hline, -, hlong, hbytes, hending⟩ := readLine_eq_ok hread
  by_cases hroom : message.utf8ByteSize ≤ maxNotificationBytes
  · left
    have hend : (bytesOf ending).length ≤ 1 := by
      obtain rfl | ⟨rfl, -⟩ := hending
      · exact Nat.le_refl 1
      · exact Nat.zero_le 1
    calc (message ++ line).utf8ByteSize
        = message.utf8ByteSize + line.utf8ByteSize := String.utf8ByteSize_append
      _ = message.utf8ByteSize + ((bytesOf cs).length + (bytesOf ending).length) := by
        rw [utf8ByteSize_eq line, hline, bytesOf_append, List.length_append]
      _ ≤ maxNotificationBytes + 1 := by omega
  · -- There is room for no character, so that only a line feed is left to read.
    right
    have hcs : cs = [] := by
      have hchars := length_le_length_bytesOf cs
      exact List.length_eq_zero_iff.1 (by omega)
    subst hcs
    obtain rfl | ⟨-, hne⟩ := hending
    · exact ⟨Nat.lt_of_not_le hroom, hline, hbytes⟩
    · exact absurd rfl hne

/-- A message is longer than the limit and one line end only by empty lines behind them. -/
theorem Joined.eq_append_replicate (h : Joined stream message rest) :
    ∃ body k, message.toList = body ++ List.replicate k '\n' ∧
      (bytesOf body).length ≤ maxNotificationBytes + 1 ∧
      (k ≠ 0 → (bytesOf body).length = maxNotificationBytes + 1) := by
  induction h with
  | start => exact ⟨[], 0, rfl, Nat.zero_le _, fun hk => absurd rfl hk⟩
  | @line message line rest rest' hjoined hopen hread ih =>
    obtain ⟨body, k, hmessage, hbound, hfull⟩ := ih
    obtain hwithin | ⟨hover, hline, -⟩ := within_or_empty hread
    · rw [utf8ByteSize_eq] at hwithin
      exact ⟨(message ++ line).toList, 0, (List.append_nil _).symm, hwithin,
        fun hk => absurd rfl hk⟩
    · refine ⟨body, k + 1, ?_, hbound, fun _ => ?_⟩
      · rw [String.toList_append, hmessage, hline, List.replicate_succ', List.append_assoc]
      · by_cases hk : k = 0
        · subst hk
          rw [utf8ByteSize_eq, hmessage, List.replicate_zero, List.append_nil] at hover
          omega
        · exact hfull hk

/-- Behind a message that has reached the limit, a line that is not empty makes the call fail. -/
theorem Joined.fails (h : Joined stream message rest) (hopen : Unfinished message)
    (hfull : maxNotificationBytes ≤ message.utf8ByteSize) {line more : List UInt8}
    (hline : lineFeed ∉ line) (hne : line ≠ []) (hbytes : rest.bytes = line ++ lineFeed :: more) :
    (readNotification stream).1 = .error (.lineTooLong 0) := by
  have hroom : maxNotificationBytes - message.utf8ByteSize = 0 := Nat.sub_eq_zero_of_le hfull
  obtain ⟨rest', hread, -, -⟩ := readLine_line 0 hline hbytes
  rw [lineOutcome, if_pos (List.length_pos_iff.2 hne)] at hread
  rw [h.readNotification_eq hopen, readNotificationFrom_eq, hroom, hread]

/-! ## Empty lines -/

/-- An empty line completes no message. -/
theorem unfinished_append_lineFeed (hopen : Unfinished message) (hne : message ≠ "") :
    Unfinished (message ++ String.ofList ['\n']) := by
  obtain hempty | ⟨htruncated, -⟩ := hopen
  · exact absurd hempty hne
  · refine .inr ⟨?_, ?_⟩
    · rw [← htruncated, Notification.decode, Notification.decode, Notification.decodeChars,
        Notification.decodeChars, String.toList_append, String.toList_ofList,
        stripLineEnds_append_ends _ isLineEnd_of_mem_lineFeed]
    · rw [String.toList_append, String.toList_ofList, List.getLast?_concat]

/-- Where a message has reached the limit, a call joins as many empty lines as follow it. -/
theorem Joined.lineFeeds (h : Joined stream message rest) (hopen : Unfinished message)
    (hfull : maxNotificationBytes ≤ message.utf8ByteSize) {k : Nat} {more : List UInt8}
    (hbytes : rest.bytes = List.replicate k lineFeed ++ more) :
    ∃ rest', Joined stream (message ++ String.ofList (List.replicate k '\n')) rest' ∧
      Unfinished (message ++ String.ofList (List.replicate k '\n')) ∧ rest'.bytes = more := by
  induction k generalizing message rest with
  | zero =>
    have hnone : message ++ String.ofList (List.replicate 0 '\n') = message := String.append_empty
    rw [hnone]
    exact ⟨rest, h, hopen, hbytes⟩
  | succ k ih =>
    have hroom : maxNotificationBytes - message.utf8ByteSize = 0 := Nat.sub_eq_zero_of_le hfull
    have hne : message ≠ "" := by
      rintro rfl
      exact absurd hfull (by decide)
    -- Nothing is left of the limit, and an empty line takes nothing.
    have hempty : '\n' ∉ [] := List.not_mem_nil
    obtain ⟨rest', hread, hmore, -⟩ := readLine_chars 0 hempty hbytes
    have hfits : ¬ 0 < (bytesOf []).length := Nat.lt_irrefl 0
    rw [if_neg hfits, ← hroom, List.nil_append] at hread
    have hgrown : maxNotificationBytes ≤ (message ++ String.ofList ['\n']).utf8ByteSize := by
      rw [String.utf8ByteSize_append]
      omega
    have hall : message ++ String.ofList ['\n'] ++ String.ofList (List.replicate k '\n') =
        message ++ String.ofList (List.replicate (k + 1) '\n') := by
      rw [String.append_assoc, ← String.ofList_append, List.replicate_succ, List.singleton_append]
    rw [← hall]
    exact ih (h.line hopen hread) (unfinished_append_lineFeed hopen hne) hgrown hmore

/-- The beginning of a property list: all but the last of `count + 1` characters of a text. -/
def openValue (count : Nat) : List Char :=
  "PROPERTIES:1:a:".toList ++ (Text.numeral (count + 1) ++ delimiter :: List.replicate count 'x')

/-- There is no line feed in it. -/
theorem lineFeed_not_mem_openValue (count : Nat) : '\n' ∉ openValue count := by
  have hname : '\n' ∉ "PROPERTIES:1:a:".toList := by decide
  have hvalue : '\n' ∉ List.replicate count 'x' := fun h =>
    absurd (List.eq_of_mem_replicate h) (by decide)
  unfold openValue
  simp only [List.mem_append, List.mem_cons, not_or]
  exact ⟨hname, lineFeed_not_mem_numeral _, by decide, hvalue⟩

/-- A text of which the last character is missing is truncated. -/
theorem decodeChars_openValue {count : Nat} (h : count + 1 < countLimit) :
    Notification.decodeChars (openValue count ++ ['\n']) = .error .truncated := by
  have hlength : (String.ofList (List.replicate count 'x' ++ ['\n'])).length = count + 1 := by
    rw [String.length_ofList, List.length_append, List.length_replicate]
    rfl
  have hcount : (Notification.properties
      [⟨"a", String.ofList (List.replicate count 'x' ++ ['\n']), .system⟩]).Countable := by
    intro p hp
    obtain rfl := List.mem_singleton.1 hp
    exact ⟨(by decide : "a".length < countLimit), hlength.trans_lt h⟩
  have hwritten : (Notification.properties
      [⟨"a", String.ofList (List.replicate count 'x' ++ ['\n']), .system⟩]).encodeChars =
        openValue count ++ '\n' :: putRaw ['S'] := by
    have hname : "PROPERTIES:1:a:".toList = "PROPERTIES".toList ++ putText "a" ++ [delimiter] := rfl
    unfold openValue
    rw [hname]
    simp only [Notification.encodeChars, Notification.name, Notification.fieldChars,
      PropertyRecord.encodeChars, Provenance.marker, putText_eq _, hlength, putRaw,
      List.flatMap_cons, List.flatMap_nil, String.toList_ofList, List.append_assoc,
      List.cons_append, List.nil_append, List.append_nil]
  exact Notification.decodeChars_cut hcount trivial hwritten

/-- With this many characters of the text, the beginning is as long as the limit. -/
def fullCount : Nat := 16777192

/-- With that many characters the limit is just reached. -/
theorem length_openValue_fullCount :
    (bytesOf (openValue fullCount)).length = maxNotificationBytes := by
  have hname : (bytesOf "PROPERTIES:1:a:".toList).length = 15 := rfl
  have hnumeral : (Text.numeral (fullCount + 1)).length = 8 := rfl
  have hone : 'x'.utf8Size = 1 := rfl
  unfold openValue
  rw [bytesOf_append, bytesOf_append, List.length_append, List.length_append,
    length_bytesOf_delimiter, length_bytesOf_numeral, length_bytesOf_replicate, hname, hnumeral,
    hone]
  rfl

/-- A stream with so much of a property list that the limit is reached, a line end, `k` empty lines
and then more. -/
def fullStream (k : Nat) (more : List UInt8) : Stream :=
  [.chunk (bytesOf (openValue fullCount) ++
    lineFeed :: (List.replicate k lineFeed ++ more)).toByteArray]

/-- The call joins as many empty lines as there are, beyond any length. -/
theorem joined_fullStream (k : Nat) (more : List UInt8) :
    ∃ message rest, Joined (fullStream k more) message rest ∧ Unfinished message ∧
      message.utf8ByteSize = maxNotificationBytes + 1 + k ∧ rest.bytes = more := by
  have hbytes : (fullStream k more).bytes = bytesOf (openValue fullCount) ++
      lineFeed :: (List.replicate k lineFeed ++ more) := by
    rw [fullStream, Stream.bytes, List.toList_data_toByteArray, Stream.bytes, List.append_nil]
  -- The first line takes all of the limit.
  obtain ⟨rest, hread, hrest, -⟩ := readLine_chars maxNotificationBytes
    (lineFeed_not_mem_openValue fullCount) hbytes
  rw [length_openValue_fullCount, if_neg (Nat.lt_irrefl _)] at hread
  have hjoined := Joined.start.line (.inl rfl) hread
  rw [String.empty_append] at hjoined
  have hsize : (String.ofList (openValue fullCount ++ ['\n'])).utf8ByteSize =
      maxNotificationBytes + 1 := by
    rw [← length_bytesOf, bytesOf_append, List.length_append, length_openValue_fullCount]
    rfl
  have hopen : Unfinished (String.ofList (openValue fullCount ++ ['\n'])) := by
    have hcount : fullCount + 1 < countLimit := by decide
    refine .inr ⟨?_, ?_⟩
    · rw [Notification.decode, String.toList_ofList, decodeChars_openValue hcount]
    · rw [String.toList_ofList, List.getLast?_concat]
  -- The empty lines behind it do not count.
  have hfull : maxNotificationBytes ≤
      (String.ofList (openValue fullCount ++ ['\n'])).utf8ByteSize := by
    rw [hsize]
    exact Nat.le_succ _
  obtain ⟨rest', hall, hopen', hmore⟩ := hjoined.lineFeeds hopen hfull hrest
  refine ⟨_, rest', hall, hopen', ?_, hmore⟩
  have hone : '\n'.utf8Size = 1 := rfl
  rw [String.utf8ByteSize_append, hsize, ← length_bytesOf, length_bytesOf_replicate, hone,
    Nat.mul_one]

/-! ## What the limit is worth -/

/-- A call joins at most the limit and one line end, unless just so much is an unfinished message
with an empty line behind it. Behind a message that has reached the limit, any line that is not
empty makes the call fail. -/
theorem notification_limit (stream : Stream) :
    ((∀ {message rest}, Joined stream message rest →
        message.utf8ByteSize ≤ maxNotificationBytes + 1) ↔
      ¬ ∃ message rest more, Joined stream message rest ∧ Unfinished message ∧
        message.utf8ByteSize = maxNotificationBytes + 1 ∧ rest.bytes = lineFeed :: more) ∧
    ∀ {message rest line more}, Joined stream message rest → Unfinished message →
      maxNotificationBytes ≤ message.utf8ByteSize → lineFeed ∉ line → line ≠ [] →
        rest.bytes = line ++ lineFeed :: more →
          (readNotification stream).1 = .error (.lineTooLong 0) := by
  refine ⟨⟨?_, ?_⟩, fun h hopen hfull hline hne => h.fails hopen hfull hline hne⟩
  · rintro hbound ⟨message, rest, more, hjoined, hopen, hsize, hbytes⟩
    have hfull : maxNotificationBytes ≤ message.utf8ByteSize := by omega
    have hone : rest.bytes = List.replicate 1 lineFeed ++ more := hbytes
    obtain ⟨rest', hlonger, -, -⟩ := hjoined.lineFeeds hopen hfull hone
    have hle := hbound hlonger
    rw [String.utf8ByteSize_append, hsize] at hle
    exact absurd hle (by decide)
  · intro hnone message rest hjoined
    induction hjoined with
    | start => exact Nat.zero_le _
    | @line message line rest rest' hjoined hopen hread ih =>
      -- Only an empty line goes beyond the bound, and the message before it is just so long.
      obtain hwithin | ⟨hover, -, hbytes⟩ := within_or_empty hread
      · exact hwithin
      · exact absurd ⟨message, rest, rest'.bytes, hjoined, hopen, by omega, hbytes⟩ hnone

/-- Three empty lines are joined beyond the limit and its line end, before a letter is refused. -/
theorem fullStream_three : ∃ message rest, Joined (fullStream 3 [84, lineFeed]) message rest ∧
    message.utf8ByteSize = maxNotificationBytes + 4 ∧
    (∃ message rest more, Joined (fullStream 3 [84, lineFeed]) message rest ∧ Unfinished message ∧
      message.utf8ByteSize = maxNotificationBytes + 1 ∧ rest.bytes = lineFeed :: more) ∧
    (readNotification (fullStream 3 [84, lineFeed])).1 = .error (.lineTooLong 0) := by
  obtain ⟨message, rest, hjoined, hopen, hsize, hrest⟩ := joined_fullStream 3 [84, lineFeed]
  obtain ⟨hbound, hfails⟩ := notification_limit (fullStream 3 [84, lineFeed])
  have hfull : maxNotificationBytes ≤ message.utf8ByteSize := by omega
  have hline : rest.bytes = [84] ++ lineFeed :: [] := hrest
  refine ⟨message, rest, hjoined, hsize, ?_,
    hfails hjoined hopen hfull (by decide) (by decide) hline⟩
  by_contra hnone
  have hle := hbound.2 hnone hjoined
  omega

end BuildStepper.Wire
