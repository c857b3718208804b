import BuildStepper.Proofs.Wire.Field
import BuildStepper.Wire.Notification

/-!
# Notifications, written and read

A reader of notifications does not know where one ends before it has read it: a text may hold line
feeds. It tries after every line. So three things must hold of what is written. The whole of it is
read as the notification (`decodeChars_encodeChars`). What there is of it after an earlier line feed
is truncated, and not malformed (`decodeChars_cut`). And a notification is read from no less than it
takes to write it (`length_encodeChars_le`), so that a limit on what is read is one on what is sent.

The file of a breakpoint is written without its length. It must be plain (`Notification.PlainFile`).
-/

/-- The file of a location can be written without its length: it has a name, and no line feed. -/
structure BuildStepper.Location.PlainFile (l : BuildStepper.Location) : Prop where
  named : l.file.spelling ≠ ""
  oneLine : '\n' ∉ l.file.spelling.toList

namespace BuildStepper.Wire

/-! ## What can be written -/

/-- The texts of a frame are shorter than the longest that can be announced. -/
structure FrameRecord.Countable (f : FrameRecord) : Prop where
  target : f.target.length < countLimit
  task : f.task.length < countLimit
  file : f.file.length < countLimit

/-- The texts of a property are shorter than the longest that can be announced. -/
structure PropertyRecord.Countable (p : PropertyRecord) : Prop where
  name : p.name.length < countLimit
  value : p.value.length < countLimit

/-- Words are plain that have neither a colon nor a line end among their characters. -/
theorem plain_of_mem {words : List String}
    (hwords : (words.all fun w => w.toList.all fun c => c != delimiter && !isLineEnd c) = true)
    {word : String} (h : word ∈ words) :
    delimiter ∉ word.toList ∧ ∀ c ∈ word.toList, isLineEnd c = false := by
  have hword := List.all_eq_true.1 hwords word h
  simp only [List.all_eq_true, Bool.and_eq_true, bne_iff_ne, Bool.not_eq_true'] at hword
  exact ⟨fun hmem => (hword delimiter hmem).1 rfl, fun c hc => (hword c hc).2⟩

namespace Notification

/-- The length of every text can be announced: it fits a machine word. -/
def Countable : Notification → Prop
  | stack frames => ∀ f ∈ frames, f.Countable
  | properties entries => ∀ p ∈ entries, p.Countable
  | _ => True

/-- The file of a breakpoint, which is written as it is, can be. -/
def PlainFile : Notification → Prop
  | suspended (.breakpoint location) => location.PlainFile
  | _ => True

/-- The file of a breakpoint has a name. -/
def NamedFile : Notification → Prop
  | suspended (.breakpoint location) => location.file.spelling ≠ ""
  | _ => True

/-- A plain file has a name. -/
theorem PlainFile.namedFile {n : Notification} (h : n.PlainFile) : n.NamedFile := by
  cases n with
  | suspended reason =>
    cases reason with
    | breakpoint location => exact h.named
    | step | clientRequest => trivial
  | buildStarted | stack _ | properties _ | terminated => trivial

end Notification

/-- A frame is taken as it was written. -/
theorem FrameRecord.written {f : FrameRecord} (h : f.Countable) :
    Written FrameRecord.take f.encodeChars f := by
  rw [FrameRecord.encodeChars, List.append_assoc, List.append_assoc]
  exact (written_text .target h.target).bind ((written_text .task h.task).bind
    ((written_text .file h.file).bind ((written_line .line f.line).map fun _ => rfl)))

/-- The marker of a provenance is neither a colon nor a line feed. -/
theorem Provenance.marker_plain (p : Provenance) : delimiter ∉ [p.marker] ∧ '\n' ∉ [p.marker] := by
  cases p <;> decide

/-- A property is taken as it was written. -/
theorem PropertyRecord.written {p : PropertyRecord} (h : p.Countable) :
    Written PropertyRecord.take p.encodeChars p := by
  obtain ⟨hdelimiter, hline⟩ := p.provenance.marker_plain
  have hmarker := written_raw .provenance hdelimiter hline
  rw [PropertyRecord.encodeChars, List.append_assoc]
  refine (written_text .name h.name).bind ((written_text .value h.value).bind (hmarker.map ?_))
  intro rest
  simp only [Provenance.ofMarker?_marker]
  rfl

namespace Notification

/-- The size of a notification is the number of its bytes. -/
theorem utf8ByteSize_encode (n : Notification) :
    n.encode.utf8ByteSize = (bytesOf n.encodeChars).length :=
  (length_bytesOf n.encodeChars).symm

/-! ## The name -/

/-- There are five names of notifications. -/
theorem name_mem (n : Notification) :
    n.name ∈ ["BUILD_STARTED", "SUSPENDED", "STACK", "PROPERTIES", "TERMINATED"] := by
  cases n <;> simp [name]

/-- The names have neither the colon that ends them nor a line end. -/
theorem name_plain (n : Notification) :
    delimiter ∉ n.name.toList ∧ ∀ c ∈ n.name.toList, isLineEnd c = false :=
  plain_of_mem rfl n.name_mem

/-- None of them is empty. -/
theorem name_ne_nil (n : Notification) : n.name.toList ≠ [] := by
  rw [ne_eq, String.toList_eq_nil_iff]
  intro h
  have hmem := n.name_mem
  rw [h] at hmem
  simp at hmem

/-- None has a line feed. -/
theorem lineFeed_not_mem_name (n : Notification) : '\n' ∉ n.name.toList :=
  fun h => absurd (n.name_plain.2 _ h) (by decide)

/-- What is read behind the name of a notification. -/
def takeFields (rest : List Char) : Notification → Except WireError Notification
  | buildStarted => bare buildStarted rest
  | suspended _ => takeReason rest
  | stack _ => (takeEntries FrameRecord.take rest).map stack
  | properties _ => (takeEntries PropertyRecord.take rest).map properties
  | terminated => bare terminated rest

/-- Which notification is read, and of what, is settled by the name. -/
theorem decodeChars_of_strip {cs rest : List Char} (n : Notification)
    (hstrip : stripLineEnds cs = n.name.toList ++ rest) (hrest : AtField rest) :
    decodeChars cs = n.takeFields rest := by
  have hspan := span_append n.name_plain.1 hrest
  unfold decodeChars
  rw [hstrip]
  simp only [hspan, String.ofList_toList]
  cases n <;> rfl

/-- Line ends at the end make no difference. -/
theorem decodeChars_congr {cs ds : List Char} (h : stripLineEnds cs = stripLineEnds ds) :
    decodeChars cs = decodeChars ds := by
  unfold decodeChars
  rw [h]

/-- The fields of a notification begin with a colon, if it has any. -/
theorem fieldChars_atField {n : Notification} (h : n.Countable) : AtField n.fieldChars := by
  cases n with
  | buildStarted => exact .nil
  | suspended reason => exact .cons _
  | stack frames => exact atField_flatMap fun f hf => FrameRecord.written (h f hf)
  | properties entries => exact atField_flatMap fun p hp => PropertyRecord.written (h p hp)
  | terminated => exact .nil

end Notification

/-! ## The whole of a notification -/

/-- The last character is no line end. -/
def EndsPlain (cs : List Char) : Prop :=
  ∃ front c, cs = front ++ [c] ∧ isLineEnd c = false

/-- What is put in front makes no difference to the end. -/
theorem EndsPlain.append (cs : List Char) {ds : List Char} (h : EndsPlain ds) :
    EndsPlain (cs ++ ds) := by
  obtain ⟨front, c, rfl, hc⟩ := h
  exact ⟨cs ++ front, c, (List.append_assoc cs front [c]).symm, hc⟩

/-- With entries behind it that end with no line end, a message does not either. -/
theorem EndsPlain.append_flatMap {α : Type} {cs : List Char} (hcs : EndsPlain cs)
    {put : α → List Char} (hput : ∀ a, EndsPlain (put a)) (as : List α) :
    EndsPlain (cs ++ as.flatMap put) := by
  induction as generalizing cs with
  | nil => simpa using hcs
  | cons a as ih =>
    rw [List.flatMap_cons, ← List.append_assoc]
    exact ih ((hput a).append cs)

/-- What has no line ends does not end with one. -/
theorem EndsPlain.of_forall {cs : List Char} (hne : cs ≠ [])
    (h : ∀ c ∈ cs, isLineEnd c = false) : EndsPlain cs :=
  ⟨cs.dropLast, cs.getLast hne, (List.dropLast_concat_getLast hne).symm,
    h _ (List.getLast_mem hne)⟩

/-- Behind such a message only the line ends that follow are dropped. -/
theorem EndsPlain.stripLineEnds_append {cs ends : List Char} (h : EndsPlain cs)
    (hends : ∀ c ∈ ends, isLineEnd c = true) : stripLineEnds (cs ++ ends) = cs := by
  obtain ⟨front, c, rfl, hc⟩ := h
  rw [stripLineEnds_append_ends _ hends, stripLineEnds_append_cons hc]
  rfl

/-- So is a message without the line ends after it, if anything is left. -/
theorem endsPlain_stripLineEnds {cs : List Char} (h : stripLineEnds cs ≠ []) :
    EndsPlain (stripLineEnds cs) :=
  ⟨(stripLineEnds cs).dropLast, (stripLineEnds cs).getLast h,
    (List.dropLast_concat_getLast h).symm,
    Bool.eq_false_iff.2 (List.rdropWhile_last_not isLineEnd cs h)⟩

/-- A numeral ends with a digit, and so with no line end. -/
theorem endsPlain_isNumeral {n : Nat} {num : List Char} (h : Text.IsNumeral n num) :
    EndsPlain num := by
  obtain ⟨front, c, rfl, -⟩ := h.exists_append_digit
  exact ⟨front, c, rfl, (isNumeral_plain h).2 c (List.mem_append_right _ List.mem_cons_self)⟩

/-- So does the one that is written. -/
theorem endsPlain_numeral (n : Nat) : EndsPlain (Text.numeral n) :=
  endsPlain_isNumeral (Text.isNumeral_numeral n)

/-- The reason of a suspension ends with no line end. -/
theorem SuspendReason.endsPlain (reason : SuspendReason) : EndsPlain reason.encodeChars := by
  cases reason with
  | breakpoint location =>
    exact ((endsPlain_numeral location.line.toNat).append [delimiter]).append
      location.file.spelling.toList
  | step => exact ⟨"STE".toList, 'P', rfl, rfl⟩
  | clientRequest => exact ⟨"CLIENT_REQUES".toList, 'T', rfl, rfl⟩

/-- Nor does a frame that is written. -/
theorem FrameRecord.endsPlain (f : FrameRecord) : EndsPlain f.encodeChars :=
  ((endsPlain_numeral f.line.toNat).append [delimiter]).append _

/-- Nor does a property that is written. -/
theorem PropertyRecord.endsPlain (p : PropertyRecord) : EndsPlain p.encodeChars := by
  refine EndsPlain.append _ ⟨[delimiter], p.provenance.marker, rfl, ?_⟩
  cases p.provenance <;> rfl

/-- The reason of a suspension has no line feed, if the file of its breakpoint has none. -/
theorem SuspendReason.lineFeed_not_mem {reason : SuspendReason}
    (h : (Notification.suspended reason).PlainFile) : '\n' ∉ reason.encodeChars := by
  cases reason with
  | breakpoint location =>
    show '\n' ∉ location.idChars
    simp only [Location.idChars, List.mem_append, List.mem_cons, not_or]
    exact ⟨h.oneLine, by decide, lineFeed_not_mem_numeral _⟩
  | step => decide
  | clientRequest => decide

/-- A reason is spelled as its word; a breakpoint as its file, which has a name, and its line. -/
inductive SuspendReason.Spelling : SuspendReason → List Char → Prop
  | step : SuspendReason.Spelling .step "STEP".toList
  | clientRequest : SuspendReason.Spelling .clientRequest "CLIENT_REQUEST".toList
  | breakpoint {location : Location} {num : List Char} :
      location.file.spelling ≠ "" → Text.IsNumeral location.line.toNat num →
      SuspendReason.Spelling (.breakpoint location)
        (location.file.spelling.toList ++ delimiter :: num)

/-- A reason is read off exactly its spellings. -/
theorem SuspendReason.decodeChars_eq_ok_iff {cs : List Char} {reason : SuspendReason} :
    SuspendReason.decodeChars cs = .ok reason ↔ reason.Spelling cs := by
  constructor
  · intro h
    unfold SuspendReason.decodeChars at h
    split at h
    · next hword =>
      obtain rfl := Except.ok.inj h
      rw [hword]
      exact .step
    · split at h
      · next hword =>
        obtain rfl := Except.ok.inj h
        rw [hword]
        exact .clientRequest
      · obtain ⟨location, hlocation, rfl⟩ := map_eq_ok h
        obtain ⟨num, hnum, hnamed, rfl⟩ := readLocation_eq_ok_iff.1 hlocation
        exact .breakpoint hnamed hnum
  · intro h
    cases h with
    | step => rfl
    | clientRequest => rfl
    | @breakpoint location num hnamed hnum =>
      -- A location has a colon, and the words have none.
      have hother (word : List Char) (hword : delimiter ∉ word) :
          location.file.spelling.toList ++ delimiter :: num ≠ word := by
        rintro rfl
        exact hword List.mem_append_cons_self
      rw [decodeChars, if_neg (hother "STEP".toList (by decide)),
        if_neg (hother "CLIENT_REQUEST".toList (by decide)),
        readLocation_eq_ok_iff.2 ⟨num, hnum, hnamed, rfl⟩]
      rfl

/-- In no spelling does the reason of a suspension end with a line end. -/
theorem SuspendReason.Spelling.endsPlain {reason : SuspendReason} {cs : List Char}
    (h : reason.Spelling cs) : EndsPlain cs := by
  cases h with
  | step => exact SuspendReason.step.endsPlain
  | clientRequest => exact SuspendReason.clientRequest.endsPlain
  | breakpoint hnamed hnum => exact ((endsPlain_isNumeral hnum).append [delimiter]).append _

/-- What is written of a reason is one of its spellings. -/
theorem SuspendReason.spelling_encodeChars {reason : SuspendReason}
    (h : (Notification.suspended reason).NamedFile) : reason.Spelling reason.encodeChars := by
  cases reason with
  | breakpoint location => exact .breakpoint h (Text.isNumeral_numeral _)
  | step => exact .step
  | clientRequest => exact .clientRequest

namespace Notification

/-- A notification ends with no line end. -/
theorem endsPlain (n : Notification) : EndsPlain n.encodeChars := by
  have hname : EndsPlain n.name.toList :=
    .of_forall n.name_ne_nil n.name_plain.2
  cases n with
  | buildStarted => exact hname
  | suspended reason => exact (reason.endsPlain.append [delimiter]).append _
  | stack frames => exact hname.append_flatMap FrameRecord.endsPlain frames
  | properties entries => exact hname.append_flatMap PropertyRecord.endsPlain entries
  | terminated => exact hname

/-- The reason of a suspension is read off its one field. -/
theorem takeReason_putRaw (cs : List Char) :
    takeReason (putRaw cs) = (SuspendReason.decodeChars cs).map suspended := by
  have hcolon : takeDelimiter .reason (putRaw cs) = .ok cs := rfl
  unfold takeReason
  rw [hcolon]
  show (SuspendReason.decodeChars cs >>= fun reason => pure (suspended reason)) = _
  cases SuspendReason.decodeChars cs <;> rfl

/-- The fields of a notification are taken as they were written. -/
theorem takeFields_fieldChars {n : Notification} (hcount : n.Countable) (hplain : n.PlainFile) :
    n.takeFields n.fieldChars = .ok n := by
  cases n with
  | buildStarted => rfl
  | suspended reason =>
    have hreason := SuspendReason.spelling_encodeChars hplain.namedFile
    rw [takeFields, fieldChars, takeReason_putRaw, SuspendReason.decodeChars_eq_ok_iff.2 hreason]
    rfl
  | stack frames =>
    have hwritten : ∀ f ∈ frames, Written FrameRecord.take f.encodeChars f :=
      fun f hf => FrameRecord.written (hcount f hf)
    simp only [takeFields, fieldChars, takeEntries_flatMap rfl hwritten]
    rfl
  | properties entries =>
    have hwritten : ∀ p ∈ entries, Written PropertyRecord.take p.encodeChars p :=
      fun p hp => PropertyRecord.written (hcount p hp)
    simp only [takeFields, fieldChars, takeEntries_flatMap rfl hwritten]
    rfl
  | terminated => rfl

/-- A notification is read as it is written, whatever line ends follow. -/
theorem decodeChars_encodeChars {n : Notification} (hcount : n.Countable) (hplain : n.PlainFile)
    {ends : List Char} (hends : ∀ c ∈ ends, isLineEnd c = true) :
    decodeChars (n.encodeChars ++ ends) = .ok n := by
  have hstrip := n.endsPlain.stripLineEnds_append hends
  rw [n.decodeChars_of_strip hstrip (fieldChars_atField hcount)]
  exact takeFields_fieldChars hcount hplain

/-! ## A part of a notification -/

/-- Up to an earlier line feed, a notification is truncated. -/
theorem decodeChars_cut {n : Notification} (hcount : n.Countable) (hplain : n.PlainFile)
    {front back : List Char} (h : n.encodeChars = front ++ '\n' :: back) :
    decodeChars (front ++ ['\n']) = .error .truncated := by
  obtain ⟨more, hname⟩ | ⟨inner, hinner, hfield, hstrip⟩ :=
    cut_append (fieldChars_atField hcount) h
  · refine absurd ?_ n.lineFeed_not_mem_name
    rw [hname]
    exact List.mem_append_cons_self
  · -- The name has no line feed, so that the cut is in the fields.
    rw [← stripLineEnds_append_ends front isLineEnd_of_mem_lineFeed] at hstrip
    rw [n.decodeChars_of_strip hstrip hfield]
    have hmem : '\n' ∈ n.fieldChars := by
      rw [hinner]
      exact List.mem_append_cons_self
    cases n with
    | buildStarted => cases hmem
    | suspended reason =>
      obtain heq | hmem := List.mem_cons.1 hmem
      · exact absurd heq (by decide)
      · exact absurd hmem (SuspendReason.lineFeed_not_mem hplain)
    | stack frames =>
      have hwritten : ∀ f ∈ frames, Written FrameRecord.take f.encodeChars f :=
        fun f hf => FrameRecord.written (hcount f hf)
      rw [takeFields, takeEntries_cut rfl (by simp) hwritten hinner]
      rfl
    | properties entries =>
      have hwritten : ∀ p ∈ entries, Written PropertyRecord.take p.encodeChars p :=
        fun p hp => PropertyRecord.written (hcount p hp)
      rw [takeFields, takeEntries_cut rfl (by simp) hwritten hinner]
      rfl
    | terminated => cases hmem

/-! ## What a notification is read from -/

/-- A notification without fields is read just if nothing stands behind its name. -/
theorem bare_eq_ok_iff {m n : Notification} {rest : List Char} :
    bare m rest = .ok n ↔ n = m ∧ rest = [] := by
  cases rest with
  | nil => simp [bare, eq_comm]
  | cons c rest => simp [bare]

/-- A suspension is read off its colon and its reason. -/
theorem takeReason_eq_ok {rest : List Char} {n : Notification} (h : takeReason rest = .ok n) :
    ∃ cs reason, rest = delimiter :: cs ∧ SuspendReason.decodeChars cs = .ok reason ∧
      n = suspended reason := by
  obtain ⟨cs, hcs, h⟩ := bind_eq_ok h
  obtain ⟨reason, hreason, h⟩ := bind_eq_ok h
  exact ⟨cs, reason, takeDelimiter_eq_ok hcs, hreason, (Except.ok.inj h).symm⟩

/-- What is read stands behind its name. -/
theorem exists_takeFields {cs : List Char} {n : Notification} (h : decodeChars cs = .ok n) :
    ∃ rest, stripLineEnds cs = n.name.toList ++ rest ∧ n.takeFields rest = .ok n := by
  unfold decodeChars at h
  cases hspan : (stripLineEnds cs).span (· ≠ delimiter) with
  | mk word rest =>
    simp only [hspan] at h
    -- Every branch reads a notification of the name that it has matched.
    have hfront (m : Notification) (hword : String.ofList word = m.name) :
        stripLineEnds cs = m.name.toList ++ rest := by
      rw [← hword, String.toList_ofList, (eq_append_of_span hspan).1]
    split at h
    · next hword =>
      obtain ⟨rfl, -⟩ := bare_eq_ok_iff.1 h
      exact ⟨rest, hfront _ hword, h⟩
    · next hword =>
      obtain ⟨rfl, -⟩ := bare_eq_ok_iff.1 h
      exact ⟨rest, hfront _ hword, h⟩
    · next hword =>
      obtain ⟨cs, reason, -, -, rfl⟩ := takeReason_eq_ok h
      exact ⟨rest, hfront _ hword, h⟩
    · next hword =>
      obtain ⟨frames, -, rfl⟩ := map_eq_ok h
      exact ⟨rest, hfront _ hword, h⟩
    · next hword =>
      obtain ⟨entries, -, rfl⟩ := map_eq_ok h
      exact ⟨rest, hfront _ hword, h⟩
    · cases h

end Notification

/-- The reason of a suspension takes no more room when it is written again. -/
theorem SuspendReason.length_encodeChars_le {cs : List Char} {reason : SuspendReason}
    (h : SuspendReason.decodeChars cs = .ok reason) :
    (bytesOf reason.encodeChars).length ≤ (bytesOf cs).length := by
  cases SuspendReason.decodeChars_eq_ok_iff.1 h with
  | step | clientRequest => exact Nat.le_refl _
  | @breakpoint location num hnamed hnum =>
    have hline := length_bytesOf_numeral_le hnum
    have hid : SuspendReason.encodeChars (.breakpoint location) =
        location.file.spelling.toList ++ delimiter :: Text.numeral location.line.toNat := rfl
    rw [hid, bytesOf_append, bytesOf_append, List.length_append, List.length_append,
      length_bytesOf_delimiter, length_bytesOf_delimiter]
    omega

/-- Nor does a frame. -/
theorem FrameRecord.covers : Covers FrameRecord.take FrameRecord.encodeChars := by
  intro cs f rest h
  obtain ⟨⟨target, cs₁⟩, htarget, h⟩ := bind_eq_ok h
  obtain ⟨⟨task, cs₂⟩, htask, h⟩ := bind_eq_ok h
  obtain ⟨⟨file, cs₃⟩, hfile, h⟩ := bind_eq_ok h
  obtain ⟨⟨line, cs₄⟩, hline, h⟩ := bind_eq_ok h
  obtain ⟨rfl, rfl⟩ := Prod.mk.inj (Except.ok.inj h)
  have h₁ := covers_text .target htarget
  have h₂ := covers_text .task htask
  have h₃ := covers_text .file hfile
  have h₄ := covers_line .line hline
  simp only [FrameRecord.encodeChars, bytesOf_append, List.length_append]
  omega

/-- A provenance is read off its marker only. -/
theorem Provenance.eq_marker_of_ofMarker? {marker : List Char} {p : Provenance}
    (h : Provenance.ofMarker? marker = some p) : marker = [p.marker] := by
  unfold Provenance.ofMarker? at h
  split at h
  · obtain rfl := Option.some.inj h
    rfl
  · obtain rfl := Option.some.inj h
    rfl
  · obtain rfl := Option.some.inj h
    rfl
  · cases h

/-- A property takes no more room when it is written again. -/
theorem PropertyRecord.covers : Covers PropertyRecord.take PropertyRecord.encodeChars := by
  intro cs p rest h
  obtain ⟨⟨name, cs₁⟩, hname, h⟩ := bind_eq_ok h
  obtain ⟨⟨value, cs₂⟩, hvalue, h⟩ := bind_eq_ok h
  obtain ⟨⟨marker, cs₃⟩, hmarker, h⟩ := bind_eq_ok h
  have h₁ := covers_text .name hname
  have h₂ := covers_text .value hvalue
  have h₃ := covers_raw .provenance hmarker
  dsimp only at h
  split at h
  · next provenance hprovenance =>
    obtain ⟨rfl, rfl⟩ := Prod.mk.inj (Except.ok.inj h)
    rw [Provenance.eq_marker_of_ofMarker? hprovenance] at h₃
    simp only [PropertyRecord.encodeChars, bytesOf_append, List.length_append]
    omega
  · cases h

namespace Notification

/-- Nor do the fields of a notification. -/
theorem length_fieldChars_le {rest : List Char} {n : Notification}
    (h : n.takeFields rest = .ok n) : (bytesOf n.fieldChars).length ≤ (bytesOf rest).length := by
  have hentries {α : Type} {entry : Taker α} {put : α → List Char} (hcovers : Covers entry put)
      {as : List α} (htaken : takeEntries entry rest = .ok as) :
      (bytesOf (as.flatMap put)).length ≤ (bytesOf rest).length := by
    unfold takeEntries at htaken
    split at htaken
    · obtain rfl := Except.ok.inj htaken
      exact Nat.zero_le _
    · obtain ⟨later, rfl, hlater⟩ := takeEntriesFrom_covers hcovers htaken
      exact hlater
  cases n with
  | buildStarted => exact Nat.zero_le _
  | suspended reason =>
    obtain ⟨cs, reason', rfl, hreason, heq⟩ := takeReason_eq_ok h
    obtain rfl := Notification.suspended.inj heq
    have hle := SuspendReason.length_encodeChars_le hreason
    rw [fieldChars, putRaw, length_bytesOf_delimiter, length_bytesOf_delimiter]
    omega
  | stack frames =>
    obtain ⟨frames', hframes, heq⟩ := map_eq_ok h
    obtain rfl := Notification.stack.inj heq
    exact hentries FrameRecord.covers hframes
  | properties entries =>
    obtain ⟨entries', hentries', heq⟩ := map_eq_ok h
    obtain rfl := Notification.properties.inj heq
    exact hentries PropertyRecord.covers hentries'
  | terminated => exact Nat.zero_le _

/-- What is sent of a notification is no longer than what it is read from. -/
theorem length_encodeChars_le {cs : List Char} {n : Notification} (h : decodeChars cs = .ok n) :
    (bytesOf n.encodeChars).length ≤ (bytesOf (stripLineEnds cs)).length := by
  obtain ⟨rest, hstrip, hfields⟩ := exists_takeFields h
  have hle := length_fieldChars_le hfields
  rw [hstrip, encodeChars, bytesOf_append, bytesOf_append, List.length_append, List.length_append]
  omega

/-! ## Texts that are not too long -/

/-- A text takes a byte for each of its characters at least. -/
theorem length_bytesOf_putText_ge (text : String) :
    text.length ≤ (bytesOf (putText text)).length := by
  have hchars := length_le_length_bytesOf text.toList
  rw [String.length_toList] at hchars
  rw [putText_eq, bytesOf_append, List.length_append, length_bytesOf_delimiter]
  omega

/-- The texts of a notification that is not too long can be announced. -/
theorem countable_of_length_lt {n : Notification}
    (h : (bytesOf n.encodeChars).length < countLimit) :
    n.Countable := by
  rw [encodeChars, bytesOf_append, List.length_append] at h
  have hentry {α : Type} {put : α → List Char} {a : α} {as : List α} (ha : a ∈ as)
      (hlength : (bytesOf (as.flatMap put)).length < countLimit) :
      (bytesOf (put a)).length < countLimit := by
    obtain ⟨before, after, rfl⟩ := List.append_of_mem ha
    simp only [List.flatMap_append, List.flatMap_cons, bytesOf_append, List.length_append]
      at hlength
    omega
  have htext {text : String} (htext : (bytesOf (putText text)).length < countLimit) :
      text.length < countLimit :=
    Nat.lt_of_le_of_lt (length_bytesOf_putText_ge text) htext
  cases n with
  | stack frames =>
    intro f hf
    have hf := hentry hf (Nat.lt_of_le_of_lt (Nat.le_add_left _ _) h)
    simp only [FrameRecord.encodeChars, bytesOf_append, List.length_append] at hf
    exact ⟨htext (by omega), htext (by omega), htext (by omega)⟩
  | properties entries =>
    intro p hp
    have hp := hentry hp (Nat.lt_of_le_of_lt (Nat.le_add_left _ _) h)
    simp only [PropertyRecord.encodeChars, bytesOf_append, List.length_append] at hp
    exact ⟨htext (by omega), htext (by omega)⟩
  | buildStarted | suspended _ | terminated => trivial

end Notification

end BuildStepper.Wire
