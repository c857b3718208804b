import BuildStepper.Proofs.Wire.Notification

/-!
# The grammar of notifications

Which messages are read as which notification, told without the reader. A notification has several
spellings (`Notification.Spelling`): a number in it may have a plus sign and zeros in front, and an
empty list may be written as a lone colon. A message is read as a notification exactly if it is one
of its spellings with line ends behind it (`Notification.decode_grammar`).

A text field tells how long it is. So it is taken off the front of a message whatever it holds and
whatever follows (`takeText_eq_ok_iff_textField`), and a message has one reading although its texts
may look like fields. The file of a breakpoint does not tell its length; it ends at the last colon.
-/

namespace BuildStepper.Wire

variable {α : Type}

/-! ## Fields -/

/-- A text field: a colon, a numeral for the number of characters, a colon, and the characters. -/
def TextField (text : String) (cs : List Char) : Prop :=
  ∃ num, Text.IsNumeral text.length num ∧ text.length < countLimit ∧
    cs = delimiter :: num ++ delimiter :: text.toList

/-- A line field: a colon and a numeral for the line. -/
def LineField (line : UInt32) (cs : List Char) : Prop :=
  ∃ num, Text.IsNumeral line.toNat num ∧ cs = delimiter :: num

/-- What is spelled of a list, one after the other. -/
inductive Listed (spells : α → List Char → Prop) : List α → List Char → Prop
  | nil : Listed spells [] []
  | cons {a : α} {as : List α} {cs ds : List Char} :
      spells a cs → Listed spells as ds → Listed spells (a :: as) (cs ++ ds)

/-- A text begins with a colon. -/
theorem TextField.starts {text : String} {cs : List Char} (h : TextField text cs) :
    ∃ body, cs = delimiter :: body := by
  obtain ⟨num, -, -, rfl⟩ := h
  exact ⟨_, rfl⟩

/-- A text that is written is one. -/
theorem textField_putText {text : String} (h : text.length < countLimit) :
    TextField text (putText text) :=
  ⟨Text.numeral text.length, Text.isNumeral_numeral _, h, rfl⟩

/-- A line number that is written is one. -/
theorem lineField_putLine (line : UInt32) : LineField line (putLine line) :=
  ⟨Text.numeral line.toNat, Text.isNumeral_numeral _, rfl⟩

/-- A text is taken off exactly what begins with one of its fields. -/
theorem takeText_eq_ok_iff_textField {field : Field} {cs rest : List Char} {text : String} :
    takeText field cs = .ok (text, rest) ↔ ∃ front, TextField text front ∧ cs = front ++ rest := by
  rw [takeText_eq_ok_iff]
  constructor
  · rintro ⟨num, hnum, hlimit, rfl⟩
    exact ⟨_, ⟨num, hnum, hlimit, rfl⟩, by simp [putRaw]⟩
  · rintro ⟨front, ⟨num, hnum, hlimit, rfl⟩, rfl⟩
    exact ⟨num, hnum, hlimit, by simp [putRaw]⟩

/-- A text is taken in any spelling, whatever stands behind it. -/
theorem TextField.taken {text : String} {front : List Char} (h : TextField text front)
    (field : Field) (rest : List Char) : takeText field (front ++ rest) = .ok (text, rest) :=
  takeText_eq_ok_iff_textField.2 ⟨front, h, rfl⟩

/-- A line is taken off exactly what begins with one of its fields, if nothing or a field
follows. -/
theorem takeLine_eq_ok_iff_lineField {field : Field} {cs rest : List Char} {line : UInt32} :
    takeLine field cs = .ok (line, rest) ↔
      ∃ front, LineField line front ∧ cs = front ++ rest ∧ AtField rest := by
  rw [takeLine_eq_ok_iff]
  constructor
  · rintro ⟨num, hnum, rfl, hrest⟩
    exact ⟨_, ⟨num, hnum, rfl⟩, rfl, hrest⟩
  · rintro ⟨front, ⟨num, hnum, rfl⟩, rfl, hrest⟩
    exact ⟨num, hnum, rfl, hrest⟩

/-- So is a line number, with a field behind it or nothing. -/
theorem LineField.taken {line : UInt32} {front : List Char} (h : LineField line front)
    (field : Field) {rest : List Char} (hrest : AtField rest) :
    takeLine field (front ++ rest) = .ok (line, rest) :=
  takeLine_eq_ok_iff_lineField.2 ⟨front, h, rfl, hrest⟩

/-- A line number ends with no line end. -/
theorem LineField.endsPlain {line : UInt32} {cs : List Char} (h : LineField line cs) :
    EndsPlain cs := by
  obtain ⟨num, hnum, rfl⟩ := h
  exact (endsPlain_isNumeral hnum).append [delimiter]

/-! ## Entries -/

/-- A reader takes exactly what is spelled: the spellings begin with a colon, which is not all of
them, and one of them is taken if nothing or a field follows. -/
structure Reads (take : Taker α) (spells : α → List Char → Prop) : Prop where
  starts : ∀ {a : α} {cs : List Char}, spells a cs → ∃ body, cs = delimiter :: body
  notColon : ∀ {a : α}, ¬ spells a [delimiter]
  takes : ∀ {a : α} {cs rest : List Char}, take cs = .ok (a, rest) ↔
    ∃ front, spells a front ∧ cs = front ++ rest ∧ AtField rest

namespace Listed

variable {spells : α → List Char → Prop}

/-- Two lists in a row are one list. -/
theorem append {as bs : List α} {cs ds : List Char} (has : Listed spells as cs)
    (hbs : Listed spells bs ds) : Listed spells (as ++ bs) (cs ++ ds) := by
  induction has with
  | nil => exact hbs
  | cons ha has ih =>
    rw [List.cons_append, List.append_assoc]
    exact .cons ha ih

/-- Entries that are spelled one by one are listed. -/
theorem flatMap {put : α → List Char} {as : List α} (h : ∀ a ∈ as, spells a (put a)) :
    Listed spells as (as.flatMap put) := by
  induction as with
  | nil => exact .nil
  | cons a as ih =>
    exact .cons (h a List.mem_cons_self) (ih fun b hb => h b (List.mem_cons_of_mem a hb))

/-- A list begins with a colon, if it has an entry. -/
theorem atField (hstarts : ∀ {a : α} {cs : List Char}, spells a cs → ∃ body, cs = delimiter :: body)
    {as : List α} {cs : List Char} (h : Listed spells as cs) : AtField cs := by
  cases h with
  | nil => exact .nil
  | cons ha has =>
    obtain ⟨body, rfl⟩ := hstarts ha
    exact .cons _

/-- What holds of whatever is spelled holds of all that is listed. -/
theorem forall_mem {p : α → Prop} (hp : ∀ a cs, spells a cs → p a) {as : List α}
    {cs : List Char} (h : Listed spells as cs) : ∀ a ∈ as, p a := by
  induction h with
  | nil => simp
  | cons ha has ih => exact List.forall_mem_cons.2 ⟨hp _ _ ha, ih⟩

/-- Entries that end with another character than a line end do so as a list. -/
theorem endsPlain_append (hplain : ∀ {a : α} {cs : List Char}, spells a cs → EndsPlain cs)
    {front : List Char} (hfront : EndsPlain front) {as : List α} {cs : List Char}
    (h : Listed spells as cs) : EndsPlain (front ++ cs) := by
  induction h generalizing front with
  | nil => rwa [List.append_nil]
  | cons ha has ih =>
    rw [← List.append_assoc]
    exact ih ((hplain ha).append front)

end Listed

/-- Nothing is spelled just by the empty list. -/
theorem Listed.eq_nil_iff {spells : α → List Char → Prop}
    (hstarts : ∀ {a : α} {cs : List Char}, spells a cs → ∃ body, cs = delimiter :: body)
    {as : List α} : Listed spells as [] ↔ as = [] := by
  constructor
  · intro h
    generalize hcs : ([] : List Char) = cs at h
    cases h with
    | nil => rfl
    | cons ha has =>
      obtain ⟨body, rfl⟩ := hstarts ha
      cases hcs
  · rintro rfl
    exact .nil

/-- Entries are taken off exactly what lists their spellings. -/
theorem takeEntriesFrom_eq_ok_iff {entry : Taker α} {spells : α → List Char → Prop}
    (hentry : Reads entry spells) {taken as : List α} {fuel : Nat} {cs : List Char}
    (hfuel : cs.length ≤ fuel) :
    takeEntriesFrom entry taken fuel cs = .ok as ↔
      ∃ later, as = taken.reverse ++ later ∧ Listed spells later cs := by
  -- At the end of the text nothing more is listed, however much fuel is left.
  have hnone (taken as : List α) (fuel : Nat) : takeEntriesFrom entry taken fuel [] = .ok as ↔
      ∃ later, as = taken.reverse ++ later ∧ Listed spells later [] := by
    have htaken : takeEntriesFrom entry taken fuel [] = .ok taken.reverse := by
      cases fuel <;> rfl
    simp [htaken, Listed.eq_nil_iff hentry.starts, eq_comm]
  induction fuel generalizing taken cs with
  | zero =>
    obtain rfl := List.length_eq_zero_iff.1 (Nat.le_zero.1 hfuel)
    exact hnone taken as 0
  | succ fuel ih =>
    obtain rfl | hcs := eq_or_ne cs []
    · exact hnone taken as (fuel + 1)
    rw [takeEntriesFrom_cons taken hcs]
    constructor
    · intro h
      split at h
      · cases h
      · next a rest ha =>
        obtain ⟨front, hfront, rfl, -⟩ := hentry.takes.1 ha
        -- An entry begins with a colon, so that less is left than there was.
        obtain ⟨body, rfl⟩ := hentry.starts hfront
        rw [List.cons_append, List.length_cons, List.length_append] at hfuel
        obtain ⟨later, rfl, hlater⟩ := (ih (by omega)).1 h
        exact ⟨a :: later, by simp, .cons hfront hlater⟩
    · rintro ⟨later, rfl, hlater⟩
      cases hlater with
      | nil => exact absurd rfl hcs
      | cons ha hrest =>
        rename_i a later front rest
        have htaken : entry (front ++ rest) = .ok (a, rest) :=
          hentry.takes.2 ⟨front, ha, rfl, hrest.atField hentry.starts⟩
        obtain ⟨body, rfl⟩ := hentry.starts ha
        rw [List.cons_append, List.length_cons, List.length_append] at hfuel
        rw [htaken]
        exact (ih (by omega)).2 ⟨later, by simp, hrest⟩

/-- A list of entries is read off what lists their spellings, and an empty one also off a lone
colon. -/
theorem takeEntries_eq_ok_iff {entry : Taker α} {spells : α → List Char → Prop}
    (hentry : Reads entry spells) {as : List α} {cs : List Char} :
    takeEntries entry cs = .ok as ↔ Listed spells as cs ∨ as = [] ∧ cs = [delimiter] := by
  -- No list of entries is spelled as the lone colon.
  have hcolon : ¬ Listed spells as [delimiter] := by
    intro h
    generalize hcs : [delimiter] = cs at h
    cases h with
    | nil => cases hcs
    | cons ha has =>
      obtain ⟨body, rfl⟩ := hentry.starts ha
      obtain ⟨rfl, rfl⟩ := List.append_eq_nil_iff.1 (List.cons.inj hcs).2.symm
      exact hentry.notColon ha
  unfold takeEntries
  split
  · next heq =>
    subst heq
    simp [hcolon, eq_comm]
  · next hne =>
    rw [takeEntriesFrom_eq_ok_iff hentry (Nat.le_refl _)]
    simp [hne]

/-! ## Frames and properties -/

/-- A frame is spelled by its three texts and its line. -/
def FrameRecord.Spelling (f : FrameRecord) (cs : List Char) : Prop :=
  ∃ texts line, Listed TextField [f.target, f.task, f.file] texts ∧ LineField f.line line ∧
    cs = texts ++ line

/-- A property is spelled by its two texts and the letter for where it comes from. -/
def PropertyRecord.Spelling (p : PropertyRecord) (cs : List Char) : Prop :=
  ∃ texts, Listed TextField [p.name, p.value] texts ∧
    cs = texts ++ [delimiter, p.provenance.marker]

/-- The first entry of a list stands in front of the others. -/
theorem listed_cons_iff {spells : α → List Char → Prop} {a : α} {as : List α} {cs : List Char} :
    Listed spells (a :: as) cs ↔
      ∃ front rest, spells a front ∧ Listed spells as rest ∧ cs = front ++ rest := by
  constructor
  · intro h
    cases h with
    | cons ha has => exact ⟨_, _, ha, has, rfl⟩
  · rintro ⟨front, rest, ha, has, rfl⟩
    exact .cons ha has

/-- The empty list is spelled by nothing. -/
theorem listed_nil_iff {spells : α → List Char → Prop} {cs : List Char} :
    Listed spells [] cs ↔ cs = [] := by
  constructor
  · intro h
    cases h
    rfl
  · rintro rfl
    exact .nil

/-- An entry is more than a colon: that is no more than the beginning of its first text. -/
theorem texts_ne_colon {text : String} {texts : List String} {front : List Char}
    (h : Listed TextField (text :: texts) front) (last : List Char) :
    front ++ last ≠ [delimiter] := by
  obtain ⟨_, _, ⟨num, -, -, rfl⟩, -, rfl⟩ := listed_cons_iff.1 h
  simp

/-- A frame is read off just its spellings. -/
theorem FrameRecord.reads : Reads FrameRecord.take FrameRecord.Spelling where
  starts := by
    rintro f _ ⟨texts, line, htexts, -, rfl⟩
    obtain ⟨front, rest, hfront, -, rfl⟩ := listed_cons_iff.1 htexts
    obtain ⟨body, rfl⟩ := hfront.starts
    exact ⟨_, rfl⟩
  notColon := by
    rintro f ⟨texts, line, htexts, -, heq⟩
    exact texts_ne_colon htexts line heq.symm
  takes := by
    intro f cs rest
    constructor
    · intro h
      obtain ⟨⟨target, cs₁⟩, htarget, h⟩ := bind_eq_ok h
      obtain ⟨⟨task, cs₂⟩, htask, h⟩ := bind_eq_ok h
      obtain ⟨⟨file, cs₃⟩, hfile, h⟩ := bind_eq_ok h
      obtain ⟨⟨line, cs₄⟩, hline, h⟩ := bind_eq_ok h
      obtain ⟨rfl, rfl⟩ := Prod.mk.inj (Except.ok.inj h)
      obtain ⟨t₁, h₁, rfl⟩ := takeText_eq_ok_iff_textField.1 htarget
      obtain ⟨t₂, h₂, rfl⟩ := takeText_eq_ok_iff_textField.1 htask
      obtain ⟨t₃, h₃, rfl⟩ := takeText_eq_ok_iff_textField.1 hfile
      obtain ⟨l, hl, rfl, hrest⟩ := takeLine_eq_ok_iff_lineField.1 hline
      refine ⟨_, ⟨_, l, .cons h₁ (.cons h₂ (.cons h₃ .nil)), hl, rfl⟩, ?_, hrest⟩
      simp only [List.append_assoc, List.append_nil]
    · rintro ⟨_, ⟨texts, l, htexts, hl, rfl⟩, rfl, hrest⟩
      simp only [listed_cons_iff, listed_nil_iff] at htexts
      obtain ⟨t₁, _, h₁, ⟨t₂, _, h₂, ⟨t₃, _, h₃, rfl, rfl⟩, rfl⟩, rfl⟩ := htexts
      simp only [FrameRecord.take, List.append_assoc, List.append_nil, h₁.taken, h₂.taken,
        h₃.taken, hl.taken .line hrest, ok_bind]
      rfl

/-- A property is read off just its spellings. -/
theorem PropertyRecord.reads : Reads PropertyRecord.take PropertyRecord.Spelling where
  starts := by
    rintro p _ ⟨texts, htexts, rfl⟩
    obtain ⟨front, rest, hfront, -, rfl⟩ := listed_cons_iff.1 htexts
    obtain ⟨body, rfl⟩ := hfront.starts
    exact ⟨_, rfl⟩
  notColon := by
    rintro p ⟨texts, htexts, heq⟩
    exact texts_ne_colon htexts _ heq.symm
  takes := by
    intro p cs rest
    constructor
    · intro h
      obtain ⟨⟨name, cs₁⟩, hname, h⟩ := bind_eq_ok h
      obtain ⟨⟨value, cs₂⟩, hvalue, h⟩ := bind_eq_ok h
      obtain ⟨⟨marker, cs₃⟩, hmarker, h⟩ := bind_eq_ok h
      dsimp only at h
      split at h
      · next provenance hprovenance =>
        obtain ⟨rfl, rfl⟩ := Prod.mk.inj (Except.ok.inj h)
        obtain rfl := Provenance.eq_marker_of_ofMarker? hprovenance
        obtain ⟨t₁, h₁, rfl⟩ := takeText_eq_ok_iff_textField.1 hname
        obtain ⟨t₂, h₂, rfl⟩ := takeText_eq_ok_iff_textField.1 hvalue
        obtain ⟨rfl, -, hrest⟩ := takeRaw_eq_ok_iff.1 hmarker
        refine ⟨_, ⟨_, .cons h₁ (.cons h₂ .nil), rfl⟩, ?_, hrest⟩
        simp only [List.append_assoc, List.append_nil]
        rfl
      · cases h
    · rintro ⟨_, ⟨texts, htexts, rfl⟩, rfl, hrest⟩
      simp only [listed_cons_iff, listed_nil_iff] at htexts
      obtain ⟨t₁, _, h₁, ⟨t₂, _, h₂, rfl, rfl⟩, rfl⟩ := htexts
      have hmarker := takeRaw_putRaw .provenance p.provenance.marker_plain.1 hrest
      rw [putRaw] at hmarker
      simp only [PropertyRecord.take, List.append_assoc, List.append_nil, h₁.taken, h₂.taken,
        hmarker, ok_bind, Provenance.ofMarker?_marker]
      rfl

/-- A frame ends with no line end. -/
theorem FrameRecord.Spelling.endsPlain {f : FrameRecord} {cs : List Char} (h : f.Spelling cs) :
    EndsPlain cs := by
  obtain ⟨texts, line, -, hline, rfl⟩ := h
  exact hline.endsPlain.append texts

/-- Nor does a property. -/
theorem PropertyRecord.Spelling.endsPlain {p : PropertyRecord} {cs : List Char}
    (h : p.Spelling cs) : EndsPlain cs := by
  obtain ⟨texts, -, rfl⟩ := h
  refine EndsPlain.append _ ⟨[delimiter], p.provenance.marker, rfl, ?_⟩
  cases p.provenance <;> rfl

/-- What is written of a frame is one of its spellings. -/
theorem FrameRecord.spelling_encodeChars {f : FrameRecord} (h : f.Countable) :
    f.Spelling f.encodeChars := by
  refine ⟨_, _, .cons (textField_putText h.target) (.cons (textField_putText h.task)
    (.cons (textField_putText h.file) .nil)), lineField_putLine f.line, ?_⟩
  simp only [FrameRecord.encodeChars, List.append_nil, List.append_assoc]

/-- What is written of a property is one of its spellings. -/
theorem PropertyRecord.spelling_encodeChars {p : PropertyRecord} (h : p.Countable) :
    p.Spelling p.encodeChars := by
  refine ⟨_, .cons (textField_putText h.name) (.cons (textField_putText h.value) .nil), ?_⟩
  simp only [PropertyRecord.encodeChars, List.append_nil, List.append_assoc]
  rfl

/-- The characters of a text that is spelled can be counted. -/
theorem TextField.length_lt {text : String} {cs : List Char} (h : TextField text cs) :
    text.length < countLimit := by
  obtain ⟨num, -, hlimit, -⟩ := h
  exact hlimit

/-- So can those of a frame. -/
theorem FrameRecord.Spelling.countable {f : FrameRecord} {cs : List Char} (h : f.Spelling cs) :
    f.Countable := by
  obtain ⟨texts, line, htexts, -, -⟩ := h
  simp only [listed_cons_iff] at htexts
  obtain ⟨_, _, htarget, ⟨_, _, htask, ⟨_, _, hfile, -, -⟩, -⟩, -⟩ := htexts
  exact ⟨htarget.length_lt, htask.length_lt, hfile.length_lt⟩

/-- So can those of a property. -/
theorem PropertyRecord.Spelling.countable {p : PropertyRecord} {cs : List Char}
    (h : p.Spelling cs) : p.Countable := by
  obtain ⟨texts, htexts, -⟩ := h
  simp only [listed_cons_iff] at htexts
  obtain ⟨_, _, hname, ⟨_, _, hvalue, -, -⟩, -⟩ := htexts
  exact ⟨hname.length_lt, hvalue.length_lt⟩

/-! ## Notifications -/

namespace Notification

/-- How a notification can be written: its name and the fields of its reason or its entries. An
empty list has a second spelling. -/
inductive Spelling : Notification → List Char → Prop
  | buildStarted : Spelling .buildStarted "BUILD_STARTED".toList
  | suspended {reason : SuspendReason} {cs : List Char} :
      reason.Spelling cs → Spelling (.suspended reason) ("SUSPENDED".toList ++ delimiter :: cs)
  | stack {frames : List FrameRecord} {cs : List Char} :
      Listed FrameRecord.Spelling frames cs → Spelling (.stack frames) ("STACK".toList ++ cs)
  | emptyStack : Spelling (.stack []) "STACK:".toList
  | properties {entries : List PropertyRecord} {cs : List Char} :
      Listed PropertyRecord.Spelling entries cs →
      Spelling (.properties entries) ("PROPERTIES".toList ++ cs)
  | noProperties : Spelling (.properties []) "PROPERTIES:".toList
  | terminated : Spelling .terminated "TERMINATED".toList

/-- The last character of a spelling is no line end. -/
theorem Spelling.endsPlain {n : Notification} {w : List Char} (h : n.Spelling w) :
    EndsPlain w := by
  have hname (n : Notification) : EndsPlain n.name.toList :=
    .of_forall n.name_ne_nil n.name_plain.2
  cases h with
  | buildStarted => exact hname .buildStarted
  | suspended hreason => exact (hreason.endsPlain.append [delimiter]).append _
  | stack hframes =>
    exact hframes.endsPlain_append FrameRecord.Spelling.endsPlain (hname (.stack []))
  | emptyStack => exact ⟨"STACK".toList, delimiter, rfl, rfl⟩
  | properties hentries =>
    exact hentries.endsPlain_append PropertyRecord.Spelling.endsPlain (hname (.properties []))
  | noProperties => exact ⟨"PROPERTIES".toList, delimiter, rfl, rfl⟩
  | terminated => exact hname .terminated

/-- A spelling is the name and what is read behind it. -/
theorem Spelling.takeFields {n : Notification} {w : List Char} (h : n.Spelling w) :
    ∃ rest, w = n.name.toList ++ rest ∧ AtField rest ∧ n.takeFields rest = .ok n := by
  cases h with
  | buildStarted => exact ⟨[], rfl, .nil, rfl⟩
  | @suspended reason cs hreason =>
    refine ⟨delimiter :: cs, rfl, .cons cs, ?_⟩
    rw [Notification.takeFields]
    show takeReason (putRaw cs) = _
    rw [takeReason_putRaw, SuspendReason.decodeChars_eq_ok_iff.2 hreason]
    rfl
  | @stack frames cs hframes =>
    refine ⟨cs, rfl, hframes.atField FrameRecord.reads.starts, ?_⟩
    have htake := (takeEntries_eq_ok_iff FrameRecord.reads).2 (.inl hframes)
    simp only [Notification.takeFields, htake]
    rfl
  | emptyStack => exact ⟨[delimiter], rfl, .cons [], rfl⟩
  | @properties entries cs hentries =>
    refine ⟨cs, rfl, hentries.atField PropertyRecord.reads.starts, ?_⟩
    have htake := (takeEntries_eq_ok_iff PropertyRecord.reads).2 (.inl hentries)
    simp only [Notification.takeFields, htake]
    rfl
  | noProperties => exact ⟨[delimiter], rfl, .cons [], rfl⟩
  | terminated => exact ⟨[], rfl, .nil, rfl⟩

/-- What is read behind the name is behind it in a spelling. -/
theorem spelling_of_takeFields {n : Notification} {rest : List Char}
    (h : n.takeFields rest = .ok n) : n.Spelling (n.name.toList ++ rest) := by
  cases n with
  | buildStarted =>
    obtain ⟨-, rfl⟩ := bare_eq_ok_iff.1 h
    exact .buildStarted
  | suspended reason =>
    obtain ⟨cs, reason', rfl, hreason, heq⟩ := takeReason_eq_ok h
    obtain rfl := Notification.suspended.inj heq
    exact .suspended (SuspendReason.decodeChars_eq_ok_iff.1 hreason)
  | stack frames =>
    obtain ⟨frames', hframes, heq⟩ := map_eq_ok h
    obtain rfl := Notification.stack.inj heq
    obtain hlisted | ⟨rfl, rfl⟩ := (takeEntries_eq_ok_iff FrameRecord.reads).1 hframes
    · exact .stack hlisted
    · exact .emptyStack
  | properties entries =>
    obtain ⟨entries', hentries, heq⟩ := map_eq_ok h
    obtain rfl := Notification.properties.inj heq
    obtain hlisted | ⟨rfl, rfl⟩ := (takeEntries_eq_ok_iff PropertyRecord.reads).1 hentries
    · exact .properties hlisted
    · exact .noProperties
  | terminated =>
    obtain ⟨-, rfl⟩ := bare_eq_ok_iff.1 h
    exact .terminated

/-- A message is read as the notification that it spells without the line ends behind it. -/
theorem decodeChars_eq_ok_iff {cs : List Char} {n : Notification} :
    decodeChars cs = .ok n ↔ n.Spelling (stripLineEnds cs) := by
  constructor
  · intro h
    obtain ⟨rest, hstrip, hfields⟩ := exists_takeFields h
    rw [hstrip]
    exact spelling_of_takeFields hfields
  · intro h
    obtain ⟨rest, hstrip, hrest, hfields⟩ := h.takeFields
    rw [n.decodeChars_of_strip hstrip hrest, hfields]

/-- A notification is read off each of its spellings, with line ends behind it or not. -/
theorem decodeChars_of_spelling {n : Notification} {w ends : List Char} (hw : n.Spelling w)
    (hends : ∀ c ∈ ends, isLineEnd c = true) : decodeChars (w ++ ends) = .ok n := by
  rw [decodeChars_eq_ok_iff, hw.endsPlain.stripLineEnds_append hends]
  exact hw

/-- A spelling with no line ends behind it is read. -/
theorem Spelling.decodeChars {n : Notification} {w : List Char} (hw : n.Spelling w) :
    decodeChars w = .ok n := by
  have hread := decodeChars_of_spelling hw (List.forall_mem_nil _)
  rwa [List.append_nil] at hread

/-- What is written is a spelling. -/
theorem spelling_encodeChars {n : Notification} (hcount : n.Countable) (hnamed : n.NamedFile) :
    n.Spelling n.encodeChars := by
  cases n with
  | buildStarted => exact .buildStarted
  | suspended reason => exact .suspended (SuspendReason.spelling_encodeChars hnamed)
  | stack frames =>
    exact .stack (.flatMap fun f hf => FrameRecord.spelling_encodeChars (hcount f hf))
  | properties entries =>
    exact .properties (.flatMap fun p hp => PropertyRecord.spelling_encodeChars (hcount p hp))
  | terminated => exact .terminated

/-- What can be spelled can be written. -/
theorem Spelling.countable_namedFile {n : Notification} {w : List Char} (h : n.Spelling w) :
    n.Countable ∧ n.NamedFile := by
  cases h with
  | buildStarted | terminated => exact ⟨trivial, trivial⟩
  | suspended hreason =>
    refine ⟨trivial, ?_⟩
    cases hreason with
    | step | clientRequest => exact trivial
    | breakpoint hnamed hnum => exact hnamed
  | stack hframes => exact ⟨hframes.forall_mem fun _ _ h => h.countable, trivial⟩
  | properties hentries => exact ⟨hentries.forall_mem fun _ _ h => h.countable, trivial⟩
  | emptyStack | noProperties => exact ⟨by simp [Countable], trivial⟩

/-- A message is read as a notification exactly if it is one of its spellings with line ends behind
it. What is written is a spelling, so that it is read as what it was written for; and what was read
is the same after it was written and read again. -/
theorem decode_grammar (s : String) (n : Notification) :
    (decode s = .ok n ↔ ∃ w ends, s.toList = w ++ ends ∧ (∀ c ∈ ends, c = '\n' ∨ c = '\r') ∧
      n.Spelling w) ∧
    (n.Countable → n.NamedFile → n.Spelling n.encodeChars ∧ decode n.encode = .ok n) ∧
    (decode s = .ok n → decode n.encode = .ok n) := by
  have hwritten (hcount : n.Countable) (hnamed : n.NamedFile) : decode n.encode = .ok n := by
    have hw := (spelling_encodeChars hcount hnamed).decodeChars
    rwa [← String.toList_ofList (l := n.encodeChars)] at hw
  refine ⟨⟨?_, ?_⟩, ?_, ?_⟩
  · intro h
    obtain ⟨ends, hends, hs⟩ := exists_stripLineEnds_append s.toList
    exact ⟨_, ends, hs, by simpa [isLineEnd] using hends, decodeChars_eq_ok_iff.1 h⟩
  · rintro ⟨w, ends, hs, hends, hw⟩
    rw [decode, hs]
    exact decodeChars_of_spelling hw (by simpa [isLineEnd] using hends)
  · exact fun hcount hnamed => ⟨spelling_encodeChars hcount hnamed, hwritten hcount hnamed⟩
  · intro h
    obtain ⟨hcount, hnamed⟩ := (decodeChars_eq_ok_iff.1 h).countable_namedFile
    exact hwritten hcount hnamed

/-- A frame whose first text ends with a line feed, spelled with more than the numerals need. -/
theorem wordyFrame_decode_grammar :
    decode "STACK:+2:a\n:1:b:01:c:+7\r\n" = .ok (.stack [⟨"a\n", "b", "c", 7⟩]) ∧
      decode (encode (.stack [⟨"a\n", "b", "c", 7⟩])) = .ok (.stack [⟨"a\n", "b", "c", 7⟩]) := by
  have hnumeral {n : Nat} {cs : List Char} (h : Text.numeral? countLimit cs = some n) :
      Text.IsNumeral n cs :=
    (Text.numeral?_eq_some_iff_isNumeral.1 h).1
  have hfirst : TextField "a\n" ":+2:a\n".toList :=
    ⟨['+', '2'], hnumeral (by decide), by decide, by decide⟩
  have hsecond : TextField "b" ":1:b".toList := ⟨['1'], hnumeral (by decide), by decide, by decide⟩
  have hthird : TextField "c" ":01:c".toList :=
    ⟨['0', '1'], hnumeral (by decide), by decide, by decide⟩
  have hline : LineField 7 ":+7".toList := ⟨['+', '7'], hnumeral (by decide), by decide⟩
  have hframe : FrameRecord.Spelling ⟨"a\n", "b", "c", 7⟩ _ :=
    ⟨_, _, .cons hfirst (.cons hsecond (.cons hthird .nil)), hline, rfl⟩
  have hgrammar := decode_grammar "STACK:+2:a\n:1:b:01:c:+7\r\n" (.stack [⟨"a\n", "b", "c", 7⟩])
  have hread := hgrammar.1.2 ⟨_, ['\r', '\n'], by decide, by simp, .stack (.cons hframe .nil)⟩
  exact ⟨hread, hgrammar.2.2 hread⟩

/-- No message spells two notifications. -/
theorem Spelling.unique {m n : Notification} {w : List Char} (hm : m.Spelling w)
    (hn : n.Spelling w) : m = n :=
  Except.ok.inj (hm.decodeChars.symm.trans hn.decodeChars)

end Notification

end BuildStepper.Wire
