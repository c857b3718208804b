import BuildStepper.Proofs.Wire.Grammar

/-!
# What can follow a truncated notification

A reader that finds a message truncated puts the next line behind it and tries again. It should do
so only if the message ends inside a text (`EndsInText`): then the text can be brought to its
length, and the entry to its end. But whether a message is truncated is decided without the line
ends behind it, and at the next attempt they are there. If they are part of a text, all is well. If
they stand behind the number of its characters, or behind the whole of it (`EndsAstray`), then
nothing that follows makes the message a notification: they belong to no field, and no other
character than a colon ends a number or begins a field.

A message that is found truncated is in one of these two situations
(`Notification.truncated_completable_iff`). Frames and properties are alike here: an entry is a row
of texts and a last field (`TextRow`).
-/

namespace BuildStepper.Wire

variable {α : Type}

/-! ## Rows of texts -/

/-- What is spelled at the front of a message leaves the same whatever it is taken for. -/
theorem Listed.rest_of_append_eq {spells : α → List Char → Prop} {next : List Char → Prop}
    (hunique : ∀ {a b : α} {f g r s : List Char},
      spells a f → spells b g → next r → next s → f ++ r = g ++ s → r = s)
    (hnext : ∀ {as : List α} {cs r : List Char}, Listed spells as cs → next r → next (cs ++ r))
    {as bs : List α} {front whole rest tail : List Char} (has : Listed spells as front)
    (hbs : Listed spells bs whole) (hrest : next rest) (htail : next tail)
    (heq : front ++ rest = whole ++ tail) (hle : as.length ≤ bs.length) :
    ∃ later back, Listed spells later back ∧ rest = back ++ tail ∧
      as.length + later.length = bs.length := by
  induction has generalizing bs whole with
  | nil => exact ⟨bs, whole, hbs, heq, Nat.zero_add _⟩
  | cons ha has ih =>
    cases hbs with
    | nil => simp at hle
    | cons hb hbs =>
      rw [List.append_assoc, List.append_assoc] at heq
      have hsame := hunique ha hb (hnext has hrest) (hnext hbs htail) heq
      obtain ⟨later, back, hlater, hback, hlength⟩ := ih hbs hsame (Nat.le_of_succ_le_succ hle)
      refine ⟨later, back, hlater, hback, ?_⟩
      rw [List.length_cons, List.length_cons, ← hlength, Nat.add_right_comm]

/-- Entries that begin with `k` texts and have one more field behind them. -/
structure TextRow (k : Nat) (take : Taker α) (spells : α → List Char → Prop) : Prop
    extends Reads take spells where
  split : ∀ {a : α} {cs : List Char}, spells a cs → ∃ texts front last, texts.length = k ∧
    Listed TextField texts front ∧ cs = front ++ delimiter :: last
  close : ∀ {texts : List String} {front : List Char}, texts.length = k →
    Listed TextField texts front → ∃ a last, spells a (front ++ last)
  /-- No entry is truncated but in a text. -/
  inText : ∀ {cs : List Char}, take cs = .error .truncated → ∃ texts front field rest,
    Listed TextField texts front ∧ texts.length < k ∧ cs = front ++ rest ∧
    takeText field rest = .error .truncated

/-- What stands before a text of an entry: whole entries, and fewer than `k` texts. -/
def BeforeTextOf (k : Nat) (spells : α → List Char → Prop) (cs : List Char) : Prop :=
  ∃ as entries texts fields, Listed spells as entries ∧ Listed TextField texts fields ∧
    texts.length < k ∧ cs = entries ++ fields

/-- What a colon must come behind: the number of characters of a text, or a whole text. -/
inductive BeforeColonOf (k : Nat) (spells : α → List Char → Prop) : List Char → Prop
  | number {front num : List Char} {n : Nat} :
      BeforeTextOf k spells front → Text.IsNumeral n num → n < countLimit →
      BeforeColonOf k spells (front ++ delimiter :: num)
  | text {front field : List Char} {text : String} :
      BeforeTextOf k spells front → TextField text field → BeforeColonOf k spells (front ++ field)

/-- Two texts at the front of a message leave the same behind them. -/
theorem TextField.rest_eq {t u : String} {f g r s : List Char} (hf : TextField t f)
    (hg : TextField u g) (heq : f ++ r = g ++ s) : r = s := by
  have htaken := hf.taken .name r
  rw [heq, hg.taken .name s] at htaken
  exact (Prod.mk.inj (Except.ok.inj htaken)).2.symm

/-- So do two entries, with a field behind each of them or nothing. -/
theorem Reads.rest_eq {take : Taker α} {spells : α → List Char → Prop} (h : Reads take spells)
    {a b : α} {f g r s : List Char} (hf : spells a f) (hg : spells b g) (hr : AtField r)
    (hs : AtField s) (heq : f ++ r = g ++ s) : r = s := by
  have htaken := h.takes.2 ⟨f, hf, rfl, hr⟩
  rw [heq, h.takes.2 ⟨g, hg, rfl, hs⟩] at htaken
  exact (Prod.mk.inj (Except.ok.inj htaken)).2.symm

namespace TextRow

variable {k : Nat} {take : Taker α} {spells : α → List Char → Prop}

/-- Behind some texts of an entry come the others and the last field. -/
theorem fields_behind (hrow : TextRow k take spells) {as bs : List α} {texts : List String}
    {entries fields rest : List Char} (has : Listed spells as entries)
    (htexts : Listed TextField texts fields) (hk : texts.length ≤ k)
    (hfield : ∃ body, fields ++ rest = delimiter :: body)
    (hbs : Listed spells bs (entries ++ (fields ++ rest))) :
    ∃ later back last, texts.length + later.length = k ∧ Listed TextField later back ∧
      rest = back ++ delimiter :: last := by
  have hnext {as : List α} {cs r : List Char} (has : Listed spells as cs) (hr : AtField r) :
      AtField (cs ++ r) := by
    obtain rfl | ⟨body, rfl⟩ := has.atField hrow.starts
    · exact hr
    · exact .cons _
  obtain ⟨body, hbody⟩ := hfield
  have hat : AtField (fields ++ rest) := .inr ⟨body, hbody⟩
  have hwhole : entries ++ (fields ++ rest) = entries ++ (fields ++ rest) ++ [] :=
    (List.append_nil _).symm
  obtain hle | hle := Nat.le_total as.length bs.length
  · obtain ⟨later, back, hlater, hback, -⟩ :=
      Listed.rest_of_append_eq hrow.rest_eq hnext has hbs hat .nil hwhole hle
    rw [List.append_nil, hbody] at hback
    cases hlater with
    | nil => cases hback
    | cons ha hlater =>
      obtain ⟨all, front, last, rfl, hall, rfl⟩ := hrow.split ha
      rw [← hbody, List.append_assoc] at hback
      -- A text leaves the same whatever follows it.
      have hsame {a b : String} {f g r s : List Char} (hf : TextField a f) (hg : TextField b g)
          (_ : True) (_ : True) (heq : f ++ r = g ++ s) : r = s :=
        TextField.rest_eq hf hg heq
      obtain ⟨others, back, hothers, hrest, hlength⟩ := Listed.rest_of_append_eq hsame
        (fun _ _ => trivial) htexts hall trivial trivial hback hk
      exact ⟨others, back, _, hlength, hothers, hrest⟩
  · obtain ⟨later, back, -, hback, -⟩ :=
      Listed.rest_of_append_eq hrow.rest_eq hnext hbs has .nil hat hwhole.symm hle
    rw [hbody] at hback
    simp at hback

/-- A number of characters that a line end follows is not read. -/
theorem not_listed_number (hrow : TextRow k take spells) {bs : List α}
    {front num more : List Char} {n : Nat} {c : Char} (hfront : BeforeTextOf k spells front)
    (hnum : Text.IsNumeral n num) (hc : isLineEnd c = true) :
    ¬ Listed spells bs (front ++ delimiter :: num ++ c :: more) := by
  intro h
  obtain ⟨as, entries, texts, fields, has, htexts, hk, rfl⟩ := hfront
  rw [List.append_assoc, List.append_assoc] at h
  have hfield : ∃ body, fields ++ (delimiter :: num ++ c :: more) = delimiter :: body := by
    obtain rfl | ⟨body, rfl⟩ := htexts.atField TextField.starts
    · exact ⟨_, rfl⟩
    · exact ⟨_, rfl⟩
  obtain ⟨later, back, last, hlength, hlater, hrest⟩ :=
    hrow.fields_behind has htexts (Nat.le_of_lt hk) hfield h
  cases hlater with
  | nil => exact absurd hlength (Nat.ne_of_lt hk)
  | @cons text others _ back htext hothers =>
    obtain ⟨num', hnum', -, rfl⟩ := htext
    have hsplit : num ++ c :: more =
        num' ++ delimiter :: (text.toList ++ (back ++ delimiter :: last)) := by
      simpa using hrest
    -- The number goes on up to the next colon, and has the line end in it.
    obtain ⟨ys, rfl, hys⟩ := exists_of_append_eq (isNumeral_plain hnum).1 hsplit
    cases ys with
    | nil =>
      obtain rfl := (List.cons.inj hys).1
      cases hc
    | cons y ys =>
      obtain rfl := (List.cons.inj hys).1
      have hplain := (isNumeral_plain hnum').2 c (by simp)
      rw [hplain] at hc
      cases hc

/-- Behind a whole text no line end is read. -/
theorem not_listed_text (hrow : TextRow k take spells) {bs : List α} {front field more : List Char}
    {text : String} {c : Char} (hfront : BeforeTextOf k spells front)
    (htext : TextField text field) (hc : isLineEnd c = true) :
    ¬ Listed spells bs (front ++ field ++ c :: more) := by
  intro h
  obtain ⟨as, entries, texts, fields, has, htexts, hk, rfl⟩ := hfront
  have htexts : Listed TextField (texts ++ [text]) (fields ++ (field ++ [])) :=
    htexts.append (.cons htext .nil)
  rw [List.append_nil] at htexts
  have hfield : ∃ body, fields ++ field ++ c :: more = delimiter :: body := by
    obtain ⟨body, rfl⟩ := htext.starts
    obtain hnil | ⟨body, hbody⟩ := htexts.atField TextField.starts
    · simp at hnil
    · exact ⟨_, by rw [hbody]; rfl⟩
  rw [List.append_assoc entries, List.append_assoc] at h
  obtain ⟨later, back, last, -, hlater, hrest⟩ :=
    hrow.fields_behind has htexts (by rw [List.length_append]; exact hk) hfield h
  -- What is next begins with a colon, whether it is another text or the last field.
  have hcolon : c = delimiter := by
    obtain rfl | ⟨body, rfl⟩ := hlater.atField TextField.starts
    · exact (List.cons.inj hrest).1
    · exact (List.cons.inj hrest).1
  rw [hcolon] at hc
  cases hc

/-- No entries are read off what has a line end where a colon must be. -/
theorem takeEntries_astray (hrow : TextRow k take spells) {front more : List Char} {c : Char}
    (hfront : BeforeColonOf k spells front) (hc : isLineEnd c = true) {as : List α} :
    takeEntries take (front ++ c :: more) ≠ .ok as := by
  intro h
  obtain hlisted | ⟨-, hlone⟩ := (takeEntries_eq_ok_iff hrow.toReads).1 h
  · cases hfront with
    | number hbefore hnum _ => exact hrow.not_listed_number hbefore hnum hc hlisted
    | text hbefore htext => exact hrow.not_listed_text hbefore htext hc hlisted
  · -- A lone colon has no line end.
    have hmem : c ∈ front ++ c :: more := List.mem_append_cons_self
    rw [hlone, List.mem_singleton] at hmem
    rw [hmem] at hc
    cases hc

/-- What a colon must come behind begins with a colon itself. -/
theorem beforeColonOf_atField (hrow : TextRow k take spells) {front : List Char}
    (hfront : BeforeColonOf k spells front) : ∃ body, front = delimiter :: body := by
  have hbefore {front rest : List Char} (h : BeforeTextOf k spells front) :
      ∃ body, front ++ delimiter :: rest = delimiter :: body := by
    obtain ⟨as, entries, texts, fields, has, htexts, -, rfl⟩ := h
    obtain rfl | ⟨body, rfl⟩ := has.atField hrow.starts
    · obtain rfl | ⟨body, rfl⟩ := htexts.atField TextField.starts
      · exact ⟨_, rfl⟩
      · exact ⟨_, rfl⟩
    · exact ⟨_, rfl⟩
  cases hfront with
  | number h _ _ => exact hbefore h
  | text h htext =>
    obtain ⟨body, rfl⟩ := htext.starts
    exact hbefore h

/-- What ends inside a text can be brought to the end of the entry. -/
theorem exists_listed_append (hrow : TextRow k take spells) {front num body : List Char} {n : Nat}
    (hfront : BeforeTextOf k spells front) (hnum : Text.IsNumeral n num) (hn : n < countLimit)
    (hbody : body.length ≤ n) :
    ∃ as more, Listed spells as (front ++ delimiter :: num ++ delimiter :: body ++ more) := by
  obtain ⟨as, entries, texts, fields, has, htexts, hk, rfl⟩ := hfront
  -- The text is filled up to its length, and the other texts of the entry are left empty.
  let filler := List.replicate (n - body.length) ' '
  let others := List.replicate (k - texts.length - 1) ""
  have hlength : (String.ofList (body ++ filler)).length = n := by
    rw [String.length_ofList, List.length_append, List.length_replicate]
    omega
  have htext : TextField (String.ofList (body ++ filler))
      (delimiter :: num ++ delimiter :: (body ++ filler)) :=
    ⟨num, by rwa [hlength], by rwa [hlength], by rw [String.toList_ofList]⟩
  have hothers : Listed TextField others (others.flatMap putText) := by
    refine .flatMap fun other hother => textField_putText ?_
    rw [List.eq_of_mem_replicate hother]
    decide
  have hall := htexts.append (.cons htext hothers)
  have hcount : (texts ++ String.ofList (body ++ filler) :: others).length = k := by
    rw [List.length_append, List.length_cons, List.length_replicate]
    omega
  obtain ⟨a, last, ha⟩ := hrow.close hcount hall
  refine ⟨as ++ [a], filler ++ others.flatMap putText ++ last, ?_⟩
  have hlisted := has.append (.cons ha .nil)
  simpa only [List.append_assoc, List.cons_append, List.append_nil] using hlisted

/-- Entries are truncated in a text. -/
theorem exists_beforeText (hrow : TextRow k take spells) {taken : List α} {fuel : Nat}
    {cs : List Char} (h : takeEntriesFrom take taken fuel cs = .error .truncated) :
    ∃ front field rest, BeforeTextOf k spells front ∧ cs = front ++ rest ∧
      takeText field rest = .error .truncated := by
  induction fuel generalizing taken cs with
  | zero => cases h
  | succ fuel ih =>
    simp only [takeEntriesFrom] at h
    split at h
    · cases h
    · split at h
      · next e he =>
        obtain rfl := Except.error.inj h
        -- This is the entry whose text breaks off.
        obtain ⟨texts, fields, field, rest, htexts, hk, rfl, hrest⟩ := hrow.inText he
        exact ⟨fields, field, rest, ⟨[], [], texts, fields, .nil, htexts, hk, rfl⟩, rfl, hrest⟩
      · next a more ha =>
        -- The entry is complete, and the text that breaks off is further behind.
        obtain ⟨first, hfirst, rfl, -⟩ := hrow.takes.1 ha
        obtain ⟨_, field, rest, ⟨as, entries, texts, fields, has, htexts, hk, rfl⟩, rfl, hrest⟩ :=
          ih h
        refine ⟨first ++ entries ++ fields, field, rest, ?_, by simp, hrest⟩
        exact ⟨a :: as, first ++ entries, texts, fields, .cons hfirst has, htexts, hk, rfl⟩

end TextRow

/-! ## Truncated fields -/

/-- Where a colon is missing, the message is not truncated. -/
theorem takeDelimiter_ne_truncated {field : Field} {cs : List Char} :
    takeDelimiter field cs ≠ .error .truncated := by
  cases cs with
  | nil => simp [takeDelimiter]
  | cons c cs => by_cases hc : c = delimiter <;> simp [takeDelimiter, hc]

/-- Nor is it where a field without a length is missing. -/
theorem takeRaw_ne_truncated {field : Field} {cs : List Char} :
    takeRaw field cs ≠ .error .truncated :=
  fun h => takeDelimiter_ne_truncated (map_eq_error h)

/-- Nor where a field is no line number. -/
theorem lineNumber_ne_truncated {field : Field} {raw : List Char} :
    lineNumber field raw ≠ .error .truncated := by
  unfold lineNumber
  split <;> simp

/-- Nor where a line number cannot be taken. -/
theorem takeLine_ne_truncated {field : Field} {cs : List Char} :
    takeLine field cs ≠ .error .truncated := by
  intro h
  unfold takeLine at h
  split at h
  · next e he =>
    obtain rfl := Except.error.inj h
    exact takeRaw_ne_truncated he
  · exact lineNumber_ne_truncated (map_eq_error h)

/-- Nor where a location cannot be read. -/
theorem readLocation_ne_truncated {cs : List Char} : readLocation cs ≠ .error .truncated := by
  intro h
  unfold readLocation at h
  split at h
  · cases h
  · cases h
  · exact lineNumber_ne_truncated (map_eq_error h)

/-- A text is truncated if nothing comes behind the number of its characters, or fewer of them. -/
theorem takeText_truncated {field : Field} {cs : List Char}
    (h : takeText field cs = .error .truncated) :
    ∃ num n, Text.IsNumeral n num ∧ n < countLimit ∧ (cs = delimiter :: num ∨
      ∃ body, cs = delimiter :: num ++ delimiter :: body ∧ body.length < n) := by
  unfold takeText at h
  split at h
  · next e he =>
    obtain rfl := Except.error.inj h
    exact absurd he takeRaw_ne_truncated
  · next raw rest hraw =>
    obtain ⟨rfl, -, hfield⟩ := takeRaw_eq_ok_iff.1 hraw
    split at h
    · cases h
    · next n hn =>
      obtain ⟨hnum, hlimit⟩ := Text.numeral?_eq_some_iff_isNumeral.1 hn
      refine ⟨raw, n, hnum, hlimit, ?_⟩
      obtain rfl | ⟨body, rfl⟩ := hfield
      · exact .inl (List.append_nil _)
      · refine .inr ⟨body, rfl, Nat.lt_of_not_le fun hle => ?_⟩
        simp only [splitCount_eq, if_pos hle] at h
        cases h

/-! ## Frames and properties -/

/-- A frame has three texts and its line behind them. -/
theorem FrameRecord.textRow : TextRow 3 FrameRecord.take FrameRecord.Spelling where
  toReads := FrameRecord.reads
  split := by
    rintro f _ ⟨texts, _, htexts, ⟨num, -, rfl⟩, rfl⟩
    exact ⟨_, texts, num, rfl, htexts, rfl⟩
  close := by
    intro texts front hlength htexts
    match texts, hlength with
    | [target, task, file], _ =>
      exact ⟨⟨target, task, file, 0⟩, putLine 0, front, _, htexts, lineField_putLine 0, rfl⟩
  inText := by
    intro cs h
    obtain hcut | ⟨⟨target, cs₁⟩, htarget, hnext⟩ := bind_eq_error h
    · exact ⟨[], [], .target, cs, .nil, Nat.succ_pos 2, rfl, hcut⟩
    obtain ⟨t₁, h₁, rfl⟩ := takeText_eq_ok_iff_textField.1 htarget
    obtain hcut | ⟨⟨task, cs₂⟩, htask, hlater⟩ := bind_eq_error hnext
    · exact ⟨[target], _, .task, cs₁, .cons h₁ .nil, by simp, by simp, hcut⟩
    obtain ⟨t₂, h₂, rfl⟩ := takeText_eq_ok_iff_textField.1 htask
    obtain hcut | ⟨⟨file, cs₃⟩, -, hlast⟩ := bind_eq_error hlater
    · exact ⟨[target, task], _, .file, cs₂, .cons h₁ (.cons h₂ .nil), by simp, by simp, hcut⟩
    obtain hcut | ⟨⟨line, cs₄⟩, -, hnone⟩ := bind_eq_error hlast
    · exact absurd hcut takeLine_ne_truncated
    · cases hnone

/-- A property has two texts and the marker of its provenance behind them. -/
theorem PropertyRecord.textRow : TextRow 2 PropertyRecord.take PropertyRecord.Spelling where
  toReads := PropertyRecord.reads
  split := by
    rintro p _ ⟨texts, htexts, rfl⟩
    exact ⟨_, texts, _, rfl, htexts, rfl⟩
  close := by
    intro texts front hlength htexts
    match texts, hlength with
    | [name, value], _ => exact ⟨⟨name, value, .system⟩, _, front, htexts, rfl⟩
  inText := by
    intro cs h
    obtain hcut | ⟨⟨name, cs₁⟩, hname, hnext⟩ := bind_eq_error h
    · exact ⟨[], [], .name, cs, .nil, Nat.succ_pos 1, rfl, hcut⟩
    obtain ⟨t₁, h₁, rfl⟩ := takeText_eq_ok_iff_textField.1 hname
    obtain hcut | ⟨⟨value, cs₂⟩, -, hlast⟩ := bind_eq_error hnext
    · exact ⟨[name], _, .value, cs₁, .cons h₁ .nil, by simp, by simp, hcut⟩
    obtain hcut | ⟨⟨marker, cs₃⟩, -, hnone⟩ := bind_eq_error hlast
    · exact absurd hcut takeRaw_ne_truncated
    · dsimp only at hnone
      split at hnone <;> cases hnone

/-! ## Messages -/

namespace Notification

/-- What stands before a text in a message: whole entries, and earlier texts of the entry that the
text belongs to. A frame has three texts and a property two. -/
inductive BeforeText : List Char → Prop
  | stack {cs : List Char} :
      BeforeTextOf 3 FrameRecord.Spelling cs → BeforeText ("STACK".toList ++ cs)
  | properties {cs : List Char} :
      BeforeTextOf 2 PropertyRecord.Spelling cs → BeforeText ("PROPERTIES".toList ++ cs)

/-- The message ends inside a text, which may be all there but has nothing behind it. -/
def EndsInText (cs : List Char) : Prop :=
  ∃ front num n body, BeforeText front ∧ Text.IsNumeral n num ∧ n < countLimit ∧
    body.length ≤ n ∧ cs = front ++ delimiter :: num ++ delimiter :: body

/-- What a colon must come behind in a message. -/
inductive BeforeColon : List Char → Prop
  | stack {cs : List Char} :
      BeforeColonOf 3 FrameRecord.Spelling cs → BeforeColon ("STACK".toList ++ cs)
  | properties {cs : List Char} :
      BeforeColonOf 2 PropertyRecord.Spelling cs → BeforeColon ("PROPERTIES".toList ++ cs)

/-- The message ends with line ends that belong to no field: they stand behind the number of
characters of a text, or behind all of these. -/
def EndsAstray (cs : List Char) : Prop :=
  ∃ front ends, BeforeColon front ∧ ends ≠ [] ∧ (∀ c ∈ ends, isLineEnd c = true) ∧
    cs = front ++ ends

/-- Where a text is next, a colon must come behind its number of characters. -/
theorem BeforeText.number {front num : List Char} {n : Nat} (h : BeforeText front)
    (hnum : Text.IsNumeral n num) (hn : n < countLimit) :
    BeforeColon (front ++ delimiter :: num) := by
  cases h with
  | stack hbefore =>
    rw [List.append_assoc]
    exact .stack (.number hbefore hnum hn)
  | properties hbefore =>
    rw [List.append_assoc]
    exact .properties (.number hbefore hnum hn)

/-- It must also come behind the text. -/
theorem BeforeText.text {front field : List Char} {text : String} (h : BeforeText front)
    (htext : TextField text field) : BeforeColon (front ++ field) := by
  cases h with
  | stack hbefore =>
    rw [List.append_assoc]
    exact .stack (.text hbefore htext)
  | properties hbefore =>
    rw [List.append_assoc]
    exact .properties (.text hbefore htext)

/-- What ends inside a text can be brought to the end of the message. -/
theorem EndsInText.completable {cs : List Char} (h : EndsInText cs) :
    ∃ more n, decodeChars (cs ++ more) = .ok n := by
  obtain ⟨front, num, n, body, hfront, hnum, hn, hbody, rfl⟩ := h
  cases hfront with
  | stack hbefore =>
    obtain ⟨frames, more, hlisted⟩ :=
      FrameRecord.textRow.exists_listed_append hbefore hnum hn hbody
    refine ⟨more, .stack frames, ?_⟩
    simpa only [List.append_assoc] using (Spelling.stack hlisted).decodeChars
  | properties hbefore =>
    obtain ⟨entries, more, hlisted⟩ :=
      PropertyRecord.textRow.exists_listed_append hbefore hnum hn hbody
    refine ⟨more, .properties entries, ?_⟩
    simpa only [List.append_assoc] using (Spelling.properties hlisted).decodeChars

/-- With a line end where a colon must be, a message is read as nothing. -/
theorem BeforeColon.decodeChars_ne_ok {cs front more : List Char} {c : Char}
    (h : BeforeColon front) (hc : isLineEnd c = true)
    (hstrip : stripLineEnds cs = front ++ c :: more) (n : Notification) :
    decodeChars cs ≠ .ok n := by
  intro hread
  cases h with
  | stack hbefore =>
    obtain ⟨body, rfl⟩ := FrameRecord.textRow.beforeColonOf_atField hbefore
    rw [List.append_assoc] at hstrip
    rw [decodeChars_of_strip (.stack []) hstrip (.cons _)] at hread
    obtain ⟨frames, hframes, -⟩ := map_eq_ok hread
    exact FrameRecord.textRow.takeEntries_astray hbefore hc hframes
  | properties hbefore =>
    obtain ⟨body, rfl⟩ := PropertyRecord.textRow.beforeColonOf_atField hbefore
    rw [List.append_assoc] at hstrip
    rw [decodeChars_of_strip (.properties []) hstrip (.cons _)] at hread
    obtain ⟨entries, hentries, -⟩ := map_eq_ok hread
    exact PropertyRecord.textRow.takeEntries_astray hbefore hc hentries

/-- A truncated message that ends astray is not read, whatever follows it. -/
theorem EndsAstray.not_completable {cs : List Char} (h : EndsAstray cs)
    (htruncated : decodeChars cs = .error .truncated) (more : List Char) (n : Notification) :
    decodeChars (cs ++ more) ≠ .ok n := by
  obtain ⟨tail, htail, hmore⟩ := exists_stripLineEnds_append more
  obtain hnone | hsome := eq_or_ne (stripLineEnds more) []
  · -- Line ends alone leave it truncated.
    rw [hnone, List.nil_append] at hmore
    have hsame := decodeChars_congr (stripLineEnds_append_ends cs (hmore ▸ htail))
    rw [hsame, htruncated]
    exact nofun
  · obtain ⟨front, ends, hfront, hne, hends, rfl⟩ := h
    obtain ⟨c, ends, rfl⟩ := List.exists_cons_of_ne_nil hne
    have hplain := (endsPlain_stripLineEnds hsome).append (front ++ c :: ends)
    have hstrip := hplain.stripLineEnds_append htail
    rw [List.append_assoc, ← hmore, List.append_assoc front (c :: ends) (stripLineEnds more),
      List.cons_append] at hstrip
    exact hfront.decodeChars_ne_ok (hends c List.mem_cons_self) hstrip n

/-- The reason of a suspension is never truncated. -/
theorem takeReason_ne_truncated {rest : List Char} : takeReason rest ≠ .error .truncated := by
  intro h
  obtain hcolon | ⟨cs, -, h⟩ := bind_eq_error h
  · exact takeDelimiter_ne_truncated hcolon
  · obtain hreason | ⟨reason, -, h⟩ := bind_eq_error h
    · unfold SuspendReason.decodeChars at hreason
      split at hreason
      · cases hreason
      · split at hreason
        · cases hreason
        · exact readLocation_ne_truncated (map_eq_error hreason)
    · cases h

/-- A list of entries is truncated only in a text of one of them. -/
theorem exists_takeText_of_takeEntries {k : Nat} {take : Taker α} {spells : α → List Char → Prop}
    (hrow : TextRow k take spells) {rest : List Char}
    (h : takeEntries take rest = .error .truncated) :
    ∃ front field text, BeforeTextOf k spells front ∧ rest = front ++ text ∧
      takeText field text = .error .truncated := by
  unfold takeEntries at h
  split at h
  · cases h
  · exact hrow.exists_beforeText h

/-- A message that is truncated is so in a text. -/
theorem exists_beforeText {cs : List Char} (h : decodeChars cs = .error .truncated) :
    ∃ front field rest, BeforeText front ∧ stripLineEnds cs = front ++ rest ∧
      takeText field rest = .error .truncated := by
  unfold decodeChars at h
  cases hspan : (stripLineEnds cs).span (· ≠ delimiter) with
  | mk word rest =>
    simp only [hspan] at h
    obtain ⟨hsplit, -, -⟩ := eq_append_of_span hspan
    have hbare {m : Notification} : bare m rest ≠ .error .truncated := by
      cases rest <;> simp [bare]
    -- Only messages that list entries have texts.
    split at h
    · exact absurd h hbare
    · exact absurd h hbare
    · exact absurd h takeReason_ne_truncated
    · next hword =>
      have hentries : takeEntries FrameRecord.take rest = .error .truncated := map_eq_error h
      obtain ⟨front, field, text, hfront, rfl, htext⟩ :=
        exists_takeText_of_takeEntries FrameRecord.textRow hentries
      refine ⟨_, field, text, .stack hfront, ?_, htext⟩
      rw [hsplit, ← hword, String.toList_ofList, List.append_assoc]
    · next hword =>
      have hentries : takeEntries PropertyRecord.take rest = .error .truncated := map_eq_error h
      obtain ⟨front, field, text, hfront, rfl, htext⟩ :=
        exists_takeText_of_takeEntries PropertyRecord.textRow hentries
      refine ⟨_, field, text, .properties hfront, ?_, htext⟩
      rw [hsplit, ← hword, String.toList_ofList, List.append_assoc]
    · cases h

/-- A message that is truncated behind a line end ends inside a text or astray. -/
theorem endsInText_or_endsAstray {lines : List Char}
    (h : decodeChars (lines ++ ['\n']) = .error .truncated) :
    EndsInText (lines ++ ['\n']) ∨ EndsAstray (lines ++ ['\n']) := by
  obtain ⟨front, field, rest, hfront, hstrip, hrest⟩ := exists_beforeText h
  obtain ⟨ends, hends, hne, hcs⟩ : ∃ ends, (∀ c ∈ ends, isLineEnd c = true) ∧ ends ≠ [] ∧
      lines ++ ['\n'] = front ++ rest ++ ends := by
    obtain ⟨tail, htail, hlines⟩ := exists_stripLineEnds_append lines
    rw [stripLineEnds_append_ends _ isLineEnd_of_mem_lineFeed] at hstrip
    refine ⟨tail ++ ['\n'], ?_, by simp, ?_⟩
    · exact List.forall_mem_append.2 ⟨htail, isLineEnd_of_mem_lineFeed⟩
    · rw [← List.append_assoc, ← hstrip, ← hlines]
  rw [hcs]
  obtain ⟨num, n, hnum, hn, rfl | ⟨body, rfl, hbody⟩⟩ := takeText_truncated hrest
  · exact .inr ⟨_, ends, hfront.number hnum hn, hne, hends, rfl⟩
  · -- The text goes on with the line ends; there may be more of them than belong to it.
    obtain hmore | hall := Nat.lt_or_ge n (body ++ ends).length
    · let whole := body ++ ends.take (n - body.length)
      rw [List.length_append] at hmore
      have hlength : (String.ofList whole).length = n := by
        rw [String.length_ofList, List.length_append, List.length_take]
        omega
      have htext : TextField (String.ofList whole) (delimiter :: num ++ delimiter :: whole) :=
        ⟨num, by rwa [hlength], by rwa [hlength], by rw [String.toList_ofList]⟩
      refine .inr ⟨_, ends.drop (n - body.length), hfront.text htext, ?_, ?_, ?_⟩
      · rw [ne_eq, List.drop_eq_nil_iff]
        omega
      · exact fun c hc => hends c (List.mem_of_mem_drop hc)
      · simp [whole]
    · exact .inl ⟨front, num, n, body ++ ends, hfront, hnum, hn, hall, by simp⟩

/-- A message that was found truncated behind a line can be completed exactly if it ends inside a
text, and otherwise it ends astray. -/
theorem truncated_completable_iff {s : String} {lines : List Char}
    (hline : s.toList = lines ++ ['\n']) (h : decode s = .error .truncated) :
    ((∃ t n, decode (s ++ t) = .ok n) ↔ EndsInText s.toList) ∧
      ((∀ t n, decode (s ++ t) ≠ .ok n) ↔ EndsAstray s.toList) := by
  have hread (t : String) : decode (s ++ t) = decodeChars (s.toList ++ t.toList) := by
    rw [decode, String.toList_append]
  have hcompletable (hin : EndsInText s.toList) : ∃ t n, decode (s ++ t) = .ok n := by
    obtain ⟨more, n, hmore⟩ := hin.completable
    exact ⟨String.ofList more, n, by rw [hread, String.toList_ofList, hmore]⟩
  have hastray (hout : EndsAstray s.toList) (t : String) (n : Notification) :
      decode (s ++ t) ≠ .ok n := by
    rw [hread]
    exact hout.not_completable h t.toList n
  -- The two ends exclude each other by what they allow, and there is no third.
  have hcases : EndsInText s.toList ∨ EndsAstray s.toList := by
    rw [hline]
    exact endsInText_or_endsAstray (by rwa [← hline])
  refine ⟨⟨?_, hcompletable⟩, ?_, hastray⟩
  · rintro ⟨t, n, hn⟩
    exact hcases.resolve_right fun hout => hastray hout t n hn
  · intro hnone
    refine hcases.resolve_left fun hin => ?_
    obtain ⟨t, n, hn⟩ := hcompletable hin
    exact hnone t n hn

/-- Of two truncated lines, one ends inside the text that it announces, and the other right behind
the number of characters, so that whatever is put behind it is no notification. -/
theorem cutLines_completable :
    (decode "STACK:2:a\n" = .error .truncated ∧ ∃ t n, decode ("STACK:2:a\n" ++ t) = .ok n) ∧
      decode "STACK:5\n" = .error .truncated ∧ ∀ t n, decode ("STACK:5\n" ++ t) ≠ .ok n := by
  have hnumeral (n : Nat) (digits : List Char) (hvalue : Text.numeral n = digits) :
      Text.IsNumeral n digits := hvalue ▸ Text.isNumeral_numeral n
  have hbefore : BeforeTextOf 3 FrameRecord.Spelling [] :=
    ⟨[], [], [], [], .nil, .nil, by decide, rfl⟩
  have htext : decode "STACK:2:a\n" = .error .truncated := by decide +kernel
  have hnumber : decode "STACK:5\n" = .error .truncated := by decide +kernel
  have hin : EndsInText "STACK:2:a\n".toList :=
    ⟨_, ['2'], 2, ['a', '\n'], .stack hbefore, hnumeral 2 ['2'] (by decide), by decide, by decide,
      by decide⟩
  have hout : EndsAstray "STACK:5\n".toList :=
    ⟨_, ['\n'], .stack (.number hbefore (hnumeral 5 ['5'] (by decide)) (by decide)), by decide,
      by simp [isLineEnd], by decide⟩
  have htextLine : "STACK:2:a\n".toList = "STACK:2:a".toList ++ ['\n'] := by decide
  have hnumberLine : "STACK:5\n".toList = "STACK:5".toList ++ ['\n'] := by decide
  exact ⟨⟨htext, (truncated_completable_iff htextLine htext).1.2 hin⟩, hnumber,
    (truncated_completable_iff hnumberLine hnumber).2.2 hout⟩

end Notification

end BuildStepper.Wire
