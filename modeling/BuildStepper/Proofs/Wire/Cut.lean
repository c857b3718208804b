import BuildStepper.Proofs.Wire.Completion

/-!
# Notifications cut inside a text

A notification is sent as it is, and its texts may hold line feeds. A reader that goes by lines sees
it cut behind each of them, and drops the line ends at the cut before it reads. `decode_cut_in_text`
says what it finds: always that the notification is truncated.

Every line feed of a stack or a property list stands inside a text (`StandsInText`), for nothing
else that is written has one. In front of it the text has been announced with all its characters.
At the cut fewer of them are left, and no line end is dropped beyond the colon at which the text
begins (`StandsInText.stripLineEnds`).
-/

namespace BuildStepper.Wire

variable {α : Type}

/-! ## Texts -/

/-- The texts of a frame, as they are written one after the other. -/
def FrameRecord.texts (f : FrameRecord) : List String :=
  [f.target, f.task, f.file]

/-- The texts of a property, as they are written one after the other. -/
def PropertyRecord.texts (p : PropertyRecord) : List String :=
  [p.name, p.value]

/-- The texts of a stack or a property list. -/
def Notification.texts : Notification → List String
  | .stack frames => frames.flatMap FrameRecord.texts
  | .properties entries => entries.flatMap PropertyRecord.texts
  | _ => []

/-- The line feed between `front` and `back` stands inside a text of the notification: first come
whole entries and earlier texts of the same entry, then the number of the characters, and then
these. -/
def StandsInText (n : Notification) (front back : List Char) : Prop :=
  ∃ before, ∃ text ∈ n.texts, ∃ inner outer after, Notification.BeforeText before ∧
    text.toList = inner ++ '\n' :: outer ∧
    front = before ++ putRaw (Text.numeral text.length) ++ delimiter :: inner ∧
    back = outer ++ after

/-- With line ends dropped, what stands up to such a line feed ends inside the same text, and has
fewer characters of it than are announced. -/
theorem StandsInText.stripLineEnds {n : Notification} {front back : List Char}
    (h : StandsInText n front back) {ends : List Char} (hends : ∀ c ∈ ends, isLineEnd c = true) :
    ∃ before, ∃ text ∈ n.texts, ∃ kept, Notification.BeforeText before ∧
      kept.length < text.length ∧ Wire.stripLineEnds (front ++ '\n' :: ends) =
        before ++ putRaw (Text.numeral text.length) ++ delimiter :: kept := by
  obtain ⟨before, text, htext, inner, outer, -, hbefore, hsplit, rfl, -⟩ := h
  have hshort := length_stripLineEnds_lt hsplit
  refine ⟨before, text, htext, Wire.stripLineEnds inner, hbefore, hshort, ?_⟩
  rw [stripLineEnds_append_ends _ (List.forall_mem_cons.2 ⟨rfl, hends⟩),
    stripLineEnds_append_cons rfl]

/-! ## Where a line feed stands -/

section Entries

variable {k : Nat} {put : α → List Char} {spells : α → List Char → Prop} {texts : α → List String}

/-- A line feed of an entry that is written as its texts and a last field without one. -/
theorem exists_cut_of_texts {ts : List String} {last front back : List Char} (hlast : '\n' ∉ last)
    (h : ts.flatMap putText ++ last = front ++ '\n' :: back) :
    ∃ first text later inner outer after, ts = first ++ text :: later ∧
      text.toList = inner ++ '\n' :: outer ∧
      front = first.flatMap putText ++ putRaw (Text.numeral text.length) ++ delimiter :: inner ∧
      back = outer ++ after := by
  obtain ⟨more, hmore, rfl⟩ | ⟨inner, -, rfl⟩ := append_eq_append_cons h
  · obtain ⟨first, text, later, field, outer, rfl, htext, rfl, rfl⟩ := exists_cut_of_flatMap hmore
    obtain ⟨inner, rfl, hinner⟩ := exists_cut_of_putText htext
    exact ⟨first, text, later, inner, outer, _, rfl, hinner, (List.append_assoc _ _ _).symm,
      List.append_assoc _ _ _⟩
  · exact absurd List.mem_append_cons_self hlast

/-- A line feed of a list of entries, each written as its texts and a last field without one. -/
theorem exists_cut_of_entries {as : List α} {front back : List Char}
    (hput : ∀ a, ∃ last, '\n' ∉ last ∧ put a = (texts a).flatMap putText ++ last)
    (hlength : ∀ a, (texts a).length = k) (hspells : ∀ a ∈ as, spells a (put a))
    (hcount : ∀ a ∈ as, ∀ text ∈ texts a, text.length < countLimit)
    (h : as.flatMap put = front ++ '\n' :: back) :
    ∃ before, ∃ text ∈ as.flatMap texts, ∃ inner outer after, BeforeTextOf k spells before ∧
      text.toList = inner ++ '\n' :: outer ∧
      front = before ++ putRaw (Text.numeral text.length) ++ delimiter :: inner ∧
      back = outer ++ after := by
  -- First the entry that has the line feed, then its text.
  obtain ⟨first, a, later, inner, outer, rfl, ha, rfl, rfl⟩ := exists_cut_of_flatMap h
  obtain ⟨last, hlast, hfields⟩ := hput a
  rw [hfields] at ha
  obtain ⟨earlier, text, others, inner, rest, after, htexts, htext, rfl, rfl⟩ :=
    exists_cut_of_texts hlast ha
  have hmem : text ∈ texts a := by
    rw [htexts]
    exact List.mem_append_cons_self
  have hin : a ∈ first ++ a :: later := List.mem_append_cons_self
  refine ⟨first.flatMap put ++ earlier.flatMap putText, text, List.mem_flatMap.2 ⟨a, hin, hmem⟩,
    inner, rest, after ++ later.flatMap put, ?_, htext, ?_, List.append_assoc _ _ _⟩
  · refine ⟨first, first.flatMap put, earlier, earlier.flatMap putText, ?_, ?_, ?_, rfl⟩
    · exact .flatMap fun b hb => hspells b (List.mem_append_left _ hb)
    · refine .flatMap fun t ht => textField_putText (hcount a hin t ?_)
      rw [htexts]
      exact List.mem_append_left _ ht
    · rw [← hlength a, htexts, List.length_append, List.length_cons]
      omega
  · simp only [List.append_assoc]

end Entries

/-- A frame is written as its texts and its line, which has no line feed. -/
theorem FrameRecord.exists_last (f : FrameRecord) :
    ∃ last, '\n' ∉ last ∧ f.encodeChars = f.texts.flatMap putText ++ last := by
  refine ⟨putLine f.line, ?_, by simp [encodeChars, texts]⟩
  simp only [putLine, putRaw, List.mem_cons, not_or]
  exact ⟨by decide, lineFeed_not_mem_numeral _⟩

/-- A property is written as its texts and its marker, which has no line feed. -/
theorem PropertyRecord.exists_last (p : PropertyRecord) :
    ∃ last, '\n' ∉ last ∧ p.encodeChars = p.texts.flatMap putText ++ last := by
  refine ⟨putRaw [p.provenance.marker], ?_, by simp [encodeChars, texts]⟩
  rw [putRaw, List.mem_cons, not_or]
  exact ⟨by decide, p.provenance.marker_plain.2⟩

/-- The characters of each text of a frame can be counted if the frame can be read. -/
theorem FrameRecord.texts_lt {f : FrameRecord} (h : f.Countable) :
    ∀ text ∈ f.texts, text.length < countLimit := by
  simpa [texts] using ⟨h.target, h.task, h.file⟩

/-- So can those of each text of a property. -/
theorem PropertyRecord.texts_lt {p : PropertyRecord} (h : p.Countable) :
    ∀ text ∈ p.texts, text.length < countLimit := by
  simpa [texts] using ⟨h.name, h.value⟩

namespace Notification

/-- Every line feed of a stack or a property list stands inside a text. -/
theorem standsInText {n : Notification} (hcount : n.Countable)
    (hlist : (∃ frames, n = .stack frames) ∨ ∃ entries, n = .properties entries)
    {front back : List Char} (h : n.encodeChars = front ++ '\n' :: back) :
    StandsInText n front back := by
  -- The name has no line feed, so that it is one of the fields.
  obtain ⟨inner, rfl, hinner⟩ := exists_of_append_eq n.lineFeed_not_mem_name h
  obtain ⟨frames, rfl⟩ | ⟨entries, rfl⟩ := hlist
  · obtain ⟨before, text, htext, inner', outer, after, hbefore, hsplit, rfl, hback⟩ :=
      exists_cut_of_entries (k := 3) FrameRecord.exists_last (fun _ => rfl)
        (fun f hf => FrameRecord.spelling_encodeChars (hcount f hf))
        (fun f hf => FrameRecord.texts_lt (hcount f hf)) hinner
    refine ⟨_, text, htext, inner', outer, after, .stack hbefore, hsplit, ?_, hback⟩
    simp only [List.append_assoc]
    rfl
  · obtain ⟨before, text, htext, inner', outer, after, hbefore, hsplit, rfl, hback⟩ :=
      exists_cut_of_entries (k := 2) PropertyRecord.exists_last (fun _ => rfl)
        (fun p hp => PropertyRecord.spelling_encodeChars (hcount p hp))
        (fun p hp => PropertyRecord.texts_lt (hcount p hp)) hinner
    refine ⟨_, text, htext, inner', outer, after, .properties hbefore, hsplit, ?_, hback⟩
    simp only [List.append_assoc]
    rfl

/-! ## The cut -/

/-- A text field is taken off as it was written, whatever follows it. In a stack or a property list
every line feed stands inside a text. Cut behind one, with the line feed and any line ends after it,
the message ends inside that text without them, and is found truncated. -/
theorem decode_cut_in_text {n : Notification} (hcount : n.Countable)
    (hlist : (∃ frames, n = .stack frames) ∨ ∃ entries, n = .properties entries) :
    (∀ (field : Field) (text : String) (rest : List Char), text.length < countLimit →
      takeText field (putText text ++ rest) = .ok (text, rest)) ∧
    ∀ front back, n.encode.toList = front ++ '\n' :: back →
      StandsInText n front back ∧
      ∀ ends : List Char, (∀ c ∈ ends, isLineEnd c = true) →
        (∃ before, ∃ text ∈ n.texts, ∃ kept, BeforeText before ∧ kept.length < text.length ∧
          stripLineEnds (front ++ '\n' :: ends) =
            before ++ putRaw (Text.numeral text.length) ++ delimiter :: kept) ∧
        decode (String.ofList (front ++ '\n' :: ends)) = .error .truncated := by
  refine ⟨fun field text rest hlength => (textField_putText hlength).taken field rest, ?_⟩
  intro front back h
  rw [encode, String.toList_ofList] at h
  have hstands := standsInText hcount hlist h
  refine ⟨hstands, fun ends hends => ⟨hstands.stripLineEnds hends, ?_⟩⟩
  have hplain : n.PlainFile := by
    obtain ⟨frames, rfl⟩ | ⟨entries, rfl⟩ := hlist
    · trivial
    · trivial
  -- The line ends behind the cut are trimmed, so that they make no difference.
  rw [decode, String.toList_ofList, ← decodeChars_cut hcount hplain h]
  refine decodeChars_congr ?_
  rw [List.append_cons]
  exact stripLineEnds_append_ends _ hends

/-- A property whose value has line ends one after the other, behind another property. -/
def brokenValue : Notification :=
  .properties [⟨"os", "x", .system⟩, ⟨"b", "a\r\n\nc", .user⟩]

/-- Behind either line feed of the value the message is truncated, although without the line ends
nothing but the first character of the value is left. -/
theorem brokenValue_cut :
    brokenValue.Countable ∧ brokenValue.encode = "PROPERTIES:2:os:1:x:S:1:b:5:a\r\n\nc:U" ∧
      decode "PROPERTIES:2:os:1:x:S:1:b:5:a\r\n" = .error .truncated ∧
      decode "PROPERTIES:2:os:1:x:S:1:b:5:a\r\n\n" = .error .truncated := by
  have hcount : brokenValue.Countable := by
    exact List.forall_mem_cons.2 ⟨⟨by decide, by decide⟩,
      List.forall_mem_singleton.2 ⟨by decide, by decide⟩⟩
  obtain ⟨-, hcut⟩ := decode_cut_in_text hcount (.inr ⟨_, rfl⟩)
  have hfirst := hcut "PROPERTIES:2:os:1:x:S:1:b:5:a\r".toList "\nc:U".toList (by decide +kernel)
  have hsecond := hcut "PROPERTIES:2:os:1:x:S:1:b:5:a\r\n".toList "c:U".toList (by decide +kernel)
  exact ⟨hcount, by decide +kernel, (hfirst.2 [] (by simp)).2, (hsecond.2 [] (by simp)).2⟩

end Notification

end BuildStepper.Wire
