import BuildStepper.Proofs.Wire.Field
import BuildStepper.Proofs.Wire.Notification
import BuildStepper.Wire.Command

/-!
# Commands, written and read

Which lines are read as which command, told without the reader. A command is spelled by its name;
one with a location by its name, the file, the last colon and a numeral for the line, with a colon
after the name (`Command.Spelling`). A line is read as a command exactly if it is a spelling of it
with line ends behind (`Command.decode_iff_spelled`).

The file may hold colons and look like anything: what stands before the first colon of a line is the
name, since no name has a colon, and what stands behind the last one is the line, since no numeral
has one either. So a line has one reading, whatever is between the two.

A command is read off one line, so that a location in it is in one line too, and its file has a
name. This is what lets the file of a breakpoint be written without its length when the client is
told of it (`Command.plainFile_of_readLine`).
-/

namespace BuildStepper.Wire

namespace Command

/-- How a command can be written, without line ends: as its name, and with its location behind it if
it carries one. -/
inductive Spelling (c : Command) : List Char → Prop
  | bare : c.location? = none → c.Spelling c.name.toList
  | located {location : Location} {num : List Char} :
      c.location? = some location → location.file.spelling ≠ "" →
      Text.IsNumeral location.line.toNat num →
      c.Spelling (c.name.toList ++
        delimiter :: (location.file.spelling.toList ++ delimiter :: num))

/-- The file of the location that a command carries has a name. -/
def NamedFile (c : Command) : Prop :=
  ∀ location, c.location? = some location → location.file.spelling ≠ ""

/-! ## The name -/

/-- There are nine names of commands. -/
theorem name_mem (c : Command) :
    c.name ∈ ["STEP_INTO", "STEP_OVER", "SUSPEND", "RESUME", "TERMINATE", "STACK", "PROPERTIES",
      "ADD_BREAKPOINT", "REMOVE_BREAKPOINT"] := by
  cases c <;> simp [name]

/-- The names have neither the colon that ends them nor a line end. -/
theorem name_plain (c : Command) :
    delimiter ∉ c.name.toList ∧ ∀ x ∈ c.name.toList, isLineEnd x = false :=
  plain_of_mem rfl c.name_mem

/-- None of them is empty. -/
theorem name_ne_nil (c : Command) : c.name.toList ≠ [] := by
  cases c <;> simp [name]

/-- A command is split at its first colon, if there is one. -/
theorem splitName_eq_iff {cs name : List Char} {rest : Option (List Char)} :
    splitName cs = (name, rest) ↔
      delimiter ∉ name ∧ cs = name ++ rest.elim [] (delimiter :: ·) := by
  constructor
  · intro h
    unfold splitName at h
    split at h
    · next word hspan =>
      obtain ⟨rfl, rfl⟩ := Prod.mk.inj h
      obtain ⟨hcs, hword, -⟩ := eq_append_of_span hspan
      exact ⟨hword, hcs⟩
    · next word c more hspan =>
      obtain ⟨rfl, rfl⟩ := Prod.mk.inj h
      obtain ⟨hcs, hword, hnil | ⟨rest, hcons⟩⟩ := eq_append_of_span hspan
      · -- The rest begins with a character, so that it is one behind a colon.
        cases hnil
      · obtain ⟨rfl, -⟩ := List.cons.inj hcons
        exact ⟨hword, hcs⟩
  · rintro ⟨hname, rfl⟩
    unfold splitName
    cases rest with
    | none => rw [Option.elim_none, span_append hname .nil]
    | some rest => rw [Option.elim_some, span_append hname (.cons rest)]

/-! ## What stands behind the name -/

/-- A command without a location is read just if nothing stands behind its name. -/
theorem bare_eq_ok_iff {c d : Command} {rest : Option (List Char)} :
    bare c rest = .ok d ↔ d = c ∧ rest = none := by
  cases rest with
  | none => simp [bare, eq_comm]
  | some rest => simp [bare]

/-- A command with a location is read just if a location stands behind its name. -/
theorem located_eq_ok_iff {make : Location → Command} {rest : Option (List Char)} {c : Command} :
    located make rest = .ok c ↔
      ∃ cs location, rest = some cs ∧ readLocation cs = .ok location ∧ c = make location := by
  cases rest with
  | none => simp [located]
  | some cs =>
    constructor
    · intro h
      obtain ⟨location, hlocation, rfl⟩ := map_eq_ok h
      exact ⟨cs, location, rfl, hlocation, rfl⟩
    · rintro ⟨_, location, hcs, hlocation, rfl⟩
      obtain rfl := Option.some.inj hcs
      rw [located, hlocation]
      rfl

/-- What is read behind the name of a command. -/
def takeRest (rest : Option (List Char)) : Command → Except WireError Command
  | addBreakpoint _ => located addBreakpoint rest
  | removeBreakpoint _ => located removeBreakpoint rest
  | c => bare c rest

/-- Which command is read, and of what, is settled by the name. -/
theorem decodeChars_of_splitName {cs : List Char} {rest : Option (List Char)} (c : Command)
    (h : splitName (stripLineEnds cs) = (c.name.toList, rest)) :
    decodeChars cs = c.takeRest rest := by
  unfold decodeChars
  rw [h]
  simp only [String.ofList_toList]
  cases c <;> rfl

/-- What is read stands behind its name. -/
theorem exists_takeRest {cs : List Char} {c : Command} (h : decodeChars cs = .ok c) :
    ∃ rest, splitName (stripLineEnds cs) = (c.name.toList, rest) ∧ c.takeRest rest = .ok c := by
  unfold decodeChars at h
  cases hsplit : splitName (stripLineEnds cs) with
  | mk word rest =>
    simp only [hsplit] at h
    -- Every branch reads a command of the name that it has matched.
    have hbare {d : Command} (hread : bare d rest = .ok c) (hword : String.ofList word = d.name)
        (htake : d.takeRest rest = bare d rest) :
        ∃ rest', (word, rest) = (c.name.toList, rest') ∧ c.takeRest rest' = .ok c := by
      obtain ⟨rfl, -⟩ := bare_eq_ok_iff.1 hread
      exact ⟨rest, by rw [← hword, String.toList_ofList], htake.trans hread⟩
    have hlocated {make : Location → Command} (hread : located make rest = .ok c)
        (hword : ∀ l, String.ofList word = (make l).name)
        (htake : ∀ l, (make l).takeRest rest = located make rest) :
        ∃ rest', (word, rest) = (c.name.toList, rest') ∧ c.takeRest rest' = .ok c := by
      obtain ⟨_, location, -, -, rfl⟩ := located_eq_ok_iff.1 hread
      exact ⟨rest, by rw [← hword location, String.toList_ofList], (htake location).trans hread⟩
    split at h
    iterate 7
      · next hword => exact hbare h hword rfl
    · next hword => exact hlocated h (fun _ => hword) fun _ => rfl
    · next hword => exact hlocated h (fun _ => hword) fun _ => rfl
    · cases h

/-- A command is read behind its name exactly if its location is there, or nothing where it carries
none. -/
theorem takeRest_eq_ok_iff {c : Command} {rest : Option (List Char)} :
    c.takeRest rest = .ok c ↔
      c.location? = none ∧ rest = none ∨
      ∃ location cs, c.location? = some location ∧ rest = some cs ∧
        readLocation cs = .ok location := by
  cases c with
  | addBreakpoint l | removeBreakpoint l =>
    rw [takeRest, located_eq_ok_iff]
    simp [location?, eq_comm]
  | _ => simp [takeRest, bare_eq_ok_iff, location?]

/-! ## Spellings -/

/-- The last character of a spelling is no line end. -/
theorem Spelling.endsPlain {c : Command} {w : List Char} (h : c.Spelling w) : EndsPlain w := by
  cases h with
  | bare _ => exact .of_forall c.name_ne_nil c.name_plain.2
  | @located location num _ _ hnum =>
    have hid := ((endsPlain_isNumeral hnum).append [delimiter]).append location.file.spelling.toList
    exact (hid.append [delimiter]).append c.name.toList

/-- A line is read as the command that it spells without the line ends behind it. -/
theorem decodeChars_eq_ok_iff {cs : List Char} {c : Command} :
    decodeChars cs = .ok c ↔ c.Spelling (stripLineEnds cs) := by
  constructor
  · intro h
    obtain ⟨rest, hsplit, hrest⟩ := exists_takeRest h
    obtain ⟨-, hcs⟩ := splitName_eq_iff.1 hsplit
    rw [hcs]
    obtain ⟨hnone, rfl⟩ | ⟨location, ds, hlocation, rfl, hread⟩ := takeRest_eq_ok_iff.1 hrest
    · rw [Option.elim_none, List.append_nil]
      exact .bare hnone
    · -- What stands behind the colon is read as a location from its end.
      obtain ⟨num, hnum, hnamed, rfl⟩ := readLocation_eq_ok_iff.1 hread
      exact .located hlocation hnamed hnum
  · intro h
    generalize hw : stripLineEnds cs = w at h
    cases h with
    | bare hnone =>
      have hsplit : splitName (stripLineEnds cs) = (c.name.toList, none) :=
        splitName_eq_iff.2 ⟨c.name_plain.1, by rw [hw, Option.elim_none, List.append_nil]⟩
      rw [c.decodeChars_of_splitName hsplit]
      exact takeRest_eq_ok_iff.2 (.inl ⟨hnone, rfl⟩)
    | @located location num hlocation hnamed hnum =>
      have hsplit : splitName (stripLineEnds cs) =
          (c.name.toList, some (location.file.spelling.toList ++ delimiter :: num)) :=
        splitName_eq_iff.2 ⟨c.name_plain.1, hw⟩
      have hread : readLocation (location.file.spelling.toList ++ delimiter :: num) =
          .ok location := readLocation_eq_ok_iff.2 ⟨num, hnum, hnamed, rfl⟩
      rw [c.decodeChars_of_splitName hsplit]
      exact takeRest_eq_ok_iff.2 (.inr ⟨location, _, hlocation, rfl, hread⟩)

/-- A spelling is read whatever line ends follow. -/
theorem Spelling.decodeChars {c : Command} {w : List Char} (hw : c.Spelling w) {ends : List Char}
    (hends : ∀ x ∈ ends, isLineEnd x = true) : decodeChars (w ++ ends) = .ok c := by
  rw [decodeChars_eq_ok_iff, hw.endsPlain.stripLineEnds_append hends]
  exact hw

/-- What is written is a spelling. -/
theorem NamedFile.spelling_encodeChars {c : Command} (h : c.NamedFile) :
    c.Spelling c.encodeChars := by
  unfold encodeChars
  split
  · next hnone => exact .bare hnone
  · next location hlocation =>
    exact .located hlocation (h location hlocation) (Text.isNumeral_numeral _)

/-- What can be spelled has a file that can be written. -/
theorem Spelling.namedFile {c : Command} {w : List Char} (h : c.Spelling w) : c.NamedFile := by
  intro location hlocation
  cases h with
  | bare hnone =>
    rw [hnone] at hlocation
    cases hlocation
  | located hother hnamed _ =>
    rw [hother] at hlocation
    obtain rfl := Option.some.inj hlocation
    exact hnamed

/-- A line is read as a command exactly if it is one of its spellings with line ends behind it. What
is written is a spelling, so that it is read as what it was written for, and no other command is
written alike; and what was read is the same after it was written and read again. -/
theorem decode_iff_spelled (s : String) (c : Command) :
    (decode s = .ok c ↔ ∃ w ends, s.toList = w ++ ends ∧ (∀ x ∈ ends, x = '\n' ∨ x = '\r') ∧
      c.Spelling w) ∧
    (c.NamedFile → c.Spelling c.encodeChars ∧ decode c.encode = .ok c) ∧
    (∀ d : Command, c.NamedFile → d.NamedFile → (c.encode = d.encode ↔ c = d)) ∧
    (decode s = .ok c → decode c.encode = .ok c) := by
  -- What is written is one of its own spellings, with no line end.
  have hwritten {d : Command} (hnamed : d.NamedFile) : decode d.encode = .ok d := by
    have hread := hnamed.spelling_encodeChars.decodeChars (List.forall_mem_nil _)
    rwa [List.append_nil, ← String.toList_ofList (l := d.encodeChars)] at hread
  refine ⟨⟨?_, ?_⟩, ?_, ?_, ?_⟩
  · intro h
    obtain ⟨ends, hends, hs⟩ := exists_stripLineEnds_append s.toList
    exact ⟨_, ends, hs, by simpa [isLineEnd] using hends, decodeChars_eq_ok_iff.1 h⟩
  · rintro ⟨w, ends, hs, hends, hw⟩
    rw [decode, hs]
    exact hw.decodeChars (by simpa [isLineEnd] using hends)
  · exact fun hnamed => ⟨hnamed.spelling_encodeChars, hwritten hnamed⟩
  · intro d hc hd
    constructor
    · intro hsame
      have hread : decode d.encode = .ok c := hsame ▸ hwritten hc
      exact Except.ok.inj (hread.symm.trans (hwritten hd))
    · exact fun heq => congrArg encode heq
  · intro h
    exact hwritten (decodeChars_eq_ok_iff.1 h).namedFile

/-- A file that looks like a command with a location, on a line with more than its numeral needs. -/
def nestedBreakpoint : Command := .addBreakpoint ⟨⟨"RESUME:\r\n:7"⟩, 12⟩

/-- It is read, written and read again, and written as no other command is. -/
theorem nestedBreakpoint_spelled :
    decode "ADD_BREAKPOINT:RESUME:\r\n:7:+012\r\n" = .ok nestedBreakpoint ∧
    nestedBreakpoint.NamedFile ∧ decode nestedBreakpoint.encode = .ok nestedBreakpoint ∧
    nestedBreakpoint.encode ≠ encode (.addBreakpoint ⟨⟨"RESUME:\r\n"⟩, 712⟩) := by
  obtain ⟨hiff, hwritten, hother, hagain⟩ :=
    decode_iff_spelled "ADD_BREAKPOINT:RESUME:\r\n:7:+012\r\n" nestedBreakpoint
  have hnum : Text.numeral? 13 ['+', '0', '1', '2'] = some 12 := by decide
  have hspelled : nestedBreakpoint.Spelling _ :=
    .located rfl (by decide) (Text.numeral?_eq_some_iff_isNumeral.1 hnum).1
  have hread := hiff.2 ⟨_, ['\r', '\n'], by decide, by simp, hspelled⟩
  have hnamed : NamedFile (.addBreakpoint ⟨⟨"RESUME:\r\n"⟩, 712⟩) := by
    rintro location hlocation
    obtain rfl := Option.some.inj hlocation
    decide
  have hapart := hother _ hspelled.namedFile hnamed
  exact ⟨hread, hspelled.namedFile, (hwritten hspelled.namedFile).2,
    fun hsame => absurd (hapart.1 hsame) (by decide)⟩

/-- The file of a location that is read off a line as a command has a name and no line feed. -/
theorem plainFile_of_readLine {limit : Nat} {stream rest : Stream} {line : String} {c : Command}
    {location : Location} (hread : readLine limit stream = (.ok (some line), rest))
    (hdecode : decode line = .ok c) (hlocation : c.location? = some location) :
    location.PlainFile := by
  obtain ⟨text, ending, hline, htext, -, -, hending⟩ := readLine_eq_ok hread
  have hspelled := decodeChars_eq_ok_iff.1 hdecode
  refine ⟨hspelled.namedFile location hlocation, fun hmem => htext ?_⟩
  -- Without the line ends after it, the line has no line feed.
  rw [hline, stripLineEnds_append_ends _ (isLineEnd_of_mem_ending hending)] at hspelled
  refine (stripLineEnds_prefixOf text).subset ?_
  generalize stripLineEnds text = w at hspelled
  cases hspelled with
  | bare hnone =>
    rw [hnone] at hlocation
    cases hlocation
  | located hother _ _ =>
    rw [hother] at hlocation
    obtain rfl := Option.some.inj hlocation
    simp [hmem]

end Command

end BuildStepper.Wire
