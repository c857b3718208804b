import BuildStepper.Proofs.Results
import BuildStepper.Proofs.Text.Basic
import BuildStepper.Proofs.Wire.Line
import BuildStepper.Wire.Field
import Mathlib.Data.List.DropRight
import Mathlib.Data.List.TakeDrop

/-!
# Fields, written and taken

What is written of a field is taken off a message as it was, whatever field comes next. A message
that is cut behind a line feed inside a text is found to be truncated, and nothing else is wrong
with it, although the line ends at the cut are dropped before it is read: the text is then still
shorter than it was announced. `Written` says this of one reader and what was written for it, and is
put together field by field (`Written.bind`).

In the other direction what was taken is determined up to the spelling of numbers. The spelling that
is written is the shortest (`Covers`).
-/

namespace BuildStepper.Wire

variable {α β : Type}

/-! ## Line ends -/

/-- Line ends that follow are dropped. -/
theorem stripLineEnds_append_ends (cs : List Char) {ends : List Char}
    (h : ∀ c ∈ ends, isLineEnd c = true) : stripLineEnds (cs ++ ends) = stripLineEnds cs :=
  Text.dropEndWhile_append cs h

/-- A line feed is a line end. -/
theorem isLineEnd_of_mem_lineFeed : ∀ c ∈ ['\n'], isLineEnd c = true :=
  List.forall_mem_singleton.2 rfl

/-- What a line that is read ends with is a line end, if there is anything. -/
theorem isLineEnd_of_mem_ending {line ending : List Char}
    (h : ending = ['\n'] ∨ ending = [] ∧ line ≠ []) : ∀ c ∈ ending, isLineEnd c = true := by
  obtain rfl | ⟨rfl, -⟩ := h
  · exact isLineEnd_of_mem_lineFeed
  · simp

/-- No line end is dropped before another character. -/
theorem stripLineEnds_append_cons {c : Char} (h : isLineEnd c = false) (front back : List Char) :
    stripLineEnds (front ++ c :: back) = front ++ c :: stripLineEnds back := by
  unfold stripLineEnds Text.dropEndWhile
  rw [List.reverse_append, List.reverse_cons, List.append_assoc, List.dropWhile_append]
  split
  · next hnone =>
    rw [List.isEmpty_iff.1 hnone, List.singleton_append, List.dropWhile_cons_of_neg (by simp [h])]
    simp
  · simp

/-- A character that is no line end is not dropped from the front. -/
theorem stripLineEnds_cons {c : Char} (h : isLineEnd c = false) (cs : List Char) :
    stripLineEnds (c :: cs) = c :: stripLineEnds cs :=
  stripLineEnds_append_cons h [] cs

/-- Nothing is dropped but at the end. -/
theorem stripLineEnds_prefixOf (cs : List Char) : stripLineEnds cs <+: cs :=
  List.rdropWhile_prefix isLineEnd cs

/-- What is dropped are line ends. -/
theorem exists_stripLineEnds_append (cs : List Char) :
    ∃ ends, (∀ c ∈ ends, isLineEnd c = true) ∧ cs = stripLineEnds cs ++ ends :=
  Text.exists_dropEndWhile_append isLineEnd cs

/-! ## Readers -/

/-- A reader takes something off the front of a message and returns it with what is left. -/
abbrev Taker (α : Type) := List Char → Except WireError (α × List Char)

/-- Nothing is left of a message, or a field is next. -/
def AtField (cs : List Char) : Prop :=
  cs = [] ∨ ∃ rest, cs = delimiter :: rest

/-- At the end of a message nothing is left of it. -/
theorem AtField.nil : AtField [] := .inl rfl

/-- At a colon a field is next. -/
theorem AtField.cons (cs : List Char) : AtField (delimiter :: cs) := .inr ⟨cs, rfl⟩

/-- What was written for a reader. -/
structure Written (take : Taker α) (cs : List Char) (a : α) : Prop where
  /-- It begins with the colon of its first field. -/
  starts : ∃ body, cs = delimiter :: body
  /-- It is taken as it was written. -/
  taken : ∀ rest, AtField rest → take (cs ++ rest) = .ok (a, rest)
  /-- Cut behind any of its line feeds, it is truncated. -/
  cut : ∀ front back, cs = front ++ '\n' :: back → take (stripLineEnds front) = .error .truncated

/-- A cut behind a line feed is a cut of the first part, or of the second with the first before
it. -/
theorem cut_append {cs ds front back : List Char} (hds : AtField ds)
    (h : cs ++ ds = front ++ '\n' :: back) :
    (∃ more, cs = front ++ '\n' :: more) ∨
      ∃ inner, ds = inner ++ '\n' :: back ∧ AtField (stripLineEnds inner) ∧
        stripLineEnds front = cs ++ stripLineEnds inner := by
  obtain ⟨more, hcs, -⟩ | ⟨inner, rfl, hinner⟩ := append_eq_append_cons h
  · exact .inl ⟨more, hcs⟩
  · refine .inr ⟨inner, hinner, ?_⟩
    -- The second part begins with a colon, and so does what is left of it.
    cases inner with
    | nil =>
      obtain rfl | ⟨rest, rfl⟩ := hds
      · cases hinner
      · exact absurd (List.cons.inj hinner).1 (by decide)
    | cons c inner =>
      obtain rfl | ⟨rest, rfl⟩ := hds
      · cases hinner
      · obtain rfl := (List.cons.inj hinner).1
        rw [stripLineEnds_append_cons rfl, stripLineEnds_cons rfl]
        exact ⟨.cons _, rfl⟩

/-- What was written for one reader and then for the next, for both in turn. -/
theorem Written.bind {take : Taker α} {cs : List Char} {a : α}
    {next : α × List Char → Except WireError (β × List Char)} {ds : List Char} {b : β}
    (hfirst : Written take cs a) (hnext : Written (fun rest => next (a, rest)) ds b) :
    Written (fun cs => take cs >>= next) (cs ++ ds) b where
  starts := by
    obtain ⟨body, rfl⟩ := hfirst.starts
    exact ⟨body ++ ds, rfl⟩
  taken rest hrest := by
    have hds : AtField (ds ++ rest) := by
      obtain ⟨body, rfl⟩ := hnext.starts
      exact .cons _
    simp only [List.append_assoc, hfirst.taken _ hds]
    exact hnext.taken rest hrest
  cut front back h := by
    have hds : AtField ds := by
      obtain ⟨body, rfl⟩ := hnext.starts
      exact .cons _
    obtain ⟨more, hcs⟩ | ⟨inner, hinner, hfield, hstrip⟩ := cut_append hds h
    · simp only [hfirst.cut front more hcs]
      rfl
    · simp only [hstrip, hfirst.taken _ hfield]
      exact hnext.cut inner back hinner

/-- What is taken may be made into something else. -/
theorem Written.map {take : Taker α} {cs : List Char} {a : α}
    {next : α × List Char → Except WireError (β × List Char)} {b : β} (h : Written take cs a)
    (hnext : ∀ rest, next (a, rest) = .ok (b, rest)) :
    Written (fun cs => take cs >>= next) cs b where
  starts := h.starts
  taken rest hrest := by
    simp only [h.taken rest hrest]
    exact hnext rest
  cut front back hcut := by
    simp only [h.cut front back hcut]
    rfl

/-! ## What is written is taken -/

/-- A numeral has neither a colon nor a line end. -/
theorem isNumeral_plain {n : Nat} {num : List Char} (h : Text.IsNumeral n num) :
    delimiter ∉ num ∧ ∀ c ∈ num, isLineEnd c = false := by
  constructor
  · intro hmem
    exact absurd (h.isDigit_or_plus hmem) (by decide)
  · intro c hc
    have hdigit := h.isDigit_or_plus hc
    rw [isLineEnd, Bool.or_eq_false_iff, decide_eq_false_iff_not, decide_eq_false_iff_not]
    constructor
    · rintro rfl
      exact absurd hdigit (by decide)
    · rintro rfl
      exact absurd hdigit (by decide)

/-- The numeral that is written has no colon. -/
theorem delimiter_not_mem_numeral (n : Nat) : delimiter ∉ Text.numeral n :=
  (isNumeral_plain (Text.isNumeral_numeral n)).1

/-- Nor has it a line feed. -/
theorem lineFeed_not_mem_numeral (n : Nat) : '\n' ∉ Text.numeral n :=
  fun h => absurd ((isNumeral_plain (Text.isNumeral_numeral n)).2 _ h) (by decide)

/-- What stands before the first colon is the name. -/
theorem span_append {name rest : List Char} (hname : delimiter ∉ name) (hrest : AtField rest) :
    (name ++ rest).span (· ≠ delimiter) = (name, rest) := by
  have hall : ∀ c ∈ name, decide (c ≠ delimiter) = true := fun c hc =>
    decide_eq_true fun heq => hname (heq ▸ hc)
  rw [List.span_eq_takeWhile_dropWhile, List.takeWhile_append_of_pos hall,
    List.dropWhile_append_of_pos hall]
  obtain rfl | ⟨rest, rfl⟩ := hrest
  · simp
  · simp

/-- A field without a length is taken up to the next one. -/
theorem takeRaw_putRaw (field : Field) {raw rest : List Char} (hraw : delimiter ∉ raw)
    (hrest : AtField rest) : takeRaw field (putRaw raw ++ rest) = .ok (raw, rest) := by
  have hspan := span_append hraw hrest
  simp only [takeRaw, putRaw, List.cons_append, takeDelimiter, if_true, Except.map, hspan]

/-- It is taken as it was written, if it has neither a colon nor a line feed. -/
theorem written_raw (field : Field) {raw : List Char} (hraw : delimiter ∉ raw)
    (hline : '\n' ∉ raw) : Written (takeRaw field) (putRaw raw) raw where
  starts := ⟨raw, rfl⟩
  taken _ hrest := takeRaw_putRaw field hraw hrest
  cut front back h := by
    have hmem : '\n' ∈ putRaw raw := by
      rw [h]
      exact List.mem_append_cons_self
    obtain heq | hmem := List.mem_cons.1 hmem
    · exact absurd heq (by decide)
    · exact absurd hmem hline

/-- A line number is read off its numerals, and off nothing else. -/
theorem lineNumber_eq_ok_iff {field : Field} {raw : List Char} {line : UInt32} :
    lineNumber field raw = .ok line ↔ Text.IsNumeral line.toNat raw := by
  constructor
  · intro h
    unfold lineNumber at h
    split at h
    · next n hn =>
      obtain ⟨hnumeral, hlimit⟩ := Text.numeral?_eq_some_iff_isNumeral.1 hn
      rwa [← Except.ok.inj h, UInt32.toNat_ofNat_of_lt' hlimit]
    · cases h
  · intro h
    have hread : Text.numeral? lineLimit raw = some line.toNat :=
      Text.numeral?_eq_some_iff_isNumeral.2 ⟨h, line.toNat_lt⟩
    rw [lineNumber, hread]
    exact congrArg Except.ok UInt32.ofNat_toNat

/-- A line number is read off its numeral. -/
theorem lineNumber_numeral (field : Field) (line : UInt32) :
    lineNumber field (Text.numeral line.toNat) = .ok line :=
  lineNumber_eq_ok_iff.2 (Text.isNumeral_numeral line.toNat)

/-- A line number is taken as it was written. -/
theorem written_line (field : Field) (line : UInt32) :
    Written (takeLine field) (putLine line) line where
  starts := ⟨_, rfl⟩
  taken rest hrest := by
    rw [takeLine, putLine, takeRaw_putRaw field (delimiter_not_mem_numeral _) hrest]
    simp only [lineNumber_numeral, Except.map]
  cut front back h := by
    have hraw := written_raw field (delimiter_not_mem_numeral line.toNat)
      (lineFeed_not_mem_numeral line.toNat)
    rw [takeLine, hraw.cut front back h]

/-- A text is as long as it was announced, or it is truncated. -/
theorem takeText_announced (field : Field) {n : Nat} (hn : n < countLimit) {num : List Char}
    (hnum : Text.IsNumeral n num) (body : List Char) :
    takeText field (putRaw num ++ delimiter :: body) =
      if n ≤ body.length then .ok (String.ofList (body.take n), body.drop n)
      else .error .truncated := by
  rw [takeText, takeRaw_putRaw field (isNumeral_plain hnum).1 (.cons body)]
  simp only [Text.numeral?_eq_some_iff_isNumeral.2 ⟨hnum, hn⟩, splitCount_eq]
  by_cases hle : n ≤ body.length
  · simp only [if_pos hle]
  · simp only [if_neg hle]

/-- A text is written behind the number of its characters, with a colon before each of the two. -/
theorem putText_eq (text : String) :
    putText text = putRaw (Text.numeral text.length) ++ delimiter :: text.toList := rfl

/-- A line feed of a text field stands among the characters of the text. -/
theorem exists_cut_of_putText {text : String} {front back : List Char}
    (h : putText text = front ++ '\n' :: back) :
    ∃ inner, front = putRaw (Text.numeral text.length) ++ delimiter :: inner ∧
      text.toList = inner ++ '\n' :: back := by
  have hheader : '\n' ∉ putRaw (Text.numeral text.length) ++ [delimiter] := by
    simp only [putRaw, List.mem_append, List.mem_cons, List.not_mem_nil, or_false, not_or]
    exact ⟨⟨by decide, lineFeed_not_mem_numeral _⟩, by decide⟩
  rw [putText_eq, List.append_cons] at h
  obtain ⟨inner, rfl, hinner⟩ := exists_of_append_eq hheader h
  exact ⟨inner, List.append_assoc _ [delimiter] inner, hinner⟩

/-- What is left of a text that is cut behind a line feed is shorter than the text. -/
theorem length_stripLineEnds_lt {text : String} {inner outer : List Char}
    (h : text.toList = inner ++ '\n' :: outer) : (stripLineEnds inner).length < text.length := by
  have hprefix := (stripLineEnds_prefixOf inner).length_le
  have hlength : text.toList.length = text.length := String.length_toList
  rw [h, List.length_append, List.length_cons] at hlength
  omega

/-- A text is taken as it was written, whatever characters it has. -/
theorem written_text (field : Field) {text : String} (h : text.length < countLimit) :
    Written (takeText field) (putText text) text where
  starts := ⟨_, rfl⟩
  taken rest _ := by
    have hlength : text.toList.length = text.length := String.length_toList
    rw [putText_eq, List.append_assoc, List.cons_append,
      takeText_announced field h (Text.isNumeral_numeral _),
      if_pos (by rw [List.length_append]; omega), List.take_left' hlength,
      List.drop_left' hlength, String.ofList_toList]
  cut front back hcut := by
    obtain ⟨inner, rfl, hinner⟩ := exists_cut_of_putText hcut
    have hshort := length_stripLineEnds_lt hinner
    rw [stripLineEnds_append_cons rfl, takeText_announced field h (Text.isNumeral_numeral _),
      if_neg (Nat.not_le_of_lt hshort)]

/-! ## Entries -/

section Entries

variable {entry : Taker α} {put : α → List Char}

/-- A row of entries begins with a field, if it has an entry. -/
theorem atField_flatMap {as : List α} (h : ∀ a ∈ as, Written entry (put a) a) :
    AtField (as.flatMap put) := by
  cases as with
  | nil => exact .nil
  | cons a as =>
    obtain ⟨body, hbody⟩ := (h a List.mem_cons_self).starts
    rw [List.flatMap_cons, hbody]
    exact .cons _

/-- For as long as anything is left, one more entry is taken. -/
theorem takeEntriesFrom_cons (taken : List α) {fuel : Nat} {cs : List Char} (hcs : cs ≠ []) :
    takeEntriesFrom entry taken (fuel + 1) cs =
      match entry cs with
      | .error e => .error e
      | .ok (a, rest) => takeEntriesFrom entry (a :: taken) fuel rest :=
  if_neg (by simpa using hcs)

/-- Entries are taken as they were written. -/
theorem takeEntriesFrom_flatMap {as : List α} (h : ∀ a ∈ as, Written entry (put a) a)
    (taken : List α) {fuel : Nat} (hfuel : (as.flatMap put).length ≤ fuel) :
    takeEntriesFrom entry taken fuel (as.flatMap put) = .ok (taken.reverse ++ as) := by
  induction as generalizing taken fuel with
  | nil => cases fuel <;> simp [takeEntriesFrom]
  | cons a as ih =>
    have hlater := fun b hb => h b (List.mem_cons_of_mem a hb)
    have htaken := (h a List.mem_cons_self).taken _ (atField_flatMap hlater)
    obtain ⟨body, hbody⟩ := (h a List.mem_cons_self).starts
    have hlength : (put a).length = body.length + 1 := by rw [hbody, List.length_cons]
    rw [List.flatMap_cons, List.length_append, hlength] at hfuel
    obtain ⟨fuel, rfl⟩ : ∃ n, fuel = n + 1 := ⟨fuel - 1, by omega⟩
    rw [List.flatMap_cons, takeEntriesFrom_cons taken (by simp [hbody]), htaken]
    simp only [ih hlater (a :: taken) (by omega : (as.flatMap put).length ≤ fuel),
      List.reverse_cons, List.append_assoc, List.singleton_append]

/-- Entries that are cut behind a line feed are truncated. -/
theorem takeEntriesFrom_cut {as : List α} (h : ∀ a ∈ as, Written entry (put a) a)
    (taken : List α) {front back : List Char} (hcut : as.flatMap put = front ++ '\n' :: back)
    {fuel : Nat} (hfuel : (stripLineEnds front).length ≤ fuel) :
    takeEntriesFrom entry taken fuel (stripLineEnds front) = .error .truncated := by
  induction as generalizing taken front fuel with
  | nil => simp at hcut
  | cons a as ih =>
    have hlater := fun b hb => h b (List.mem_cons_of_mem a hb)
    obtain ⟨body, hbody⟩ := (h a List.mem_cons_self).starts
    rw [List.flatMap_cons] at hcut
    -- The cut is behind the first colon, so that an entry is tried.
    have hnonempty : stripLineEnds front ≠ [] := by
      rw [hbody, List.cons_append] at hcut
      cases front with
      | nil => exact absurd (List.cons.inj hcut).1 (by decide)
      | cons c front =>
        obtain rfl := (List.cons.inj hcut).1
        rw [stripLineEnds_cons rfl]
        exact List.cons_ne_nil _ _
    have hpos : 0 < (stripLineEnds front).length := List.length_pos_iff.2 hnonempty
    obtain ⟨fuel, rfl⟩ : ∃ n, fuel = n + 1 := ⟨fuel - 1, by omega⟩
    rw [takeEntriesFrom_cons taken hnonempty]
    obtain ⟨more, ha⟩ | ⟨inner, hinner, hfield, hstrip⟩ := cut_append (atField_flatMap hlater) hcut
    · rw [(h a List.mem_cons_self).cut front more ha]
    · rw [hstrip, (h a List.mem_cons_self).taken _ hfield]
      refine ih hlater (a :: taken) hinner ?_
      rw [hstrip, hbody, List.cons_append, List.length_cons, List.length_append] at hfuel
      omega

/-- A lone colon is no beginning of an entry, so that the lists of entries are told from it. -/
theorem takeEntries_eq_takeEntriesFrom {e : WireError} (hlone : entry [delimiter] = .error e)
    {cs : List Char} {result : Except WireError (List α)}
    (h : takeEntriesFrom entry [] cs.length cs = result) (hresult : result ≠ .error e) :
    takeEntries entry cs = result := by
  rw [takeEntries, if_neg, h]
  rintro rfl
  rw [List.length_singleton, takeEntriesFrom_cons [] (by simp), hlone] at h
  exact hresult h.symm

/-- A list of entries is taken as it was written. -/
theorem takeEntries_flatMap {e : WireError} (hlone : entry [delimiter] = .error e) {as : List α}
    (h : ∀ a ∈ as, Written entry (put a) a) : takeEntries entry (as.flatMap put) = .ok as :=
  takeEntries_eq_takeEntriesFrom hlone (takeEntriesFrom_flatMap h [] (Nat.le_refl _)) (by simp)

/-- A list of entries that is cut behind a line feed is truncated. -/
theorem takeEntries_cut {e : WireError} (hlone : entry [delimiter] = .error e)
    (hother : e ≠ .truncated) {as : List α} (h : ∀ a ∈ as, Written entry (put a) a)
    {front back : List Char} (hcut : as.flatMap put = front ++ '\n' :: back) :
    takeEntries entry (stripLineEnds front) = .error .truncated :=
  takeEntries_eq_takeEntriesFrom hlone (takeEntriesFrom_cut h [] hcut (Nat.le_refl _))
    fun heq => hother (Except.error.inj heq).symm

end Entries

/-! ## What is taken was there -/

/-- A colon is taken where there is one. -/
theorem takeDelimiter_eq_ok {field : Field} {cs rest : List Char}
    (h : takeDelimiter field cs = .ok rest) : cs = delimiter :: rest := by
  cases cs with
  | nil => cases h
  | cons c cs =>
    simp only [takeDelimiter] at h
    split at h
    · next hc => rw [hc, Except.ok.inj h]
    · cases h

/-- What stands before the first colon, and what from there on. -/
theorem eq_append_of_span {cs name rest : List Char}
    (h : cs.span (· ≠ delimiter) = (name, rest)) :
    cs = name ++ rest ∧ delimiter ∉ name ∧ AtField rest := by
  rw [List.span_eq_takeWhile_dropWhile] at h
  obtain ⟨rfl, rfl⟩ := Prod.mk.inj h
  refine ⟨List.takeWhile_append_dropWhile.symm, ?_, ?_⟩
  · intro hmem
    have hkept := List.mem_takeWhile_imp hmem
    simp at hkept
  · have hhead := List.head?_dropWhile_not (fun c => decide (c ≠ delimiter)) cs
    cases hrest : cs.dropWhile fun c => decide (c ≠ delimiter) with
    | nil => exact .nil
    | cons c rest =>
      rw [hrest] at hhead
      simp only [List.head?_cons, decide_eq_false_iff_not, ne_eq, Classical.not_not] at hhead
      rw [hhead]
      exact .cons rest

/-- A field without a length is taken off just those messages that begin with it. -/
theorem takeRaw_eq_ok_iff {field : Field} {cs raw rest : List Char} :
    takeRaw field cs = .ok (raw, rest) ↔
      cs = putRaw raw ++ rest ∧ delimiter ∉ raw ∧ AtField rest := by
  constructor
  · intro h
    obtain ⟨ds, hds, hspan⟩ := map_eq_ok h
    obtain ⟨rfl, hraw⟩ := eq_append_of_span hspan
    exact ⟨takeDelimiter_eq_ok hds, hraw⟩
  · rintro ⟨rfl, hraw, hrest⟩
    exact takeRaw_putRaw field hraw hrest

/-- A line number is taken off just those messages that begin with a numeral for it. -/
theorem takeLine_eq_ok_iff {field : Field} {cs rest : List Char} {line : UInt32} :
    takeLine field cs = .ok (line, rest) ↔
      ∃ num, Text.IsNumeral line.toNat num ∧ cs = putRaw num ++ rest ∧ AtField rest := by
  constructor
  · intro h
    unfold takeLine at h
    split at h
    · cases h
    · next raw more hraw =>
      obtain ⟨n, hn, heq⟩ := map_eq_ok h
      obtain ⟨rfl, rfl⟩ := Prod.mk.inj heq
      obtain ⟨hcs, -, hrest⟩ := takeRaw_eq_ok_iff.1 hraw
      exact ⟨raw, lineNumber_eq_ok_iff.1 hn, hcs, hrest⟩
  · rintro ⟨num, hnum, rfl, hrest⟩
    rw [takeLine, takeRaw_putRaw field (isNumeral_plain hnum).1 hrest]
    simp only [lineNumber_eq_ok_iff.2 hnum, Except.map]

/-- A text is taken off just those messages that begin with it, behind a numeral for its length. -/
theorem takeText_eq_ok_iff {field : Field} {cs rest : List Char} {text : String} :
    takeText field cs = .ok (text, rest) ↔
      ∃ num, Text.IsNumeral text.length num ∧ text.length < countLimit ∧
        cs = putRaw num ++ delimiter :: (text.toList ++ rest) := by
  have hlength : text.toList.length = text.length := String.length_toList
  constructor
  · intro h
    unfold takeText at h
    split at h
    · cases h
    · next raw more hraw =>
      obtain ⟨rfl, -, hfield⟩ := takeRaw_eq_ok_iff.1 hraw
      split at h
      · cases h
      · next n hn =>
        obtain ⟨hnum, hlimit⟩ := Text.numeral?_eq_some_iff_isNumeral.1 hn
        obtain rfl | ⟨body, rfl⟩ := hfield
        · cases h
        · -- The text is as many characters as are announced, if there are so many.
          simp only [splitCount_eq] at h
          split at h
          · cases h
          · next hsplit =>
            split at hsplit
            · next hle =>
              obtain ⟨rfl, rfl⟩ := Prod.mk.inj (Option.some.inj hsplit)
              obtain ⟨rfl, rfl⟩ := Prod.mk.inj (Except.ok.inj h)
              have hn : (String.ofList (body.take n)).length = n := by
                rw [String.length_ofList, List.length_take, Nat.min_eq_left hle]
              rw [hn, String.toList_ofList, List.take_append_drop]
              exact ⟨raw, hnum, hlimit, rfl⟩
            · cases hsplit
  · rintro ⟨num, hnum, hlimit, rfl⟩
    rw [takeText_announced field hlimit hnum, if_pos (by rw [List.length_append]; omega),
      List.take_left' hlength, List.drop_left' hlength, String.ofList_toList]

/-! ## Locations -/

/-- What is read as a location: a file that has a name, the last colon, and the line. -/
theorem readLocation_eq_ok_iff {cs : List Char} {location : Location} :
    readLocation cs = .ok location ↔
      ∃ num, Text.IsNumeral location.line.toNat num ∧ location.file.spelling ≠ "" ∧
        cs = location.file.spelling.toList ++ delimiter :: num := by
  constructor
  · intro h
    unfold readLocation at h
    split at h
    · cases h
    · cases h
    · next line c file hfile hspan =>
      obtain ⟨hcs, -, hfield⟩ := eq_append_of_span hspan
      obtain hnil | ⟨file', hcons⟩ := hfield
      · cases hnil
      obtain ⟨rfl, rfl⟩ := List.cons.inj hcons
      obtain ⟨n, hn, rfl⟩ := map_eq_ok h
      have hnonempty : file ≠ [] := by
        rintro rfl
        exact hfile rfl
      refine ⟨line.reverse, lineNumber_eq_ok_iff.1 hn, by simpa using hnonempty, ?_⟩
      have hback := congrArg List.reverse hcs
      rw [List.reverse_reverse] at hback
      rw [hback]
      simp
  · rintro ⟨num, hnum, hnamed, rfl⟩
    have hfile : location.file.spelling.toList.reverse ≠ [] := by
      simpa using hnamed
    -- A numeral has no colon, so that from the end the first one is before the line.
    have hline : delimiter ∉ num.reverse := fun hmem =>
      (isNumeral_plain hnum).1 (List.mem_reverse.1 hmem)
    have hspan := span_append hline (.cons location.file.spelling.toList.reverse)
    obtain ⟨c, file, hcons⟩ := List.exists_cons_of_ne_nil hfile
    unfold readLocation
    rw [List.reverse_append, List.reverse_cons, List.append_assoc, List.singleton_append, hspan]
    simp only [hcons, List.reverse_reverse, lineNumber_eq_ok_iff.2 hnum, Except.map]
    rw [← hcons, List.reverse_reverse, String.ofList_toList]

/-! ## The written spelling is the shortest -/

/-- What is taken takes no more room when it is written again. -/
def Covers (take : Taker α) (put : α → List Char) : Prop :=
  ∀ {cs : List Char} {a : α} {rest : List Char}, take cs = .ok (a, rest) →
    (bytesOf (put a)).length + (bytesOf rest).length ≤ (bytesOf cs).length

/-- A digit takes one byte. -/
theorem length_bytesOf_numeral (n : Nat) :
    (bytesOf (Text.numeral n)).length = (Text.numeral n).length := by
  have hone : ∀ c ∈ Text.numeral n, (String.utf8EncodeChar c).length = 1 := by
    intro c hc
    have hdigit := Text.isDigit_of_mem_numeral hc
    rw [String.length_utf8EncodeChar, Char.utf8Size_eq_one_iff]
    simp only [Char.isDigit, Bool.and_eq_true, decide_eq_true_eq] at hdigit
    exact UInt32.le_trans hdigit.2 (by decide)
  unfold bytesOf
  rw [List.length_flatMap, List.map_congr_left hone]
  simp

/-- No numeral for a number is shorter than the one that is written. -/
theorem length_bytesOf_numeral_le {n : Nat} {raw : List Char} (h : Text.IsNumeral n raw) :
    (bytesOf (Text.numeral n)).length ≤ (bytesOf raw).length := by
  have hdigits := length_bytesOf_numeral n
  have hshort := h.length_numeral_le
  have hbytes := length_le_length_bytesOf raw
  omega

/-- A colon takes one byte. -/
theorem length_bytesOf_delimiter (cs : List Char) :
    (bytesOf (delimiter :: cs)).length = (bytesOf cs).length + 1 := by
  have hsplit : bytesOf (delimiter :: cs) = bytesOf [delimiter] ++ bytesOf cs :=
    bytesOf_append [delimiter] cs
  rw [hsplit, List.length_append, Nat.add_comm]
  rfl

/-- A text takes no more room when it is written again. -/
theorem covers_text (field : Field) : Covers (takeText field) putText := by
  intro cs text rest h
  obtain ⟨raw, hraw, -, rfl⟩ := takeText_eq_ok_iff.1 h
  have hnumeral := length_bytesOf_numeral_le hraw
  simp only [putText, putRaw, length_bytesOf_delimiter, bytesOf_append, List.length_append,
    List.cons_append]
  omega

/-- Nor does a line number. -/
theorem covers_line (field : Field) : Covers (takeLine field) putLine := by
  intro cs line rest h
  obtain ⟨raw, hraw, rfl, -⟩ := takeLine_eq_ok_iff.1 h
  have hnumeral := length_bytesOf_numeral_le hraw
  simp only [putLine, putRaw, length_bytesOf_delimiter, bytesOf_append, List.length_append,
    List.cons_append]
  omega

/-- Nor does a field without a length. -/
theorem covers_raw (field : Field) : Covers (takeRaw field) putRaw := by
  intro cs raw rest h
  obtain ⟨rfl, -⟩ := takeRaw_eq_ok_iff.1 h
  rw [bytesOf_append, List.length_append]

/-- So does a list of entries. -/
theorem takeEntriesFrom_covers {entry : Taker α} {put : α → List Char} (h : Covers entry put)
    {taken as : List α} {fuel : Nat} {cs : List Char}
    (htaken : takeEntriesFrom entry taken fuel cs = .ok as) :
    ∃ later, as = taken.reverse ++ later ∧
      (bytesOf (later.flatMap put)).length ≤ (bytesOf cs).length := by
  have hnone : ∃ later, taken.reverse = taken.reverse ++ later ∧
      (bytesOf (later.flatMap put)).length ≤ (bytesOf cs).length :=
    ⟨[], (List.append_nil _).symm, Nat.zero_le _⟩
  induction fuel generalizing taken cs with
  | zero =>
    obtain rfl := Except.ok.inj htaken
    exact hnone
  | succ fuel ih =>
    simp only [takeEntriesFrom] at htaken
    split at htaken
    · obtain rfl := Except.ok.inj htaken
      exact hnone
    · split at htaken
      · cases htaken
      · next a rest ha =>
        have hfirst := h ha
        obtain ⟨later, rfl, hlater⟩ := ih htaken ⟨[], (List.append_nil _).symm, Nat.zero_le _⟩
        refine ⟨a :: later, by simp, ?_⟩
        rw [List.flatMap_cons, bytesOf_append, List.length_append]
        omega

end BuildStepper.Wire
