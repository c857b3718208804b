import BuildStepper.Json.Reader
import BuildStepper.Json.Writer
import BuildStepper.Proofs.Properties.Definition
import BuildStepper.Proofs.Text.Basic

/-!
# What is written is read back

Every form that is written is taken off the front of a text by the reader of its kind, whatever
stands behind it: strings (`takeText_putString`), numbers of 32 bits (`takeWord32_putNat`), tables
(`takeTable_putTable`), arrays (`takeSequence_putArray`) and records (`takeRecord_putObject`). Only
a number needs to know what follows, since more digits would belong to it: it stands in an object,
where a comma or the closing bracket is next (`Delimited`).

A value that nests too deeply is refused, and with it all that it stands in. So readers are
described by the values that they can read, the others being refused (`ReadsBack`): an array by its
elements, an object by its fields, which are taken one by one until one is refused (`Fills`).
-/

namespace BuildStepper.Json

/-- Values are read as they were written: what fits is taken off the front of a text, whatever
stands behind it, and what does not is refused as malformed. -/
def ReadsBack {α : Type} (take : Take α) (put : α → List Char) (fits : α → Prop)
    [DecidablePred fits] : Prop :=
  ∀ a rest, take (put a ++ rest) = if fits a then .ok (a, rest) else .error .malformed

/-- Nothing is skipped in front of a character that is not blank. -/
theorem skipBlanks_cons {c : Char} (hc : isBlank c = false) (cs : List Char) :
    skipBlanks (c :: cs) = c :: cs :=
  List.dropWhile_cons_of_neg (by simp [hc])

/-! ## Strings -/

/-- The spellings of a character in a string that are written. -/
inductive CharSpelling (c : Char) : List Char → Prop where
  /-- A letter behind a backslash. -/
  | letter {e : Char} (he : e ≠ 'u') (h : escaped? e = some c) : CharSpelling c ['\\', e]
  /-- The number of a control. -/
  | number (h : c.toNat < 0x20) :
    CharSpelling c ['\\', 'u', '0', '0', hexDigit (c.toNat / 16), hexDigit (c.toNat % 16)]
  /-- The character itself. -/
  | itself (hquote : c ≠ '"') (hbackslash : c ≠ '\\') (hcontrol : ¬ c.toNat < 0x20) :
    CharSpelling c [c]

/-- A character is written in one of its spellings. -/
theorem charSpelling_putChar (c : Char) : CharSpelling c (putChar c) := by
  unfold putChar
  -- Seven characters have a letter.
  iterate 7
    split
    · next h => exact .letter (by decide) (by rw [h]; rfl)
  split
  · next h => exact .number h
  · exact .itself ‹_› ‹_› ‹_›

/-- The value of a hexadecimal digit is the number that it was written for. -/
theorem hexValue?_hexDigit : ∀ n < 16, hexValue? (hexDigit n) = some n := by
  decide

/-- The number of a control is read as the control. -/
theorem takeUnicode_control {c : Char} (hc : c.toNat < 0x20) (rest : List Char) :
    takeUnicode ('0' :: '0' :: hexDigit (c.toNat / 16) :: hexDigit (c.toNat % 16) :: rest) =
      .ok (c, rest) := by
  have hzero : hexValue? '0' = some 0 := rfl
  have hhigh := hexValue?_hexDigit (c.toNat / 16) (by omega)
  have hlow := hexValue?_hexDigit (c.toNat % 16) (by omega)
  have hvalue : ((0 * 16 + 0) * 16 + c.toNat / 16) * 16 + c.toNat % 16 = c.toNat := by omega
  have htake : takeHex4 ('0' :: '0' :: hexDigit (c.toNat / 16) :: hexDigit (c.toNat % 16) :: rest) =
      .ok (c.toNat, rest) := by
    simp only [takeHex4, hzero, hhigh, hlow, hvalue]
  have hfirst : (decide (c.toNat < 0xD800) || decide (0xDFFF < c.toNat)) = true := by
    rw [decide_eq_true (by omega : c.toNat < 0xD800), Bool.true_or]
  unfold takeUnicode
  rw [htake]
  change (if (decide (c.toNat < 0xD800) || decide (0xDFFF < c.toNat)) = true then _ else _) = _
  rw [if_pos hfirst, Char.ofNat_toNat]
  rfl

/-- The spelling of a character is read as the character. -/
theorem CharSpelling.takeStringFrom_append {c : Char} {text : List Char} (h : CharSpelling c text)
    (taken rest : List Char) :
    takeStringFrom taken (text ++ rest) = takeStringFrom (c :: taken) rest := by
  cases h with
  | letter he h =>
    rw [List.cons_append, List.cons_append, List.nil_append, takeStringFrom.eq_def]
    simp [he, h]
  | number hc =>
    -- The four digits behind `\u` are read as one number, which is that of the control.
    have htake := takeUnicode_control hc rest
    rw [List.cons_append, List.cons_append, takeStringFrom.eq_def]
    simp only [List.cons_append, List.nil_append]
    simp only [Char.reduceEq, if_true, if_false]
    split
    · next heq =>
      rw [htake] at heq
      cases heq
      rfl
    · next heq =>
      rw [htake] at heq
      cases heq
  | itself hquote hbackslash hcontrol =>
    rw [List.cons_append, List.nil_append, takeStringFrom.eq_def]
    simp [hquote, hbackslash, hcontrol]

/-- A string is taken up to its closing quote, behind the characters taken before. -/
theorem takeStringFrom_flatMap (taken cs rest : List Char) :
    takeStringFrom taken (cs.flatMap putChar ++ '"' :: rest) =
      .ok (String.ofList (taken.reverse ++ cs), rest) := by
  induction cs generalizing taken with
  | nil =>
    rw [List.flatMap_nil, List.nil_append, takeStringFrom.eq_def]
    simp
  | cons c cs ih =>
    rw [List.flatMap_cons, List.append_assoc, (charSpelling_putChar c).takeStringFrom_append, ih,
      List.reverse_cons, List.append_assoc, List.singleton_append]

/-- Behind its opening quote a string is read as it was written. -/
theorem takeString_flatMap (s : String) (rest : List Char) :
    takeString (s.toList.flatMap putChar ++ '"' :: rest) = .ok (s, rest) := by
  rw [takeString, takeStringFrom_flatMap, List.reverse_nil, List.nil_append, String.ofList_toList]

/-- A string begins with a quote, and ends with one in front of the rest. -/
theorem putString_append (s : String) (rest : List Char) :
    putString s ++ rest = '"' :: (s.toList.flatMap putChar ++ '"' :: rest) := by
  rw [putString, List.append_assoc]
  rfl

/-- A string is read as it was written. -/
theorem takeText_putString (expected : Schema.Expected) (s : String) (rest : List Char) :
    takeText expected (putString s ++ rest) = .ok (s, rest) := by
  rw [putString_append, takeText, skipBlanks_cons rfl]
  exact takeString_flatMap s rest

/-! ## Numbers -/

/-- What follows the value of a field begins with a comma or the bracket that closes the object. -/
def Delimited (rest : List Char) : Prop :=
  ∃ c cs, rest = c :: cs ∧ (c = ',' ∨ c = '}')

/-- What can follow a number does not begin with a digit. -/
theorem Delimited.not_digit {rest : List Char} (h : Delimited rest) :
    rest.head?.any Char.isDigit = false := by
  obtain ⟨c, cs, rfl, rfl | rfl⟩ := h <;> rfl

/-- Digits are added to a coefficient as long as what they come to is representable. -/
theorem takeCoefficient_append {digits rest : List Char} (hdigits : ∀ c ∈ digits, c.isDigit = true)
    (hrest : rest.head?.any Char.isDigit = false) (value added : Nat)
    (hmax : Nat.ofDigitChars 10 digits value ≤ maxUnsigned) :
    takeCoefficient value added (digits ++ rest) =
      (Nat.ofDigitChars 10 digits value, added + digits.length, rest) := by
  induction digits generalizing value added with
  | nil =>
    cases rest with
    | nil => rfl
    | cons c rest =>
      have hc : c.isDigit = false := hrest
      simp [takeCoefficient, hc]
  | cons c digits ih =>
    rw [Nat.ofDigitChars_cons] at hmax ⊢
    have hc := hdigits c List.mem_cons_self
    have hstep : value * 10 + (c.toNat - 48) = 10 * value + (c.toNat - '0'.toNat) := by
      rw [Nat.mul_comm]
      rfl
    -- What is read so far is no more than the whole, so that no digit is too many.
    have hnext := Text.le_ofDigitChars (10 * value + (c.toNat - '0'.toNat)) digits
    rw [List.cons_append, takeCoefficient, if_pos hc, hstep, if_pos (Nat.le_trans hnext hmax),
      ih (fun d hd => hdigits d (List.mem_cons_of_mem c hd)) _ _ hmax, List.length_cons,
      Nat.add_assoc, Nat.add_comm 1]

/-- The digits of a number are read as the number. -/
theorem takeUnsigned_numeral {n : Nat} (hn : n ≤ maxUnsigned) {rest : List Char}
    (hrest : Delimited rest) :
    takeUnsigned false (Text.numeral n ++ rest) = .ok (.integer n, rest) := by
  have hvalue : Nat.ofDigitChars 10 (Text.numeral n) 0 = n := Nat.ofDigitChars_ten_toDigits
  cases hnumeral : Text.numeral n with
  | nil => exact absurd hnumeral (Text.numeral_ne_nil n)
  | cons c digits =>
    have hdigits : ∀ d ∈ c :: digits, d.isDigit = true := fun d hd =>
      Text.isDigit_of_mem_numeral (hnumeral ▸ hd)
    rw [hnumeral, Nat.ofDigitChars_cons] at hvalue
    rw [List.cons_append, takeUnsigned]
    by_cases hc : c = '0'
    · subst hc
      obtain rfl := Text.eq_nil_of_numeral_eq_zero_cons hnumeral
      rw [if_pos rfl, List.nil_append, hrest.not_digit, if_neg (by decide), ← hvalue]
      -- Behind the digits there is no point and no exponent.
      obtain ⟨_, _, rfl, rfl | rfl⟩ := hrest <;> rfl
    · have hfirst : 10 * 0 + (c.toNat - '0'.toNat) = c.toNat - 48 := Nat.zero_add _
      rw [hfirst] at hvalue
      have htake := takeCoefficient_append (fun d hd => hdigits d (List.mem_cons_of_mem c hd))
        hrest.not_digit (c.toNat - 48) 0 (hvalue ▸ hn)
      rw [if_neg hc, if_pos (hdigits c List.mem_cons_self), htake, hvalue]
      simp only [hrest.not_digit, Bool.false_eq_true, if_false]
      obtain ⟨_, _, rfl, rfl | rfl⟩ := hrest <;> rfl

/-- A number of 32 bits is read as it was written. -/
theorem takeWord32_putNat (n : UInt32) {rest : List Char} (hrest : Delimited rest) :
    takeWord32 (putNat n.toNat ++ rest) = .ok (n, rest) := by
  have hn : n.toNat < 4294967296 := n.toNat_lt
  have hmax : maxUnsigned = 18446744073709551615 := rfl
  have htake := takeUnsigned_numeral (by omega : n.toNat ≤ maxUnsigned) hrest
  rw [putNat]
  cases hnumeral : Text.numeral n.toNat with
  | nil => exact absurd hnumeral (Text.numeral_ne_nil _)
  | cons c digits =>
    have hc : c.isDigit = true := Text.isDigit_of_mem_numeral (hnumeral ▸ List.mem_cons_self)
    have hblank : isBlank c = false := by
      refine Bool.eq_false_iff.2 fun h => ?_
      simp only [isBlank, Bool.or_eq_true, decide_eq_true_eq] at h
      rcases h with ((rfl | rfl) | rfl) | rfl <;> revert hc <;> decide
    have hnumber : takeNumber (c :: (digits ++ rest)) = .ok (.integer n.toNat, rest) := by
      rw [hnumeral] at htake
      unfold takeNumber
      split
      · next heq =>
        -- A minus sign is no digit.
        cases heq
        exact absurd hc (by decide)
      · exact htake
    have hrange :
        (decide ((0 : Int) ≤ n.toNat) && decide ((n.toNat : Int) < Int.pow 2 32)) = true := by
      have hpow : Int.pow 2 32 = 4294967296 := rfl
      rw [hpow, Bool.and_eq_true, decide_eq_true_eq, decide_eq_true_eq]
      omega
    rw [List.cons_append, takeWord32, skipBlanks_cons hblank]
    simp only [hc, Bool.or_true, if_true, hnumber, hrange, Int.toNat_natCast, UInt32.ofNat_toNat]

/-! ## Arrays -/

/-- What stands in front of an item: a comma, unless it is the first. -/
def separator (first : Bool) : List Char :=
  if first then [] else [',']

/-- Items, each behind its separator. -/
def separated : (first : Bool) → List (List Char) → List Char
  | _, [] => []
  | first, item :: items => separator first ++ item ++ separated false items

/-- Items are written with a comma in front of each but the first. -/
theorem putItems_eq_separated (items : List (List Char)) :
    putItems items = separated true items := by
  induction items with
  | nil => rfl
  | cons item items ih =>
    cases items with
    | nil => exact (List.append_nil item).symm
    | cons next items =>
      have hstep : putItems (item :: next :: items) = item ++ ',' :: putItems (next :: items) := rfl
      rw [hstep, ih]
      rfl

/-- Behind its separator an element is found. -/
theorem nextElement_separator {c : Char} (hc : isBlank c = false) (hclosing : c ≠ ']')
    (first : Bool) (cs : List Char) :
    nextElement first (separator first ++ c :: cs) = .ok (true, c :: cs) := by
  cases first with
  | true =>
    change nextElement true (c :: cs) = _
    rw [nextElement, skipBlanks_cons hc]
    simp only [hclosing, if_false, if_true]
  | false =>
    change nextElement false (',' :: c :: cs) = _
    rw [nextElement, skipBlanks_cons rfl]
    simp only [skipBlanks_cons hc]
    simp [hclosing]

variable {α : Type} {element : Take α} {put : α → List Char} {fits : α → Prop} [DecidablePred fits]

/-- The objects of an array are taken one by one, up to the first that does not fit. -/
theorem takeElements_separated (helement : ReadsBack element put fits)
    (hobject : ∀ a, ∃ cs, put a = '{' :: cs) {items : List α} {fuel rest : List Char}
    {first : Bool} (taken : List α)
    (hfuel : (separated first (items.map put) ++ ']' :: rest).length ≤ fuel.length) :
    takeElements element taken first fuel (separated first (items.map put) ++ ']' :: rest) =
      if ∀ a ∈ items, fits a then .ok (taken.reverse ++ items, ']' :: rest)
      else .error .malformed := by
  induction items generalizing taken first fuel with
  | nil =>
    cases fuel with
    | nil => simp at hfuel
    | cons _ fuel =>
      have hnext : nextElement first (']' :: rest) = .ok (false, ']' :: rest) := rfl
      rw [List.map_nil, separated, List.nil_append, takeElements, hnext, if_pos (by simp),
        List.append_nil]
  | cons a items ih =>
    obtain ⟨cs, hcs⟩ := hobject a
    cases fuel with
    | nil => simp at hfuel
    | cons _ fuel =>
      -- The comma in front of the element, if it is not the first, is passed over.
      have hnext : nextElement first
          (separated first ((a :: items).map put) ++ ']' :: rest) =
            .ok (true, put a ++ (separated false (items.map put) ++ ']' :: rest)) := by
        rw [List.map_cons, separated, List.append_assoc, List.append_assoc, hcs, List.cons_append]
        exact nextElement_separator rfl (by decide) first _
      -- The fuel is the text itself: an element takes at least its opening brace off it.
      have hshort : (separated false (items.map put) ++ ']' :: rest).length ≤ fuel.length := by
        simp only [List.map_cons, separated, hcs, List.length_append, List.length_cons] at hfuel ⊢
        omega
      simp only [takeElements, hnext, helement a]
      by_cases ha : fits a
      · simp only [ha, if_true, ih (a :: taken) hshort, List.forall_mem_cons, true_and,
          List.reverse_cons, List.append_assoc, List.singleton_append]
      · simp only [ha, if_false, List.forall_mem_cons, false_and]

/-- An array begins with a bracket, and ends with one in front of the rest. -/
theorem putArray_append (items : List (List Char)) (rest : List Char) :
    putArray items ++ rest = '[' :: (separated true items ++ ']' :: rest) := by
  rw [putArray, putItems_eq_separated, List.append_assoc]
  rfl

/-- An array of objects is read as it was written, provided that all of them fit. -/
theorem takeSequence_putArray (helement : ReadsBack element put fits)
    (hobject : ∀ a, ∃ cs, put a = '{' :: cs) :
    ReadsBack (takeSequence (some element)) (fun items => putArray (items.map put))
      (fun items => ∀ a ∈ items, fits a) := fun items rest => by
  rw [putArray_append, takeSequence, skipBlanks_cons rfl]
  simp only [if_true]
  rw [takeElements_separated helement hobject [] (Nat.le_succ _)]
  by_cases hfits : ∀ a ∈ items, fits a
  · rw [if_pos hfits, if_pos hfits]
    rfl
  · rw [if_neg hfits, if_neg hfits]

/-- Where no level may be opened, no array is read. -/
theorem takeSequence_none (put : List α → List (List Char)) :
    ReadsBack (takeSequence none) (fun items => putArray (put items)) (fun _ => False) :=
  fun _ _ => rfl

/-! ## Objects -/

/-- How an object spells a field. -/
def putField (field : String × List Char) : List Char :=
  putString field.1 ++ ':' :: field.2

/-- An object is its fields between braces. -/
theorem putObject_append (fields : List (String × List Char)) (rest : List Char) :
    putObject fields ++ rest = '{' :: (separated true (fields.map putField) ++ '}' :: rest) := by
  rw [putObject, putItems_eq_separated, List.append_assoc]
  rfl

/-- In front of a field its key is found, and behind the key its text. -/
theorem nextKey_separated (first : Bool) (key : String) (text : List Char)
    (fields : List (String × List Char)) (rest : List Char) :
    nextKey first (separated first (((key, text) :: fields).map putField) ++ '}' :: rest) =
      .ok (true, key.toList.flatMap putChar ++ '"' ::
        ':' :: (text ++ (separated false (fields.map putField) ++ '}' :: rest))) := by
  have hkey (cs : List Char) : nextKey first (separator first ++ '"' :: cs) = .ok (true, cs) := by
    cases first <;> rfl
  rw [List.map_cons, separated, putField, List.append_assoc, List.append_assoc, List.append_assoc,
    putString_append]
  exact hkey _

/-- Whatever the fields of an object are, behind a value comes a comma or the closing bracket. -/
theorem delimited_separated (items : List (List Char)) (rest : List Char) :
    Delimited (separated false items ++ '}' :: rest) := by
  cases items with
  | nil => exact ⟨'}', rest, rfl, .inr rfl⟩
  | cons item items =>
    refine ⟨',', item ++ separated false items ++ '}' :: rest, ?_, .inl rfl⟩
    rw [separated, separator, List.append_assoc, List.append_assoc, List.append_assoc]
    rfl

variable {σ : Type} {entry : σ → String → Take σ}

/-- What the fields of an object come to: each is taken by `entry` and goes into what was read so
far, until one of them is refused. -/
inductive Fills (entry : σ → String → Take σ) :
    σ → List (String × List Char) → Except Failure σ → Prop where
  | done (s : σ) : Fills entry s [] (.ok s)
  | next {s t : σ} {key : String} {text : List Char} {fields : List (String × List Char)}
    {out : Except Failure σ}
    (htake : ∀ rest, Delimited rest → entry s key (':' :: (text ++ rest)) = .ok (t, rest))
    (hfields : Fills entry t fields out) : Fills entry s ((key, text) :: fields) out
  | refused {s : σ} {key : String} {text : List Char} {fields : List (String × List Char)}
    {failure : Failure}
    (htake : ∀ rest, Delimited rest → entry s key (':' :: (text ++ rest)) = .error failure) :
    Fills entry s ((key, text) :: fields) (.error failure)

/-- An object is refused where the condition does not hold under which a field of it is read. -/
theorem Fills.ite {s t : σ} {key : String} {text : List Char} {fields : List (String × List Char)}
    {out : Except Failure σ} {p : Prop} [Decidable p] {failure : Failure}
    (htake : ∀ rest, Delimited rest → entry s key (':' :: (text ++ rest)) =
      if p then .ok (t, rest) else .error failure)
    (hfields : p → Fills entry t fields out) :
    Fills entry s ((key, text) :: fields) (if p then out else .error failure) := by
  by_cases hp : p
  · rw [if_pos hp]
    exact .next (fun rest hrest => (htake rest hrest).trans (if_pos hp)) (hfields hp)
  · rw [if_neg hp]
    exact .refused fun rest hrest => (htake rest hrest).trans (if_neg hp)

/-- An object is read as its fields come to. -/
theorem Fills.takeEntries_separated {s : σ} {fields : List (String × List Char)}
    {out : Except Failure σ} (h : Fills entry s fields out) {fuel rest : List Char} {first : Bool}
    (hfuel : (separated first (fields.map putField) ++ '}' :: rest).length ≤ fuel.length) :
    takeEntries entry s first fuel (separated first (fields.map putField) ++ '}' :: rest) =
      out.map (·, '}' :: rest) := by
  induction h generalizing first fuel with
  | done s =>
    cases fuel with
    | nil => simp at hfuel
    | cons _ fuel => rfl
  | @next s t key text fields out htake hfields ih =>
    cases fuel with
    | nil => simp at hfuel
    | cons _ fuel =>
      -- The fuel outlasts the text, since a field is longer than the one character it costs.
      have hshort : (separated false (fields.map putField) ++ '}' :: rest).length ≤
          fuel.length := by
        simp only [List.map_cons, separated, putField, List.length_append, List.length_cons]
          at hfuel ⊢
        omega
      simp only [takeEntries, nextKey_separated, takeString_flatMap,
        htake _ (delimited_separated _ _)]
      exact ih hshort
  | @refused s key text fields failure htake =>
    cases fuel with
    | nil => simp at hfuel
    | cons _ fuel =>
      simp only [takeEntries, nextKey_separated, takeString_flatMap,
        htake _ (delimited_separated _ _)]
      rfl

/-- From the opening bracket on, an object is read as its fields come to. -/
theorem Fills.takeEntries_object {s : σ} {fields : List (String × List Char)}
    {out : Except Failure σ} (h : Fills entry s fields out) (bracket : Char) (rest : List Char) :
    takeEntries entry s true (bracket :: (separated true (fields.map putField) ++ '}' :: rest))
        (separated true (fields.map putField) ++ '}' :: rest) =
      out.map (·, '}' :: rest) :=
  h.takeEntries_separated (Nat.le_succ _)

/-- A table grows by its entries. -/
theorem fills_takeProperty {t u : PropertyTable} {entries : List (String × String)}
    (h : t.entries = u.entries ++ entries) :
    Fills takeProperty u (entries.map fun e => (e.1, putString e.2)) (.ok t) := by
  induction entries generalizing u with
  | nil =>
    rw [List.append_nil] at h
    rw [PropertyTable.eq_of_entries h]
    exact .done u
  | cons e entries ih =>
    have hnew := PropertyTable.not_mem_names_of_append h
    refine .next (t := u.insert e.1 e.2) (fun rest _ => ?_) (ih ?_)
    · have hcolon : takeColon (':' :: (putString e.2 ++ rest)) = .ok ((), putString e.2 ++ rest) :=
        rfl
      simp only [takeProperty, hcolon, takeText_putString]
      rfl
    · rw [PropertyTable.insert_of_not_mem hnew, h, List.append_assoc]
      rfl

/-- A table is read as it was written, where its level may be opened. -/
theorem takeTable_putTable (mayOpen : Bool) :
    ReadsBack (takeTable mayOpen) putTable (fun _ => mayOpen = true) := fun t rest => by
  cases mayOpen with
  | false => rfl
  | true =>
    have hfills : Fills takeProperty {} (t.entries.map fun e => (e.1, putString e.2)) (.ok t) :=
      fills_takeProperty rfl
    rw [putTable, putObject_append, takeTable, skipBlanks_cons rfl]
    simp only [if_true, hfills.takeEntries_object]
    rfl

/-- A field that has no value yet gets the one that is read behind the colon. -/
theorem takeField_of_ok {name : String} {value : Take α} {set : α → σ} {text rest : List Char}
    {a : α} (h : value text = .ok (a, rest)) :
    takeField name none value set (':' :: text) = .ok (set a, rest) := by
  change (value text).map (fun taken => (set taken.1, taken.2)) = _
  rw [h]
  rfl

/-- A field whose value is read under a condition is read under that condition. -/
theorem takeField_ite {name : String} {value : Take α} {set : α → σ} {text rest : List Char}
    {a : α} {p : Prop} [Decidable p] {failure : Failure}
    (h : value text = if p then .ok (a, rest) else .error failure) :
    takeField name none value set (':' :: text) =
      if p then .ok (set a, rest) else .error failure := by
  change (value text).map (fun taken => (set taken.1, taken.2)) = _
  rw [h]
  split <;> rfl

/-- A record is read as the fields of its object come to. -/
theorem takeRecord_putObject {name : String} {reader : RecordReader α} {start : σ}
    {finish : σ → Except Failure α} {fields : List (String × List Char)} {out : Except Failure σ}
    (hmap : ∀ cs, reader.ofMap cs =
      (takeEntries entry start true (' ' :: cs) cs).bind fun taken =>
        (finish taken.1).map fun a => (a, taken.2))
    (hfields : Fills entry start fields out) (rest : List Char) :
    takeRecord name (some reader) (putObject fields ++ rest) =
      (out.bind finish).map fun a => (a, rest) := by
  rw [putObject_append, takeRecord, skipBlanks_cons rfl]
  simp only [Char.reduceEq, if_true, if_false, hmap, hfields.takeEntries_object]
  cases out with
  | error failure => rfl
  | ok s =>
    simp only [Except.map, Except.bind]
    cases finish s <;> rfl

/-- Where no level may be opened, no record is read. -/
theorem takeRecord_none (name : String) (fields : List (String × List Char)) (rest : List Char) :
    takeRecord name (none : Option (RecordReader α)) (putObject fields ++ rest) =
      .error .malformed :=
  rfl

end BuildStepper.Json
