import BuildStepper.Text.Basic
import Mathlib.Algebra.Group.Nat.Defs
import Mathlib.Data.List.DropRight

/-!
# Reading off blanks and numerals

What is cut off the end of a text is of the kind that is to be cut (`exists_dropEndWhile_append`),
and any more of it makes no difference (`dropEndWhile_append`). So a text is what is left of it with
blanks around it (`exists_trimChars`), and blanks around a text that has none are all that is cut
(`trimChars_append`).

A numeral is read as the number that its digits spell, whatever stands in front of them
(`numeral?_eq_some_iff`). The limit is looked at after every digit, but since a value only grows
with its digits, it counts as it would at the end: what is read is a numeral (`IsNumeral`) for a
number below the limit (`numeral?_eq_some_iff_isNumeral`). So the digits of a number are read as the
number (`numeral?_numeral`), and no shorter numeral is (`IsNumeral.length_numeral_le`): they have no
leading zero (`eq_nil_of_numeral_eq_zero_cons`).
-/

namespace BuildStepper.Text

/-! ## Blanks -/

/-- What is to be cut off the end makes no difference. -/
theorem dropEndWhile_append {p : Char → Bool} (cs : List Char) {ends : List Char}
    (h : ∀ c ∈ ends, p c = true) : dropEndWhile p (cs ++ ends) = dropEndWhile p cs := by
  unfold dropEndWhile
  rw [List.reverse_append, List.dropWhile_append_of_pos]
  exact fun c hc => h c (List.mem_reverse.1 hc)

/-- All that is cut off the end is to be cut. -/
theorem exists_dropEndWhile_append (p : Char → Bool) (cs : List Char) :
    ∃ ends, (∀ c ∈ ends, p c = true) ∧ cs = dropEndWhile p cs ++ ends :=
  ⟨cs.rtakeWhile p, fun _ => List.mem_rtakeWhile_imp, List.rdropWhile_append_rtakeWhile.symm⟩

/-- A text is what is left of it, with blanks around it. -/
theorem exists_trimChars (cs : List Char) :
    ∃ before behind, (∀ c ∈ before, isBlank c = true) ∧ (∀ c ∈ behind, isBlank c = true) ∧
      cs = before ++ trimChars cs ++ behind := by
  obtain ⟨behind, hbehind, hrest⟩ := exists_dropEndWhile_append isBlank (cs.dropWhile isBlank)
  refine ⟨cs.takeWhile isBlank, behind, fun _ => List.mem_takeWhile_imp, hbehind, ?_⟩
  rw [trimChars, List.append_assoc, ← hrest, List.takeWhile_append_dropWhile]

/-- The blanks around a text that has none are cut off it, and nothing else is. -/
theorem trimChars_append {before inner behind : List Char}
    (hbefore : ∀ c ∈ before, isBlank c = true) (hinner : ∀ c ∈ inner, isBlank c = false)
    (hbehind : ∀ c ∈ behind, isBlank c = true) :
    trimChars (before ++ inner ++ behind) = inner := by
  have hkept : dropEndWhile isBlank inner = inner := by
    refine (List.rdropWhile_eq_self_iff).2 fun hne => ?_
    rw [hinner _ (List.getLast_mem hne)]
    exact Bool.false_ne_true
  rw [trimChars, List.append_assoc, List.dropWhile_append_of_pos hbefore]
  -- Where nothing is left, the blanks behind are cut off from the front.
  cases inner with
  | nil =>
    rw [List.nil_append, List.dropWhile_eq_nil_iff.2 hbehind]
    rfl
  | cons c inner =>
    have hc := hinner c List.mem_cons_self
    rw [List.cons_append, List.dropWhile_cons_of_neg (by simp [hc]), ← List.cons_append,
      dropEndWhile_append _ hbehind, hkept]

/-! ## Numerals -/

/-- What is read onto a value is not below it. -/
theorem le_ofDigitChars (value : Nat) (cs : List Char) : value ≤ Nat.ofDigitChars 10 cs value := by
  induction cs generalizing value with
  | nil => exact Nat.le_refl value
  | cons c cs ih =>
    rw [Nat.ofDigitChars_cons]
    have hstep := ih (10 * value + (c.toNat - '0'.toNat))
    omega

/-- The value of a row of digits has at most as many digits as the row. -/
theorem ofDigitChars_lt {cs : List Char} (hdigits : ∀ c ∈ cs, c.isDigit = true) :
    Nat.ofDigitChars 10 cs 0 < 10 ^ cs.length := by
  induction cs with
  | nil => simp
  | cons c cs ih =>
    have hrest := ih fun d hd => hdigits d (List.mem_cons_of_mem c hd)
    have hfirst : c.toNat - '0'.toNat ≤ 9 := by
      have hc := hdigits c List.mem_cons_self
      simp only [Char.isDigit, Bool.and_eq_true, decide_eq_true_eq, UInt32.le_iff_toNat_le] at hc
      have hval : c.toNat = c.val.toNat := rfl
      have hzero : '0'.toNat = 48 := rfl
      have hnine : '9'.val.toNat = 57 := rfl
      omega
    rw [Nat.ofDigitChars_cons, Nat.ofDigitChars_eq_ofDigitChars_zero, List.length_cons,
      Nat.pow_succ]
    have hle : 10 ^ cs.length * (10 * 0 + (c.toNat - '0'.toNat)) ≤ 10 ^ cs.length * 9 :=
      Nat.mul_le_mul_left _ (by omega)
    omega

/-- Reading digits onto a value is reading them all, if there is nothing else and the result is
below the limit. -/
theorem digitsBelow_eq_some_iff {limit value n : Nat} {cs : List Char} (hvalue : value < limit) :
    digitsBelow limit value cs = some n ↔
      (∀ c ∈ cs, c.isDigit = true) ∧ Nat.ofDigitChars 10 cs value = n ∧ n < limit := by
  induction cs generalizing value with
  | nil =>
    simp only [digitsBelow, List.not_mem_nil, false_implies, implies_true, true_and,
      Nat.ofDigitChars_nil, Option.some.injEq]
    constructor
    · rintro rfl
      exact ⟨rfl, hvalue⟩
    · exact fun h => h.1
  | cons c cs ih =>
    have hstep : value * 10 + digitValue c = 10 * value + (c.toNat - '0'.toNat) := by
      rw [Nat.mul_comm, digitValue]
    simp only [digitsBelow, List.forall_mem_cons, Nat.ofDigitChars_cons]
    cases hdigit : c.isDigit with
    | false => simp
    | true =>
      simp only [if_true, true_and, hstep]
      split
      · next hnext => exact ih hnext
      · next hnext =>
        -- The value has reached the limit and does not fall below it again.
        have hgrows := le_ofDigitChars (10 * value + (c.toNat - '0'.toNat)) cs
        constructor
        · intro h
          cases h
        · rintro ⟨-, hn, hlimit⟩
          omega

/-- What a row of digits is read as. -/
theorem digits?_eq_some_iff {limit n : Nat} {cs : List Char} :
    digits? limit cs = some n ↔
      cs ≠ [] ∧ (∀ c ∈ cs, c.isDigit = true) ∧ Nat.ofDigitChars 10 cs 0 = n ∧ n < limit := by
  cases cs with
  | nil => simp [digits?]
  | cons c cs =>
    cases limit with
    | zero => simp [digits?, digitsBelow]
    | succ limit =>
      rw [digits?, digitsBelow_eq_some_iff (Nat.succ_pos limit)]
      simp

/-- What a numeral is read as: the value of its digits, with a plus sign in front or without. -/
theorem numeral?_eq_some_iff {limit n : Nat} {cs : List Char} :
    numeral? limit cs = some n ↔
      ∃ digits, (cs = digits ∨ cs = '+' :: digits) ∧ digits ≠ [] ∧
        (∀ c ∈ digits, c.isDigit = true) ∧ Nat.ofDigitChars 10 digits 0 = n ∧ n < limit := by
  have hplus {digits : List Char} : ¬ ∀ c ∈ '+' :: digits, c.isDigit = true := by
    intro h
    have hdigit := h '+' List.mem_cons_self
    revert hdigit
    decide
  unfold numeral?
  split
  · next rest =>
    rw [digits?_eq_some_iff]
    constructor
    · exact fun h => ⟨rest, .inr rfl, h⟩
    · rintro ⟨digits, rfl | heq, hne, hdigits, hrest⟩
      · exact absurd hdigits hplus
      · obtain rfl := (List.cons.inj heq).2
        exact ⟨hne, hdigits, hrest⟩
  · next hnoplus =>
    rw [digits?_eq_some_iff]
    constructor
    · exact fun h => ⟨cs, .inl rfl, h⟩
    · rintro ⟨digits, rfl | heq, h⟩
      · exact h
      · exact absurd heq (hnoplus digits)

/-- A numeral for a number: decimal digits, at least one, and maybe a plus sign in front. -/
def IsNumeral (n : Nat) (cs : List Char) : Prop :=
  ∃ digits, (cs = digits ∨ cs = '+' :: digits) ∧ digits ≠ [] ∧
    (∀ c ∈ digits, c.isDigit = true) ∧ Nat.ofDigitChars 10 digits 0 = n

/-- The numerals for the numbers below the limit are read. -/
theorem numeral?_eq_some_iff_isNumeral {limit n : Nat} {cs : List Char} :
    numeral? limit cs = some n ↔ IsNumeral n cs ∧ n < limit := by
  rw [numeral?_eq_some_iff]
  constructor
  · rintro ⟨digits, hcs, hne, hdigits, hn, hlimit⟩
    exact ⟨⟨digits, hcs, hne, hdigits, hn⟩, hlimit⟩
  · rintro ⟨⟨digits, hcs, hne, hdigits, hn⟩, hlimit⟩
    exact ⟨digits, hcs, hne, hdigits, hn, hlimit⟩

/-- A numeral has nothing but digits and a plus sign. -/
theorem IsNumeral.isDigit_or_plus {n : Nat} {cs : List Char} (h : IsNumeral n cs) {c : Char}
    (hc : c ∈ cs) : c.isDigit = true ∨ c = '+' := by
  obtain ⟨digits, rfl | rfl, -, hdigits, -⟩ := h
  · exact .inl (hdigits c hc)
  · obtain rfl | hc := List.mem_cons.1 hc
    · exact .inr rfl
    · exact .inl (hdigits c hc)

/-- A numeral ends with a digit. -/
theorem IsNumeral.exists_append_digit {n : Nat} {cs : List Char} (h : IsNumeral n cs) :
    ∃ front c, cs = front ++ [c] ∧ c.isDigit = true := by
  obtain ⟨digits, hcs, hne, hdigits, -⟩ := h
  have hsplit := List.dropLast_concat_getLast hne
  have hlast := hdigits _ (List.getLast_mem hne)
  obtain rfl | rfl := hcs
  · exact ⟨_, _, hsplit.symm, hlast⟩
  · refine ⟨'+' :: digits.dropLast, _, ?_, hlast⟩
    rw [List.cons_append, hsplit]

/-- The numeral that is written has digits only. -/
theorem isDigit_of_mem_numeral {n : Nat} {c : Char} (h : c ∈ numeral n) : c.isDigit = true :=
  Nat.isDigit_of_mem_toDigits (by decide) (by decide) h

/-- It has one at least. -/
theorem numeral_ne_nil (n : Nat) : numeral n ≠ [] :=
  Nat.toDigits_ne_nil

/-- It is a numeral for the number. -/
theorem isNumeral_numeral (n : Nat) : IsNumeral n (numeral n) :=
  ⟨numeral n, .inl rfl, numeral_ne_nil n, fun _ => isDigit_of_mem_numeral,
    Nat.ofDigitChars_ten_toDigits⟩

/-- The digits of a number are read as the number. -/
theorem numeral?_numeral {limit n : Nat} (h : n < limit) : numeral? limit (numeral n) = some n :=
  numeral?_eq_some_iff_isNumeral.2 ⟨isNumeral_numeral n, h⟩

/-- The digits of a number are the shortest numeral for it. -/
theorem IsNumeral.length_numeral_le {n : Nat} {cs : List Char} (h : IsNumeral n cs) :
    (numeral n).length ≤ cs.length := by
  obtain ⟨digits, hcs, hne, hdigits, rfl⟩ := h
  have hlength : digits.length ≤ cs.length := by
    obtain rfl | rfl := hcs
    · exact Nat.le_refl _
    · exact Nat.le_succ _
  have hpos : 0 < digits.length := List.length_pos_iff.2 hne
  have hshort : (numeral (Nat.ofDigitChars 10 digits 0)).length ≤ digits.length :=
    (Nat.length_toDigits_le_iff (by decide) hpos).2 (ofDigitChars_lt hdigits)
  omega

/-- The digits of a number begin with a zero only if it is zero. -/
theorem eq_nil_of_numeral_eq_zero_cons {n : Nat} {digits : List Char}
    (h : numeral n = '0' :: digits) : digits = [] := by
  cases digits with
  | nil => rfl
  | cons c digits =>
    -- The digits behind the zero would be a shorter numeral for the number.
    have hvalue : Nat.ofDigitChars 10 (c :: digits) 0 = n := by
      have hall : Nat.ofDigitChars 10 (numeral n) 0 = n := Nat.ofDigitChars_ten_toDigits
      rwa [h, Nat.ofDigitChars_cons] at hall
    have hshort : IsNumeral n (c :: digits) :=
      ⟨c :: digits, .inl rfl, List.cons_ne_nil c digits,
        fun d hd => isDigit_of_mem_numeral (h ▸ List.mem_cons_of_mem _ hd), hvalue⟩
    have hlength := hshort.length_numeral_le
    rw [h, List.length_cons] at hlength
    omega

end BuildStepper.Text
