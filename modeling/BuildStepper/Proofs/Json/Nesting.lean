import BuildStepper.Proofs.Json.Written
import Mathlib.Data.List.Forall2

/-!
# How deeply a document nests

The nesting of a text is the largest number of arrays and objects that are open at once
(`nesting`): the brackets are counted as they come, other than those in strings. It is a property of
the text alone, whoever reads it and whatever it means.

What is written opens no more than it closes, so that its nesting can be told for each piece of it
apart (`Nests`): strings and numbers have none, items have that of the deepest among them, and an
array or an object has one level more than its items.
-/

namespace BuildStepper.Json

/-- Where in a text brackets are counted: outside of strings, inside of one, or in one behind a
backslash. -/
inductive Place where
  | outside
  | inside
  | escaped

/-- The largest number of brackets that are open at once in the rest of a text, if `depth` are open
in front of it. -/
def nestingFrom : (place : Place) → (depth : Nat) → List Char → Nat
  | _, depth, [] => depth
  | .outside, depth, c :: cs =>
    if c = '"' then nestingFrom .inside depth cs
    else if c = '[' || c = '{' then nestingFrom .outside (depth + 1) cs
    else if c = ']' || c = '}' then max depth (nestingFrom .outside (depth - 1) cs)
    else nestingFrom .outside depth cs
  | .inside, depth, c :: cs =>
    if c = '"' then nestingFrom .outside depth cs
    else if c = '\\' then nestingFrom .escaped depth cs
    else nestingFrom .inside depth cs
  | .escaped, depth, _ :: cs => nestingFrom .inside depth cs

/-- How many levels of arrays and objects a document nests. -/
def nesting (text : String) : Nat :=
  nestingFrom .outside 0 text.toList

/-- The brackets that are open at first count. -/
theorem le_nestingFrom (place : Place) (depth : Nat) (cs : List Char) :
    depth ≤ nestingFrom place depth cs := by
  induction cs generalizing place depth with
  | nil => cases place <;> exact Nat.le_refl depth
  | cons c cs ih =>
    -- A closing bracket ends a level, but the deepest level before it has been counted.
    cases place with
    | outside =>
      rw [nestingFrom]
      split
      · exact ih _ _
      split
      · exact Nat.le_trans (Nat.le_succ depth) (ih _ _)
      split
      · exact Nat.le_max_left _ _
      · exact ih _ _
    | inside =>
      rw [nestingFrom]
      split
      · exact ih _ _
      split
      · exact ih _ _
      · exact ih _ _
    | escaped => exact ih _ _

/-- A text that closes the brackets it opens, with so many levels: it adds them to those that are
open, and counts on from there. -/
def Nests (text : List Char) (levels : Nat) : Prop :=
  ∀ depth rest, nestingFrom .outside depth (text ++ rest) =
    max (depth + levels) (nestingFrom .outside depth rest)

/-- The nesting of a text is how many levels it has, if it nests at all. -/
theorem Nests.nesting {text : List Char} {levels : Nat} (h : Nests text levels) :
    nesting (String.ofList text) = levels := by
  have hall := h 0 []
  rw [List.append_nil] at hall
  rw [Json.nesting, String.toList_ofList, hall, Nat.zero_add]
  exact Nat.max_eq_left (Nat.zero_le levels)

/-- A text that is read over without a change has no levels. -/
theorem nests_zero {text : List Char} (h : ∀ depth rest,
      nestingFrom .outside depth (text ++ rest) = nestingFrom .outside depth rest) :
    Nests text 0 := fun depth rest => by
  rw [h, Nat.add_zero, Nat.max_eq_right (le_nestingFrom .outside depth rest)]

/-- Texts nest as deeply as the deeper of them. -/
theorem Nests.append {a b : List Char} {m n : Nat} (ha : Nests a m) (hb : Nests b n) :
    Nests (a ++ b) (max m n) := fun depth rest => by
  rw [List.append_assoc, ha, hb, ← Nat.max_assoc, Nat.add_max_add_left]

/-- Brackets are one more level. -/
theorem Nests.brackets {text : List Char} {levels : Nat} (h : Nests text levels)
    {opening closing : Char} (hopening : opening = '[' ∨ opening = '{')
    (hclosing : closing = ']' ∨ closing = '}') :
    Nests (opening :: text ++ [closing]) (levels + 1) := fun depth rest => by
  have hopen (cs : List Char) :
      nestingFrom .outside depth (opening :: cs) = nestingFrom .outside (depth + 1) cs := by
    obtain rfl | rfl := hopening <;> rfl
  have hclose : nestingFrom .outside (depth + 1) (closing :: rest) =
      max (depth + 1) (nestingFrom .outside depth rest) := by
    obtain rfl | rfl := hclosing <;> rfl
  rw [List.append_assoc, List.cons_append, hopen, h, List.singleton_append, hclose]
  omega

/-! ## Strings and numbers -/

/-- A hexadecimal digit neither ends a string nor escapes anything in it. -/
theorem nestingFrom_hexDigit {n : Nat} (hn : n < 16) (depth : Nat) (cs : List Char) :
    nestingFrom .inside depth (hexDigit n :: cs) = nestingFrom .inside depth cs := by
  have hplain : ∀ n < 16, hexDigit n ≠ '"' ∧ hexDigit n ≠ '\\' := by decide
  rw [nestingFrom, if_neg (hplain n hn).1, if_neg (hplain n hn).2]

/-- No spelling of a character ends the string. -/
theorem CharSpelling.nestingFrom_append {c : Char} {text : List Char} (h : CharSpelling c text)
    (depth : Nat) (rest : List Char) :
    nestingFrom .inside depth (text ++ rest) = nestingFrom .inside depth rest := by
  cases h with
  | letter => rfl
  | number hc =>
    have hhigh := nestingFrom_hexDigit (n := c.toNat / 16) (by omega) depth
    have hlow := nestingFrom_hexDigit (n := c.toNat % 16) (by omega) depth
    exact (hhigh _).trans (hlow rest)
  | itself hquote hbackslash =>
    rw [List.cons_append, List.nil_append, nestingFrom, if_neg hquote, if_neg hbackslash]

/-- A string has no levels, whatever brackets are in it. -/
theorem nests_putString (s : String) : Nests (putString s) 0 := by
  refine nests_zero fun depth rest => ?_
  rw [putString_append]
  change nestingFrom .inside depth _ = _
  induction s.toList with
  | nil => rfl
  | cons c cs ih =>
    rw [List.flatMap_cons, List.append_assoc, (charSpelling_putChar c).nestingFrom_append, ih]

/-- A quote or a bracket, which is all that counts outside of strings. -/
def isMark (c : Char) : Bool :=
  c = '"' || c = '[' || c = '{' || c = ']' || c = '}'

/-- Neither has a text without quotes and brackets. -/
theorem nests_of_plain {text : List Char} (h : text.any isMark = false) : Nests text 0 := by
  refine nests_zero fun depth rest => ?_
  induction text with
  | nil => rfl
  | cons c text ih =>
    rw [List.any_cons, Bool.or_eq_false_iff] at h
    obtain ⟨hc, htext⟩ := h
    simp only [isMark, Bool.or_eq_false_iff, decide_eq_false_iff_not] at hc
    obtain ⟨⟨⟨⟨hquote, harray⟩, hobject⟩, harrayEnd⟩, hobjectEnd⟩ := hc
    rw [List.cons_append, nestingFrom, if_neg hquote, if_neg (by simp [harray, hobject]),
      if_neg (by simp [harrayEnd, hobjectEnd]), ih htext]

/-- Nor has a number. -/
theorem nests_putNat (n : Nat) : Nests (putNat n) 0 := by
  refine nests_of_plain (List.any_eq_false.2 fun c hc hmark => ?_)
  have hdigit := Text.isDigit_of_mem_numeral hc
  simp only [isMark, Bool.or_eq_true, decide_eq_true_eq] at hmark
  obtain (((rfl | rfl) | rfl) | rfl) | rfl := hmark <;> exact absurd hdigit (by decide)

/-! ## Arrays and objects -/

/-- The deepest of some levels. -/
def deepest (levels : List Nat) : Nat :=
  levels.foldr max 0

/-- Without levels the deepest is none. -/
@[simp] theorem deepest_nil : deepest [] = 0 :=
  rfl

/-- The deepest of several levels is the first one or the deepest of the others. -/
@[simp] theorem deepest_cons (n : Nat) (levels : List Nat) :
    deepest (n :: levels) = max n (deepest levels) :=
  rfl

/-- The deepest level is within a bound just if all are. -/
theorem deepest_le_iff {levels : List Nat} {n : Nat} :
    deepest levels ≤ n ↔ ∀ k ∈ levels, k ≤ n := by
  induction levels with
  | nil => simp
  | cons k levels ih => rw [deepest_cons, Nat.max_le, ih, List.forall_mem_cons]

/-- Items with commas between them have as many levels as the deepest item. -/
theorem nests_separated {items : List (List Char)} {levels : List Nat}
    (h : List.Forall₂ Nests items levels) (first : Bool) :
    Nests (separated first items) (deepest levels) := by
  induction h generalizing first with
  | nil => exact nests_zero fun _ _ => rfl
  | cons hitem _ ih =>
    have hseparator : Nests (separator first) 0 := by
      cases first <;> exact nests_of_plain rfl
    have hall := (hseparator.append hitem).append (ih false)
    rwa [Nat.zero_max] at hall

/-- An array has one level more than its deepest item. -/
theorem nests_putArray {items : List (List Char)} {levels : List Nat}
    (h : List.Forall₂ Nests items levels) : Nests (putArray items) (deepest levels + 1) := by
  rw [putArray, putItems_eq_separated]
  exact (nests_separated h true).brackets (.inl rfl) (.inl rfl)

/-- An object nests one level more than the deepest of its values. -/
theorem nests_putObject {fields : List (String × List Char)} {levels : List Nat} {n : Nat}
    (h : List.Forall₂ (fun field => Nests field.2) fields levels) (hdeepest : deepest levels = n) :
    Nests (putObject fields) (n + 1) := by
  have hcolon : Nests [':'] 0 := nests_of_plain rfl
  have hfields : List.Forall₂ Nests (fields.map putField) levels := by
    refine List.forall₂_map_left_iff.2 (h.imp fun field n hvalue => ?_)
    have hfield := (nests_putString field.1).append (hcolon.append hvalue)
    rwa [Nat.zero_max, Nat.zero_max] at hfield
  rw [putObject, putItems_eq_separated, ← hdeepest]
  exact (nests_separated hfields true).brackets (.inr rfl) (.inr rfl)

/-- A table of strings has one level. -/
theorem nests_putTable (t : PropertyTable) : Nests (putTable t) 1 := by
  have hvalues : List.Forall₂ (fun field => Nests field.2)
      (t.entries.map fun e => (e.1, putString e.2)) (t.entries.map fun _ => 0) := by
    refine List.forall₂_map_left_iff.2 (List.forall₂_map_right_iff.2 (List.forall₂_same.2 ?_))
    exact fun e _ => nests_putString e.2
  refine nests_putObject hvalues (Nat.le_zero.1 (deepest_le_iff.2 fun k hk => ?_))
  obtain ⟨-, -, rfl⟩ := List.mem_map.1 hk
  exact Nat.le_refl 0

end BuildStepper.Json
