/-!
# Control sequences

What a text shows on a terminal: its control sequences move the cursor or set colours and are not
seen, and neither are its other control characters, except for those that lay out lines. `shown`
keeps what is seen.

A text without control characters is shown as it is (`shown_eq_self`), and what is shown has no
control characters but those that lay out lines (`isVisible_of_mem_shown`).
-/

namespace BuildStepper.Text

/-- What a terminal is in the middle of. -/
inductive ControlSequence where
  /-- Nothing: what comes next is seen. -/
  | none
  | escape
  /-- An escape sequence of which only the last character is missing. -/
  | escapeEnd
  | control
  | device
  /-- A device sequence with parameters. -/
  | deviceParameters
  /-- A device sequence of which only the last character in front of its string is missing. -/
  | deviceEnd
  /-- A text that is not seen. -/
  | string
  /-- A command to the system, such as the title of a window. -/
  | command
deriving DecidableEq, Repr

/-- Whether a character lays out lines. -/
def isLayout (c : Char) : Bool :=
  c = '\t' || c = '\n' || c = '\x0c' || c = '\r'

/-- Whether a character outside of sequences is seen. -/
def isVisible (c : Char) : Bool :=
  isLayout c || (' ' ≤ c && c ≠ '\x7f')

/-- Whether a character lies between two others. -/
def isWithin (c low high : Char) : Bool :=
  low ≤ c && c ≤ high

namespace ControlSequence

/-- The sequence that a character after an escape opens. -/
def opened (c : Char) : ControlSequence :=
  match c with
  | 'P' => .device
  | '[' => .control
  | ']' => .command
  | 'X' | '^' | '_' => .string
  | _ => .none

/-- What a sequence is after one more character, other than those that end any. A string also ends
at the byte `9C`, which can be a part of a character. -/
def next (s : ControlSequence) (c : Char) : ControlSequence :=
  match s with
  | none => none
  | escape =>
    if isWithin c ' ' '/' then escapeEnd else if isWithin c '0' '~' then opened c else escape
  | escapeEnd => if isWithin c '0' '~' then none else escapeEnd
  | control => if isWithin c '@' '~' then none else control
  | device =>
    if isWithin c ' ' '/' then deviceEnd
    else if isWithin c '0' '?' then deviceParameters
    else if isWithin c '@' '~' then string
    else device
  | deviceParameters =>
    if isWithin c ' ' '/' then deviceEnd
    else if isWithin c '<' '~' then string
    else deviceParameters
  | deviceEnd => if isWithin c '0' '~' then string else deviceEnd
  | string => if (String.utf8EncodeChar c).contains 0x9C then none else string
  | command => if c = '\x07' then none else command

/-- Whether a sequence ends when lines are laid out. -/
def yields : ControlSequence → Bool
  | none | escape | escapeEnd | control => true
  | _ => false

/-- What is seen of a text that begins in the middle of a sequence. -/
def shown (s : ControlSequence) : List Char → List Char
  | [] => []
  | c :: cs =>
    if c = '\x1b' then escape.shown cs
    else if c = '\x18' || c = '\x1a' then none.shown cs
    else if s.yields && isLayout c || s = none && isVisible c then c :: none.shown cs
    else (s.next c).shown cs

end ControlSequence

/-- What is seen of a text. -/
def shown (text : String) : String :=
  String.ofList (ControlSequence.none.shown text.toList)

/-- A text without control characters is seen as it is. -/
theorem ControlSequence.shown_eq_self {cs : List Char} (h : ∀ c ∈ cs, isVisible c) :
    ControlSequence.none.shown cs = cs := by
  induction cs with
  | nil => rfl
  | cons c cs ih =>
    have hc : isVisible c := h c (by simp)
    have he : c ≠ '\x1b' := by rintro rfl; simp [isVisible, isLayout] at hc
    have hs : c ≠ '\x18' ∧ c ≠ '\x1a' := by
      constructor <;> (rintro rfl; simp [isVisible, isLayout] at hc)
    simp [shown, he, hs, hc, ih fun d hd => h d (by simp [hd])]

/-- What is seen has no control characters but those that lay out lines. -/
theorem ControlSequence.isVisible_of_mem_shown {s : ControlSequence} {cs : List Char} {c : Char}
    (h : c ∈ s.shown cs) : isVisible c := by
  induction cs generalizing s with
  | nil => simp [shown] at h
  | cons d cs ih =>
    unfold shown at h
    split at h
    · exact ih h
    · split at h
      · exact ih h
      · split at h
        next hd =>
          rcases List.mem_cons.mp h with rfl | h
          · rcases Bool.or_eq_true_iff.mp hd with hd | hd
            · simp [isVisible, (Bool.and_eq_true_iff.mp hd).2]
            · exact (Bool.and_eq_true_iff.mp hd).2
          · exact ih h
        · exact ih h

end BuildStepper.Text
