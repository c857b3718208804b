import BuildStepper.Text.Alphanumeric
import BuildStepper.Text.Basic

/-!
# Patterns

A filter can ask that the value of a field matches a pattern, which is a regular expression. Whether
a text is one that can be used is decided here: what is read off a pattern is not what it matches
but only whether it is put together by the rules, how deeply it is nested, and what it asks of the
automaton.

The automaton knows no properties of characters beyond ASCII. So a pattern that needs them (classes
such as the digits, matching without regard to case) must leave the Unicode mode first, and one that
leaves it may not match what is no whole character. Edges of Unicode words are part of the language,
but no automaton finds them.

A closing brace and a comma end a pattern, wherever it stands, before it is read here. No counted
repetition, no escape in braces and no named property can therefore be complete, and their opening
brace is refused at once.
-/

namespace BuildStepper

/-- Why a text is no pattern that can be used. -/
inductive PatternFault where
  /-- It breaks the rules for patterns, or needs what is not there. -/
  | unreadable
  /-- It asks for the edges of words with letters beyond ASCII. -/
  | unicodeEdge
deriving DecidableEq, Repr

/-- The fault in words. -/
def PatternFault.message : PatternFault → String
  | .unreadable => "error building NFA"
  | .unicodeEdge => "unsupported regex feature for DFAs: cannot build DFAs for regexes with "
      ++ "Unicode word boundaries; switch to ASCII word boundaries, or heuristically enable "
      ++ "Unicode word boundaries or use a different regex engine"

namespace Pattern

/-- How deeply a pattern may be nested. -/
def depthLimit : Nat := 250

/-! ## Modes -/

/-- The modes that bear on whether a pattern can be used. -/
structure Modes where
  /-- Blanks are passed over, and so is what follows a number sign in its line. -/
  spaced : Bool := false
  /-- Upper and lower case are the same. -/
  caseless : Bool := false
  /-- Characters beyond ASCII are matched as such. -/
  unicode : Bool := true

/-- The letters that name a mode. -/
def modeLetters : List Char :=
  ['i', 'm', 's', 'U', 'u', 'R', 'x']

/-- The modes after a change: the letters before the hyphen turn a mode on, those behind it off. -/
def Modes.change (modes : Modes) (letters : List Char) : Modes :=
  (letters.foldl (fun (modes, on) letter =>
    if letter = '-' then (modes, false)
    else if letter = 'x' then ({ modes with spaced := on }, on)
    else if letter = 'i' then ({ modes with caseless := on }, on)
    else if letter = 'u' then ({ modes with unicode := on }, on)
    else (modes, on)) (modes, true)).1

/-- Whether a text between the question mark of a group and its colon or closing parenthesis changes
modes: letters that each name another mode, with at most one hyphen, which is not the last. -/
def changesModes (letters : List Char) : Bool :=
  letters.all (fun letter => letter = '-' || modeLetters.contains letter)
    && letters.eraseDups.length = letters.length && letters.getLast? ≠ some '-'

/-- The text behind a comment. -/
def skipComment (cs : List Char) : List Char :=
  (cs.dropWhile (· ≠ '\n')).drop 1

/-- The text behind blanks and comments. -/
def skipSpace : (fuel : List Char) → List Char → List Char
  | [], cs => cs
  | _ :: fuel, cs =>
    match cs.dropWhile Text.isBlank with
    | '#' :: rest => skipSpace fuel (skipComment rest)
    | rest => rest

/-- The text behind what the modes pass over. -/
def Modes.skip (modes : Modes) (cs : List Char) : List Char :=
  if modes.spaced then skipSpace (' ' :: cs) cs else cs

/-! ## Single characters -/

/-- Something that stands for a single character, or for none. -/
inductive Atom where
  | any
  | letter (c : Char)
  /-- A letter that is spelled by the two digits of a byte. -/
  | byte (c : Char)
  /-- The digits, the blanks or the letters of words, or all others. -/
  | kind (negated : Bool)
  /-- A place between characters. -/
  | place (ofWord : Bool)
deriving DecidableEq, Repr

/-- The letter that an atom is. -/
def Atom.letter? : Atom → Option Char
  | .letter c => some c
  | .byte c => some c
  | _ => none

/-- Whether an atom can be used outside brackets. -/
def Modes.allow (modes : Modes) : Atom → Bool
  | .any => modes.unicode
  | .letter _ => !(modes.unicode && modes.caseless)
  | .byte c => if modes.unicode then !modes.caseless else c.toNat < 128
  | .kind negated => !modes.unicode && !negated
  | .place _ => true

/-- Whether an atom can be used inside brackets. -/
def Modes.allowInSet (modes : Modes) : Atom → Bool
  | .any => false
  | .letter c => if modes.unicode then !modes.caseless else c.toNat < 128
  | .byte c => if modes.unicode then !modes.caseless else c.toNat < 128
  | .kind negated => !modes.unicode && !negated
  | .place _ => false

/-- The value of a hexadecimal digit. -/
def hexValue? (c : Char) : Option Nat :=
  if c.isDigit then some (c.toNat - 48)
  else if 'a' ≤ c && c ≤ 'f' then some (c.toNat - 87)
  else if 'A' ≤ c && c ≤ 'F' then some (c.toNat - 55)
  else none

/-- Takes a number of hexadecimal digits onto the value of those before. -/
def takeHex (modes : Modes) (value : Nat) : Nat → List Char → Option (Nat × List Char)
  | 0, cs => some (value, modes.skip cs)
  | n + 1, cs =>
    match modes.skip cs with
    | c :: cs => (hexValue? c).bind fun d => takeHex modes (value * 16 + d) n cs
    | [] => none

/-- Takes the character with a number. -/
def takeCode (modes : Modes) (digits : Nat) (cs : List Char) : Option (Char × List Char) :=
  match takeHex modes 0 digits cs with
  | some (n, cs) => if h : n.isValidChar then some (Char.ofNatAux n h, cs) else none
  | none => none

/-- Takes what stands behind a backslash. -/
def takeEscape (modes : Modes) : List Char → Option (Atom × List Char)
  | [] => none
  | c :: cs =>
    match c with
    | 'x' => (takeCode modes 2 cs).map fun (c, cs) => (.byte c, cs)
    | 'u' => (takeCode modes 4 cs).map fun (c, cs) => (.letter c, cs)
    | 'U' => (takeCode modes 8 cs).map fun (c, cs) => (.letter c, cs)
    | c =>
      if ['d', 's', 'w'].contains c then some (.kind false, cs)
      else if ['D', 'S', 'W'].contains c then some (.kind true, cs)
      else if ['a', 'f', 't', 'n', 'r', 'v'].contains c then some (.letter c, cs)
      else if ['A', 'z'].contains c then some (.place false, cs)
      else if ['b', 'B', '<', '>'].contains c then some (.place true, cs)
      else if c.toNat < 128 && !c.isAlphanum then some (.letter c, cs)
      else none

/-! ## Sets -/

/-- The names of sets of ASCII characters. -/
def setNames : List String :=
  ["alnum", "alpha", "ascii", "blank", "cntrl", "digit", "graph", "lower", "print", "punct",
    "space", "upper", "word", "xdigit"]

/-- Takes a named set behind its opening bracket; the flag tells whether it is all others. -/
def takeNamedSet? : List Char → Option (Bool × List Char)
  | ':' :: cs =>
    let (negated, cs) := match cs with
      | '^' :: cs => (true, cs)
      | cs => (false, cs)
    match cs.span (· ≠ ':') with
    | (name, ':' :: ']' :: rest) =>
      if setNames.contains (String.ofList name) then some (negated, rest) else none
    | _ => none
  | _ => none

/-- How deeply a row of parts is nested: as its deepest part if that is the only one, else a level
more. -/
def depthOfRow : List Nat → Nat
  | [] => 0
  | [depth] => depth
  | depths => depths.foldl max 0 + 1

/-- The first character behind a hyphen that may be part of a range. A comment counts as its own
first character. -/
def Modes.behindHyphen? (modes : Modes) (cs : List Char) : Option Char :=
  if !modes.spaced then cs.head?
  else
    match cs.dropWhile Text.isBlank with
    | '#' :: rest => ((rest.dropWhile Text.isBlank).head?).or cs.head?
    | rest => (rest.head?).or cs.head?

/-- Takes one character of a set. -/
def takeSetAtom (modes : Modes) : List Char → Option (Atom × List Char)
  | '\\' :: cs => takeEscape modes cs
  | c :: cs => some (.letter c, cs)
  | [] => none

/-- Takes an item of a set: a character, or a range from one to another. -/
def takeSetItem (modes : Modes) (cs : List Char) : Option (List Char) := do
  let (first, cs) ← takeSetAtom modes cs
  let single (cs : List Char) : Option (List Char) :=
    if modes.allowInSet first then some cs else none
  match modes.skip cs with
  | '-' :: rest =>
    if [some ']', some '-'].contains (modes.behindHyphen? rest) then single ('-' :: rest)
    else
      let (last, rest) ← takeSetAtom modes (modes.skip rest)
      let low ← first.letter?
      let high ← last.letter?
      if low ≤ high && modes.allowInSet first && modes.allowInSet last then some rest else none
  | [] => none
  | cs => single cs

/-- Takes the beginning of a set behind its bracket: a circumflex if it is all others, and hyphens,
or else a closing bracket, that are part of it. The number tells how many they are. -/
def takeSetStart (modes : Modes) (cs : List Char) : Bool × Nat × List Char :=
  let (negated, cs) := match modes.skip cs with
    | '^' :: cs => (true, modes.skip cs)
    | cs => (false, cs)
  let rec hyphens (count : Nat) : (fuel : List Char) → List Char → Nat × List Char
    | _ :: fuel, '-' :: cs => hyphens (count + 1) fuel (modes.skip cs)
    | _, cs => (count, cs)
  match hyphens 0 cs cs with
  | (0, ']' :: cs) => (negated, 1, modes.skip cs)
  | (count, cs) => (negated, count, cs)

/-- The parts of a set up to some place: how deeply those behind the last operation are nested, and
what stands before it. -/
structure SetParts where
  parts : List Nat := []
  left : Option Nat := none

/-- How deeply the set so far is nested. -/
def SetParts.depth (s : SetParts) : Nat :=
  match s.left with
  | none => depthOfRow s.parts
  | some left => max left (depthOfRow s.parts) + 1

/-- Takes a set behind its opening bracket, and tells how deeply it is nested. -/
def takeSet (modes : Modes) : (fuel : List Char) → List Char → Option (Nat × List Char)
  | [], _ => none
  | _ :: fuel, cs =>
    let (negated, count, cs) := takeSetStart modes cs
    if (negated && !modes.unicode) || (0 < count && !modes.allowInSet (.letter '-')) then none
    else takeParts fuel { parts := List.replicate count 0 } cs
where
  /-- Takes the rest of the set. -/
  takeParts (fuel : List Char) (s : SetParts) (cs : List Char) : Option (Nat × List Char) :=
    match fuel with
    | [] => none
    | _ :: fuel =>
      let operation (cs : List Char) := takeParts fuel ⟨[], some s.depth⟩ cs
      match modes.skip cs with
      | [] => none
      | ']' :: cs => some (s.depth + 1, cs)
      | '&' :: '&' :: cs => operation cs
      | '-' :: '-' :: cs => operation cs
      | '~' :: '~' :: cs => operation cs
      | '[' :: cs =>
        match takeNamedSet? cs with
        | some (negated, cs) =>
          if if modes.unicode then modes.caseless else negated then none
          else takeParts fuel { s with parts := 0 :: s.parts } cs
        | none =>
          match takeSet modes fuel cs with
          | some (depth, cs) => takeParts fuel { s with parts := depth :: s.parts } cs
          | none => none
      | cs =>
        match takeSetItem modes cs with
        | some cs => takeParts fuel { s with parts := 0 :: s.parts } cs
        | none => none

/-! ## Groups -/

/-- What an opening parenthesis begins. -/
inductive Opening where
  /-- Nothing but a change of the modes up to the end of the group around it. -/
  | change (modes : Modes)
  /-- A group with its modes. The names are those of all groups so far. -/
  | group (modes : Modes) (names : List String)

/-- Whether a text can be the name of a group. -/
def isGroupName : List Char → Bool
  | [] => false
  | c :: cs =>
    (c = '_' || Text.isLetter c)
      && cs.all fun c => ['_', '.', '[', ']'].contains c || Text.alphanumeric.contains c

/-- Takes the name of a group up to its closing angle. No two groups have one name. -/
def takeGroupName (names : List String) (cs : List Char) : Option (List String × List Char) :=
  match cs.span (· ≠ '>') with
  | (name, _ :: rest) =>
    if isGroupName name && !names.contains (String.ofList name) then
      some (String.ofList name :: names, rest)
    else none
  | _ => none

/-- Takes the beginning of a group behind its parenthesis. There are no groups that look ahead or
behind. -/
def takeOpening (modes : Modes) (names : List String) (cs : List Char) :
    Option (Opening × List Char) :=
  let named (cs : List Char) :=
    (takeGroupName names cs).map fun (names, cs) => (.group modes names, cs)
  match modes.skip cs with
  | '?' :: '<' :: '=' :: _ => none
  | '?' :: '<' :: '!' :: _ => none
  | '?' :: 'P' :: '<' :: cs => named cs
  | '?' :: '<' :: cs => named cs
  | '?' :: cs =>
    let (letters, rest) := cs.span fun c => c ≠ ':' && c ≠ ')'
    if !changesModes letters then none
    else match rest with
      | ':' :: cs => some (.group (modes.change letters) names, cs)
      | ')' :: cs => if letters.isEmpty then none else some (.change (modes.change letters), cs)
      | _ => none
  | cs => some (.group modes names, cs)

/-! ## Patterns -/

/-- A part of a pattern: how deeply it is nested, and whether it can be repeated. -/
structure Part where
  depth : Nat
  repeatable : Bool := true

/-- What a pattern has been found to be up to some place. -/
structure Shape where
  /-- The names of its groups. -/
  names : List String := []
  /-- Whether it asks for the edges of words with letters beyond ASCII. -/
  unicodeEdge : Bool := false

/-- A row of alternatives: how deeply those before the last bar are nested, and the parts behind it,
last first. -/
structure Alternatives where
  closed : List Nat := []
  parts : List Part := []

namespace Alternatives

/-- How deeply the alternatives so far are nested. -/
def depth (a : Alternatives) : Nat :=
  let last := depthOfRow (a.parts.map Part.depth)
  if a.closed.isEmpty then last else depthOfRow (last :: a.closed)

/-- The alternatives with another part. -/
def push (a : Alternatives) (part : Part) : Alternatives :=
  { a with parts := part :: a.parts }

/-- The alternatives with another bar. -/
def close (a : Alternatives) : Alternatives :=
  ⟨depthOfRow (a.parts.map Part.depth) :: a.closed, []⟩

/-- The alternatives with their last part repeated. -/
def repeatLast (a : Alternatives) : Option Alternatives :=
  match a.parts with
  | part :: parts =>
    if part.repeatable then some { a with parts := ⟨part.depth + 1, true⟩ :: parts } else none
  | [] => none

end Alternatives

/-- Takes one character outside brackets. -/
def takeAtom (modes : Modes) : List Char → Option (Atom × List Char)
  | '\\' :: cs => takeEscape modes cs
  | '.' :: cs => some (.any, cs)
  | '^' :: cs => some (.place false, cs)
  | '$' :: cs => some (.place false, cs)
  | '{' :: _ => none
  | c :: cs => some (.letter c, cs)
  | [] => none

/-- Takes alternatives up to a closing parenthesis that belongs to none of their groups, or to the
end. Tells how deeply they are nested. -/
def takeAlternatives (modes : Modes) (shape : Shape) (a : Alternatives) : (fuel : List Char) →
    List Char → Option (Nat × Shape × List Char)
  | [], _ => none
  | _ :: fuel, cs =>
    let repeated (cs : List Char) :=
      a.repeatLast.bind fun a =>
        takeAlternatives modes shape a fuel (match cs with
          | '?' :: cs => cs
          | cs => cs)
    match modes.skip cs with
    | [] => some (a.depth, shape, [])
    | ')' :: cs => some (a.depth, shape, ')' :: cs)
    | '|' :: cs => takeAlternatives modes shape a.close fuel cs
    | '*' :: cs => repeated cs
    | '+' :: cs => repeated cs
    | '?' :: cs => repeated cs
    | '[' :: cs =>
      match takeSet modes fuel cs with
      | some (depth, cs) => takeAlternatives modes shape (a.push ⟨depth, true⟩) fuel cs
      | none => none
    | '(' :: cs =>
      match takeOpening modes shape.names cs with
      | some (.change modes, cs) => takeAlternatives modes shape (a.push ⟨0, false⟩) fuel cs
      | some (.group inner names, cs) =>
        match takeAlternatives inner { shape with names } {} fuel cs with
        | some (depth, shape, ')' :: cs) =>
          takeAlternatives modes shape (a.push ⟨depth + 1, true⟩) fuel cs
        | _ => none
      | none => none
    | cs =>
      match takeAtom modes cs with
      | some (atom, cs) =>
        if modes.allow atom then
          let edge := atom = .place true && modes.unicode
          takeAlternatives modes { shape with unicodeEdge := shape.unicodeEdge || edge }
            (a.push ⟨0, true⟩) fuel cs
        else none
      | none => none

/-- Why a text is no pattern that can be used, if it is none. -/
def fault? (cs : List Char) : Option PatternFault :=
  match takeAlternatives {} {} {} (' ' :: cs) cs with
  | some (depth, shape, []) =>
    if depthLimit < depth then some .unreadable
    else if shape.unicodeEdge then some .unicodeEdge
    else none
  | _ => some .unreadable

end Pattern

end BuildStepper
