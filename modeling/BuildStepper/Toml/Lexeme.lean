import BuildStepper.Toml.Fault

/-!
# The lexical forms of TOML

Blanks, comments, strings and keys, each read off the front of what is left of a text.

The loops run over the text that was left when they began, since every round takes a character off
it.
-/

namespace BuildStepper.Toml

/-- Space or tab. -/
def isBlank (c : Char) : Bool :=
  c = ' ' || c = '\t'

/-- The text behind its leading blanks. -/
def skipBlanks (cs : List Char) : List Char :=
  cs.dropWhile isBlank

/-- The text behind a line end, which is a line feed with or without a carriage return before it. -/
def newline? : List Char → Option (List Char)
  | '\n' :: cs => some cs
  | '\r' :: '\n' :: cs => some cs
  | _ => none

/-- Whether a character may stand in a comment: a tab, or anything but a control. -/
def isPlain (c : Char) : Bool :=
  c = '\t' || (0x20 ≤ c.toNat && c.toNat ≠ 0x7F)

/-- The text behind a comment, if one begins it. -/
def skipComment : List Char → List Char
  | '#' :: cs => cs.dropWhile isPlain
  | cs => cs

/-- The text behind the end of a line: blanks, a comment, and a line end or the end of the text. -/
def lineEnd (cs : List Char) : Outcome (List Char) :=
  match skipComment (skipBlanks cs) with
  | [] => .ok []
  | cs =>
    match newline? cs with
    | some cs => .ok cs
    | none => Outcome.hinted ["newline", shown '#'] missing

/-- The text behind blanks, line ends, and comments that end in a line end. -/
def skipSpace : (fuel : List Char) → List Char → Outcome (List Char)
  | [], cs => .ok cs
  | _ :: fuel, cs =>
    match skipBlanks cs with
    | [] => .ok []
    | c :: cs =>
      if c = '#' || c = '\n' || c = '\r' then
        match newline? (skipComment (c :: cs)) with
        | some rest => skipSpace fuel rest
        | none => missing
      else .ok (c :: cs)

/-- The text behind blanks, line ends, and comments that end in a line end. -/
def space (cs : List Char) : Outcome (List Char) :=
  skipSpace (' ' :: cs) cs

/-! ## Strings -/

/-- The value of a hexadecimal digit. -/
def hexValue? (c : Char) : Option Nat :=
  if c.isDigit then some (c.toNat - 48)
  else if 'a' ≤ c && c ≤ 'f' then some (c.toNat - 87)
  else if 'A' ≤ c && c ≤ 'F' then some (c.toNat - 55)
  else none

/-- Takes a number of hexadecimal digits onto the value of those before. -/
def takeHex (value : Nat) : Nat → Take Nat
  | 0, cs => .ok (value, cs)
  | _ + 1, [] => missing
  | n + 1, c :: cs =>
    match hexValue? c with
    | some d => takeHex (value * 16 + d) n cs
    | none => missing

/-- Takes the character of a numbered escape; a half of a pair is none. -/
def takeCode (digits : Nat) : Take Char := fun cs =>
  Outcome.named ("unicode " ++ toString digits ++ "-digit hex code") <| Outcome.commit <| do
    let (n, cs) ← takeHex 0 digits cs
    if h : n.isValidChar then return (Char.ofNatAux n h, cs) else because .outOfRange

/-- Takes what stands behind a backslash. -/
def takeEscape : Take Char
  | 'b' :: cs => .ok ('\x08', cs)
  | 't' :: cs => .ok ('\t', cs)
  | 'n' :: cs => .ok ('\n', cs)
  | 'f' :: cs => .ok ('\x0c', cs)
  | 'r' :: cs => .ok ('\r', cs)
  | '"' :: cs => .ok ('"', cs)
  | '\\' :: cs => .ok ('\\', cs)
  | 'u' :: cs => takeCode 4 cs
  | 'U' :: cs => takeCode 8 cs
  | _ :: _ =>
    Outcome.hinted (['b', 'f', 'n', 'r', 't', 'u', 'U', '\\', '"'].map shown) <|
      Outcome.named "escape sequence" <| Outcome.commit missing
  | [] => missing

/-- What a string in one line is called. -/
def lineName (quote : Char) : String :=
  if quote = '"' then "basic string" else "literal string"

/-- What a string of several lines is called. -/
def linesName (quote : Char) : String :=
  "multiline " ++ lineName quote

/-- Takes the rest of a string in one line behind its opening quote. Only a string in double quotes
has escapes. -/
def takeLineFrom (quote : Char) (taken : List Char) : (fuel : List Char) → Take String
  | _ :: fuel, c :: cs =>
    if c = quote then .ok (String.ofList taken.reverse, cs)
    else if c = '\\' && quote = '"' then
      match takeEscape cs with
      | .ok (d, cs) => takeLineFrom quote (d :: taken) fuel cs
      | .error (.broken fault) => .error (.broken fault)
      | .error (.absent _) => Outcome.named (lineName quote) (Outcome.commit missing)
    else if isPlain c then takeLineFrom quote (c :: taken) fuel cs
    else Outcome.named (lineName quote) (Outcome.commit missing)
  | _, _ => Outcome.named (lineName quote) (Outcome.commit missing)

/-- The text behind a backslash that ends a line, and behind all blanks and line ends that
follow. -/
def foldedLine? (cs : List Char) : Option (List Char) :=
  (newline? (skipBlanks cs)).bind fun rest =>
    -- A carriage return counts only before a line feed.
    let rec go : (fuel : List Char) → List Char → List Char
      | [], cs => cs
      | _ :: fuel, cs =>
        match newline? (skipBlanks cs) with
        | some rest => go fuel rest
        | none => skipBlanks cs
    some (go rest rest)

/-- Takes the rest of a string of several lines behind its three opening quotes. One or two quotes
are part of it, also right before the three that close it. -/
def takeLinesFrom (quote : Char) (taken : List Char) : (fuel : List Char) → Take String
  | _ :: fuel, c :: cs =>
    if c = quote then
      let quotes := 1 + (cs.takeWhile (· = quote)).length
      let kept := min 2 (quotes - 3)
      if quotes < 3 then
        takeLinesFrom quote (List.replicate quotes quote ++ taken) fuel (cs.drop (quotes - 1))
      else
        .ok (String.ofList (List.replicate kept quote ++ taken).reverse, cs.drop (kept + 2))
    else if c = '\\' && quote = '"' then
      match foldedLine? cs with
      | some rest => takeLinesFrom quote taken fuel rest
      | none =>
        match takeEscape cs with
        | .ok (d, cs) => takeLinesFrom quote (d :: taken) fuel cs
        | .error failure => .error failure
    else
      match newline? (c :: cs) with
      | some rest => takeLinesFrom quote ('\n' :: taken) fuel rest
      | none => if isPlain c then takeLinesFrom quote (c :: taken) fuel cs else missing
  | _, _ => missing

/-- Takes a string behind its first quote. A line end right behind three quotes does not count. -/
def takeString (quote : Char) : Take String := fun cs =>
  match cs with
  | a :: b :: rest =>
    if a = quote && b = quote then
      let rest := (newline? rest).getD rest
      Outcome.named (linesName quote) (Outcome.commit (takeLinesFrom quote [] rest rest))
    else takeLineFrom quote [] cs cs
  | _ => takeLineFrom quote [] cs cs

/-! ## Keys -/

/-- The characters of a key without quotes. -/
def isBare (c : Char) : Bool :=
  c.isAlphanum || c = '_' || c = '-'

/-- Takes one part of a key. -/
def takeKeyPart : Take String
  | [] => missing
  | c :: cs =>
    if c = '"' || c = '\'' then takeLineFrom c [] cs cs
    else
      match (c :: cs).span isBare with
      | ([], _) => missing
      | (part, rest) => .ok (String.ofList part, rest)

/-- Takes the parts of a key behind its first, with a dot before each and blanks around it. A dot
that no part follows is not taken. -/
def takeKeyFrom (taken : List String) : (fuel : List Char) → Take (List String)
  | _ :: fuel, '.' :: cs =>
    match takeKeyPart (skipBlanks cs) with
    | .ok (part, rest) => takeKeyFrom (part :: taken) fuel (skipBlanks rest)
    | .error (.absent _) => .ok (taken.reverse, '.' :: cs)
    | .error failure => .error failure
  | _, cs => .ok (taken.reverse, cs)

/-- A key has fewer parts than this, and values are nested less deeply. -/
def depthLimit : Nat := 80

/-- Takes a key. -/
def takeKey : Take (List String) := fun cs => do
  let (parts, cs) ← Outcome.named "key" do
    let (part, cs) ← takeKeyPart (skipBlanks cs)
    takeKeyFrom [part] cs (skipBlanks cs)
  if parts.length < depthLimit then return (parts, cs) else because .tooDeep

end BuildStepper.Toml
