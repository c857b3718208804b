import BuildStepper.Decimal.Style
import BuildStepper.Schema.Mismatch

/-!
# The lexical forms of JSON

Blanks, words, strings and numbers, each read off the front of what is left of a text. A reader that
fails says which kind of failure it met: the text breaks the rules of JSON (`malformed`), or it ends
where more had to come (`incomplete`). The third kind, a value that does not fit the schema, arises
where a schema is read.

A value that nobody asked for is skipped by rules that are laxer in two points: the numbers behind
`\u` in a string need not make characters, and a number may be too large for any format. Where the
text ends inside a skipped number, that is a malformed number, not an incomplete text.
-/

namespace BuildStepper.Json

open Schema (Found Mismatch)

/-- Why reading a document failed. -/
inductive Failure where
  | malformed
  | incomplete
  | mismatch (cause : Mismatch)
deriving DecidableEq, Repr

/-- Takes something off the front of a text. -/
abbrev Take (α : Type) := List Char → Except Failure (α × List Char)

/-- Space, tab, line feed and carriage return. -/
def isBlank (c : Char) : Bool :=
  c = ' ' || c = '\t' || c = '\n' || c = '\r'

/-- The text behind its leading blanks. -/
def skipBlanks (cs : List Char) : List Char :=
  cs.dropWhile isBlank

/-- Takes a word that is already known by its first letter. -/
def takeWord : List Char → Take Unit
  | [], cs => .ok ((), cs)
  | _ :: _, [] => .error .incomplete
  | w :: ws, c :: cs => if c = w then takeWord ws cs else .error .malformed

/-! ## Strings -/

/-- The value of a hexadecimal digit. -/
def hexValue? (c : Char) : Option Nat :=
  if c.isDigit then some (c.toNat - 48)
  else if 'a' ≤ c && c ≤ 'f' then some (c.toNat - 87)
  else if 'A' ≤ c && c ≤ 'F' then some (c.toNat - 55)
  else none

/-- Takes four hexadecimal digits. Where they are not there, the text is incomplete exactly if it
has fewer than four bytes left. -/
def takeHex4 : Take Nat
  | a :: b :: c :: d :: cs =>
    match hexValue? a, hexValue? b, hexValue? c, hexValue? d with
    | some a, some b, some c, some d => .ok (((a * 16 + b) * 16 + c) * 16 + d, cs)
    | _, _, _, _ => .error .malformed
  | cs =>
    if (cs.map Char.utf8Size).foldl Nat.add 0 < 4 then .error .incomplete else .error .malformed

/-- The character that an escape of one letter stands for. -/
def escaped? : Char → Option Char
  | '"' => some '"'
  | '\\' => some '\\'
  | '/' => some '/'
  | 'b' => some '\x08'
  | 'f' => some '\x0c'
  | 'n' => some '\n'
  | 'r' => some '\r'
  | 't' => some '\t'
  | _ => none

/-- Takes one of the two characters that must introduce the second half of a pair. -/
def takePairMark (mark : Char) : Take Unit
  | [] => .error .incomplete
  | c :: cs => if c = mark then .ok ((), cs) else .error .malformed

/-- Takes the character behind `\u`. The halves of a character beyond the first plane come as a pair
of escapes and are nothing on their own. -/
def takeUnicode : Take Char := fun cs => do
  let (high, cs) ← takeHex4 cs
  if high < 0xD800 || 0xDFFF < high then return (Char.ofNat high, cs)
  else if 0xDC00 ≤ high then throw .malformed
  else
    let ((), cs) ← takePairMark '\\' cs
    let ((), cs) ← takePairMark 'u' cs
    let (low, cs) ← takeHex4 cs
    if low < 0xDC00 || 0xDFFF < low then throw .malformed
    else return (Char.ofNat ((high - 0xD800) * 0x400 + (low - 0xDC00) + 0x10000), cs)

/-- Four hexadecimal digits leave less than there was. -/
theorem takeHex4_length {cs rest : List Char} {n : Nat} (h : takeHex4 cs = .ok (n, rest)) :
    rest.length < cs.length := by
  unfold takeHex4 at h
  split at h
  · split at h
    · simp only [Except.ok.injEq, Prod.mk.injEq] at h
      simp only [← h.2, List.length_cons]; omega
    · contradiction
  · split at h <;> contradiction

/-- So does the mark of the second half of a pair. -/
theorem takePairMark_length {mark : Char} {cs rest : List Char} {u : Unit}
    (h : takePairMark mark cs = .ok (u, rest)) : rest.length < cs.length := by
  unfold takePairMark at h
  split at h
  · contradiction
  · split at h
    · simp only [Except.ok.injEq, Prod.mk.injEq] at h
      simp [← h.2]
    · contradiction

/-- An escape takes something off the text. -/
theorem takeUnicode_length {cs rest : List Char} {c : Char} (h : takeUnicode cs = .ok (c, rest)) :
    rest.length < cs.length := by
  unfold takeUnicode at h
  simp only [bind, Except.bind, pure, Except.pure, throw, throwThe, MonadExceptOf.throw] at h
  split at h
  · contradiction
  rename_i first hfirst
  have hlen : first.2.length < _ := takeHex4_length hfirst
  split at h
  · simp only [Except.ok.injEq, Prod.mk.injEq] at h; rw [← h.2]; exact hlen
  split at h
  · contradiction
  split at h
  · contradiction
  rename_i second hsecond
  have hlen2 : second.2.length < _ := takePairMark_length hsecond
  split at h
  · contradiction
  rename_i third hthird
  have hlen3 : third.2.length < _ := takePairMark_length hthird
  split at h
  · contradiction
  rename_i fourth hfourth
  have hlen4 : fourth.2.length < _ := takeHex4_length hfourth
  split at h
  · contradiction
  simp only [Except.ok.injEq, Prod.mk.injEq] at h
  rw [← h.2]
  omega

/-- Takes the rest of a string behind its opening quote; `taken` holds its characters so far, last
first. -/
def takeStringFrom (taken : List Char) : Take String
  | [] => .error .incomplete
  | c :: cs =>
    if c = '"' then .ok (String.ofList taken.reverse, cs)
    else if c = '\\' then
      match cs with
      | [] => .error .incomplete
      | e :: cs =>
        if e = 'u' then
          match h : takeUnicode cs with
          | .ok (d, rest) =>
            have := takeUnicode_length h
            takeStringFrom (d :: taken) rest
          | .error failure => .error failure
        else match escaped? e with
          | some d => takeStringFrom (d :: taken) cs
          | none => .error .malformed
    else if c.toNat < 0x20 then .error .malformed
    else takeStringFrom (c :: taken) cs
termination_by cs => cs.length

/-- Takes the rest of a string behind its opening quote. -/
def takeString : Take String :=
  takeStringFrom []

/-- Skips the rest of a string behind its opening quote. -/
def skipString : Take Unit
  | [] => .error .incomplete
  | c :: cs =>
    if c = '"' then .ok ((), cs)
    else if c = '\\' then
      match cs with
      | [] => .error .incomplete
      | e :: cs =>
        if e = 'u' then
          match h : takeHex4 cs with
          | .ok (_, rest) =>
            have := takeHex4_length h
            skipString rest
          | .error failure => .error failure
        else if (escaped? e).isSome then skipString cs
        else .error .malformed
    else if c.toNat < 0x20 then .error .malformed
    else skipString cs
termination_by cs => cs.length

/-! ## Numbers -/

/-- A number as it is understood. -/
inductive Number where
  | integer (value : Int)
  | decimal (bits : UInt64)
deriving Repr

/-- What a message calls a number. -/
def Number.found : Number → Found
  | .integer value => .integer value
  | .decimal bits => .decimal (Decimal.Style.compact.writeBits bits)

/-- An integer that is larger than this is read as a decimal. -/
def maxUnsigned : Nat := Nat.pow 2 64 - 1

/-- The largest exponent that is read digit by digit. -/
def maxExponent : Nat := Nat.pow 2 31 - 1

/-- Divides a number below `2 ^ 64` by `10 ^ n`, in steps of at most `10 ^ 308`. Two such steps
leave nothing of it. -/
def divideBy (f : Float) (n : Nat) : Float :=
  if n ≤ 308 then f / Float.ofScientific 1 false n
  else if n ≤ 616 then f / Float.ofScientific 1 false 308 / Float.ofScientific 1 false (n - 308)
  else 0.0

/-- The floating point number nearest to `coefficient`, times `10 ^ exponent`; `none` if that is too
large. Each operation rounds on its own. -/
def scaled? (negative : Bool) (coefficient : Nat) (exponent : Int) : Option UInt64 :=
  let f := (UInt64.ofNat coefficient).toFloat
  let magnitude? : Option Float :=
    if 0 ≤ exponent then
      if f == 0.0 then some f
      else if 308 < exponent then none
      else
        let g := f * Float.ofScientific 1 false exponent.toNat
        if g.isInf then none else some g
    else some (divideBy f (-exponent).toNat)
  magnitude?.map fun f => if negative then (-f).toBits else f.toBits

/-- Makes the decimal, if it is not too large. -/
def finishDecimal (negative : Bool) (coefficient : Nat) (exponent : Int) : Take Number := fun cs =>
  match scaled? negative coefficient exponent with
  | some bits => .ok (.decimal bits, cs)
  | none => .error .malformed

/-- Adds the leading digits to a coefficient for as long as it stays representable. The result holds
the coefficient, the number of digits added and the text behind them. -/
def takeCoefficient (coefficient added : Nat) : List Char → Nat × Nat × List Char
  | c :: cs =>
    if c.isDigit then
      let next := coefficient * 10 + (c.toNat - 48)
      if next ≤ maxUnsigned then takeCoefficient next (added + 1) cs
      else (coefficient, added, c :: cs)
    else (coefficient, added, c :: cs)
  | [] => (coefficient, added, [])

/-- Adds the leading digits to an exponent; `none` if it becomes too large. -/
def takeExponentDigits (value : Nat) : List Char → Option Nat × List Char
  | c :: cs =>
    if c.isDigit then
      let next := value * 10 + (c.toNat - 48)
      if next ≤ maxExponent then takeExponentDigits next cs else (none, cs)
    else (some value, c :: cs)
  | [] => (some value, [])

/-- Takes the power of ten behind its letter. -/
def takePower (negative : Bool) (coefficient : Nat) (exponent : Int) : Take Number := fun cs =>
  let (down, cs) := match cs with
    | '+' :: cs => (false, cs)
    | '-' :: cs => (true, cs)
    | cs => (false, cs)
  match cs with
  | [] => .error .incomplete
  | c :: cs =>
    if c.isDigit then
      match takeExponentDigits (c.toNat - 48) cs with
      | (some power, cs) =>
        finishDecimal negative coefficient (if down then exponent - power else exponent + power) cs
      | (none, cs) =>
        if coefficient ≠ 0 && !down then .error .malformed
        else finishDecimal negative 0 0 (cs.dropWhile Char.isDigit)
    else .error .malformed

/-- Goes on behind the digits of a decimal. -/
def takePower? (negative : Bool) (coefficient : Nat) (exponent : Int) : Take Number
  | 'e' :: cs | 'E' :: cs => takePower negative coefficient exponent cs
  | cs => finishDecimal negative coefficient exponent cs

/-- Takes the places behind the decimal point. Places that the coefficient has no room for are
dropped. -/
def takePlaces (negative : Bool) (coefficient : Nat) (exponent : Int) : Take Number := fun cs =>
  let (next, added, rest) := takeCoefficient coefficient 0 cs
  if rest.head?.any Char.isDigit then
    takePower? negative next (exponent - added) (rest.dropWhile Char.isDigit)
  else if added = 0 then
    if rest.isEmpty then .error .incomplete else .error .malformed
  else takePower? negative next (exponent - added) rest

/-- Takes the digits of an integer whose coefficient is full; they only raise the exponent. -/
def takeLong (negative : Bool) (coefficient : Nat) : Take Number := fun cs =>
  let (digits, rest) := cs.span Char.isDigit
  match rest with
  | '.' :: rest => takePlaces negative coefficient digits.length rest
  | rest => takePower? negative coefficient digits.length rest

/-- An integer; a negative one that does not fit 64 bits, and minus zero, are decimals. -/
def ofInteger (negative : Bool) (n : Nat) : Number :=
  if negative then
    if n = 0 || Nat.pow 2 63 < n then .decimal (-(UInt64.ofNat n).toFloat).toBits else .integer (-n)
  else .integer n

/-- Takes a number behind its sign. -/
def takeUnsigned (negative : Bool) : Take Number
  | [] => .error .incomplete
  | c :: cs =>
    let goOn (coefficient : Nat) (rest : List Char) : Except Failure (Number × List Char) :=
      match rest with
      | '.' :: rest => takePlaces negative coefficient 0 rest
      | 'e' :: rest | 'E' :: rest => takePower negative coefficient 0 rest
      | rest => .ok (ofInteger negative coefficient, rest)
    if c = '0' then
      if cs.head?.any Char.isDigit then .error .malformed else goOn 0 cs
    else if c.isDigit then
      let (coefficient, _, rest) := takeCoefficient (c.toNat - 48) 0 cs
      if rest.head?.any Char.isDigit then takeLong negative coefficient rest
      else goOn coefficient rest
    else .error .malformed

/-- Takes a number that begins with a digit or a minus sign. -/
def takeNumber : Take Number
  | '-' :: cs => takeUnsigned true cs
  | cs => takeUnsigned false cs

/-- Skips the power of ten of a number behind its letter. -/
def skipPower : Take Unit := fun cs =>
  let cs := match cs with
    | '+' :: cs | '-' :: cs => cs
    | cs => cs
  match cs with
  | c :: cs => if c.isDigit then .ok ((), cs.dropWhile Char.isDigit) else .error .malformed
  | [] => .error .malformed

/-- Skips the power of ten of a number, if there is one. -/
def skipPower? : Take Unit
  | 'e' :: cs | 'E' :: cs => skipPower cs
  | cs => .ok ((), cs)

/-- Skips a number behind its sign. -/
def skipUnsigned : Take Unit
  | [] => .error .malformed
  | c :: cs =>
    let goOn (rest : List Char) : Except Failure (Unit × List Char) :=
      match rest with
      | '.' :: rest =>
        if rest.head?.any Char.isDigit then skipPower? (rest.dropWhile Char.isDigit)
        else .error .malformed
      | rest => skipPower? rest
    if c = '0' then
      if cs.head?.any Char.isDigit then .error .malformed else goOn cs
    else if c.isDigit then goOn (cs.dropWhile Char.isDigit)
    else .error .malformed

/-- Skips a number that begins with a digit or a minus sign. -/
def skipNumber : Take Unit
  | '-' :: cs => skipUnsigned cs
  | cs => skipUnsigned cs

end BuildStepper.Json
