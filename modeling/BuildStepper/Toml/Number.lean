import BuildStepper.Decimal.Shortest
import BuildStepper.Toml.Lexeme
import BuildStepper.Toml.Value

/-!
# Numbers in TOML

Integers in four bases, and floating point numbers. Between two digits an underscore may stand.
Integers are those of 64 bits; a floating point number may be too small but not too large.
-/

namespace BuildStepper.Toml

/-- Takes digits, each perhaps with an underscore before it, behind those already taken, last
first. -/
def takeMoreDigits (isDigit : Char → Bool) (taken : List Char) : Take (List Char)
  | [] => .ok (taken.reverse, [])
  | c :: cs =>
    if isDigit c then takeMoreDigits isDigit (c :: taken) cs
    else if c = '_' then
      match cs with
      | d :: cs =>
        if isDigit d then takeMoreDigits isDigit (d :: taken) cs
        else Outcome.hinted ["digit"] (Outcome.commit missing)
      | [] => Outcome.hinted ["digit"] (Outcome.commit missing)
    else .ok (taken.reverse, c :: cs)

/-- Takes a row of at least one digit. -/
def takeDigits (isDigit : Char → Bool) : Take (List Char)
  | [] => missing
  | c :: cs => if isDigit c then takeMoreDigits isDigit [c] cs else missing

/-- The value of digits in a base. -/
def valueOf (base : Nat) (digits : List Char) : Nat :=
  digits.foldl (fun n c => n * base + (hexValue? c).getD 0) 0

/-- The value for an integer, if it has 64 bits. -/
def integerValue (n : Int) : Outcome Value :=
  if Int.pow 2 63 ≤ n then Outcome.commit (because .tooLarge)
  else if n < -Int.pow 2 63 then Outcome.commit (because .tooSmall)
  else .ok (.integer n)

/-- Takes a sign, if there is one, and tells whether it is a minus. -/
def takeSign : List Char → Bool × List Char
  | '-' :: cs => (true, cs)
  | '+' :: cs => (false, cs)
  | cs => (false, cs)

/-- Takes a decimal integer: its sign and its digits. A zero in front is its only digit. -/
def takeWhole : Take (Bool × List Char) := fun cs =>
  Outcome.named "integer" <|
    match takeSign cs with
    | (negative, '0' :: cs) => .ok ((negative, ['0']), cs)
    | (negative, cs) => do
      let (digits, cs) ← takeDigits Char.isDigit cs
      return ((negative, digits), cs)

/-- Takes an integer in another base behind its mark. -/
def takeBased (base : Nat) (name : String) : Take Value := fun cs => do
  let (digits, cs) ← Outcome.named name <| Outcome.commit <|
    takeDigits (fun c => (hexValue? c).any (· < base)) cs
  return (← integerValue (valueOf base digits), cs)

/-- Takes an integer. -/
def takeInteger : Take Value
  | '0' :: 'x' :: cs => takeBased 16 "hexadecimal integer" cs
  | '0' :: 'o' :: cs => takeBased 8 "octal integer" cs
  | '0' :: 'b' :: cs => takeBased 2 "binary integer" cs
  | cs => do
    let ((negative, digits), cs) ← takeWhole cs
    let n : Int := valueOf 10 digits
    return (← integerValue (if negative then -n else n), cs)

/-- Takes a power of ten. -/
def takePower : Take Int
  | c :: cs =>
    if c = 'e' || c = 'E' then do
      let (negative, cs) := takeSign cs
      let (digits, cs) ← Outcome.commit (takeDigits Char.isDigit cs)
      let n : Int := valueOf 10 digits
      return (if negative then -n else n, cs)
    else missing
  | [] => missing

/-- Takes the places behind a decimal point. -/
def takePlaces : Take (List Char)
  | '.' :: cs => Outcome.hinted ["digit"] (Outcome.commit (takeDigits Char.isDigit cs))
  | _ => missing

/-- Takes what makes a number no integer: a power of ten, or places behind a point with or without
one. -/
def takeFraction : Take (List Char × Int) := fun cs =>
  Outcome.orElse (do
      let (power, cs) ← takePower cs
      return (([], power), cs))
    fun () => do
      let (places, cs) ← takePlaces cs
      let (power, cs) ← Take.optional takePower cs
      return ((places, power.getD 0), cs)

/-- Takes a word. -/
def takeWord (word : String) : Take Unit := fun cs =>
  let rec go : List Char → List Char → Option (List Char)
    | [], cs => some cs
    | w :: ws, c :: cs => if c = w then go ws cs else none
    | _ :: _, [] => none
  match go word.toList cs with
  | some rest => .ok ((), rest)
  | none => missing

/-- Takes the word for infinity. -/
def takeInfinity (negative : Bool) : Take Value := fun cs => do
  let ((), cs) ← takeWord "inf" cs
  return (.decimal (if negative then -1.0 / 0.0 else 1.0 / 0.0 : Float).toBits, cs)

/-- Takes the word for what is no number. -/
def takeNotANumber : Take Value := fun cs => do
  let ((), cs) ← takeWord "nan" cs
  return (.decimal (0.0 / 0.0 : Float).toBits, cs)

/-- Takes a floating point number. -/
def takeFloat : Take Value := fun cs =>
  Outcome.named "floating-point number" <| Outcome.orElse (do
      let ((negative, whole), cs) ← takeWhole cs
      let ((places, power), cs) ← takeFraction cs
      let f := Decimal.nearest negative (valueOf 10 (whole ++ places)) (power - places.length)
      if f == 1.0 / 0.0 then Outcome.commit missing else return (.decimal f.toBits, cs))
    fun () =>
      let (negative, cs) := takeSign cs
      Outcome.orElse (takeInfinity negative cs) fun () => takeNotANumber cs

end BuildStepper.Toml
