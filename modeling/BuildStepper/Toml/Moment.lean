import BuildStepper.Toml.Number

/-!
# Dates and times in TOML

A date, a time, or a date with a time, which alone may have an offset from universal time. Only
their spelling and the ranges of their parts matter, since no setting is one.
-/

namespace BuildStepper.Toml

/-- Takes two digits with a value in a range. -/
def takeTwo (least most : Nat) : Take Nat
  | a :: b :: cs =>
    if a.isDigit && b.isDigit then
      let n := valueOf 10 [a, b]
      if least ≤ n && n ≤ most then .ok (n, cs) else because .outOfRange
    else missing
  | _ => missing

/-- Takes the four digits of a year. -/
def takeYear : Take Nat := fun cs => do
  let (century, cs) ← takeTwo 0 99 cs
  let (year, cs) ← takeTwo 0 99 cs
  return (century * 100 + year, cs)

/-- The number of days of a month. -/
def daysOf (year month : Nat) : Nat :=
  if month = 2 then
    if year % 4 = 0 && (year % 100 ≠ 0 || year % 400 = 0) then 29 else 28
  else if month = 4 || month = 6 || month = 9 || month = 11 then 30
  else 31

/-- Takes a date; nothing else begins with four digits and a hyphen. -/
def takeDate : Take Unit := fun cs => do
  let (year, cs) ← takeYear cs
  let ((), cs) ← takeMark '-' cs
  Outcome.commit do
    let (month, cs) ← takeTwo 1 12 cs
    let ((), cs) ← takeMark '-' cs
    let (day, cs) ← takeTwo 1 31 cs
    if day ≤ daysOf year month then return ((), cs) else because .outOfRange

/-- Takes the places behind the seconds. -/
def takeSecondPlaces : Take Unit
  | '.' :: c :: cs => if c.isDigit then .ok ((), cs.dropWhile Char.isDigit) else missing
  | _ => missing

/-- Takes a time; nothing else begins with two digits and a colon. A minute may have a leap
second. -/
def takeTime : Take Unit := fun cs => do
  let (_, cs) ← takeTwo 0 23 cs
  let ((), cs) ← takeMark ':' cs
  Outcome.commit do
    let (_, cs) ← takeTwo 0 59 cs
    let ((), cs) ← takeMark ':' cs
    let (_, cs) ← takeTwo 0 60 cs
    let (_, cs) ← Take.optional takeSecondPlaces cs
    return ((), cs)

/-- Takes the offset from universal time. -/
def takeOffset : Take Unit := fun cs =>
  Outcome.named "time offset" <|
    match cs with
    | c :: cs =>
      if c = 'Z' || c = 'z' then .ok ((), cs)
      else if c = '+' || c = '-' then Outcome.commit do
        let (_, cs) ← takeTwo 0 23 cs
        let ((), cs) ← takeMark ':' cs
        let (_, cs) ← takeTwo 0 59 cs
        return ((), cs)
      else missing
    | [] => missing

/-- Takes the time that belongs to a date. -/
def takeTimeOfDay : Take Unit
  | c :: cs =>
    if c = 'T' || c = 't' || c = ' ' then do
      let ((), cs) ← takeTime cs
      let (_, cs) ← Take.optional takeOffset cs
      return ((), cs)
    else missing
  | [] => missing

/-- Takes a date, a time, or both. -/
def takeMoment : Take Value := fun cs =>
  Outcome.orElse (Outcome.named "date-time" do
      let ((), cs) ← takeDate cs
      let (_, cs) ← Take.optional takeTimeOfDay cs
      return (.moment, cs))
    fun () => Outcome.named "time" do
      let ((), cs) ← takeTime cs
      return (.moment, cs)

end BuildStepper.Toml
