import DiceNotation.Binary64
import DiceNotation.Text

/-! A date, a time of day, or both, the latter with the offset of a time zone.  Months,
days, hours, minutes and seconds are bounded one by one; the length of a month is
not looked at. -/

namespace DiceNotation

structure CalendarDate where
  year : Nat
  month : Nat
  day : Nat
  deriving DecidableEq, Repr

structure ClockTime where
  hour : Nat
  minute : Nat
  second : Nat
  nanosecond : Nat
  deriving DecidableEq, Repr

inductive UtcOffset where
  | zulu
  | shifted (hours : Int) (minutes : Nat)
  deriving DecidableEq, Repr

inductive Datetime where
  | dateOnly (date : CalendarDate)
  | timeOnly (time : ClockTime)
  | both (date : CalendarDate) (time : ClockTime) (offset? : Option UtcOffset)
  deriving DecidableEq, Repr

def CalendarDate.text (date : CalendarDate) : String :=
  paddedText 4 date.year ++ "-" ++ paddedText 2 date.month ++ "-" ++ paddedText 2 date.day

def ClockTime.text (time : ClockTime) : String :=
  let fraction := trimFraction (paddedText 9 time.nanosecond)
  paddedText 2 time.hour ++ ":" ++ paddedText 2 time.minute ++ ":" ++
    paddedText 2 time.second ++
    (if fraction.isEmpty then "" else "." ++ fraction)

def UtcOffset.text : UtcOffset → String
  | .zulu => "Z"
  | .shifted hours minutes =>
      (if hours < 0 then "-" else "+") ++ paddedText 2 hours.natAbs ++ ":" ++
        paddedText 2 minutes

def Datetime.text : Datetime → String
  | .dateOnly date => date.text
  | .timeOnly time => time.text
  | .both date time offset? =>
      date.text ++ "T" ++ time.text ++
        (match offset? with
        | some offset => offset.text
        | none => "")

def takeChar? (c : Char) : List Char → Option (List Char)
  | [] => none
  | head :: rest => if head = c then some rest else none

def CalendarDate.read? (cs : List Char) : Option (CalendarDate × List Char) := do
  let (year, cs) ← takeDigits? 4 cs
  let cs ← takeChar? '-' cs
  let (month, cs) ← takeDigits? 2 cs
  let cs ← takeChar? '-' cs
  let (day, cs) ← takeDigits? 2 cs
  guard (1 ≤ month ∧ month ≤ 12)
  guard (1 ≤ day ∧ day ≤ 31)
  return (⟨year, month, day⟩, cs)

def nanoseconds (digits : List Char) : Nat :=
  let kept := digits.take 9
  Nat.ofDigitChars 10 kept 0 * tenTo (9 - kept.length)

/-- Reads a time.  Its hour may be 24. -/
def ClockTime.read? (cs : List Char) : Option (ClockTime × List Char) := do
  let (hour, cs) ← takeDigits? 2 cs
  let cs ← takeChar? ':' cs
  let (minute, cs) ← takeDigits? 2 cs
  let cs ← takeChar? ':' cs
  let (second, cs) ← takeDigits? 2 cs
  guard (hour ≤ 24 ∧ minute ≤ 59 ∧ second ≤ 59)
  match cs with
  | '.' :: rest =>
      let digits := rest.takeWhile Char.isDigit
      guard !digits.isEmpty
      return (⟨hour, minute, second, nanoseconds digits⟩, rest.dropWhile Char.isDigit)
  | _ => return (⟨hour, minute, second, 0⟩, cs)

def UtcOffset.readShift? (negative : Bool) (cs : List Char) : Option UtcOffset := do
  let (hours, cs) ← takeDigits? 2 cs
  let cs ← takeChar? ':' cs
  let (minutes, cs) ← takeDigits? 2 cs
  guard cs.isEmpty
  return .shifted (if negative then -(hours : Int) else hours) minutes

def UtcOffset.read? : List Char → Option (Option UtcOffset)
  | [] => some none
  | ['Z'] => some (some .zulu)
  | ['z'] => some (some .zulu)
  | '+' :: rest => (readShift? false rest).map some
  | '-' :: rest => (readShift? true rest).map some
  | _ => none

def Datetime.read? (text : String) : Option Datetime := do
  let cs := text.toList
  if cs[2]? = some ':' then
    let (time, rest) ← ClockTime.read? cs
    guard rest.isEmpty
    return .timeOnly time
  else
    let (date, rest) ← CalendarDate.read? cs
    match rest with
    | [] => return .dateOnly date
    | c :: rest =>
        guard (c = 'T' ∨ c = 't' ∨ c = ' ')
        let (time, rest) ← ClockTime.read? rest
        return .both date time (← UtcOffset.read? rest)

end DiceNotation
