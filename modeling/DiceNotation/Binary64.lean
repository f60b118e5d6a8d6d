import DiceNotation.Text

namespace DiceNotation

def twoTo (exponent : Nat) : Nat := Nat.pow 2 exponent

def tenTo (exponent : Nat) : Nat := Nat.pow 10 exponent

def roundDivEven (num den : Nat) : Nat :=
  let floor := num / den
  let rest := 2 * (num % den)
  if rest < den then floor
  else if den < rest then floor + 1
  else floor + floor % 2

/-- A finite number is its significand times a power of two. -/
inductive Binary64 where
  | nan (negative : Bool)
  | infinite (negative : Bool)
  | finite (negative : Bool) (significand : Nat) (exponent : Int)
  deriving DecidableEq, Repr

namespace Binary64

def minExponent : Int := -1074

def maxExponent : Int := 971

def zero (negative : Bool) : Binary64 := .finite negative 0 minExponent

def scaledRatio (significand : Nat) (exponent : Int) : Nat × Nat :=
  (significand * twoTo exponent.toNat, twoTo (-exponent).toNat)

/-- The number nearest to a ratio of natural numbers. -/
def ofRatio (negative : Bool) (num den : Nat) : Binary64 :=
  if num = 0 then zero negative
  else
    let estimate : Int := (num.log2 : Int) - den.log2 - 52
    let quotientAt (exponent : Int) : Nat × Nat :=
      (num * twoTo (-exponent).toNat, den * twoTo exponent.toNat)
    let (n, d) := quotientAt estimate
    let normal := if n / d < twoTo 52 then estimate - 1 else estimate
    let exponent := max normal minExponent
    let (n, d) := quotientAt exponent
    let significand := roundDivEven n d
    let (significand, exponent) :=
      if significand = twoTo 53 then (twoTo 52, exponent + 1) else (significand, exponent)
    if maxExponent < exponent then .infinite negative
    else .finite negative significand exponent

def ofNat (n : Nat) : Binary64 := ofRatio false n 1

def ofInt (n : Int) : Binary64 := ofRatio (n < 0) n.natAbs 1

def ofDecimal (negative : Bool) (digits : Nat) (exponent : Int) : Binary64 :=
  if digits = 0 then zero negative
  else if 400 < exponent then .infinite negative
  else if exponent < -400 - (digits.log2 : Int) then zero negative
  else ofRatio negative (digits * tenTo exponent.toNat) (tenTo (-exponent).toNat)

def neg : Binary64 → Binary64
  | .nan negative => .nan !negative
  | .infinite negative => .infinite !negative
  | .finite negative significand exponent => .finite (!negative) significand exponent

def mulFinite (a : Nat × Int) (b : Nat × Int) (negative : Bool) : Binary64 :=
  let (an, ad) := scaledRatio a.1 a.2
  let (bn, bd) := scaledRatio b.1 b.2
  ofRatio negative (an * bn) (ad * bd)

def divFinite (a : Nat × Int) (b : Nat × Int) (negative : Bool) : Binary64 :=
  let (an, ad) := scaledRatio a.1 a.2
  let (bn, bd) := scaledRatio b.1 b.2
  ofRatio negative (an * bd) (ad * bn)

def mul : Binary64 → Binary64 → Binary64
  | .finite s m q, .finite t n r => mulFinite (m, q) (n, r) (s != t)
  | .nan s, _ => .nan s
  | _, .nan t => .nan t
  | .infinite s, .finite t n _ => if n = 0 then .nan false else .infinite (s != t)
  | .finite s m _, .infinite t => if m = 0 then .nan false else .infinite (s != t)
  | .infinite s, .infinite t => .infinite (s != t)

def div : Binary64 → Binary64 → Binary64
  | .finite s m q, .finite t n r =>
      if n = 0 then if m = 0 then .nan false else .infinite (s != t)
      else divFinite (m, q) (n, r) (s != t)
  | .nan s, _ => .nan s
  | _, .nan t => .nan t
  | .infinite s, .finite t _ _ => .infinite (s != t)
  | .finite s _ _, .infinite t => zero (s != t)
  | .infinite _, .infinite _ => .nan false

end Binary64

namespace Binary64

def takeSign : List Char → Bool × List Char
  | '-' :: rest => (true, rest)
  | '+' :: rest => (false, rest)
  | rest => (false, rest)

def exponent? : List Char → Option Int
  | [] => some 0
  | c :: rest =>
      if c == 'e' || c == 'E' then
        let (negative, digits) := takeSign rest
        if digits.isEmpty || !digits.all Char.isDigit then none
        else
          let magnitude : Int := Nat.ofDigitChars 10 digits 0
          some (if negative then -magnitude else magnitude)
      else none

def unsigned? (negative : Bool) (cs : List Char) : Option Binary64 :=
  let lower := String.ofList (cs.map Char.toLower)
  if lower = "inf" || lower = "infinity" then some (.infinite negative)
  else if lower = "nan" then some (.nan negative)
  else
    let whole := cs.takeWhile Char.isDigit
    let rest := cs.dropWhile Char.isDigit
    let (fraction, rest) :=
      match rest with
      | '.' :: rest => (rest.takeWhile Char.isDigit, rest.dropWhile Char.isDigit)
      | rest => ([], rest)
    if whole.isEmpty && fraction.isEmpty then none
    else
      (exponent? rest).map fun exponent =>
        ofDecimal negative (Nat.ofDigitChars 10 (whole ++ fraction) 0)
          (exponent - fraction.length)

def read? (text : String) : Option Binary64 :=
  let (negative, rest) := takeSign text.toList
  unsigned? negative rest

end Binary64

namespace Binary64

inductive DecimalTie where
  | upper
  | even
  deriving DecidableEq, Repr

def DecimalTie.takesUpper (tie : DecimalTie) (lower : Nat) : Bool :=
  match tie with
  | .upper => true
  | .even => lower % 2 == 1

/-- The ratios between which every number rounds to the value: its midpoints with
the two neighbours.  The neighbour below a power of two is nearer. -/
def roundingEnds (significand : Nat) (exponent : Int) : (Nat × Nat) × (Nat × Nat) :=
  let below :=
    if significand = twoTo 52 ∧ minExponent < exponent then 4 * significand - 1
    else 4 * significand - 2
  (scaledRatio below (exponent - 2), scaledRatio (4 * significand + 2) (exponent - 2))

def ratioLt (a b : Nat × Nat) : Bool := a.1 * b.2 < b.1 * a.2

def ratioLe (a b : Nat × Nat) : Bool := a.1 * b.2 ≤ b.1 * a.2

def decimalRatio (digits : Nat) (exponent : Int) : Nat × Nat :=
  (digits * tenTo exponent.toNat, tenTo (-exponent).toNat)

/-- Whether the decimal reads back as the value.  The ends of the interval round to
the value when its significand is even. -/
def roundsTo (significand : Nat) (exponent : Int) (digits : Nat) (power : Int) : Bool :=
  let (lo, hi) := roundingEnds significand exponent
  let candidate := decimalRatio digits power
  if significand % 2 = 0 then ratioLe lo candidate && ratioLe candidate hi
  else ratioLt lo candidate && ratioLt candidate hi

/-- The largest power of ten that is at most the ratio, searched upward from a
power below it. -/
def floorPower (ratio : Nat × Nat) : (steps : Nat) → (start : Int) → Int
  | 0, start => start
  | steps + 1, start =>
      if ratioLe (decimalRatio 1 (start + 1)) ratio then floorPower ratio steps (start + 1)
      else start

/-- The decimal on the grid of that power which reads back as the value; of two the
nearer one. -/
def onGrid? (tie : DecimalTie) (significand : Nat) (exponent : Int) (power : Int) :
    Option (Nat × Int) :=
  let (num, den) := scaledRatio significand exponent
  let n := num * tenTo (-power).toNat
  let d := den * tenTo power.toNat
  let floor := n / d
  let lower := roundsTo significand exponent floor power
  let upper := roundsTo significand exponent (floor + 1) power
  let upperNearer := d < 2 * (n % d) || (d == 2 * (n % d) && tie.takesUpper floor)
  if upper && (!lower || upperNearer) then some (floor + 1, power)
  else if lower then some (floor, power)
  else none

def searchGrids (tie : DecimalTie) (significand : Nat) (exponent : Int) :
    (tries : Nat) → (power : Int) → Nat × Int
  | 0, _ => (0, 0)
  | tries + 1, power =>
      match onGrid? tie significand exponent power with
      | some decimal => decimal
      | none => searchGrids tie significand exponent tries (power - 1)

def shortest (tie : DecimalTie) (significand : Nat) (exponent : Int) : Nat × Int :=
  if significand = 0 then (0, 0)
  else
    let ratio := scaledRatio significand exponent
    let log2 : Int := (significand.log2 : Int) + exponent
    let start := (log2 * 30103).fdiv 100000 - 2
    searchGrids tie significand exponent 18 (floorPower ratio 5 start)

end Binary64

def positionalParts (digits : Nat) (power : Int) : String × String :=
  let text := (toString digits).toList
  if 0 ≤ power then (String.ofList (text ++ List.replicate power.toNat '0'), "")
  else
    let places := (-power).toNat
    let padded := List.replicate (places + 1 - text.length) '0' ++ text
    let whole := padded.length - places
    (String.ofList (padded.take whole), String.ofList (padded.drop whole))

namespace Binary64

def signText (negative : Bool) : String := if negative then "-" else ""

def positionalText (digits : Nat) (power : Int) : String :=
  let (whole, fraction) := positionalParts digits power
  let fraction := trimFraction fraction
  whole ++ "." ++ (if fraction.isEmpty then "0" else fraction)

def finiteText (significand : Nat) (exponent : Int) : String :=
  let (digits, power) := shortest .upper significand exponent
  positionalText digits power

def text : Binary64 → String
  | .nan _ => "NaN"
  | .infinite negative => signText negative ++ "inf"
  | .finite negative significand exponent =>
      signText negative ++ finiteText significand exponent

/-- The text of a decimal with an exponent: one digit, the others behind a point if
there are any, and the power of ten of that digit with its sign. -/
def exponentText (digits : Nat) (power : Int) : String :=
  let cs := (toString digits).toList
  let fraction := trimFraction (String.ofList (cs.drop 1))
  let exponent := power + (cs.drop 1).length
  String.ofList (cs.take 1) ++ (if fraction.isEmpty then "" else "." ++ fraction) ++ "e" ++
    (if exponent < 0 then "-" else "+") ++ toString exponent.natAbs

/-- Documents write a decimal positionally if the power of ten of its first digit is
between -5 and 15. -/
def documentDecimal (digits : Nat) (power : Int) : String :=
  let exponent := power + ((toString digits).length - 1 : Nat)
  if -5 ≤ exponent ∧ exponent ≤ 15 then positionalText digits power
  else exponentText digits power

def documentText : Binary64 → String
  | .nan _ => "NaN"
  | .infinite negative => signText negative ++ "inf"
  | .finite negative significand exponent =>
      let (digits, power) := shortest .even significand exponent
      signText negative ++ documentDecimal digits power

def fixedText (places : Nat) : Binary64 → String
  | .nan _ => "NaN"
  | .infinite negative => signText negative ++ "inf"
  | .finite negative significand exponent =>
      let (num, den) := scaledRatio significand exponent
      let (whole, fraction) :=
        positionalParts (roundDivEven (num * tenTo places) den) (-(places : Int))
      signText negative ++ whole ++ (if places = 0 then "" else "." ++ fraction)

end Binary64

end DiceNotation
