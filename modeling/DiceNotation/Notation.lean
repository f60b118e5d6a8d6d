import DiceNotation.Expr
import DiceNotation.Text

namespace DiceNotation

inductive Token where
  | number (value : UInt32)
  | percentile
  | die
  | operator (op : Operator)
  | drop (policy : DropPolicy)
  deriving DecidableEq, Repr

def Token.ofChar? : Char → Option Token
  | '+' => some (.operator .add)
  | '-' => some (.operator .sub)
  | 'x' => some (.operator .mul)
  | '*' => some (.operator .mul)
  | '/' => some (.operator .div)
  | 'd' => some .die
  | 'D' => some .die
  | 'L' => some (.drop .lowest)
  | 'H' => some (.drop .highest)
  | '%' => some .percentile
  | _ => none

def Token.ofDigits (run : List Char) : Except NotationError Token :=
  let value := Nat.ofDigitChars 10 run 0
  if value ≤ maxNumber then .ok (.number (UInt32.ofNat value))
  else .error (.numberOutOfRange (String.ofList run))

/-- What a text has been read as so far.  Its last digits wait in a buffer, since more of
them may follow. -/
structure Scan where
  tokens : List Token := []
  digits : List Char := []

namespace Scan

def flush (scan : Scan) : Except NotationError Scan :=
  if scan.digits.isEmpty then .ok scan
  else do
    let number ← Token.ofDigits scan.digits
    return { tokens := scan.tokens ++ [number] }

def step (scan : Scan) (c : Char) : Except NotationError Scan :=
  if c.isDigit then .ok { scan with digits := scan.digits ++ [c] }
  else do
    let scan ← scan.flush
    match Token.ofChar? c with
    | some token => return { scan with tokens := scan.tokens ++ [token] }
    | none => if isBlank c then return scan else throw (.invalidCharacter c)

end Scan

def tokenize (text : String) : Except NotationError (List Token) := do
  let scan ← text.toList.foldlM Scan.step {}
  return (← scan.flush).tokens

/-! Tokens are read strictly from left to right, without precedence.  The accumulator
holds the tree of the terms read before the last operator, that operator, and what
has been read of the term behind it.  A minus sign in front of a drop marker
belongs to the marker, so one token of look-ahead decides what an operator means. -/

structure Accumulator where
  number? : Option UInt32 := none
  dice? : Option DiceTerm := none
  operator? : Option Operator := none
  /-- The operator directly in front of a drop marker. -/
  dropOperator? : Option Operator := none
  awaitingSides : Bool := false
  tree? : Option Expr := none
  deriving DecidableEq

namespace Accumulator

def empty : Accumulator := {}

def finishDie (acc : Accumulator) (sides : UInt32) : Except NotationError Accumulator := do
  if acc.dice?.isSome then throw .consecutiveDiceExpressions
  let die ← Die.ofSides sides
  let pool ← Pool.ofCount die (acc.number?.getD 1)
  return { acc with number? := none, dice? := some { pool }, awaitingSides := false }

/-- Turns the plain dice just read into dropping ones. -/
def markDrop (acc : Accumulator) (policy : DropPolicy) : Except NotationError Accumulator :=
  match acc.dice? with
  | some { pool, drop? := none } =>
      if acc.dropOperator? = some .sub then
        .ok { acc with
          dice? := some { pool, drop? := some policy }, dropOperator? := none }
      else .error .missingMinus
  | _ => .error .missingSimpleDice

def pendingTerm? (acc : Accumulator) : Except NotationError (Option Term) :=
  match acc.number?, acc.dice? with
  | some _, some _ => .error .consecutiveNumbers
  | some number, none => .ok (some (.const (Int64.ofNat number.toNat)))
  | none, dice? => .ok (dice?.map Term.dice)

def combine (acc : Accumulator) : Except NotationError Accumulator := do
  match acc.tree?, acc.operator? with
  | none, _ =>
      let term? ← acc.pendingTerm?
      return { acc with number? := none, dice? := none, tree? := term?.map Expr.leaf }
  | some _, none => return acc
  | some lhs, some op =>
      match ← acc.pendingTerm? with
      | some rhs =>
          return { acc with
            number? := none, dice? := none, operator? := none
            tree? := some (.compound lhs op (.leaf rhs)) }
      | none => return { acc with number? := none, dice? := none }

/-- Reads one token; `next?` is the token behind it. -/
def step (acc : Accumulator) (token : Token) (next? : Option Token) :
    Except NotationError Accumulator :=
  match token with
  | .number value =>
      if acc.awaitingSides then acc.finishDie value
      else if acc.number?.isSome then .error .consecutiveNumbers
      else .ok { acc with number? := some value }
  | .percentile => acc.finishDie 100
  | .die =>
      if acc.awaitingSides then .error .consecutiveDiceExpressions
      else .ok { acc with awaitingSides := true }
  | .drop policy => acc.markDrop policy
  | .operator op =>
      if acc.awaitingSides then .error .missingDieSides
      else
        match next? with
        | some (.drop _) => .ok { acc with dropOperator? := some op }
        | _ => do
            let acc ← acc.combine
            if acc.operator?.isSome then throw .consecutiveMathOperators
            return { acc with operator? := some op }

def run (acc : Accumulator) : List Token → Except NotationError Accumulator
  | [] => .ok acc
  | token :: rest => do (← acc.step token rest.head?).run rest

def finish (acc : Accumulator) : Except NotationError (Option Expr) := do
  let acc ← acc.combine
  if acc.awaitingSides then throw .missingDieSides
  if acc.operator?.isSome then throw .missingExpression
  return acc.tree?

end Accumulator

def Expr.ofTokens? (tokens : List Token) : Except NotationError (Option Expr) := do
  (← Accumulator.empty.run tokens).finish

def Expr.parse? (text : String) : Except NotationError (Option Expr) := do
  Expr.ofTokens? (← tokenize text)

def Expr.parse (text : String) : Except NotationError Expr := do
  match ← Expr.parse? text with
  | some expr => return expr
  | none => throw .missingExpression

end DiceNotation
