namespace DiceNotation

inductive NotationError where
  | invalidCharacter (c : Char)
  | numberOutOfRange (digits : String)
  | invalidDieSides (sides : UInt32)
  | invalidDieCount
  | tooManyDice (count : UInt32)
  | missingMinus
  | missingSimpleDice
  | missingDieSides
  | missingExpression
  | consecutiveNumbers
  | consecutiveMathOperators
  | consecutiveDiceExpressions
  deriving DecidableEq, Repr

def NotationError.message : NotationError → String
  | .invalidCharacter c => "invalid character '" ++ c.toString ++ "'"
  | .numberOutOfRange digits => "number " ++ digits ++ " is too large"
  | .invalidDieSides sides =>
      "there is no d" ++ toString sides.toNat ++
        ", allowed are d4, d6, d8, d10, d12, d20 and d100"
  | .invalidDieCount => "a dice term needs to roll at least one die"
  | .tooManyDice count =>
      "cannot roll " ++ toString count.toNat ++
        " dice at once, at most 1000 are allowed"
  | .missingMinus => "drop marker must follow a '-'"
  | .missingSimpleDice => "drop marker must follow a plain dice term like 4d6"
  | .missingDieSides => "die marker is missing its number of sides"
  | .missingExpression => "operator is missing its right hand side"
  | .consecutiveNumbers => "two numbers without an operator between them"
  | .consecutiveMathOperators => "two operators in a row"
  | .consecutiveDiceExpressions => "two dice terms without an operator between them"

inductive Die where
  | d4 | d6 | d8 | d10 | d12 | d20 | d100
  deriving DecidableEq, Repr

def Die.all : List Die := [.d4, .d6, .d8, .d10, .d12, .d20, .d100]

def Die.sides : Die → Nat
  | .d4 => 4
  | .d6 => 6
  | .d8 => 8
  | .d10 => 10
  | .d12 => 12
  | .d20 => 20
  | .d100 => 100

def Die.ofSides (sides : UInt32) : Except NotationError Die :=
  match Die.all.find? (·.sides == sides.toNat) with
  | some die => .ok die
  | none => .error (.invalidDieSides sides)

def Die.text : Die → String
  | .d4 => "d4"
  | .d6 => "d6"
  | .d8 => "d8"
  | .d10 => "d10"
  | .d12 => "d12"
  | .d20 => "d20"
  | .d100 => "d%"

theorem Die.mem_all (die : Die) : die ∈ Die.all := by
  cases die <;> decide

theorem Die.sides_pos (die : Die) : 0 < die.sides := by
  cases die <;> decide

theorem Die.sides_le (die : Die) : die.sides ≤ 100 := by
  cases die <;> decide

theorem Die.sides_injective {a b : Die} (h : a.sides = b.sides) : a = b := by
  cases a <;> cases b <;> first | rfl | (revert h; decide)

def maxDiceCount : Nat := 1000

structure Pool where
  die : Die
  count : Nat
  count_pos : 0 < count
  count_le : count ≤ maxDiceCount
  deriving DecidableEq, Repr

def Pool.ofCount (die : Die) (count : UInt32) : Except NotationError Pool :=
  if zero : count.toNat = 0 then .error .invalidDieCount
  else if large : maxDiceCount < count.toNat then .error (.tooManyDice count)
  else .ok ⟨die, count.toNat, by omega, by omega⟩

def Pool.text (pool : Pool) : String :=
  if pool.count = 1 then pool.die.text else toString pool.count ++ pool.die.text

inductive DropPolicy where
  | lowest | highest
  deriving DecidableEq, Repr

def DropPolicy.text : DropPolicy → String
  | .lowest => "L"
  | .highest => "H"

inductive Operator where
  | add | sub | mul | div
  deriving DecidableEq, Repr

def Operator.text : Operator → String
  | .add => "+"
  | .sub => "-"
  | .mul => "x"
  | .div => "/"

/-- A pool of dice, of which one draw may be discarded. -/
structure DiceTerm where
  pool : Pool
  drop? : Option DropPolicy := none
  deriving DecidableEq, Repr

def DiceTerm.text (dice : DiceTerm) : String :=
  match dice.drop? with
  | none => dice.pool.text
  | some policy => dice.pool.text ++ "-" ++ policy.text

inductive Term where
  | const (value : Int64)
  | dice (d : DiceTerm)
  deriving DecidableEq

def Term.text : Term → String
  | .const value => toString value.toInt
  | .dice d => d.text

inductive Expr where
  | leaf (term : Term)
  | compound (lhs : Expr) (op : Operator) (rhs : Expr)
  deriving DecidableEq

namespace Expr

abbrev const (value : Int64) : Expr := .leaf (.const value)

abbrev dice (pool : Pool) : Expr := .leaf (.dice { pool })

abbrev dropping (pool : Pool) (policy : DropPolicy) : Expr :=
  .leaf (.dice { pool, drop? := some policy })

def text : Expr → String
  | .leaf term => term.text
  | .compound lhs op rhs => lhs.text ++ op.text ++ rhs.text

@[simp] theorem text_leaf (term : Term) : (Expr.leaf term).text = term.text := rfl

@[simp] theorem text_compound (lhs rhs : Expr) (op : Operator) :
    (Expr.compound lhs op rhs).text = lhs.text ++ op.text ++ rhs.text := rfl

end Expr

def maxNumber : Nat := 4294967295

/-- Whether the term can be written: numbers have no sign and at most 32 bits. -/
def Term.hasNotation : Term → Bool
  | .const value => 0 ≤ value.toInt && value.toInt ≤ maxNumber
  | .dice _ => true

/-- Whether reading the written expression gives it back: every right operand is
a single term, and every term can be written. -/
def Expr.hasNotation : Expr → Bool
  | .leaf term => term.hasNotation
  | .compound lhs _ (.leaf rhs) => lhs.hasNotation && rhs.hasNotation
  | .compound _ _ (.compound ..) => false

@[simp] theorem Expr.hasNotation_leaf (term : Term) :
    (Expr.leaf term).hasNotation = term.hasNotation := rfl

@[simp] theorem Expr.hasNotation_compound_leaf (lhs : Expr) (op : Operator) (rhs : Term) :
    (Expr.compound lhs op (.leaf rhs)).hasNotation =
      (lhs.hasNotation && rhs.hasNotation) := rfl

@[simp] theorem Expr.hasNotation_compound_compound
    (lhs l r : Expr) (op inner : Operator) :
    (Expr.compound lhs op (.compound l inner r)).hasNotation = false := rfl

def Die.outline : Die → String
  | .d4 => "D4"
  | .d6 => "D6"
  | .d8 => "D8"
  | .d10 => "D10"
  | .d12 => "D12"
  | .d20 => "D20"
  | .d100 => "D100"

def Pool.outline (pool : Pool) : String :=
  "SimpleDice \x7b die: " ++ pool.die.outline ++ ", count: " ++ toString pool.count ++ " \x7d"

def DropPolicy.outline : DropPolicy → String
  | .lowest => "Lowest"
  | .highest => "Highest"

def DiceTerm.outline (dice : DiceTerm) : String :=
  match dice.drop? with
  | none => "Simple(" ++ dice.pool.outline ++ ")"
  | some policy =>
      "Dropping(DroppingDice \x7b dice: " ++ dice.pool.outline ++
        ", policy: " ++ policy.outline ++ " \x7d)"

def Term.outline : Term → String
  | .const value => "Constant(" ++ toString value.toInt ++ ")"
  | .dice d => d.outline

def Operator.outline : Operator → String
  | .add => "Add"
  | .sub => "Sub"
  | .mul => "Mul"
  | .div => "Div"

def Expr.outline : Expr → String
  | .leaf term => term.outline
  | .compound lhs op rhs =>
      "Compound(" ++ lhs.outline ++ ", " ++ op.outline ++ ", " ++ rhs.outline ++ ")"

end DiceNotation
