import DiceNotation.Expr
import DiceNotation.Limits
import DiceNotation.Random

namespace DiceNotation

inductive EvalError where
  | divisionByZero
  | overflow
  | exhausted
  deriving DecidableEq, Repr

def EvalError.message : EvalError → String
  | .divisionByZero => "division by zero"
  | .overflow => "result does not fit into a 64 bit integer"
  | .exhausted => "the supply of random words ran out"

inductive Contribution where
  | constant (value : Int)
  | draws (values : List Nat)
  | dropping (values : List Nat) (dropped : Nat)
  deriving DecidableEq, Repr

inductive Breakdown where
  | leaf (values : Contribution)
  | compound (lhs : Breakdown) (op : Operator) (rhs : Breakdown)
  deriving DecidableEq, Repr

def drawsText : List Nat → String
  | [value] => toString value
  | values => "(" ++ " + ".intercalate (values.map toString) ++ ")"

def Contribution.text : Contribution → String
  | .constant value => toString value
  | .draws values => drawsText values
  | .dropping values dropped => drawsText values ++ " - " ++ toString dropped

def Breakdown.text : Breakdown → String
  | .leaf values => values.text
  | .compound lhs op rhs => lhs.text ++ " " ++ op.text ++ " " ++ rhs.text

namespace DropPolicy

variable {α : Type} [LT α] [DecidableLT α]

/-- Whether `a` is discarded rather than an equal or less extreme `b` before it. -/
def Prefers (policy : DropPolicy) (a b : α) : Prop :=
  match policy with
  | .lowest => a < b
  | .highest => b < a

instance (policy : DropPolicy) (a b : α) : Decidable (policy.Prefers a b) :=
  match policy with
  | .lowest => inferInstanceAs (Decidable (a < b))
  | .highest => inferInstanceAs (Decidable (b < a))

def select? (policy : DropPolicy) : List α → Option (Nat × α)
  | [] => none
  | a :: rest =>
      match policy.select? rest with
      | none => some (0, a)
      | some (i, b) => if policy.Prefers b a then some (i + 1, b) else some (0, a)

def index? (policy : DropPolicy) (values : List α) : Option Nat :=
  (policy.select? values).map (·.1)

def value? (policy : DropPolicy) (values : List α) : Option α :=
  (policy.select? values).map (·.2)

/-- One step of a pass over the values, which keeps the position of the selected one and
looks the value up there.  A position outside the list would break the pass off. -/
def advance? (policy : DropPolicy) (values : List α) (selected : Option Nat)
    (entry : α × Nat) : Option (Option Nat) :=
  match selected with
  | none => some (some entry.2)
  | some current =>
      values[current]?.map fun best =>
        some (if policy.Prefers entry.1 best then entry.2 else current)

def scan? (policy : DropPolicy) (values : List α) : Option (Option Nat) :=
  values.zipIdx.foldlM (policy.advance? values) none

end DropPolicy

/-- A computation that takes words from a supply.  The supply stays used up to the
point where a fault arose. -/
abbrev Rolling (σ : Type) := ExceptT EvalError (StateM (Supply σ))

def wordCount : Nat := 18446744073709551616

/-- The face that a word selects, none if the word is rejected. -/
def Die.face? (die : Die) (word : UInt64) : Option Nat :=
  let product := word.toNat * die.sides
  if product % wordCount + wordCount % die.sides < wordCount then
    some (product / wordCount + 1)
  else none

variable {σ : Type} [WordSource σ]

/-- Takes words until one is accepted, at most `left` of them. -/
def Die.drawWithin (die : Die) : (left : Nat) → (source : σ) →
    Except EvalError Nat × Supply σ
  | 0, source => (.error .exhausted, ⟨source, 0⟩)
  | left + 1, source =>
      let (word, source) := WordSource.next source
      match die.face? word with
      | some face => (.ok face, ⟨source, left⟩)
      | none => die.drawWithin left source

def Die.draw (die : Die) : Rolling σ Nat := fun supply =>
  die.drawWithin supply.left supply.source

def Die.drawMany (die : Die) : (count : Nat) → Rolling σ (List Nat)
  | 0 => pure []
  | count + 1 => do
      let face ← die.draw
      let faces ← die.drawMany count
      return face :: faces

def Pool.draw (pool : Pool) : Rolling σ (List Nat) :=
  pool.die.drawMany pool.count

structure Roll where
  result : Int
  breakdown : Breakdown
  deriving DecidableEq, Repr

def Roll.description (roll : Roll) : String := roll.breakdown.text

def Roll.text (roll : Roll) : String :=
  roll.description ++ " = " ++ toString roll.result

def checked (n : Int) : Except EvalError Int :=
  if Fits n then .ok n else .error .overflow

def Operator.apply (op : Operator) (a b : Int) : Except EvalError Int :=
  match op with
  | .add => checked (a + b)
  | .sub => checked (a - b)
  | .mul => checked (a * b)
  | .div => if b = 0 then .error .divisionByZero else checked (a.tdiv b)

def faceTotal (draws : List Nat) : Nat := draws.foldr (· + ·) 0

def DiceTerm.ofDraws (dice : DiceTerm) (draws : List Nat) : Roll :=
  match dice.drop? with
  | none => ⟨faceTotal draws, .leaf (.draws draws)⟩
  | some policy =>
      let dropped := (policy.value? draws).getD 0
      ⟨(faceTotal draws : Int) - dropped, .leaf (.dropping draws dropped)⟩

def Term.roll : Term → Rolling σ Roll
  | .const value => pure ⟨value.toInt, .leaf (.constant value.toInt)⟩
  | .dice d => do return d.ofDraws (← d.pool.draw)

def Expr.roll : Expr → Rolling σ Roll
  | .leaf term => term.roll
  | .compound lhs op rhs => do
      let a ← lhs.roll
      let b ← rhs.roll
      let result ← op.apply a.result b.result
      return ⟨result, .compound a.breakdown op b.breakdown⟩

end DiceNotation
