import DiceNotation.Notation

/-! What tokens spell is said without the accumulator that reads them.  An expression is a
term followed by operators and terms, and its tree leans to the left. -/

namespace DiceNotation

/-- The tree that leans to the left over an expression and the terms behind it. -/
def Expr.chain (lhs : Expr) : List (Operator × Term) → Expr
  | [] => lhs
  | (op, rhs) :: rest => (Expr.compound lhs op (.leaf rhs)).chain rest

@[simp] theorem Expr.chain_nil (lhs : Expr) : lhs.chain [] = lhs := rfl

@[simp] theorem Expr.chain_cons (lhs : Expr) (op : Operator) (rhs : Term)
    (rest : List (Operator × Term)) :
    lhs.chain ((op, rhs) :: rest) = (Expr.compound lhs op (.leaf rhs)).chain rest := rfl

theorem Expr.chain_append (lhs : Expr) (rest more : List (Operator × Term)) :
    lhs.chain (rest ++ more) = (lhs.chain rest).chain more := by
  induction rest generalizing lhs with
  | nil => rfl
  | cons entry rest ih => exact ih (.compound lhs entry.1 (.leaf entry.2))

namespace Spelling

inductive OfSides : List Token → Die → Prop
  | number {value : UInt32} {die : Die} (named : value.toNat = die.sides) :
      OfSides [.number value] die
  | percentile : OfSides [.percentile] .d100

inductive OfDie : List Token → Die → Prop
  | marked {tokens : List Token} {die : Die} (sides : OfSides tokens die) :
      OfDie (.die :: tokens) die
  | percentile : OfDie [.percentile] .d100

/-- A pool without a number is a single die.  The bounds of the number are those
of every pool. -/
inductive OfPool : List Token → Pool → Prop
  | single {tokens : List Token} {pool : Pool} (die : OfDie tokens pool.die)
      (one : pool.count = 1) : OfPool tokens pool
  | counted {tokens : List Token} {pool : Pool} {value : UInt32}
      (die : OfDie tokens pool.die) (count : value.toNat = pool.count) :
      OfPool (.number value :: tokens) pool

inductive OfTerm : List Token → Term → Prop
  | number (value : UInt32) :
      OfTerm [.number value] (.const (Int64.ofNat value.toNat))
  | plain {tokens : List Token} {pool : Pool} (spelled : OfPool tokens pool) :
      OfTerm tokens (.dice { pool })
  | dropping {tokens : List Token} {pool : Pool} (spelled : OfPool tokens pool)
      (policy : DropPolicy) :
      OfTerm (tokens ++ [.operator .sub, .drop policy])
        (.dice { pool, drop? := some policy })

inductive OfRest : List Token → List (Operator × Term) → Prop
  | nil : OfRest [] []
  | cons {tokens more : List Token} {term : Term} {rest : List (Operator × Term)}
      (op : Operator) (head : OfTerm tokens term) (tail : OfRest more rest) :
      OfRest (.operator op :: tokens ++ more) ((op, term) :: rest)

inductive OfExpr : List Token → Expr → Prop
  | chain {tokens more : List Token} {first : Term} {rest : List (Operator × Term)}
      (head : OfTerm tokens first) (tail : OfRest more rest) :
      OfExpr (tokens ++ more) ((Expr.leaf first).chain rest)

theorem OfRest.append {tokens more : List Token} {rest others : List (Operator × Term)}
    (first : OfRest tokens rest) (second : OfRest more others) :
    OfRest (tokens ++ more) (rest ++ others) := by
  induction first with
  | nil => exact second
  | cons op head _ ih =>
      simpa only [List.append_assoc, List.cons_append] using OfRest.cons op head ih

theorem OfExpr.leaf {tokens : List Token} {term : Term} (spelled : OfTerm tokens term) :
    OfExpr tokens (.leaf term) := by
  simpa using OfExpr.chain spelled OfRest.nil

theorem OfExpr.compound {tokens more : List Token} {lhs : Expr} {rhs : Term}
    (left : OfExpr tokens lhs) (op : Operator) (right : OfTerm more rhs) :
    OfExpr (tokens ++ .operator op :: more) (.compound lhs op (.leaf rhs)) := by
  cases left with
  | chain head tail =>
      have extended := OfExpr.chain head (tail.append (OfRest.cons op right OfRest.nil))
      simpa [Expr.chain_append] using extended

private theorem OfDie.head_ne_drop {tokens : List Token} {die : Die}
    (spelled : OfDie tokens die) :
    ∃ token tail, tokens = token :: tail ∧ ∀ policy, token ≠ .drop policy := by
  cases spelled with
  | marked sides => exact ⟨_, _, rfl, fun _ => Token.noConfusion⟩
  | percentile => exact ⟨_, _, rfl, fun _ => Token.noConfusion⟩

private theorem OfPool.head_ne_drop {tokens : List Token} {pool : Pool}
    (spelled : OfPool tokens pool) :
    ∃ token tail, tokens = token :: tail ∧ ∀ policy, token ≠ .drop policy := by
  cases spelled with
  | single die one => exact die.head_ne_drop
  | counted die count => exact ⟨_, _, rfl, fun _ => Token.noConfusion⟩

theorem OfTerm.head_ne_drop {tokens : List Token} {term : Term}
    (spelled : OfTerm tokens term) :
    ∃ token tail, tokens = token :: tail ∧ ∀ policy, token ≠ .drop policy := by
  cases spelled with
  | number value => exact ⟨_, _, rfl, fun _ => Token.noConfusion⟩
  | plain spelled => exact spelled.head_ne_drop
  | dropping spelled policy =>
      obtain ⟨token, tail, rfl, differs⟩ := spelled.head_ne_drop
      exact ⟨token, tail ++ _, rfl, differs⟩

end Spelling

end DiceNotation
