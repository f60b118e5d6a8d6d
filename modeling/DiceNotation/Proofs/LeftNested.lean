import DiceNotation.Proofs.Grammar

/-! A text shows the terms and operators of a tree in order, and nothing of its shape.  Of
the trees with the same order, one leans to the left. -/

namespace DiceNotation

namespace Expr

def leaves : Expr → List Term
  | .leaf term => [term]
  | .compound lhs _ rhs => lhs.leaves ++ rhs.leaves

def operators : Expr → List Operator
  | .leaf _ => []
  | .compound lhs op rhs => lhs.operators ++ op :: rhs.operators

def LeftNested : Expr → Prop
  | .leaf _ => True
  | .compound lhs _ (.leaf _) => lhs.LeftNested
  | .compound _ _ (.compound ..) => False

def first : Expr → Term
  | .leaf term => term
  | .compound lhs _ _ => lhs.first

def behind : Expr → List (Operator × Term)
  | .leaf _ => []
  | .compound lhs op rhs => lhs.behind ++ (op, rhs.first) :: rhs.behind

def leftNested (expr : Expr) : Expr := (leaf expr.first).chain expr.behind

@[simp] theorem leaves_leaf (term : Term) : (leaf term).leaves = [term] := rfl

@[simp] theorem leaves_compound (lhs rhs : Expr) (op : Operator) :
    (compound lhs op rhs).leaves = lhs.leaves ++ rhs.leaves := rfl

theorem leaves_eq (expr : Expr) : expr.leaves = expr.first :: expr.behind.map (·.2) := by
  induction expr with
  | leaf term => rfl
  | compound lhs op rhs left right => simp [first, behind, left, right]

theorem operators_eq (expr : Expr) : expr.operators = expr.behind.map (·.1) := by
  induction expr with
  | leaf term => rfl
  | compound lhs op rhs left right => simp [operators, behind, left, right]

theorem leaves_chain (lhs : Expr) (rest : List (Operator × Term)) :
    (lhs.chain rest).leaves = lhs.leaves ++ rest.map (·.2) := by
  induction rest generalizing lhs with
  | nil => simp
  | cons entry rest ih =>
      obtain ⟨op, rhs⟩ := entry
      simp [ih]

theorem operators_chain (lhs : Expr) (rest : List (Operator × Term)) :
    (lhs.chain rest).operators = lhs.operators ++ rest.map (·.1) := by
  induction rest generalizing lhs with
  | nil => simp
  | cons entry rest ih =>
      obtain ⟨op, rhs⟩ := entry
      simp [ih, operators]

theorem leftNested_chain {lhs : Expr} (left : lhs.LeftNested) (rest : List (Operator × Term)) :
    (lhs.chain rest).LeftNested := by
  induction rest generalizing lhs with
  | nil => exact left
  | cons entry rest ih => exact ih left

theorem text_chain (lhs expr : Expr) (op : Operator) :
    (lhs.chain ((op, expr.first) :: expr.behind)).text = lhs.text ++ op.text ++ expr.text := by
  induction expr generalizing lhs op with
  | leaf term => rfl
  | compound l inner r left right =>
      have split : (op, (compound l inner r).first) :: (compound l inner r).behind =
          (op, l.first) :: l.behind ++ (inner, r.first) :: r.behind := rfl
      rw [split, chain_append, right, left, text_compound]
      simp only [String.append_assoc]

theorem leftNested_leftNested (expr : Expr) : expr.leftNested.LeftNested :=
  have single : (leaf expr.first).LeftNested := trivial
  leftNested_chain single expr.behind

theorem leaves_leftNested (expr : Expr) : expr.leftNested.leaves = expr.leaves := by
  rw [leftNested, leaves_chain, expr.leaves_eq]
  rfl

theorem operators_leftNested (expr : Expr) : expr.leftNested.operators = expr.operators := by
  rw [leftNested, operators_chain, expr.operators_eq]
  rfl

theorem text_leftNested (expr : Expr) : expr.leftNested.text = expr.text := by
  induction expr with
  | leaf term => rfl
  | compound lhs op rhs left _ =>
      have split : (compound lhs op rhs).leftNested =
          lhs.leftNested.chain ((op, rhs.first) :: rhs.behind) :=
        chain_append (leaf lhs.first) lhs.behind _
      rw [split, text_chain, left, text_compound]

theorem hasNotation_iff (expr : Expr) :
    expr.hasNotation = true ↔
      expr.LeftNested ∧ ∀ term ∈ expr.leaves, term.hasNotation = true := by
  induction expr with
  | leaf term => simp [LeftNested]
  | compound lhs op rhs left _ =>
      cases rhs with
      | leaf term =>
          simp only [hasNotation_compound_leaf, Bool.and_eq_true, left, LeftNested,
            leaves_compound, leaves_leaf, List.mem_append, List.mem_singleton, and_assoc]
          refine and_congr_right fun _ => ⟨?_, ?_⟩
          · rintro ⟨all, last⟩ other (member | rfl)
            · exact all other member
            · exact last
          · exact fun all => ⟨fun other member => all other (.inl member), all term (.inr rfl)⟩
      | compound l inner r => simp [LeftNested]

end Expr

end DiceNotation
