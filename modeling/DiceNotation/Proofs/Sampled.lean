import DiceNotation.Proofs.Limits.Sound
import DiceNotation.Proofs.Roll

namespace DiceNotation

structure Compound where
  lhs : Expr
  op : Operator
  rhs : Expr
  deriving DecidableEq

/-- Values within the limits of the operands have this outcome. -/
def Compound.Applies (node : Compound) (outcome : Except EvalError Int) : Prop :=
  ∃ a ∈ node.lhs.limits, ∃ b ∈ node.rhs.limits, node.op.apply a b = outcome

namespace Expr

def compounds : Expr → List Compound
  | .leaf _ => []
  | .compound lhs op rhs => lhs.compounds ++ rhs.compounds ++ [⟨lhs, op, rhs⟩]

@[simp] theorem compounds_leaf (term : Term) : (leaf term).compounds = [] := rfl

@[simp] theorem compounds_compound (lhs rhs : Expr) (op : Operator) :
    (compound lhs op rhs).compounds =
      lhs.compounds ++ rhs.compounds ++ [⟨lhs, op, rhs⟩] := rfl

theorem mem_compounds {lhs rhs : Expr} {op : Operator} {node : Compound} :
    node ∈ (compound lhs op rhs).compounds ↔
      node ∈ lhs.compounds ∨ node ∈ rhs.compounds ∨ node = ⟨lhs, op, rhs⟩ := by
  simp

theorem rhs_of_hasNotation {expr : Expr} {node : Compound} (h : expr.hasNotation = true)
    (member : node ∈ expr.compounds) :
    ∃ term, node.rhs = leaf term ∧ term.hasNotation = true := by
  induction expr with
  | leaf term => cases member
  | compound lhs op rhs left _ =>
      cases rhs with
      | compound l inner r => cases h
      | leaf term =>
          rw [hasNotation_compound_leaf, Bool.and_eq_true] at h
          rcases mem_compounds.mp member with member | member | rfl
          · exact left h.1 member
          · cases member
          · exact ⟨term, rfl, h.2⟩

variable {σ : Type} [WordSource σ] {supply rest : Supply σ}

theorem applies_of_roll_ok {expr : Expr} {roll : Roll} {node : Compound}
    (h : expr.roll supply = (.ok roll, rest)) (member : node ∈ expr.compounds) :
    ∃ n, node.Applies (.ok n) := by
  induction expr generalizing supply rest roll with
  | leaf term => cases member
  | compound lhs op rhs left right =>
      obtain ⟨a, b, middle, rolledLeft, rolledRight, applied⟩ := operands_of_roll h
      rcases mem_compounds.mp member with member | member | rfl
      · exact left rolledLeft member
      · exact right rolledRight member
      · exact ⟨roll.result, a.result, result_mem_limits rolledLeft, b.result,
          result_mem_limits rolledRight, applied⟩

theorem applies_of_roll_error {expr : Expr} {error : EvalError}
    (h : expr.roll supply = (.error error, rest)) (supplied : error ≠ .exhausted) :
    ∃ node ∈ expr.compounds, node.Applies (.error error) := by
  induction expr generalizing supply rest with
  | leaf term => exact absurd (Term.error_of_roll h) supplied
  | compound lhs op rhs left right =>
      rcases faults_of_roll h with
        failed | ⟨_, _, _, failed⟩ | ⟨a, b, _, rolledLeft, rolledRight, applied⟩
      · obtain ⟨node, member, applies⟩ := left failed
        exact ⟨node, mem_compounds.mpr (.inl member), applies⟩
      · obtain ⟨node, member, applies⟩ := right failed
        exact ⟨node, mem_compounds.mpr (.inr (.inl member)), applies⟩
      · exact ⟨⟨lhs, op, rhs⟩, mem_compounds.mpr (.inr (.inr rfl)), a.result,
          result_mem_limits rolledLeft, b.result, result_mem_limits rolledRight, applied⟩

end Expr

variable {σ : Type}

/-- An expression with the draws of its terms, none for a draw that used up the supply,
and the supply left behind each of them. -/
inductive Sampled (σ : Type) where
  | leaf (term : Term) (draws? : Option (List Nat)) (rest : Supply σ)
  | compound (lhs : Sampled σ) (op : Operator) (rhs : Sampled σ)

namespace Sampled

def rest : Sampled σ → Supply σ
  | .leaf _ _ rest => rest
  | .compound _ _ rhs => rhs.rest

def value? : Sampled σ → Option Int
  | .leaf term draws? _ => draws?.map term.exact
  | .compound lhs op rhs => do op.result? (← lhs.value?) (← rhs.value?)

def postorder : Sampled σ → List (Sampled σ)
  | .leaf term draws? rest => [.leaf term draws? rest]
  | .compound lhs op rhs => lhs.postorder ++ rhs.postorder ++ [.compound lhs op rhs]

def fault? : Sampled σ → Option EvalError
  | .leaf _ (some _) _ => none
  | .leaf _ none _ => some .exhausted
  | .compound lhs op rhs =>
      match lhs.value?, rhs.value? with
      | some a, some b =>
          match op.result? a b with
          | none => some .divisionByZero
          | some n => if Fits n then none else some .overflow
      | _, _ => none

/-- The first fault in postorder, with the supply left behind its node. -/
def first? (sampled : Sampled σ) : Option (EvalError × Supply σ) :=
  sampled.postorder.findSome? fun node => node.fault?.map (·, node.rest)

theorem first?_compound (lhs rhs : Sampled σ) (op : Operator) :
    (compound lhs op rhs).first? =
      lhs.first?.or (rhs.first?.or ((compound lhs op rhs).fault?.map (·, rhs.rest))) := by
  simp [first?, postorder, List.findSome?_append, rest]

theorem first?_eq_none_iff {sampled : Sampled σ} :
    sampled.first? = none ↔ ∀ node ∈ sampled.postorder, node.fault? = none := by
  simp [first?]

theorem first?_eq_some_iff {sampled : Sampled σ} {error : EvalError} {supply : Supply σ} :
    sampled.first? = some (error, supply) ↔
      ∃ before node after, sampled.postorder = before ++ node :: after ∧
        (∀ earlier ∈ before, earlier.fault? = none) ∧
        node.fault? = some error ∧ supply = node.rest := by
  rw [first?, List.findSome?_eq_some_iff]
  constructor
  · rintro ⟨before, node, after, split, found, earlier⟩
    obtain ⟨_, fault, same⟩ := Option.map_eq_some_iff.mp found
    cases same
    refine ⟨before, node, after, split, ?_, fault, rfl⟩
    intro other member
    exact Option.map_eq_none_iff.mp (earlier other member)
  · rintro ⟨before, node, after, split, earlier, fault, rfl⟩
    refine ⟨before, node, after, split, by rw [fault]; rfl, ?_⟩
    intro other member
    exact Option.map_eq_none_iff.mpr (earlier other member)

section Operands

variable {lhs rhs : Sampled σ} {op : Operator} {a b : Int}

theorem value?_of_operands (left : lhs.value? = some a) (right : rhs.value? = some b) :
    (compound lhs op rhs).value? = op.result? a b := by
  rw [value?, left, right]
  rfl

theorem fault?_of_apply_ok {n : Int} (left : lhs.value? = some a) (right : rhs.value? = some b)
    (applied : op.apply a b = .ok n) : (compound lhs op rhs).fault? = none := by
  obtain ⟨found, fits⟩ := Operator.apply_eq_ok_iff.mp applied
  simp only [fault?, left, right, found, if_pos fits]

theorem fault?_of_apply_error {error : EvalError} (left : lhs.value? = some a)
    (right : rhs.value? = some b) (applied : op.apply a b = .error error) :
    (compound lhs op rhs).fault? = some error := by
  simp only [fault?, left, right]
  cases found : op.result? a b with
  | none =>
      rw [Operator.apply_of_result?_eq_none found] at applied
      cases applied
      rfl
  | some n =>
      rw [Operator.apply_of_result?_eq_some found, checked] at applied
      split at applied
      · cases applied
      · next fits =>
          cases applied
          exact if_neg fits

end Operands

end Sampled

variable [WordSource σ]

def Expr.sampled : Expr → Supply σ → Sampled σ
  | .leaf term, supply =>
      let (drawn, rest) := term.draw supply
      .leaf term drawn.toOption rest
  | .compound lhs op rhs, supply =>
      let left := lhs.sampled supply
      .compound left op (rhs.sampled left.rest)

namespace Expr

theorem sampled_leaf {term : Term} {supply rest : Supply σ} {drawn : Except EvalError (List Nat)}
    (h : term.draw supply = (drawn, rest)) :
    (leaf term).sampled supply = .leaf term drawn.toOption rest := by
  rw [sampled, h]

theorem roll_of_first?_eq_none {expr : Expr} {supply : Supply σ}
    (h : (expr.sampled supply).first? = none) :
    ∃ roll, expr.roll supply = (.ok roll, (expr.sampled supply).rest) ∧
      (expr.sampled supply).value? = some roll.result := by
  induction expr generalizing supply with
  | leaf term =>
      rcases drawn : term.draw supply with ⟨error | draws, rest⟩
      · rw [sampled_leaf drawn] at h
        cases h
      · obtain ⟨roll, rolled, result⟩ := Term.roll_of_draw drawn
        rw [sampled_leaf drawn]
        exact ⟨roll, rolled, congrArg some result.symm⟩
  | compound lhs op rhs ihLeft ihRight =>
      rw [sampled, Sampled.first?_compound, Option.or_eq_none_iff, Option.or_eq_none_iff] at h
      obtain ⟨left, right, own⟩ := h
      obtain ⟨a, rolledLeft, valueLeft⟩ := ihLeft left
      obtain ⟨b, rolledRight, valueRight⟩ := ihRight right
      have rolled := roll_of_operands op rolledLeft rolledRight
      cases applied : op.apply a.result b.result with
      | error error =>
          rw [Sampled.fault?_of_apply_error valueLeft valueRight applied] at own
          cases own
      | ok n =>
          rw [applied] at rolled
          refine ⟨_, rolled, ?_⟩
          rw [sampled, Sampled.value?_of_operands valueLeft valueRight]
          exact (Operator.apply_eq_ok_iff.mp applied).1

theorem roll_of_first?_eq_some {expr : Expr} {supply rest : Supply σ} {error : EvalError}
    (h : (expr.sampled supply).first? = some (error, rest)) :
    expr.roll supply = (.error error, rest) := by
  induction expr generalizing supply with
  | leaf term =>
      rcases drawn : term.draw supply with ⟨other | draws, behind⟩
      · obtain ⟨rfl, _⟩ := Term.draw_error drawn
        rw [sampled_leaf drawn] at h
        cases h
        exact Term.roll_of_draw_error drawn
      · rw [sampled_leaf drawn] at h
        cases h
  | compound lhs op rhs ihLeft ihRight =>
      rw [sampled, Sampled.first?_compound] at h
      -- A fault on the left hides the right operand, which is rolled only behind a value.
      cases left : (lhs.sampled supply).first? with
      | some fault =>
          rw [left] at h
          cases h
          exact roll_of_left_error (ihLeft left)
      | none =>
          obtain ⟨a, rolledLeft, valueLeft⟩ := roll_of_first?_eq_none left
          rw [left, Option.none_or] at h
          cases right : (rhs.sampled (lhs.sampled supply).rest).first? with
          | some fault =>
              rw [right] at h
              cases h
              exact roll_of_right_error rolledLeft (ihRight right)
          | none =>
              obtain ⟨b, rolledRight, valueRight⟩ := roll_of_first?_eq_none right
              have rolled := roll_of_operands op rolledLeft rolledRight
              rw [right, Option.none_or] at h
              cases applied : op.apply a.result b.result with
              | ok n =>
                  rw [Sampled.fault?_of_apply_ok valueLeft valueRight applied] at h
                  cases h
              | error fault =>
                  rw [Sampled.fault?_of_apply_error valueLeft valueRight applied] at h
                  cases h
                  rw [rolled, applied]
                  rfl

theorem draw_of_mem_postorder {expr : Expr} {supply rest : Supply σ} {term : Term}
    {draws? : Option (List Nat)}
    (h : .leaf term draws? rest ∈ (expr.sampled supply).postorder) :
    ∃ (before : Supply σ) (drawn : Except EvalError (List Nat)),
      term.draw before = (drawn, rest) ∧ drawn.toOption = draws? := by
  induction expr generalizing supply with
  | leaf other =>
      cases List.mem_singleton.mp h
      exact ⟨supply, _, rfl, rfl⟩
  | compound lhs op rhs ihLeft ihRight =>
      rw [sampled, Sampled.postorder] at h
      simp only [List.mem_append, List.mem_singleton, reduceCtorEq, or_false] at h
      exact h.elim ihLeft ihRight

theorem fits_of_mem_postorder {expr : Expr} {supply rest : Supply σ} {term : Term}
    {draws : List Nat} (h : .leaf term (some draws) rest ∈ (expr.sampled supply).postorder) :
    Fits (term.exact draws) := by
  obtain ⟨before, drawn, draw, found⟩ := draw_of_mem_postorder h
  cases drawn with
  | error error => cases found
  | ok draws =>
      cases found
      exact term.limits_fit.of_mem (term.exact_mem_limits (Term.drawn_of_draw draw))

theorem left_of_mem_postorder {expr : Expr} {supply rest : Supply σ} {term : Term}
    (h : .leaf term none rest ∈ (expr.sampled supply).postorder) : rest.left = 0 := by
  obtain ⟨before, drawn, draw, found⟩ := draw_of_mem_postorder h
  cases drawn with
  | error error => exact (Term.draw_error draw).2
  | ok draws => cases found

/-- A roll succeeds with the exact value when no node is at fault.  Else it ends with the
error of the first node at fault and the supply behind that node.  A term has a value that
fits, unless its draw used up the supply. -/
theorem roll_refines_exact (expr : Expr) (supply : Supply σ) :
    let sampled := expr.sampled supply
    ((∀ node ∈ sampled.postorder, node.fault? = none) ↔
      ∃ roll, expr.roll supply = (.ok roll, sampled.rest) ∧
        sampled.value? = some roll.result) ∧
    (∀ error rest, expr.roll supply = (.error error, rest) ↔
      ∃ before node after, sampled.postorder = before ++ node :: after ∧
        (∀ earlier ∈ before, earlier.fault? = none) ∧
        node.fault? = some error ∧ rest = node.rest) ∧
    (∀ term draws rest, .leaf term (some draws) rest ∈ sampled.postorder →
      Fits (term.exact draws)) ∧
    ∀ term rest, .leaf term none rest ∈ sampled.postorder → rest.left = 0 := by
  refine ⟨?_, ?_, fun _ _ _ => fits_of_mem_postorder, fun _ _ => left_of_mem_postorder⟩
  · rw [← Sampled.first?_eq_none_iff]
    refine ⟨roll_of_first?_eq_none, ?_⟩
    rintro ⟨roll, rolled, _⟩
    cases found : (expr.sampled supply).first? with
    | none => rfl
    | some fault =>
        have failed := roll_of_first?_eq_some found
        rw [rolled] at failed
        cases failed
  · intro error rest
    rw [← Sampled.first?_eq_some_iff]
    refine ⟨?_, roll_of_first?_eq_some⟩
    intro failed
    cases found : (expr.sampled supply).first? with
    | none =>
        obtain ⟨roll, rolled, _⟩ := roll_of_first?_eq_none found
        rw [rolled] at failed
        cases failed
    | some fault =>
        have same := roll_of_first?_eq_some found
        rw [failed] at same
        cases same
        rfl

theorem roll_refines_exact_hidden_fault :
    let die : Term := .dice ⟨⟨.d6, 1, by decide, by decide⟩, none⟩
    let words : WordCycle := ⟨9223372036854775808, [], []⟩
    let quotient := compound (leaf die) .div (.const 0)
    (compound quotient .mul quotient).roll ⟨words, 2⟩ =
        (.error .divisionByZero, ⟨words, 1⟩) ∧
      .leaf die (some [4]) ⟨words, 1⟩ ∈ (quotient.sampled ⟨words, 2⟩).postorder ∧
      Fits (die.exact [4]) := by
  refine ⟨((roll_refines_exact _ _).2.1 _ _).mpr ⟨[_, _], _, _, rfl, ?_, rfl, rfl⟩, ?_⟩
  · intro earlier member
    rcases List.mem_cons.mp member with rfl | member
    · rfl
    · cases List.mem_singleton.mp member
      rfl
  · have drawn {term : Term} {rest : Supply WordCycle} {tail : List (Sampled WordCycle)} :
        .leaf term (some [4]) rest ∈ .leaf term (some [4]) rest :: tail := List.mem_cons_self
    have fits := (roll_refines_exact
      (compound (leaf (.dice ⟨⟨.d6, 1, by decide, by decide⟩, none⟩)) .div (.const 0))
      (⟨⟨9223372036854775808, [], []⟩, 2⟩ : Supply WordCycle)).2.2.1 _ _ _ drawn
    exact ⟨drawn, fits⟩

end Expr

end DiceNotation
