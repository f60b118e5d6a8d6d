import DiceNotation.Proofs.Limits.Attained

/-! In notation a divisor is a single term.  It is zero in every roll, if it is the constant
zero or a single die that is dropped, or else in none. -/

namespace DiceNotation

/-- A division by the constant zero or by a single die that is dropped. -/
def Compound.DividesByZero (node : Compound) : Prop :=
  node.op = .div ∧ (node.rhs = .const 0 ∨
    ∃ pool policy, node.rhs = .dropping pool policy ∧ pool.count = 1)

theorem Compound.DividesByZero.eq_zero {node : Compound} (h : node.DividesByZero) {b : Int}
    (within : b ∈ node.rhs.limits) : b = 0 := by
  obtain ⟨_, zero | ⟨pool, policy, dropped, single⟩⟩ := h
  · rw [zero] at within
    exact Int.le_antisymm within.2 within.1
  · rw [dropped] at within
    obtain ⟨lower, upper⟩ := Die.mem_limitsOf.mp within
    simp only [single] at lower upper
    omega

theorem Compound.zero_notMem_limits {node : Compound} {term : Term} (single : node.rhs = .leaf term)
    (written : term.hasNotation = true) (division : node.op = .div) (h : ¬ node.DividesByZero) :
    (0 : Int) ∉ node.rhs.limits := by
  rw [single]
  refine Expr.zero_notMem_limits written ?_ ?_
  · exact fun zero => h ⟨division, .inl (single.trans zero)⟩
  · exact fun pool policy dropped one =>
      h ⟨division, .inr ⟨pool, policy, single.trans dropped, one⟩⟩

namespace Expr

variable {expr : Expr}

theorem not_dividesByZero_of_roll_ok {σ : Type} [WordSource σ] {supply rest : Supply σ}
    {roll : Roll} {node : Compound} (h : expr.roll supply = (.ok roll, rest))
    (member : node ∈ expr.compounds) : ¬ node.DividesByZero := by
  intro division
  obtain ⟨n, a, _, b, within, applied⟩ := applies_of_roll_ok h member
  have zero : node.op.apply a b = .error .divisionByZero :=
    Operator.apply_eq_divisionByZero_iff.mpr ⟨division.1, division.eq_zero within⟩
  cases applied.symm.trans zero

theorem exists_dividesByZero_of_roll_error {σ : Type} [WordSource σ] {supply rest : Supply σ}
    (written : expr.hasNotation = true)
    (h : expr.roll supply = (.error .divisionByZero, rest)) :
    ∃ node ∈ expr.compounds, node.DividesByZero := by
  obtain ⟨node, member, a, _, b, within, applied⟩ := applies_of_roll_error h EvalError.noConfusion
  obtain ⟨division, rfl⟩ := Operator.apply_eq_divisionByZero_iff.mp applied
  obtain ⟨term, single, small⟩ := rhs_of_hasNotation written member
  refine ⟨node, member, ?_⟩
  by_contra other
  exact Compound.zero_notMem_limits single small division other within

/-- A notation that divides by such a term never succeeds, and any other one never divides by
zero. -/
theorem divisionByZero_of_hasNotation (expr : Expr) (written : expr.hasNotation = true) :
    ((∃ node ∈ expr.compounds, node.DividesByZero) →
      ∀ (σ : Type) [WordSource σ] (supply : Supply σ) (roll : Roll),
        (expr.roll supply).1 ≠ .ok roll) ∧
    ((∀ node ∈ expr.compounds, ¬ node.DividesByZero) →
      ∀ (σ : Type) [WordSource σ] (supply : Supply σ),
        (expr.roll supply).1 ≠ .error .divisionByZero) := by
  refine ⟨?_, ?_⟩
  · rintro ⟨node, member, division⟩ σ _ supply roll succeeds
    exact not_dividesByZero_of_roll_ok (Prod.ext succeeds rfl) member division
  · intro sound σ _ supply fails
    obtain ⟨node, member, division⟩ :=
      exists_dividesByZero_of_roll_error written (Prod.ext fails rfl)
    exact sound node member division

theorem divisionByZero_of_hasNotation_dropped :
    let square := compound (.const 4294967295) .mul (.const 4294967295)
    let faulty := compound square .div (.dropping ⟨.d4, 1, by decide, by decide⟩ .lowest)
    let sound := compound (.const 9) .div (.dropping ⟨.d4, 2, by decide, by decide⟩ .highest)
    let words : WordCycle := ⟨0, [], []⟩
    (faulty.hasNotation = true ∧ (∃ node ∈ faulty.compounds, node.DividesByZero) ∧
      ∀ roll, (faulty.roll ⟨words, 1⟩).1 ≠ .ok roll) ∧
    sound.hasNotation = true ∧ (∀ node ∈ sound.compounds, ¬ node.DividesByZero) ∧
      (sound.roll ⟨words, 2⟩).1 ≠ .error .divisionByZero := by
  intro square faulty sound words
  have division : ∃ node ∈ faulty.compounds, node.DividesByZero :=
    ⟨⟨square, .div, _⟩, List.mem_append_right _ List.mem_cons_self, rfl, .inr ⟨_, _, rfl, rfl⟩⟩
  have nonzero : ∀ node ∈ sound.compounds, ¬ node.DividesByZero := by
    intro node member
    cases List.mem_singleton.mp member
    rintro ⟨_, zero | ⟨pool, policy, dropped, single⟩⟩
    · cases zero
    · cases dropped
      cases single
  exact ⟨⟨rfl, division, (divisionByZero_of_hasNotation faulty rfl).1 division WordCycle _⟩, rfl,
    nonzero, (divisionByZero_of_hasNotation sound rfl).2 nonzero WordCycle _⟩

end Expr

end DiceNotation
