import DiceNotation.Proofs.Exact

namespace DiceNotation

variable {σ : Type} [WordSource σ]

theorem Term.drawn_of_draw {term : Term} {supply rest : Supply σ} {draws : List Nat}
    (h : term.draw supply = (.ok draws, rest)) : term.Drawn draws := by
  cases term with
  | const value =>
      cases h
      rfl
  | dice d => exact Pool.drawn_of_draw h

theorem Term.draw_error {term : Term} {supply rest : Supply σ} {error : EvalError}
    (h : term.draw supply = (.error error, rest)) : error = .exhausted ∧ rest.left = 0 := by
  cases term with
  | const value => cases h
  | dice d => exact Pool.draw_error h

theorem Term.roll_of_draw {term : Term} {supply rest : Supply σ} {draws : List Nat}
    (h : term.draw supply = (.ok draws, rest)) :
    ∃ roll, term.roll supply = (.ok roll, rest) ∧ roll.result = term.exact draws := by
  cases term with
  | const value =>
      cases h
      exact ⟨_, rfl, rfl⟩
  | dice d => exact ⟨_, Rolling.bind_of_ok h _, d.ofDraws_result draws⟩

theorem Term.roll_of_draw_error {term : Term} {supply rest : Supply σ} {error : EvalError}
    (h : term.draw supply = (.error error, rest)) :
    term.roll supply = (.error error, rest) := by
  cases term with
  | const value => cases h
  | dice d => exact Rolling.bind_of_error h _

theorem Term.draws_of_roll {term : Term} {supply rest : Supply σ} {roll : Roll}
    (h : term.roll supply = (.ok roll, rest)) :
    ∃ draws, term.Drawn draws ∧ roll.result = term.exact draws := by
  rcases drawn : term.draw supply with ⟨error | draws, middle⟩
  · rw [roll_of_draw_error drawn] at h
    cases h
  · obtain ⟨other, found, result⟩ := roll_of_draw drawn
    rw [found] at h
    cases h
    exact ⟨draws, drawn_of_draw drawn, result⟩

theorem Term.error_of_roll {term : Term} {supply rest : Supply σ} {error : EvalError}
    (h : term.roll supply = (.error error, rest)) : error = .exhausted := by
  rcases drawn : term.draw supply with ⟨fault | draws, middle⟩
  · rw [roll_of_draw_error drawn] at h
    cases h
    exact (draw_error drawn).1
  · obtain ⟨roll, found, _⟩ := roll_of_draw drawn
    rw [found] at h
    cases h

theorem DiceTerm.roll_of_draw {dice : DiceTerm} {supply rest : Supply σ} {draws : List Nat}
    (h : dice.pool.draw supply = (.ok draws, rest)) :
    (Term.dice dice).roll supply = (.ok (dice.ofDraws draws), rest) :=
  Rolling.bind_of_ok h _

theorem DiceTerm.draws_of_roll {dice : DiceTerm} {supply rest : Supply σ} {roll : Roll}
    (h : (Term.dice dice).roll supply = (.ok roll, rest)) :
    ∃ draws, dice.pool.draw supply = (.ok draws, rest) ∧ roll = dice.ofDraws draws := by
  rcases drawn : dice.pool.draw supply with ⟨error | draws, middle⟩
  · cases (Rolling.bind_of_error drawn _).symm.trans h
  · cases (roll_of_draw drawn).symm.trans h
    exact ⟨draws, rfl, rfl⟩

namespace Expr

variable {lhs rhs : Expr} {op : Operator} {supply middle rest : Supply σ} {a b : Roll}

theorem roll_of_left_error {error : EvalError} (h : lhs.roll supply = (.error error, rest)) :
    (compound lhs op rhs).roll supply = (.error error, rest) :=
  Rolling.bind_of_error h _

theorem roll_of_right_error {error : EvalError} (left : lhs.roll supply = (.ok a, middle))
    (right : rhs.roll middle = (.error error, rest)) :
    (compound lhs op rhs).roll supply = (.error error, rest) := by
  rw [roll, Rolling.bind_of_ok left, Rolling.bind_of_error right]

theorem roll_of_operands (op : Operator) (left : lhs.roll supply = (.ok a, middle))
    (right : rhs.roll middle = (.ok b, rest)) :
    (compound lhs op rhs).roll supply =
      ((op.apply a.result b.result).map fun n =>
        ⟨n, .compound a.breakdown op b.breakdown⟩, rest) := by
  rw [roll, Rolling.bind_of_ok left, Rolling.bind_of_ok right]
  cases op.apply a.result b.result with
  | error error => rfl
  | ok n => rfl

theorem operands_of_roll {roll : Roll}
    (h : (compound lhs op rhs).roll supply = (.ok roll, rest)) :
    ∃ a b middle, lhs.roll supply = (.ok a, middle) ∧ rhs.roll middle = (.ok b, rest) ∧
      op.apply a.result b.result = .ok roll.result := by
  rcases left : lhs.roll supply with ⟨error | a, middle⟩
  · rw [roll_of_left_error left] at h
    cases h
  · rcases right : rhs.roll middle with ⟨error | b, last⟩
    · rw [roll_of_right_error left right] at h
      cases h
    · rw [roll_of_operands op left right] at h
      cases applied : op.apply a.result b.result with
      | error error =>
          rw [applied] at h
          cases h
      | ok n =>
          rw [applied] at h
          cases h
          exact ⟨a, b, middle, rfl, right, applied⟩

/-- A roll of a compound fails in its left operand, in its right one, or at its operator. -/
theorem faults_of_roll {error : EvalError}
    (h : (compound lhs op rhs).roll supply = (.error error, rest)) :
    lhs.roll supply = (.error error, rest) ∨
      (∃ a middle, lhs.roll supply = (.ok a, middle) ∧
        rhs.roll middle = (.error error, rest)) ∨
      ∃ a b middle, lhs.roll supply = (.ok a, middle) ∧ rhs.roll middle = (.ok b, rest) ∧
        op.apply a.result b.result = .error error := by
  rcases left : lhs.roll supply with ⟨fault | a, middle⟩
  · rw [roll_of_left_error left] at h
    cases h
    exact .inl rfl
  · right
    rcases right : rhs.roll middle with ⟨fault | b, last⟩
    · rw [roll_of_right_error left right] at h
      cases h
      exact .inl ⟨a, middle, rfl, right⟩
    · rw [roll_of_operands op left right] at h
      cases applied : op.apply a.result b.result with
      | error fault =>
          rw [applied] at h
          cases h
          exact .inr ⟨a, b, middle, rfl, right, applied⟩
      | ok n =>
          rw [applied] at h
          cases h

end Expr

end DiceNotation
