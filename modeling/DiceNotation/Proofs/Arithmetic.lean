import DiceNotation.Limits
import DiceNotation.Roll

/-! Every operator takes its extremes over two ranges at their corners.  For a quotient
the corners are those of the ends of the divisors and of the units among them. -/

namespace DiceNotation

def Operator.result? (op : Operator) (a b : Int) : Option Int :=
  match op with
  | .add => some (a + b)
  | .sub => some (a - b)
  | .mul => some (a * b)
  | .div => if b = 0 then none else some (a.tdiv b)

theorem Operator.apply_of_result?_eq_none {op : Operator} {a b : Int}
    (h : op.result? a b = none) : op.apply a b = .error .divisionByZero := by
  cases op with
  | div =>
      have zero : b = 0 := by simpa [result?] using h
      simp [apply, zero]
  | _ => cases h

theorem Operator.apply_of_result?_eq_some {op : Operator} {a b n : Int}
    (h : op.result? a b = some n) : op.apply a b = checked n := by
  cases op with
  | div =>
      by_cases zero : b = 0
      · simp [result?, zero] at h
      · simp only [result?, if_neg zero, Option.some.injEq] at h
        simp [apply, zero, h]
  | _ =>
      cases h
      rfl

theorem Operator.apply_eq_ok_iff {op : Operator} {a b n : Int} :
    op.apply a b = .ok n ↔ op.result? a b = some n ∧ Fits n := by
  cases found : op.result? a b with
  | none => simp [apply_of_result?_eq_none found]
  | some m =>
      rw [apply_of_result?_eq_some found, checked]
      by_cases fits : Fits m
      · simp only [if_pos fits, Except.ok.injEq, Option.some.injEq]
        exact ⟨fun same => ⟨same, same ▸ fits⟩, And.left⟩
      · simp only [if_neg fits, reduceCtorEq, Option.some.injEq, false_iff, not_and]
        exact fun same => same ▸ fits

theorem Operator.apply_eq_overflow_iff {op : Operator} {a b : Int} :
    op.apply a b = .error .overflow ↔ ∃ n, op.result? a b = some n ∧ ¬ Fits n := by
  cases found : op.result? a b with
  | none => simp [apply_of_result?_eq_none found]
  | some n =>
      rw [apply_of_result?_eq_some found, checked]
      by_cases fits : Fits n
      · simp [fits]
      · simp [fits]

theorem Operator.apply_eq_divisionByZero_iff {op : Operator} {a b : Int} :
    op.apply a b = .error .divisionByZero ↔ op = .div ∧ b = 0 := by
  cases found : op.result? a b with
  | none =>
      have zero : op = .div ∧ b = 0 := by
        cases op with
        | div => exact ⟨rfl, by simpa [result?] using found⟩
        | _ => cases found
      exact iff_of_true (apply_of_result?_eq_none found) zero
  | some n =>
      have nonzero : ¬ (op = .div ∧ b = 0) := by
        rintro ⟨rfl, rfl⟩
        cases found
      rw [apply_of_result?_eq_some found, checked]
      refine iff_of_false ?_ nonzero
      split <;> simp

theorem Operator.apply_ne_exhausted (op : Operator) (a b : Int) :
    op.apply a b ≠ .error .exhausted := by
  cases found : op.result? a b with
  | none => simp [apply_of_result?_eq_none found]
  | some n =>
      rw [apply_of_result?_eq_some found, checked]
      split <;> simp

/-- The integer lies between the two, whichever of them is the larger. -/
def Between (n a b : Int) : Prop :=
  (a ≤ n ∧ n ≤ b) ∨ (b ≤ n ∧ n ≤ a)

theorem mul_between {lo hi a : Int} (b : Int) (lower : lo ≤ a) (upper : a ≤ hi) :
    Between (a * b) (lo * b) (hi * b) := by
  rcases Int.le_total 0 b with positive | negative
  · exact .inl ⟨Int.mul_le_mul_of_nonneg_right lower positive,
      Int.mul_le_mul_of_nonneg_right upper positive⟩
  · exact .inr ⟨Int.mul_le_mul_of_nonpos_right upper negative,
      Int.mul_le_mul_of_nonpos_right lower negative⟩

theorem tdiv_between {lo hi a b : Int} (nonzero : b ≠ 0) (lower : lo ≤ a) (upper : a ≤ hi) :
    Between (a.tdiv b) (lo.tdiv b) (hi.tdiv b) := by
  rcases Int.lt_or_gt_of_ne nonzero with negative | positive
  · have flipped : ∀ x : Int, x.tdiv b = -(x.tdiv (-b)) := by
      intro x
      rw [Int.tdiv_neg, Int.neg_neg]
    have first := Int.tdiv_le_tdiv (c := -b) (by omega) lower
    have second := Int.tdiv_le_tdiv (c := -b) (by omega) upper
    right
    rw [flipped a, flipped lo, flipped hi]
    omega
  · exact .inl ⟨Int.tdiv_le_tdiv positive lower, Int.tdiv_le_tdiv positive upper⟩

theorem tdiv_le_tdiv_of_divisor_le {x b d : Int} (positive : 0 ≤ x) (small : 0 < b)
    (larger : b ≤ d) : x.tdiv d ≤ x.tdiv b := by
  have nonneg : 0 ≤ x.tdiv d := Int.tdiv_nonneg positive (by omega)
  apply Int.le_tdiv_of_mul_le small
  calc
    x.tdiv d * b ≤ x.tdiv d * d := Int.mul_le_mul_of_nonneg_left larger nonneg
    _ = d * x.tdiv d := Int.mul_comm _ _
    _ ≤ x := Int.mul_tdiv_self_le positive

theorem tdiv_between_divisors {x lo hi b : Int} (positive : 0 < lo) (lower : lo ≤ b)
    (upper : b ≤ hi) : Between (x.tdiv b) (x.tdiv lo) (x.tdiv hi) := by
  rcases Int.le_total 0 x with nonneg | nonpos
  · right
    exact ⟨tdiv_le_tdiv_of_divisor_le nonneg (by omega) upper,
      tdiv_le_tdiv_of_divisor_le nonneg positive lower⟩
  · have flipped : ∀ d : Int, x.tdiv d = -((-x).tdiv d) := by
      intro d
      rw [Int.neg_tdiv, Int.neg_neg]
    have first := tdiv_le_tdiv_of_divisor_le (x := -x) (by omega) positive lower
    have second := tdiv_le_tdiv_of_divisor_le (x := -x) (by omega) (by omega : 0 < b) upper
    left
    rw [flipped b, flipped lo, flipped hi]
    omega

theorem tdiv_between_neg_divisors {x lo hi b : Int} (negative : hi < 0) (lower : lo ≤ b)
    (upper : b ≤ hi) : Between (x.tdiv b) (x.tdiv lo) (x.tdiv hi) := by
  have mirrored := tdiv_between_divisors (x := x) (by omega : 0 < -hi)
    (Int.neg_le_neg upper) (Int.neg_le_neg lower)
  simp only [Int.tdiv_neg, Between] at mirrored
  unfold Between
  omega

end DiceNotation
