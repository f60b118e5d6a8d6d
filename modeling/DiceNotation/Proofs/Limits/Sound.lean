import DiceNotation.Proofs.Limits
import DiceNotation.Proofs.Roll

/-! Computed in machine words, the limits take a predecessor, which traps at zero, products,
which trap when they do not fit, and quotients, which trap at a divisor of zero.  All
other steps saturate. -/

namespace DiceNotation

def pred? : Nat → Option Nat
  | 0 => none
  | n + 1 => some n

def product? (a b : Int) : Option Int :=
  if Fits (a * b) then some (a * b) else none

/-- The result in saturating words, none for a division by zero. -/
def Operator.saturating? (op : Operator) (a b : Int) : Option Int :=
  (op.result? a b).map clamp

def Operator.ends (op : Operator) (lhs rhs : Limits) : List (Int × Int) :=
  match op with
  | .add => [(lhs.lo, rhs.lo), (lhs.hi, rhs.hi)]
  | .sub => [(lhs.lo, rhs.hi), (lhs.hi, rhs.lo)]
  | .mul => [(lhs.lo, rhs.lo), (lhs.lo, rhs.hi), (lhs.hi, rhs.lo), (lhs.hi, rhs.hi)]
  | .div => rhs.divisors.flatMap fun d => [(lhs.lo, d), (lhs.hi, d)]

def Limits.combine? (lhs : Limits) (op : Operator) (rhs : Limits) : Option Limits := do
  return hull (← (op.ends lhs rhs).mapM fun ends => op.saturating? ends.1 ends.2)

def Die.limitsOf? (die : Die) (draws : Nat) : Option Limits := do
  return ⟨← product? draws 1, ← product? draws die.sides⟩

def Term.limits? : Term → Option Limits
  | .const value => some (.single value.toInt)
  | .dice ⟨pool, none⟩ => pool.die.limitsOf? pool.count
  | .dice ⟨pool, some _⟩ => do pool.die.limitsOf? (← pred? pool.count)

def Expr.limits? : Expr → Option Limits
  | .leaf term => term.limits?
  | .compound lhs op rhs => do (← lhs.limits?).combine? op (← rhs.limits?)

theorem Operator.saturating_div_ends {lo hi : Int} {ds : List Int} (nonzero : ∀ d ∈ ds, d ≠ 0) :
    (ds.flatMap fun d => [(lo, d), (hi, d)]).mapM
        (fun ends => Operator.div.saturating? ends.1 ends.2) =
      some ((ds.flatMap fun d => [lo.tdiv d, hi.tdiv d]).map clamp) := by
  induction ds with
  | nil => rfl
  | cons d rest ih =>
      have head : d ≠ 0 := nonzero d List.mem_cons_self
      have tail := ih fun other member => nonzero other (List.mem_cons_of_mem d member)
      simp [saturating?, result?, head] at tail ⊢
      simp [tail]

theorem Operator.saturating_ends (op : Operator) (lhs rhs : Limits) :
    (op.ends lhs rhs).mapM (fun ends => op.saturating? ends.1 ends.2) =
      some ((op.corners lhs rhs).map clamp) := by
  cases op with
  | div => exact saturating_div_ends fun d member => (Limits.mem_divisors.mp member).1
  | _ => rfl

theorem Limits.combine?_eq_some (lhs rhs : Limits) (op : Operator) :
    lhs.combine? op rhs = some (lhs.combine op rhs) := by
  rw [combine?, op.saturating_ends]
  rfl

theorem Die.limitsOf?_eq_some {die : Die} {draws : Nat} (few : draws ≤ maxDiceCount) :
    die.limitsOf? draws = some (die.limitsOf draws) := by
  obtain ⟨low, high⟩ := die.limitsOf_fit few
  have first : product? draws 1 = some (draws : Int) := by
    rw [product?, Int.mul_one]
    exact if_pos low
  have second : product? draws die.sides = some (draws * die.sides : Int) :=
    if_pos high
  rw [limitsOf?, first, second]
  rfl

theorem Pool.pred?_count (pool : Pool) : pred? pool.count = some (pool.count - 1) := by
  obtain ⟨die, count, positive, few⟩ := pool
  cases count with
  | zero => exact absurd positive (Nat.lt_irrefl 0)
  | succ others => rfl

theorem Term.limits?_eq_some (term : Term) : term.limits? = some term.limits := by
  match term with
  | .const value => rfl
  | .dice ⟨pool, none⟩ => exact Die.limitsOf?_eq_some pool.count_le
  | .dice ⟨pool, some _⟩ =>
      rw [limits?, pool.pred?_count]
      exact Die.limitsOf?_eq_some (Nat.le_trans (Nat.sub_le _ _) pool.count_le)

theorem Expr.limits?_eq_some (expr : Expr) : expr.limits? = some expr.limits := by
  induction expr with
  | leaf term => exact term.limits?_eq_some
  | compound lhs op rhs left right =>
      rw [limits?, left, right]
      exact Limits.combine?_eq_some lhs.limits rhs.limits op

theorem Limits.hull_fit {values : List Int} (fits : ∀ n ∈ values, Fits n) :
    (hull values).Fit := by
  cases values with
  | nil => exact ⟨by decide, by decide⟩
  | cons n rest =>
      have start : Fits n := fits n List.mem_cons_self
      have later : ∀ m ∈ rest, Fits m := fun m member => fits m (List.mem_cons_of_mem n member)
      constructor
      · apply List.foldlRecOn rest min start
        intro a left b member
        exact ⟨Int.le_min.mpr ⟨left.1, (later b member).1⟩,
          Int.le_trans (Int.min_le_left a b) left.2⟩
      · apply List.foldlRecOn rest max start
        intro a left b member
        exact ⟨Int.le_trans left.1 (Int.le_max_left a b),
          Int.max_le.mpr ⟨left.2, (later b member).2⟩⟩

theorem Expr.limits_fit (expr : Expr) : expr.limits.Fit := by
  induction expr with
  | leaf term => exact term.limits_fit
  | compound lhs op rhs =>
      apply Limits.hull_fit
      intro n member
      obtain ⟨m, _, rfl⟩ := List.mem_map.mp member
      exact fits_clamp m

theorem Die.limitsOf_ordered (die : Die) (draws : Nat) :
    (die.limitsOf draws).lo ≤ (die.limitsOf draws).hi :=
  Int.ofNat_le.mpr (Nat.le_mul_of_pos_right draws die.sides_pos)

theorem Expr.limits_ordered (expr : Expr) : expr.limits.lo ≤ expr.limits.hi := by
  match expr with
  | .leaf (.const value) => exact Int.le_refl _
  | .leaf (.dice ⟨pool, none⟩) => exact pool.die.limitsOf_ordered pool.count
  | .leaf (.dice ⟨pool, some _⟩) => exact pool.die.limitsOf_ordered (pool.count - 1)
  | .compound lhs op rhs => exact Limits.hull_ordered _

theorem Expr.result_mem_limits {σ : Type} [WordSource σ] {expr : Expr} {supply rest : Supply σ}
    {roll : Roll} (h : expr.roll supply = (.ok roll, rest)) : roll.result ∈ expr.limits := by
  induction expr generalizing supply rest roll with
  | leaf term =>
      obtain ⟨draws, drawn, result⟩ := Term.draws_of_roll h
      rw [result]
      exact term.exact_mem_limits drawn
  | compound lhs op rhs ihLeft ihRight =>
      obtain ⟨a, b, middle, left, right, applied⟩ := operands_of_roll h
      exact Limits.mem_combine (ihLeft left) (ihRight right) applied

/-- No step of the limits traps, they fit, and every roll that succeeds is within them. -/
theorem Expr.limits_sound (expr : Expr) :
    expr.limits? = some expr.limits ∧ Fits expr.limits.lo ∧ Fits expr.limits.hi ∧
      ∀ (σ : Type) [WordSource σ] (supply rest : Supply σ) (roll : Roll),
        expr.roll supply = (.ok roll, rest) →
          expr.limits.lo ≤ roll.result ∧ roll.result ≤ expr.limits.hi := by
  obtain ⟨low, high⟩ := expr.limits_fit
  refine ⟨expr.limits?_eq_some, low, high, ?_⟩
  intro σ _ supply rest roll h
  exact result_mem_limits h

theorem Expr.limits_sound_straddling :
    let pool : Pool := ⟨.d6, 1, by decide, by decide⟩
    let expr := compound (.const 10) .div (compound (.dice pool) .sub (.const 3))
    let words : WordCycle := ⟨9223372036854775808, [], []⟩
    let roll : Roll := ⟨10, .compound (.leaf (.constant 10)) .div
      (.compound (.leaf (.draws [4])) .sub (.leaf (.constant 3)))⟩
    expr.roll ⟨words, 1⟩ = (.ok roll, ⟨words, 0⟩) ∧ expr.limits = ⟨-10, 10⟩ ∧
      expr.limits.lo ≤ roll.result ∧ roll.result ≤ expr.limits.hi := by
  refine ⟨rfl, rfl, ?_⟩
  exact (limits_sound _).2.2.2 WordCycle ⟨⟨9223372036854775808, [], []⟩, 1⟩ _ _ rfl

end DiceNotation
