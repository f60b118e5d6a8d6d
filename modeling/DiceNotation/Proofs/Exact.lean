import DiceNotation.Proofs.Arithmetic
import DiceNotation.Proofs.Draw
import DiceNotation.Proofs.Extreme
import Mathlib.Algebra.BigOperators.Group.List.Basic
import Mathlib.Algebra.Order.BigOperators.Group.List
import Mathlib.Algebra.Order.Ring.Nat

namespace DiceNotation

def DiceTerm.exact (dice : DiceTerm) (draws : List Nat) : Int :=
  match dice.drop? with
  | none => draws.sum
  | some .lowest => draws.sum - draws.min?.getD 0
  | some .highest => draws.sum - draws.max?.getD 0

def Term.exact : Term → List Nat → Int
  | .const value, _ => value.toInt
  | .dice d, draws => d.exact draws

def Term.draw {σ : Type} [WordSource σ] : Term → Rolling σ (List Nat)
  | .const _ => pure []
  | .dice d => d.pool.draw

def Term.Drawn : Term → List Nat → Prop
  | .const _, draws => draws = []
  | .dice d, draws => d.pool.Drawn draws

theorem DropPolicy.value?_lowest (draws : List Nat) :
    DropPolicy.lowest.value? draws = draws.min? := by
  by_cases nonempty : draws = []
  · subst nonempty
    rfl
  · obtain ⟨value, member, found, extreme⟩ := value?_eq_some .lowest nonempty
    rw [found, eq_comm, List.min?_eq_some_iff]
    exact ⟨member, fun other held => Nat.not_lt.mp (extreme other held)⟩

theorem DropPolicy.value?_highest (draws : List Nat) :
    DropPolicy.highest.value? draws = draws.max? := by
  by_cases nonempty : draws = []
  · subst nonempty
    rfl
  · obtain ⟨value, member, found, extreme⟩ := value?_eq_some .highest nonempty
    rw [found, eq_comm, List.max?_eq_some_iff]
    exact ⟨member, fun other held => Nat.not_lt.mp (extreme other held)⟩

theorem DiceTerm.ofDraws_result (dice : DiceTerm) (draws : List Nat) :
    (dice.ofDraws draws).result = dice.exact draws := by
  obtain ⟨pool, drop?⟩ := dice
  match drop? with
  | none => rfl
  | some .lowest => simp only [ofDraws, exact, DropPolicy.value?_lowest]; rfl
  | some .highest => simp only [ofDraws, exact, DropPolicy.value?_highest]; rfl

theorem sum_bounds {draws : List Nat} {sides : Nat}
    (faces : ∀ face ∈ draws, 1 ≤ face ∧ face ≤ sides) :
    draws.length ≤ draws.sum ∧ draws.sum ≤ draws.length * sides := by
  have lower := List.card_nsmul_le_sum draws 1 fun face member => (faces face member).1
  have upper := List.sum_le_card_nsmul draws sides fun face member => (faces face member).2
  simpa using And.intro lower upper

theorem kept_bounds {draws : List Nat} {sides value : Nat} (member : value ∈ draws)
    (faces : ∀ face ∈ draws, 1 ≤ face ∧ face ≤ sides) :
    draws.length - 1 + value ≤ draws.sum ∧ draws.sum ≤ (draws.length - 1) * sides + value := by
  have kept : ∀ face ∈ draws.erase value, 1 ≤ face ∧ face ≤ sides :=
    fun face held => faces face (List.mem_of_mem_erase held)
  have parts : value + (draws.erase value).sum = draws.sum := List.sum_erase member
  have ⟨lower, upper⟩ := sum_bounds kept
  rw [List.length_erase_of_mem member] at lower upper
  omega

theorem Die.mem_limitsOf {die : Die} {draws : Nat} {n : Int} :
    n ∈ die.limitsOf draws ↔ draws ≤ n ∧ n ≤ (draws * die.sides : Nat) := Iff.rfl

theorem Pool.sum_mem_limits {pool : Pool} {draws : List Nat} (drawn : pool.Drawn draws) :
    (draws.sum : Int) ∈ pool.limits := by
  have ⟨lower, upper⟩ := sum_bounds drawn.faces
  rw [drawn.length] at lower upper
  exact Die.mem_limitsOf.mpr ⟨by omega, by omega⟩

theorem Pool.kept_mem_limits {pool : Pool} {draws : List Nat} {value : Nat}
    (drawn : pool.Drawn draws) (member : value ∈ draws) :
    (draws.sum : Int) - value ∈ pool.die.limitsOf (pool.count - 1) := by
  have ⟨lower, upper⟩ := kept_bounds member drawn.faces
  rw [drawn.length] at lower upper
  exact Die.mem_limitsOf.mpr ⟨by omega, by omega⟩

theorem DiceTerm.exact_mem_limits {dice : DiceTerm} {draws : List Nat}
    (drawn : dice.pool.Drawn draws) : dice.exact draws ∈ dice.limits := by
  have nonempty : draws ≠ [] := by
    rintro rfl
    exact absurd drawn.length.symm (Nat.ne_of_gt dice.pool.count_pos)
  obtain ⟨pool, drop?⟩ := dice
  match drop? with
  | none => exact pool.sum_mem_limits drawn
  | some .lowest =>
      have ⟨value, found⟩ := Option.isSome_iff_exists.mp (List.isSome_min?_of_ne_nil nonempty)
      simp only [exact, found, Option.getD_some]
      exact pool.kept_mem_limits drawn (List.min?_mem found)
  | some .highest =>
      have ⟨value, found⟩ := Option.isSome_iff_exists.mp (List.isSome_max?_of_ne_nil nonempty)
      simp only [exact, found, Option.getD_some]
      exact pool.kept_mem_limits drawn (List.max?_mem found)

theorem Term.exact_mem_limits {term : Term} {draws : List Nat} (drawn : term.Drawn draws) :
    term.exact draws ∈ term.limits := by
  cases term with
  | const value => exact ⟨Int.le_refl _, Int.le_refl _⟩
  | dice d => exact d.exact_mem_limits drawn

def Limits.Fit (limits : Limits) : Prop :=
  Fits limits.lo ∧ Fits limits.hi

theorem Limits.Fit.of_mem {limits : Limits} {n : Int} (fit : limits.Fit) (h : n ∈ limits) :
    Fits n :=
  ⟨Int.le_trans fit.1.1 h.1, Int.le_trans h.2 fit.2.2⟩

theorem Die.limitsOf_fit {die : Die} {draws : Nat} (few : draws ≤ maxDiceCount) :
    (die.limitsOf draws).Fit := by
  have product : draws * die.sides ≤ maxDiceCount * 100 := Nat.mul_le_mul few die.sides_le
  unfold maxDiceCount at few product
  refine ⟨⟨?_, ?_⟩, ?_, ?_⟩ <;> simp only [limitsOf, minInteger, maxInteger] <;> omega

theorem Term.limits_fit (term : Term) : term.limits.Fit := by
  match term with
  | .const value => exact ⟨fits_toInt value, fits_toInt value⟩
  | .dice ⟨pool, none⟩ => exact Die.limitsOf_fit pool.count_le
  | .dice ⟨pool, some _⟩ => exact Die.limitsOf_fit (Nat.le_trans (Nat.sub_le _ _) pool.count_le)

end DiceNotation
