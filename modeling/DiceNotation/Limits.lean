import DiceNotation.Expr

namespace DiceNotation

def minInteger : Int := -9223372036854775808

def maxInteger : Int := 9223372036854775807

def Fits (n : Int) : Prop :=
  minInteger ≤ n ∧ n ≤ maxInteger

instance (n : Int) : Decidable (Fits n) :=
  inferInstanceAs (Decidable (_ ∧ _))

def clamp (n : Int) : Int :=
  if n < minInteger then minInteger else if maxInteger < n then maxInteger else n

theorem fits_clamp (n : Int) : Fits (clamp n) := by
  grind [Fits, clamp, minInteger, maxInteger]

theorem clamp_eq_self_iff {n : Int} : clamp n = n ↔ Fits n := by
  grind [Fits, clamp, minInteger, maxInteger]

theorem clamp_mono {m n : Int} (h : m ≤ n) : clamp m ≤ clamp n := by
  grind [clamp, minInteger, maxInteger]

theorem fits_toInt (word : Int64) : Fits word.toInt :=
  ⟨Int64.le_toInt word, Int.le_of_lt_add_one (Int64.toInt_lt word)⟩

structure Limits where
  lo : Int
  hi : Int
  deriving DecidableEq, Repr

namespace Limits

instance : Membership Int Limits where
  mem limits n := limits.lo ≤ n ∧ n ≤ limits.hi

theorem mem_def {n : Int} {limits : Limits} :
    n ∈ limits ↔ limits.lo ≤ n ∧ n ≤ limits.hi := Iff.rfl

instance (n : Int) (limits : Limits) : Decidable (n ∈ limits) :=
  inferInstanceAs (Decidable (_ ∧ _))

def single (n : Int) : Limits := ⟨n, n⟩

/-- The divisors at which a quotient over the range can be extreme: its ends, and
the units inside it. -/
def divisors (range : Limits) : List Int :=
  ([range.lo, range.hi] ++ [-1, 1].filter (· ∈ range)).filter (· ≠ 0)

end Limits

/-- The exact results at the corners of the two ranges. -/
def Operator.corners (op : Operator) (lhs rhs : Limits) : List Int :=
  match op with
  | .add => [lhs.lo + rhs.lo, lhs.hi + rhs.hi]
  | .sub => [lhs.lo - rhs.hi, lhs.hi - rhs.lo]
  | .mul => [lhs.lo * rhs.lo, lhs.lo * rhs.hi, lhs.hi * rhs.lo, lhs.hi * rhs.hi]
  | .div => rhs.divisors.flatMap fun d => [lhs.lo.tdiv d, lhs.hi.tdiv d]

namespace Limits

/-- The least range that holds the values, zero alone for no value. -/
def hull : List Int → Limits
  | [] => single 0
  | n :: rest => ⟨rest.foldl min n, rest.foldl max n⟩

def combine (lhs : Limits) (op : Operator) (rhs : Limits) : Limits :=
  hull ((op.corners lhs rhs).map clamp)

end Limits

def Die.limits (die : Die) : Limits := ⟨1, die.sides⟩

def Die.limitsOf (die : Die) (draws : Nat) : Limits := ⟨draws, draws * die.sides⟩

def Pool.limits (pool : Pool) : Limits := pool.die.limitsOf pool.count

def DiceTerm.limits (dice : DiceTerm) : Limits :=
  match dice.drop? with
  | none => dice.pool.limits
  | some _ => dice.pool.die.limitsOf (dice.pool.count - 1)

def Term.limits : Term → Limits
  | .const value => .single value.toInt
  | .dice d => d.limits

def Expr.limits : Expr → Limits
  | .leaf term => term.limits
  | .compound lhs op rhs => lhs.limits.combine op rhs.limits

@[simp] theorem Expr.limits_leaf (term : Term) :
    (Expr.leaf term).limits = term.limits := rfl

@[simp] theorem Expr.limits_compound (lhs rhs : Expr) (op : Operator) :
    (Expr.compound lhs op rhs).limits = lhs.limits.combine op rhs.limits := rfl

end DiceNotation
