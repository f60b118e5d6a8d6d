import DiceNotation.Proofs.Sampled
import Mathlib.Data.Stream.Init

/-! Words that make every die show one, or its number of sides, bring a term to its limits.
The words of two operands one after the other bring a compound to any corner of their
limits, so the hull of the corners is reached as long as no result overflows and no
divisor can be zero. -/

namespace DiceNotation

instance : WordSource (Stream' UInt64) where
  next words := (words.head, words.tail)

theorem Die.face?_lowest (die : Die) : die.face? 0 = some 1 := by
  cases die <;> rfl

def Die.highestWord (die : Die) : UInt64 := UInt64.ofNat (wordCount - wordCount / die.sides)

theorem Die.face?_highest (die : Die) : die.face? die.highestWord = some die.sides := by
  cases die <;> decide

theorem Die.draw_of_face? {die : Die} {word : UInt64} {face : Nat}
    (h : die.face? word = some face) (words : Stream' UInt64) (left : Nat) :
    die.draw ⟨Stream'.cons word words, left + 1⟩ = (.ok face, ⟨words, left⟩) := by
  have head : die.face? (WordSource.next (Stream'.cons word words)).1 = some face := h
  simp only [draw, drawWithin, head]
  rfl

theorem Die.drawMany_replicate {die : Die} {word : UInt64} {face : Nat}
    (h : die.face? word = some face) (count : Nat) (tail : Stream' UInt64) (left : Nat) :
    die.drawMany count ⟨List.replicate count word ++ₛ tail, count + left⟩ =
      (.ok (List.replicate count face), ⟨tail, left⟩) := by
  induction count with
  | zero => simp [drawMany, Rolling.pure_apply]
  | succ count ih =>
      rw [List.replicate_succ, Stream'.cons_append_stream, Nat.succ_add, drawMany,
        Rolling.bind_of_ok (draw_of_face? h _ _), Rolling.bind_of_ok ih, Rolling.pure_apply,
        List.replicate_succ]

def DiceTerm.kept (dice : DiceTerm) : Nat :=
  match dice.drop? with
  | none => dice.pool.count
  | some _ => dice.pool.count - 1

theorem DiceTerm.limits_eq (dice : DiceTerm) :
    dice.limits = dice.pool.die.limitsOf dice.kept := by
  obtain ⟨pool, drop?⟩ := dice
  cases drop? <;> rfl

theorem DiceTerm.exact_replicate (dice : DiceTerm) (face : Nat) :
    dice.exact (List.replicate dice.pool.count face) = (dice.kept * face : Nat) := by
  obtain ⟨⟨die, count, positive, few⟩, drop?⟩ := dice
  obtain ⟨others, rfl⟩ := Nat.exists_eq_add_of_le' positive
  have less : ((others + 1) * face : Int) - face = others * face := by
    rw [Int.add_mul, Int.one_mul, Int.add_sub_cancel]
  match drop? with
  | none => simp [exact, kept]
  | some .lowest => simp [exact, kept, less]
  | some .highest => simp [exact, kept, less]

namespace Limits

theorem foldl_mem {pick : Int → Int → Int} (picks : ∀ a b, pick a b = a ∨ pick a b = b)
    (n : Int) (values : List Int) : values.foldl pick n ∈ n :: values := by
  induction values generalizing n with
  | nil => exact List.mem_cons_self
  | cons c rest ih =>
      rcases List.mem_cons.mp (ih (pick n c)) with same | member
      · rw [List.foldl_cons, same]
        rcases picks n c with first | second
        · simp [first]
        · simp [second]
      · exact List.mem_cons_of_mem _ (List.mem_cons_of_mem _ member)

theorem ends_mem_of_hull {values : List Int} (nonempty : values ≠ []) :
    (hull values).lo ∈ values ∧ (hull values).hi ∈ values := by
  cases values with
  | nil => exact absurd rfl nonempty
  | cons n rest => exact ⟨foldl_mem min_choice n rest, foldl_mem max_choice n rest⟩

/-- A unit within limits that exclude zero is one of their ends. -/
theorem eq_end_of_mem_divisors {range : Limits} {d : Int} (nonzero : (0 : Int) ∉ range)
    (h : d ∈ range.divisors) : d ≠ 0 ∧ (d = range.lo ∨ d = range.hi) := by
  obtain ⟨differs, low | high | ⟨unit, inside⟩⟩ := mem_divisors.mp h
  · exact ⟨differs, .inl low⟩
  · exact ⟨differs, .inr high⟩
  · rw [mem_def] at nonzero inside
    refine ⟨differs, ?_⟩
    omega

end Limits

namespace Operator

variable {op : Operator} {lhs rhs : Limits}

theorem corners_ne_nil (nonzero : op = .div → (0 : Int) ∉ rhs) : op.corners lhs rhs ≠ [] := by
  cases op with
  | div =>
      have differs : rhs.lo ≠ 0 ∨ rhs.hi ≠ 0 := by
        have outside := nonzero rfl
        rw [Limits.mem_def] at outside
        omega
      have found : ∃ d, d ∈ rhs.divisors := by
        rcases differs with low | high
        · exact ⟨_, Limits.mem_divisors.mpr ⟨low, .inl rfl⟩⟩
        · exact ⟨_, Limits.mem_divisors.mpr ⟨high, .inr (.inl rfl)⟩⟩
      obtain ⟨d, member⟩ := found
      exact List.ne_nil_of_mem (List.mem_flatMap.mpr ⟨d, member, List.mem_cons_self⟩)
  | _ => exact List.cons_ne_nil _ _

theorem operands_of_corner {c : Int} (nonzero : op = .div → (0 : Int) ∉ rhs)
    (h : c ∈ op.corners lhs rhs) :
    ∃ a b, (a = lhs.lo ∨ a = lhs.hi) ∧ (b = rhs.lo ∨ b = rhs.hi) ∧ op.result? a b = some c := by
  cases op with
  | div =>
      obtain ⟨d, member, h⟩ := List.mem_flatMap.mp h
      obtain ⟨differs, ends⟩ := Limits.eq_end_of_mem_divisors (nonzero rfl) member
      rcases List.mem_pair.mp h with rfl | rfl
      · exact ⟨_, d, .inl rfl, ends, if_neg differs⟩
      · exact ⟨_, d, .inr rfl, ends, if_neg differs⟩
  | add =>
      rcases List.mem_pair.mp h with rfl | rfl
      · exact ⟨_, _, .inl rfl, .inl rfl, rfl⟩
      · exact ⟨_, _, .inr rfl, .inr rfl, rfl⟩
  | sub =>
      rcases List.mem_pair.mp h with rfl | rfl
      · exact ⟨_, _, .inl rfl, .inr rfl, rfl⟩
      · exact ⟨_, _, .inr rfl, .inl rfl, rfl⟩
  | mul =>
      simp only [corners, List.mem_cons, List.not_mem_nil, or_false] at h
      rcases h with rfl | rfl | rfl | rfl
      · exact ⟨_, _, .inl rfl, .inl rfl, rfl⟩
      · exact ⟨_, _, .inl rfl, .inr rfl, rfl⟩
      · exact ⟨_, _, .inr rfl, .inl rfl, rfl⟩
      · exact ⟨_, _, .inr rfl, .inr rfl, rfl⟩

end Operator

namespace Expr

/-- With these words in front of any others, the roll takes exactly them and comes to
this result. -/
def Reaches (expr : Expr) (words : List UInt64) (result : Int) : Prop :=
  ∀ (tail : Stream' UInt64) (left : Nat), ∃ roll,
    expr.roll ⟨words ++ₛ tail, words.length + left⟩ = (.ok roll, ⟨tail, left⟩) ∧
      roll.result = result

theorem reaches_const (value : Int64) : (const value).Reaches [] value.toInt := by
  intro tail left
  exact ⟨_, by rw [Stream'.nil_append_stream, List.length_nil, Nat.zero_add]; rfl, rfl⟩

theorem reaches_dice {dice : DiceTerm} {word : UInt64} {face : Nat}
    (h : dice.pool.die.face? word = some face) :
    (leaf (.dice dice)).Reaches (List.replicate dice.pool.count word) (dice.kept * face : Nat) := by
  intro tail left
  rw [List.length_replicate]
  have drawn : (Term.dice dice).draw _ = _ := Die.drawMany_replicate h dice.pool.count tail left
  obtain ⟨roll, rolled, result⟩ := Term.roll_of_draw drawn
  exact ⟨roll, rolled, result.trans (dice.exact_replicate face)⟩

theorem roll_of_reaches {lhs rhs : Expr} {before behind : List UInt64} {a b : Int}
    (op : Operator) (left : lhs.Reaches before a) (right : rhs.Reaches behind b)
    (tail : Stream' UInt64) (budget : Nat) :
    ∃ x y, (compound lhs op rhs).roll
        ⟨before ++ behind ++ₛ tail, (before ++ behind).length + budget⟩ =
      ((op.apply a b).map fun n => ⟨n, .compound x op y⟩, ⟨tail, budget⟩) := by
  obtain ⟨first, rolledLeft, rfl⟩ := left (behind ++ₛ tail) (behind.length + budget)
  obtain ⟨second, rolledRight, rfl⟩ := right tail budget
  rw [Stream'.append_append_stream, List.length_append, Nat.add_assoc]
  exact ⟨first.breakdown, second.breakdown, roll_of_operands op rolledLeft rolledRight⟩

def divisors : Expr → List Expr
  | .leaf _ => []
  | .compound lhs .div rhs => rhs :: (lhs.divisors ++ rhs.divisors)
  | .compound lhs _ rhs => lhs.divisors ++ rhs.divisors

theorem mem_divisors_compound {lhs rhs divisor : Expr} {op : Operator} :
    divisor ∈ (compound lhs op rhs).divisors ↔
      (op = .div ∧ divisor = rhs) ∨ divisor ∈ lhs.divisors ∨ divisor ∈ rhs.divisors := by
  cases op <;> simp [divisors]

theorem mem_divisors_iff {expr divisor : Expr} :
    divisor ∈ expr.divisors ↔ ∃ node ∈ expr.compounds, node.op = .div ∧ node.rhs = divisor := by
  induction expr with
  | leaf term => simp [divisors]
  | compound lhs op rhs left right =>
      simp only [mem_divisors_compound, left, right, mem_compounds, or_and_right, exists_or,
        exists_eq_left]
      rw [or_rotate, eq_comm (a := divisor)]

def NonzeroDivisors (expr : Expr) : Prop :=
  ∀ divisor ∈ expr.divisors, (0 : Int) ∉ divisor.limits

theorem nonzeroDivisors_compound {lhs rhs : Expr} {op : Operator} :
    (compound lhs op rhs).NonzeroDivisors ↔
      lhs.NonzeroDivisors ∧ rhs.NonzeroDivisors ∧ (op = .div → (0 : Int) ∉ rhs.limits) := by
  simp only [NonzeroDivisors, mem_divisors_compound]
  grind

def NeverOverflows (expr : Expr) : Prop :=
  ∀ supply : Supply (Stream' UInt64), (expr.roll supply).1 ≠ .error .overflow

section Compound

variable {lhs rhs : Expr} {op : Operator} {words : List UInt64} {a : Int}

theorem NeverOverflows.left (h : (compound lhs op rhs).NeverOverflows) : lhs.NeverOverflows := by
  intro supply overflows
  have failed : lhs.roll supply = (.error .overflow, _) := Prod.ext overflows rfl
  exact h supply (by rw [roll_of_left_error failed])

theorem NeverOverflows.right (h : (compound lhs op rhs).NeverOverflows)
    (left : lhs.Reaches words a) : rhs.NeverOverflows := by
  rintro ⟨tail, budget⟩ overflows
  obtain ⟨first, rolledLeft, _⟩ := left tail budget
  have failed : rhs.roll ⟨tail, budget⟩ = (.error .overflow, _) := Prod.ext overflows rfl
  exact h _ (by rw [roll_of_right_error rolledLeft failed])

theorem reaches_corner {before behind : List UInt64} {b c : Int}
    (h : (compound lhs op rhs).NeverOverflows) (left : lhs.Reaches before a)
    (right : rhs.Reaches behind b) (found : op.result? a b = some c) :
    Fits c ∧ (compound lhs op rhs).Reaches (before ++ behind) c := by
  have rolled := roll_of_reaches op left right
  by_cases fits : Fits c
  · rw [Operator.apply_eq_ok_iff.mpr ⟨found, fits⟩] at rolled
    refine ⟨fits, fun tail budget => ?_⟩
    obtain ⟨x, y, rolled⟩ := rolled tail budget
    exact ⟨_, rolled, rfl⟩
  · rw [Operator.apply_eq_overflow_iff.mpr ⟨c, found, fits⟩] at rolled
    obtain ⟨_, _, overflows⟩ := rolled (Stream'.const 0) 0
    exact absurd (congrArg Prod.fst overflows) (h _)

theorem neverOverflows_leaf (term : Term) : (leaf term).NeverOverflows := by
  intro supply overflows
  have failed : term.roll supply = (.error .overflow, _) := Prod.ext overflows rfl
  cases Term.error_of_roll failed

theorem neverOverflows_of_corners (left : lhs.NeverOverflows) (right : rhs.NeverOverflows)
    (fits : ∀ c ∈ op.corners lhs.limits rhs.limits, Fits c) :
    (compound lhs op rhs).NeverOverflows := by
  intro supply overflows
  have rolled : (compound lhs op rhs).roll supply = (.error .overflow, _) :=
    Prod.ext overflows rfl
  rcases faults_of_roll rolled with
    failed | ⟨_, middle, _, failed⟩ | ⟨a, b, _, rolledLeft, rolledRight, applied⟩
  · exact left supply (by rw [failed])
  · exact right middle (by rw [failed])
  · obtain ⟨c, corner, outside⟩ := Operator.exists_corner_of_overflow
      (result_mem_limits rolledLeft) (result_mem_limits rolledRight) applied
    exact outside (fits c corner)

end Compound

def ReachesLimits (expr : Expr) : Prop :=
  (∃ words, expr.Reaches words expr.limits.lo) ∧ ∃ words, expr.Reaches words expr.limits.hi

theorem ReachesLimits.of_end {expr : Expr} {n : Int} (h : expr.ReachesLimits)
    (ends : n = expr.limits.lo ∨ n = expr.limits.hi) : ∃ words, expr.Reaches words n := by
  rcases ends with rfl | rfl
  · exact h.1
  · exact h.2

theorem reachesLimits_leaf (term : Term) : (leaf term).ReachesLimits := by
  cases term with
  | const value => exact ⟨⟨[], reaches_const value⟩, [], reaches_const value⟩
  | dice dice =>
      have limits : (leaf (.dice dice)).limits = dice.pool.die.limitsOf dice.kept :=
        dice.limits_eq
      rw [ReachesLimits, limits]
      refine ⟨⟨List.replicate dice.pool.count 0, ?_⟩, _, reaches_dice dice.pool.die.face?_highest⟩
      simpa [Die.limitsOf] using reaches_dice dice.pool.die.face?_lowest

theorem fits_and_reaches_of_corner {lhs rhs : Expr} {op : Operator} {c : Int}
    (h : (compound lhs op rhs).NeverOverflows) (outside : op = .div → (0 : Int) ∉ rhs.limits)
    (left : lhs.ReachesLimits) (right : rhs.ReachesLimits)
    (corner : c ∈ op.corners lhs.limits rhs.limits) :
    Fits c ∧ ∃ words, (compound lhs op rhs).Reaches words c := by
  obtain ⟨a, b, endA, endB, found⟩ := Operator.operands_of_corner outside corner
  obtain ⟨before, reachesA⟩ := left.of_end endA
  obtain ⟨behind, reachesB⟩ := right.of_end endB
  obtain ⟨fits, reaches⟩ := reaches_corner h reachesA reachesB found
  exact ⟨fits, _, reaches⟩

theorem reaches_limits {expr : Expr} (nonzero : expr.NonzeroDivisors) (h : expr.NeverOverflows) :
    expr.ReachesLimits := by
  induction expr with
  | leaf term => exact reachesLimits_leaf term
  | compound lhs op rhs ihLeft ihRight =>
      obtain ⟨nonzeroLeft, nonzeroRight, outside⟩ := nonzeroDivisors_compound.mp nonzero
      have left := ihLeft nonzeroLeft h.left
      obtain ⟨low, reachesLow⟩ := left.1
      have right := ihRight nonzeroRight (h.right reachesLow)
      -- No corner overflows, so clamping changes none of them.
      have reached : ∀ n ∈ (op.corners lhs.limits rhs.limits).map clamp,
          ∃ words, (compound lhs op rhs).Reaches words n := by
        intro n member
        obtain ⟨c, corner, rfl⟩ := List.mem_map.mp member
        obtain ⟨fits, words, reaches⟩ := fits_and_reaches_of_corner h outside left right corner
        exact ⟨words, (clamp_eq_self_iff.mpr fits).symm ▸ reaches⟩
      have nonempty : (op.corners lhs.limits rhs.limits).map clamp ≠ [] := by
        simpa using Operator.corners_ne_nil outside
      obtain ⟨memLow, memHigh⟩ := Limits.ends_mem_of_hull nonempty
      exact ⟨reached _ memLow, reached _ memHigh⟩

theorem divisor_of_hasNotation {expr divisor : Expr} (h : expr.hasNotation = true)
    (member : divisor ∈ expr.divisors) :
    ∃ term, divisor = leaf term ∧ term.hasNotation = true := by
  obtain ⟨node, within, _, rfl⟩ := mem_divisors_iff.mp member
  exact rhs_of_hasNotation h within

theorem zero_notMem_limits {term : Term} (h : term.hasNotation = true)
    (nonzero : leaf term ≠ const 0)
    (several : ∀ pool policy, leaf term = dropping pool policy → pool.count ≠ 1) :
    (0 : Int) ∉ term.limits := by
  rintro ⟨lower, upper⟩
  match term with
  | .const value =>
      have zero : value.toInt = 0 := Int.le_antisymm lower upper
      exact nonzero (congrArg Expr.const (Int64.toInt.inj (zero.trans Int64.toInt_zero.symm)))
  | .dice ⟨pool, none⟩ =>
      have positive : (pool.count : Int) ≤ 0 := lower
      have := pool.count_pos
      omega
  | .dice ⟨pool, some policy⟩ =>
      have positive : ((pool.count - 1 : Nat) : Int) ≤ 0 := lower
      have := pool.count_pos
      have := several pool policy rfl
      omega

/-- Without overflow, words bring the roll to either end of the limits, as long as the limits
of every divisor exclude zero.  In notation only a constant zero and a single dropped die
include it. -/
theorem limits_attained (expr : Expr) :
    ((∀ divisor ∈ expr.divisors, (0 : Int) ∉ divisor.limits) →
      (∀ supply : Supply (Stream' UInt64), (expr.roll supply).1 ≠ .error .overflow) →
        (∃ (words : Stream' UInt64) (left : Nat) (roll : Roll) (rest : Supply (Stream' UInt64)),
          expr.roll ⟨words, left⟩ = (.ok roll, rest) ∧ roll.result = expr.limits.lo) ∧
        ∃ (words : Stream' UInt64) (left : Nat) (roll : Roll) (rest : Supply (Stream' UInt64)),
          expr.roll ⟨words, left⟩ = (.ok roll, rest) ∧ roll.result = expr.limits.hi) ∧
    (expr.hasNotation = true →
      (∀ divisor ∈ expr.divisors, divisor ≠ const 0 ∧
        ∀ pool policy, divisor = dropping pool policy → pool.count ≠ 1) →
          ∀ divisor ∈ expr.divisors, (0 : Int) ∉ divisor.limits) := by
  refine ⟨?_, ?_⟩
  · intro nonzero fits
    obtain ⟨⟨low, reachesLow⟩, high, reachesHigh⟩ := reaches_limits nonzero fits
    obtain ⟨least, rolledLow, lowest⟩ := reachesLow (Stream'.const 0) 0
    obtain ⟨greatest, rolledHigh, highest⟩ := reachesHigh (Stream'.const 0) 0
    exact ⟨⟨_, _, least, _, rolledLow, lowest⟩, _, _, greatest, _, rolledHigh, highest⟩
  · intro written allowed divisor member
    obtain ⟨term, rfl, small⟩ := divisor_of_hasNotation written member
    obtain ⟨nonzero, several⟩ := allowed _ member
    exact zero_notMem_limits small nonzero several

theorem limits_attained_multiple :
    let quotient := compound (.dice ⟨.d6, 2, by decide, by decide⟩) .div
      (.dice ⟨.d4, 1, by decide, by decide⟩)
    let multiple := compound quotient .mul (.const (-3))
    (∀ divisor ∈ multiple.divisors, (0 : Int) ∉ divisor.limits) ∧
      (∀ supply : Supply (Stream' UInt64), (multiple.roll supply).1 ≠ .error .overflow) ∧
      (∃ (words : Stream' UInt64) (left : Nat) (roll : Roll) (rest : Supply (Stream' UInt64)),
        multiple.roll ⟨words, left⟩ = (.ok roll, rest) ∧ roll.result = -36) ∧
      (∃ (words : Stream' UInt64) (left : Nat) (roll : Roll) (rest : Supply (Stream' UInt64)),
        multiple.roll ⟨words, left⟩ = (.ok roll, rest) ∧ roll.result = 0) ∧
      quotient.hasNotation = true ∧
      ∀ divisor ∈ quotient.divisors, (0 : Int) ∉ divisor.limits := by
  intro quotient multiple
  have fits : multiple.NeverOverflows :=
    neverOverflows_of_corners
      (neverOverflows_of_corners (neverOverflows_leaf _) (neverOverflows_leaf _) (by decide))
      (neverOverflows_leaf _) (by decide)
  have nonzero : ∀ divisor ∈ multiple.divisors, (0 : Int) ∉ divisor.limits := by decide
  obtain ⟨least, greatest⟩ := (limits_attained multiple).1 nonzero fits
  refine ⟨nonzero, fits, least, greatest, rfl, (limits_attained quotient).2 rfl ?_⟩
  intro divisor member
  cases List.mem_singleton.mp member
  exact ⟨by decide, fun _ _ same => by cases same⟩

end Expr

def Compound.Saturates (node : Compound) : Prop :=
  ∃ c ∈ node.op.corners node.lhs.limits node.rhs.limits, ¬ Fits c

instance (node : Compound) : Decidable node.Saturates :=
  inferInstanceAs (Decidable (∃ c ∈ _, ¬ Fits c))

namespace Expr

theorem saturates_of_overflow {σ : Type} [WordSource σ] {expr : Expr} {supply : Supply σ}
    (h : (expr.roll supply).1 = .error .overflow) : ∃ node ∈ expr.compounds, node.Saturates := by
  obtain ⟨node, member, a, left, b, right, applied⟩ :=
    applies_of_roll_error (Prod.ext h rfl) EvalError.noConfusion
  exact ⟨node, member, Operator.exists_corner_of_overflow left right applied⟩

theorem not_saturates_of_neverOverflows {expr : Expr} {node : Compound}
    (nonzero : expr.NonzeroDivisors) (h : expr.NeverOverflows)
    (member : node ∈ expr.compounds) : ¬ node.Saturates := by
  induction expr with
  | leaf term => cases member
  | compound lhs op rhs ihLeft ihRight =>
      obtain ⟨nonzeroLeft, nonzeroRight, outside⟩ := nonzeroDivisors_compound.mp nonzero
      have left := reaches_limits nonzeroLeft h.left
      obtain ⟨words, reaches⟩ := left.1
      -- The right operand is rolled only where the left one has a result.
      have fitsRight := h.right reaches
      have right := reaches_limits nonzeroRight fitsRight
      rcases mem_compounds.mp member with member | member | rfl
      · exact ihLeft nonzeroLeft h.left member
      · exact ihRight nonzeroRight fitsRight member
      · rintro ⟨c, corner, clamped⟩
        exact clamped (fits_and_reaches_of_corner h outside left right corner).1

/-- A roll overflows only if a corner is clamped at some compound.  A clamped corner makes some
words overflow, as long as the limits of every divisor exclude zero. -/
theorem overflow_iff_saturates (expr : Expr) :
    (∀ (σ : Type) [WordSource σ] (supply : Supply σ),
      (expr.roll supply).1 = .error .overflow → ∃ node ∈ expr.compounds, node.Saturates) ∧
    ((∀ divisor ∈ expr.divisors, (0 : Int) ∉ divisor.limits) →
      (∃ node ∈ expr.compounds, node.Saturates) →
        ∃ (words : Stream' UInt64) (left : Nat) (rest : Supply (Stream' UInt64)),
          expr.roll ⟨words, left⟩ = (.error .overflow, rest)) := by
  refine ⟨fun _ _ _ => saturates_of_overflow, ?_⟩
  rintro nonzero ⟨node, member, saturates⟩
  by_contra fits
  refine not_saturates_of_neverOverflows nonzero ?_ member saturates
  rintro ⟨words, left⟩ overflows
  exact fits ⟨words, left, _, Prod.ext overflows rfl⟩

theorem overflow_iff_saturates_largest_quotient :
    let quotient := compound (.const Int64.maxValue) .div (.dice ⟨.d4, 1, by decide, by decide⟩)
    let sum := compound quotient .add (.dice ⟨.d6, 1, by decide, by decide⟩)
    let words : WordCycle := ⟨0, [], []⟩
    (sum.roll ⟨words, 2⟩).1 = .error .overflow ∧
      (∃ node ∈ sum.compounds, node.Saturates) ∧
      (∀ divisor ∈ sum.divisors, (0 : Int) ∉ divisor.limits) ∧
      (∀ node ∈ quotient.compounds, ¬ node.Saturates) ∧
      ∃ (words : Stream' UInt64) (left : Nat) (rest : Supply (Stream' UInt64)),
        sum.roll ⟨words, left⟩ = (.error .overflow, rest) := by
  intro quotient sum words
  have overflows : (sum.roll ⟨words, 2⟩).1 = .error .overflow := by decide
  have saturates := (overflow_iff_saturates sum).1 WordCycle _ overflows
  have nonzero : ∀ divisor ∈ sum.divisors, (0 : Int) ∉ divisor.limits := by decide
  exact ⟨overflows, saturates, nonzero, by decide, (overflow_iff_saturates sum).2 nonzero saturates⟩

end Expr

end DiceNotation
