import DiceNotation.Proofs.Arithmetic

/-! An exact result over two ranges lies between two of their corners.  Clamping keeps
the order, so a result that fits lies between the clamped corners as well. -/

namespace DiceNotation

def Enclosed (n : Int) (values : List Int) : Prop :=
  (∃ c ∈ values, c ≤ n) ∧ ∃ c ∈ values, n ≤ c

theorem Enclosed.of_between {n a b : Int} {values : List Int} (between : Between n a b)
    (first : Enclosed a values) (second : Enclosed b values) : Enclosed n values := by
  obtain ⟨⟨lowA, memLowA, leA⟩, highA, memHighA, geA⟩ := first
  obtain ⟨⟨lowB, memLowB, leB⟩, highB, memHighB, geB⟩ := second
  rcases between with ⟨lower, upper⟩ | ⟨lower, upper⟩
  · exact ⟨⟨lowA, memLowA, Int.le_trans leA lower⟩, highB, memHighB, Int.le_trans upper geB⟩
  · exact ⟨⟨lowB, memLowB, Int.le_trans leB lower⟩, highA, memHighA, Int.le_trans upper geA⟩

theorem Enclosed.of_mem {n : Int} {values : List Int} (h : n ∈ values) : Enclosed n values :=
  ⟨⟨n, h, Int.le_refl n⟩, n, h, Int.le_refl n⟩

theorem Enclosed.clamp {n : Int} {values : List Int} (h : Enclosed n values) (fits : Fits n) :
    Enclosed n (values.map clamp) := by
  obtain ⟨⟨low, memLow, below⟩, high, memHigh, above⟩ := h
  have same : DiceNotation.clamp n = n := clamp_eq_self_iff.mpr fits
  refine ⟨⟨_, List.mem_map_of_mem memLow, ?_⟩, _, List.mem_map_of_mem memHigh, ?_⟩
  · exact same ▸ clamp_mono below
  · exact same ▸ clamp_mono above

namespace Limits

theorem mem_divisors {range : Limits} {d : Int} :
    d ∈ range.divisors ↔ d ≠ 0 ∧ (d = range.lo ∨ d = range.hi ∨ (d = -1 ∨ d = 1) ∧ d ∈ range) := by
  simp [divisors, and_comm]

theorem exists_divisors {range : Limits} {b : Int} (mem : b ∈ range) (nonzero : b ≠ 0) :
    ∃ d ∈ range.divisors, ∃ e ∈ range.divisors,
      ∀ x : Int, Between (x.tdiv b) (x.tdiv d) (x.tdiv e) := by
  obtain ⟨lower, upper⟩ := mem_def.mp mem
  -- A range that reaches across zero ends, for divisors of one sign, at their unit.
  rcases Int.lt_or_gt_of_ne nonzero with negative | positive
  · have low : range.lo ∈ range.divisors := mem_divisors.mpr ⟨by omega, .inl rfl⟩
    by_cases apart : range.hi < 0
    · exact ⟨range.lo, low, range.hi, mem_divisors.mpr ⟨by omega, .inr (.inl rfl)⟩,
        fun x => tdiv_between_neg_divisors apart lower upper⟩
    · have unit : (-1 : Int) ∈ range := mem_def.mpr ⟨by omega, by omega⟩
      exact ⟨range.lo, low, -1, mem_divisors.mpr ⟨by decide, .inr (.inr ⟨.inl rfl, unit⟩)⟩,
        fun x => tdiv_between_neg_divisors (by decide) lower (by omega)⟩
  · have high : range.hi ∈ range.divisors := mem_divisors.mpr ⟨by omega, .inr (.inl rfl)⟩
    by_cases apart : 0 < range.lo
    · exact ⟨range.lo, mem_divisors.mpr ⟨by omega, .inl rfl⟩, range.hi, high,
        fun x => tdiv_between_divisors apart lower upper⟩
    · have unit : (1 : Int) ∈ range := mem_def.mpr ⟨by omega, by omega⟩
      exact ⟨1, mem_divisors.mpr ⟨by decide, .inr (.inr ⟨.inr rfl, unit⟩)⟩, range.hi, high,
        fun x => tdiv_between_divisors (by decide) (by omega) upper⟩

theorem foldl_min_le (n : Int) (values : List Int) :
    values.foldl min n ≤ n ∧ ∀ c ∈ values, values.foldl min n ≤ c := by
  induction values generalizing n with
  | nil => exact ⟨Int.le_refl n, fun _ member => by cases member⟩
  | cons c rest ih =>
      obtain ⟨below, belowRest⟩ := ih (min n c)
      refine ⟨Int.le_trans below (Int.min_le_left n c), ?_⟩
      intro d member
      rcases List.mem_cons.mp member with rfl | member
      · exact Int.le_trans below (Int.min_le_right n d)
      · exact belowRest d member

theorem le_foldl_max (n : Int) (values : List Int) :
    n ≤ values.foldl max n ∧ ∀ c ∈ values, c ≤ values.foldl max n := by
  induction values generalizing n with
  | nil => exact ⟨Int.le_refl n, fun _ member => by cases member⟩
  | cons c rest ih =>
      obtain ⟨above, aboveRest⟩ := ih (max n c)
      refine ⟨Int.le_trans (Int.le_max_left n c) above, ?_⟩
      intro d member
      rcases List.mem_cons.mp member with rfl | member
      · exact Int.le_trans (Int.le_max_right n d) above
      · exact aboveRest d member

theorem mem_hull_of_mem {c : Int} {values : List Int} (h : c ∈ values) : c ∈ hull values := by
  cases values with
  | nil => cases h
  | cons n rest =>
      obtain ⟨below, belowRest⟩ := foldl_min_le n rest
      obtain ⟨above, aboveRest⟩ := le_foldl_max n rest
      rcases List.mem_cons.mp h with rfl | member
      · exact ⟨below, above⟩
      · exact ⟨belowRest c member, aboveRest c member⟩

theorem hull_ordered (values : List Int) : (hull values).lo ≤ (hull values).hi := by
  cases values with
  | nil => exact Int.le_refl 0
  | cons n rest => exact Int.le_trans (foldl_min_le n rest).1 (le_foldl_max n rest).1

theorem mem_hull_of_enclosed {n : Int} {values : List Int} (h : Enclosed n values) :
    n ∈ hull values := by
  obtain ⟨⟨low, memLow, below⟩, high, memHigh, above⟩ := h
  exact ⟨Int.le_trans (mem_hull_of_mem memLow).1 below,
    Int.le_trans above (mem_hull_of_mem memHigh).2⟩

end Limits

theorem Operator.enclosed_corners {op : Operator} {lhs rhs : Limits} {a b n : Int}
    (left : a ∈ lhs) (right : b ∈ rhs) (h : op.result? a b = some n) :
    Enclosed n (op.corners lhs rhs) := by
  obtain ⟨lowA, highA⟩ := Limits.mem_def.mp left
  obtain ⟨lowB, highB⟩ := Limits.mem_def.mp right
  cases op with
  | add =>
      cases h
      exact ⟨⟨_, List.mem_cons_self, Int.add_le_add lowA lowB⟩,
        _, List.mem_cons_of_mem _ List.mem_cons_self, Int.add_le_add highA highB⟩
  | sub =>
      cases h
      exact ⟨⟨_, List.mem_cons_self, Int.sub_le_sub lowA highB⟩,
        _, List.mem_cons_of_mem _ List.mem_cons_self, Int.sub_le_sub highA lowB⟩
  | mul =>
      cases h
      have side : ∀ x : Int, Between (x * b) (x * rhs.lo) (x * rhs.hi) := by
        intro x
        rw [Int.mul_comm x b, Int.mul_comm x rhs.lo, Int.mul_comm x rhs.hi]
        exact mul_between x lowB highB
      refine .of_between (mul_between b lowA highA)
        (.of_between (side lhs.lo) (.of_mem ?_) (.of_mem ?_))
        (.of_between (side lhs.hi) (.of_mem ?_) (.of_mem ?_)) <;>
        simp [corners]
  | div =>
      have nonzero : b ≠ 0 := by
        rintro rfl
        cases h
      have exact : a.tdiv b = n := by simpa [result?, nonzero] using h
      subst exact
      obtain ⟨d, memD, e, memE, side⟩ := Limits.exists_divisors right nonzero
      have corner : ∀ x d, (x = lhs.lo ∨ x = lhs.hi) → d ∈ rhs.divisors →
          x.tdiv d ∈ Operator.div.corners lhs rhs := by
        intro x d ends member
        refine List.mem_flatMap.mpr ⟨d, member, ?_⟩
        rcases ends with rfl | rfl <;> simp
      exact .of_between (tdiv_between nonzero lowA highA)
        (.of_between (side lhs.lo) (.of_mem (corner _ d (.inl rfl) memD))
          (.of_mem (corner _ e (.inl rfl) memE)))
        (.of_between (side lhs.hi) (.of_mem (corner _ d (.inr rfl) memD))
          (.of_mem (corner _ e (.inr rfl) memE)))

theorem Operator.exists_corner_of_overflow {op : Operator} {lhs rhs : Limits} {a b : Int}
    (left : a ∈ lhs) (right : b ∈ rhs) (h : op.apply a b = .error .overflow) :
    ∃ c ∈ op.corners lhs rhs, ¬ Fits c := by
  obtain ⟨n, found, outside⟩ := apply_eq_overflow_iff.mp h
  obtain ⟨⟨low, memLow, below⟩, high, memHigh, above⟩ := enclosed_corners left right found
  by_cases fits : Fits low
  · refine ⟨high, memHigh, fun inside => outside ?_⟩
    exact ⟨Int.le_trans fits.1 below, Int.le_trans above inside.2⟩
  · exact ⟨low, memLow, fits⟩

theorem Limits.mem_combine {op : Operator} {lhs rhs : Limits} {a b n : Int}
    (left : a ∈ lhs) (right : b ∈ rhs) (h : op.apply a b = .ok n) :
    n ∈ lhs.combine op rhs := by
  obtain ⟨found, fits⟩ := Operator.apply_eq_ok_iff.mp h
  exact mem_hull_of_enclosed ((Operator.enclosed_corners left right found).clamp fits)

end DiceNotation
