import DiceNotation.Roll
import Mathlib.Order.Lattice

namespace DiceNotation

namespace DropPolicy

variable {α : Type} [LinearOrder α]

theorem not_prefers_trans {policy : DropPolicy} {a b c : α} (first : ¬ policy.Prefers a b)
    (second : ¬ policy.Prefers b c) : ¬ policy.Prefers a c := by
  cases policy with
  | lowest => exact not_lt.mpr (le_trans (not_lt.mp second) (not_lt.mp first))
  | highest => exact not_lt.mpr (le_trans (not_lt.mp first) (not_lt.mp second))

theorem not_prefers_of_prefers {policy : DropPolicy} {a b : α} (h : policy.Prefers a b) :
    ¬ policy.Prefers b a := by
  cases policy with
  | lowest => exact lt_asymm h
  | highest => exact lt_asymm h

theorem not_prefers_self (policy : DropPolicy) (a : α) : ¬ policy.Prefers a a :=
  fun h => not_prefers_of_prefers h h

theorem select?_eq_none_iff {policy : DropPolicy} {values : List α} :
    policy.select? values = none ↔ values = [] := by
  cases values with
  | nil => exact ⟨fun _ => rfl, fun _ => rfl⟩
  | cons a rest =>
      simp only [select?, reduceCtorEq, iff_false]
      split
      · exact Option.some_ne_none _
      · split <;> exact Option.some_ne_none _

structure Selected (policy : DropPolicy) (values : List α) (index : Nat) (value : α) :
    Prop where
  found : values[index]? = some value
  extreme : ∀ other ∈ values, ¬ policy.Prefers other value
  first : ∀ before other, before < index → values[before]? = some other →
    policy.Prefers value other

theorem selected_of_select? {policy : DropPolicy} {values : List α} {index : Nat} {value : α}
    (h : policy.select? values = some (index, value)) :
    policy.Selected values index value := by
  induction values generalizing index value with
  | nil => cases h
  | cons a rest ih =>
      cases later : policy.select? rest with
      | none =>
          obtain rfl := select?_eq_none_iff.mp later
          cases h
          refine ⟨rfl, ?_, fun before _ earlier => absurd earlier (Nat.not_lt_zero before)⟩
          simpa using not_prefers_self policy a
      | some selected =>
          obtain ⟨i, b⟩ := selected
          have ⟨found, extreme, first⟩ := ih later
          by_cases prefers : policy.Prefers b a
          · simp only [select?, later, if_pos prefers, Option.some.injEq, Prod.mk.injEq] at h
            obtain ⟨rfl, rfl⟩ := h
            refine ⟨by simpa using found, ?_, ?_⟩
            · simpa using ⟨not_prefers_of_prefers prefers, extreme⟩
            · intro before other earlier held
              cases before with
              | zero =>
                  cases held
                  exact prefers
              | succ before =>
                  exact first before other (Nat.lt_of_succ_lt_succ earlier) (by simpa using held)
          · simp only [select?, later, if_neg prefers, Option.some.injEq, Prod.mk.injEq] at h
            obtain ⟨rfl, rfl⟩ := h
            refine ⟨rfl, ?_, fun before _ earlier => absurd earlier (Nat.not_lt_zero before)⟩
            have others : ∀ other ∈ rest, ¬ policy.Prefers other a :=
              fun other member => not_prefers_trans (extreme other member) prefers
            simpa using ⟨not_prefers_self policy a, others⟩

theorem value?_eq_some (policy : DropPolicy) {values : List α} (nonempty : values ≠ []) :
    ∃ value ∈ values, policy.value? values = some value ∧
      ∀ other ∈ values, ¬ policy.Prefers other value := by
  cases selected : policy.select? values with
  | none => exact absurd (select?_eq_none_iff.mp selected) nonempty
  | some entry =>
      have ⟨found, extreme, _⟩ := selected_of_select? selected
      exact ⟨entry.2, List.mem_of_getElem? found, by simp [value?, selected], extreme⟩

end DropPolicy

instance int64LinearOrder : LinearOrder Int64 where
  le_refl := Int64.le_refl
  le_trans _ _ _ := Int64.le_trans
  le_antisymm _ _ := Int64.le_antisymm
  le_total := Int64.le_total
  lt_iff_le_not_ge := Std.LawfulOrderLT.lt_iff
  toDecidableLE := inferInstance
  toDecidableLT := inferInstance

namespace DropPolicy

variable {α : Type} [LinearOrder α] {policy : DropPolicy}

theorem prefers_of_prefers_of_not_prefers {a b c : α} (first : policy.Prefers a b)
    (second : ¬ policy.Prefers c b) : policy.Prefers a c := by
  by_contra other
  exact not_prefers_trans other second first

theorem Selected.lt_length {values : List α} {index : Nat} {value : α}
    (h : policy.Selected values index value) : index < values.length :=
  (List.getElem?_eq_some_iff.mp h.found).1

theorem Selected.ne_nil {values : List α} {index : Nat} {value : α}
    (h : policy.Selected values index value) : values ≠ [] :=
  List.ne_nil_of_length_pos (Nat.zero_lt_of_lt h.lt_length)

theorem Selected.unique {values : List α} {i j : Nat} {a b : α}
    (h : policy.Selected values i a) (k : policy.Selected values j b) : i = j := by
  rcases Nat.lt_trichotomy i j with before | same | behind
  · exact absurd (k.first i a before h.found) (h.extreme b (List.mem_of_getElem? k.found))
  · exact same
  · exact absurd (h.first j b behind k.found) (k.extreme a (List.mem_of_getElem? h.found))

/-- The first extreme value stands at the position, and without values there is none. -/
def IsChoice (policy : DropPolicy) (values : List α) : Option Nat → Prop
  | none => values = []
  | some index => ∃ value, policy.Selected values index value

theorem IsChoice.unique {values : List α} {first second : Option Nat}
    (h : policy.IsChoice values first) (k : policy.IsChoice values second) :
    first = second := by
  match first, second with
  | none, none => rfl
  | none, some _ =>
      obtain ⟨_, selected⟩ := k
      exact absurd h selected.ne_nil
  | some _, none =>
      obtain ⟨_, selected⟩ := h
      exact absurd k selected.ne_nil
  | some _, some _ =>
      obtain ⟨_, selected⟩ := h
      obtain ⟨_, other⟩ := k
      exact congrArg some (selected.unique other)

theorem isChoice_index? (policy : DropPolicy) (values : List α) :
    policy.IsChoice values (policy.index? values) := by
  cases selected : policy.select? values with
  | none =>
      rw [index?, selected]
      exact select?_eq_none_iff.mp selected
  | some entry =>
      rw [index?, selected]
      exact ⟨entry.2, selected_of_select? selected⟩

theorem index?_eq_iff {values : List α} {selected : Option Nat} :
    policy.index? values = selected ↔ policy.IsChoice values selected :=
  ⟨fun h => h ▸ policy.isChoice_index? values, (policy.isChoice_index? values).unique⟩

theorem value?_eq_bind (policy : DropPolicy) (values : List α) :
    policy.value? values = (policy.index? values).bind (values[·]?) := by
  cases selected : policy.select? values with
  | none => simp [value?, index?, selected]
  | some entry => simp [value?, index?, selected, (selected_of_select? selected).found]

theorem isChoice_some_iff {values : List α} {index : Nat} :
    policy.IsChoice values (some index) ↔
      ∃ within : index < values.length,
        (∀ other ∈ values, ¬ policy.Prefers other values[index]) ∧
        ∀ other ∈ values.take index, policy.Prefers values[index] other := by
  constructor
  · rintro ⟨value, found, extreme, first⟩
    obtain ⟨within, rfl⟩ := List.getElem?_eq_some_iff.mp found
    refine ⟨within, extreme, fun other member => ?_⟩
    obtain ⟨before, earlier, rfl⟩ := List.mem_take_iff_getElem.mp member
    exact first before _ (Nat.lt_min.mp earlier).1 (List.getElem?_eq_getElem _)
  · rintro ⟨within, extreme, first⟩
    refine ⟨values[index], List.getElem?_eq_getElem within, extreme, ?_⟩
    intro before other earlier held
    obtain ⟨inside, rfl⟩ := List.getElem?_eq_some_iff.mp held
    exact first _ (List.mem_take_iff_getElem.mpr ⟨before, Nat.lt_min.mpr ⟨earlier, inside⟩, rfl⟩)

theorem Selected.singleton (policy : DropPolicy) (value : α) :
    policy.Selected [value] 0 value where
  found := rfl
  extreme := by simpa using not_prefers_self policy value
  first _ _ earlier := absurd earlier (Nat.not_lt_zero _)

theorem Selected.append_of_prefers {seen : List α} {index : Nat} {best value : α}
    (h : policy.Selected seen index best) (prefers : policy.Prefers value best) :
    policy.Selected (seen ++ [value]) seen.length value where
  found := List.getElem?_concat_length
  extreme other member := by
    rcases List.mem_append.mp member with member | last
    · exact not_prefers_trans (h.extreme other member) (not_prefers_of_prefers prefers)
    · rw [List.mem_singleton.mp last]
      exact not_prefers_self policy value
  first before other earlier held := by
    rw [List.getElem?_append_left earlier] at held
    have less := h.extreme other (List.mem_of_getElem? held)
    exact prefers_of_prefers_of_not_prefers prefers less

theorem Selected.append_of_not_prefers {seen : List α} {index : Nat} {best value : α}
    (h : policy.Selected seen index best) (kept : ¬ policy.Prefers value best) :
    policy.Selected (seen ++ [value]) index best where
  found := by rw [List.getElem?_append_left h.lt_length, h.found]
  extreme other member := by
    rcases List.mem_append.mp member with member | last
    · exact h.extreme other member
    · rw [List.mem_singleton.mp last]
      exact kept
  first before other earlier held := by
    rw [List.getElem?_append_left (earlier.trans h.lt_length)] at held
    exact h.first before other earlier held

theorem IsChoice.step {seen : List α} {selected : Option Nat}
    (h : policy.IsChoice seen selected) (value : α) (unread : List α) :
    ∃ next, policy.advance? (seen ++ value :: unread) selected (value, seen.length) =
      some next ∧ policy.IsChoice (seen ++ [value]) next := by
  cases selected with
  | none =>
      obtain rfl : seen = [] := h
      exact ⟨some 0, rfl, value, .singleton policy value⟩
  | some current =>
      obtain ⟨best, chosen⟩ := h
      have held : (seen ++ value :: unread)[current]? = some best := by
        rw [List.getElem?_append_left chosen.lt_length, chosen.found]
      by_cases prefers : policy.Prefers value best
      · refine ⟨some seen.length, ?_, value, chosen.append_of_prefers prefers⟩
        simp only [advance?, held, Option.map_some, if_pos prefers]
      · refine ⟨some current, ?_, best, chosen.append_of_not_prefers prefers⟩
        simp only [advance?, held, Option.map_some, if_neg prefers]

theorem IsChoice.run {seen : List α} {selected : Option Nat}
    (h : policy.IsChoice seen selected) (unread : List α) :
    ∃ last, (unread.zipIdx seen.length).foldlM (policy.advance? (seen ++ unread)) selected =
      some last ∧ policy.IsChoice (seen ++ unread) last := by
  -- The list that the pass looks values up in stays the same: what is read moves from the
  -- unread values to the end of those seen.
  induction unread generalizing seen selected with
  | nil => exact ⟨selected, rfl, by rwa [List.append_nil]⟩
  | cons value unread ih =>
      obtain ⟨next, stepped, choice⟩ := h.step value unread
      obtain ⟨last, rest, final⟩ := ih choice
      rw [List.length_append, List.length_singleton, List.append_assoc,
        List.singleton_append] at rest
      rw [List.append_assoc, List.singleton_append] at final
      exact ⟨last, by rw [List.zipIdx_cons, List.foldlM_cons, stepped]; exact rest, final⟩

theorem scan?_eq_index? (policy : DropPolicy) (values : List α) :
    policy.scan? values = some (policy.index? values) := by
  have start : policy.IsChoice ([] : List α) none := rfl
  obtain ⟨last, run, choice⟩ := start.run values
  obtain rfl : policy.index? values = last := index?_eq_iff.mpr choice
  exact run

/-- The pass ends, with no position exactly if there are no values, and else with the first
of the lowest or of the highest ones: all values before it are strictly higher or strictly
lower.  Where it stands is the value that a roll drops. -/
theorem scan?_exact (values : List α) :
    (∀ policy : DropPolicy, policy.scan? values = some (policy.index? values) ∧
      (policy.index? values = none ↔ values = []) ∧
      policy.value? values = (policy.index? values).bind (values[·]?)) ∧
    (∀ index, DropPolicy.lowest.index? values = some index ↔
      ∃ within : index < values.length, (∀ other ∈ values, values[index] ≤ other) ∧
        ∀ other ∈ values.take index, values[index] < other) ∧
    (∀ index, DropPolicy.highest.index? values = some index ↔
      ∃ within : index < values.length, (∀ other ∈ values, other ≤ values[index]) ∧
        ∀ other ∈ values.take index, other < values[index]) := by
  refine ⟨fun policy => ⟨policy.scan?_eq_index? values, index?_eq_iff,
    policy.value?_eq_bind values⟩, fun index => ?_, fun index => ?_⟩
  · rw [index?_eq_iff, isChoice_some_iff]
    simp only [Prefers, not_lt]
  · rw [index?_eq_iff, isChoice_some_iff]
    simp only [Prefers, not_lt]

theorem scan?_exact_tied :
    let values : List Int64 := [Int64.maxValue, Int64.minValue, Int64.maxValue, Int64.minValue]
    DropPolicy.lowest.scan? values = some (some 1) ∧
      DropPolicy.lowest.value? values = some Int64.minValue ∧
      DropPolicy.highest.scan? values = some (some 0) ∧
      DropPolicy.highest.value? values = some Int64.maxValue := by
  intro values
  have ⟨both, first, second⟩ := scan?_exact values
  have ⟨scanLow, _, valueLow⟩ := both .lowest
  have ⟨scanHigh, _, valueHigh⟩ := both .highest
  have low : DropPolicy.lowest.index? values = some 1 :=
    (first 1).mpr ⟨by decide, by simp +decide [values], by simp +decide [values]⟩
  have high : DropPolicy.highest.index? values = some 0 :=
    (second 0).mpr ⟨by decide, by simp +decide [values], by simp +decide [values]⟩
  rw [scanLow, valueLow, scanHigh, valueHigh, low, high]
  exact ⟨rfl, rfl, rfl, rfl⟩

end DropPolicy

end DiceNotation
