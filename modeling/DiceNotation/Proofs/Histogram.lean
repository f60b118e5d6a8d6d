import DiceNotation.Histogram
import DiceNotation.Proofs.Limits.Sound
import DiceNotation.Proofs.Outcome
import Mathlib.Algebra.BigOperators.Fin
import Mathlib.Data.List.OfFn

/-! A histogram of results has one slot for each integer within the limits, and each slot
holds how often that integer came up.  Adding a result within the limits gives the
histogram of one more result, so a tally gives the histogram of the results of its
trials, up to the first trial that fails. -/

namespace DiceNotation

namespace Master

def generator (master : Master) (number : Nat) : Xoshiro :=
  master.key.generator (master.taken + number)

def after (master : Master) (number : Nat) : Master :=
  { master with taken := master.taken + number }

def outcome (master : Master) (expr : Expr) (number : Nat) : Except EvalError Int :=
  (expr.roll (master.generator number).supply).1.map Roll.result

def outcomes (master : Master) (expr : Expr) (trials : Nat) : List (Except EvalError Int) :=
  (List.range trials).map (master.outcome expr)

theorem outcomes_succ (master : Master) (expr : Expr) (trials : Nat) :
    master.outcomes expr (trials + 1) =
      (expr.roll master.next.1.supply).1.map Roll.result ::
        master.next.2.outcomes expr trials := by
  have later (number : Nat) :
      master.outcome expr (number + 1) = master.next.2.outcome expr number := by
    simp only [outcome, generator, next, Nat.add_assoc, Nat.add_comm number 1]
  simp only [outcomes, List.range_succ_eq_map, List.map_cons, List.map_map]
  exact congrArg _ (List.map_congr_left fun number _ => later number)

theorem after_next (master : Master) (number : Nat) :
    master.next.2.after number = master.after (number + 1) := by
  simp only [after, next, Nat.add_assoc, Nat.add_comm number 1]

theorem outcome_mem_limits {master : Master} {expr : Expr} {trials : Nat} {results : List Int}
    (h : master.outcomes expr trials = results.map .ok) :
    ∀ result ∈ results, result ∈ expr.limits := by
  intro result member
  have found : .ok result ∈ master.outcomes expr trials := h ▸ List.mem_map_of_mem member
  obtain ⟨number, _, same⟩ := List.mem_map.mp found
  obtain ⟨roll, rolled, rfl⟩ := Outcome.map_eq_ok_iff.mp same
  exact Expr.result_mem_limits (Prod.ext rolled rfl)

end Master

theorem exists_first_error {ε α : Type} (outcomes : List (Except ε α)) :
    (∃ (results : List α) (error : ε) (later : List (Except ε α)),
      outcomes = results.map .ok ++ .error error :: later) ∨
      ∃ results : List α, outcomes = results.map .ok := by
  induction outcomes with
  | nil => exact .inr ⟨[], rfl⟩
  | cons outcome rest ih =>
      cases outcome with
      | error error => exact .inl ⟨[], error, rest, rfl⟩
      | ok result =>
          rcases ih with ⟨results, error, later, rfl⟩ | ⟨results, rfl⟩
          · exact .inl ⟨result :: results, error, later, rfl⟩
          · exact .inr ⟨result :: results, rfl⟩

theorem Expr.width_limits (expr : Expr) :
    (expr.limits.width : Int) = expr.limits.hi - expr.limits.lo + 1 := by
  have ordered := expr.limits_ordered
  rw [Limits.width]
  omega

namespace Histogram

variable {limits : Limits} {results : List Int} {result : Int}

/-- The histogram of these results. -/
def ofResults (limits : Limits) (results : List Int) : Histogram where
  lo := limits.lo
  counts := Array.ofFn fun slot : Fin limits.width => results.count (limits.lo + slot)

@[simp] theorem lo_ofResults : (ofResults limits results).lo = limits.lo := rfl

@[simp] theorem size_ofResults : (ofResults limits results).counts.size = limits.width := by
  simp [ofResults]

@[simp] theorem getElem_ofResults {slot : Nat}
    (h : slot < (ofResults limits results).counts.size) :
    (ofResults limits results).counts[slot] = results.count (limits.lo + slot) := by
  simp [ofResults]

theorem empty_eq_ofResults (limits : Limits) : empty limits = ofResults limits [] := by
  simp only [empty, ofResults, mk.injEq, true_and]
  apply Array.ext <;> simp

theorem exists_slot (mem : result ∈ limits) :
    ∃ slot : Nat, result - limits.lo = slot ∧ slot < limits.width := by
  obtain ⟨lower, upper⟩ := Limits.mem_def.mp mem
  refine ⟨(result - limits.lo).toNat, ?_, ?_⟩
  · omega
  · rw [Limits.width]
    omega

theorem set_ofResults {slot : Nat} (exact : result - limits.lo = slot)
    (h : slot < (ofResults limits results).counts.size) :
    { ofResults limits results with
        counts := (ofResults limits results).counts.set slot
          ((ofResults limits results).counts[slot] + 1) } =
      ofResults limits (results ++ [result]) := by
  simp only [ofResults, mk.injEq, true_and]
  apply Array.ext
  · simp
  · intro other _ _
    have same : slot = other ↔ result = limits.lo + other := by omega
    by_cases hit : slot = other
    · subst hit
      simp [← same.mp rfl]
    · have differs : result ≠ limits.lo + other := fun equal => hit (same.mpr equal)
      simp [Array.getElem_set, hit, List.count_singleton, differs]

theorem add?_ofResults (mem : result ∈ limits) :
    (ofResults limits results).add? result = some (ofResults limits (results ++ [result])) := by
  obtain ⟨slot, exact, bound⟩ := exists_slot mem
  have positive : ¬ result - (ofResults limits results).lo < 0 := by simp [exact]
  have index : (result - (ofResults limits results).lo).toNat = slot := by simp [exact]
  have inside : slot < (ofResults limits results).counts.size := by simpa using bound
  simp only [add?, if_neg positive, index, dif_pos inside]
  exact congrArg some (set_ofResults exact inside)

theorem sum_ofResults (mem : ∀ result ∈ results, result ∈ limits) :
    (ofResults limits results).counts.sum = results.length := by
  rw [ofResults, ← Array.sum_toList, Array.toList_ofFn, List.sum_ofFn]
  induction results with
  | nil => simp
  | cons result rest ih =>
      obtain ⟨slot, exact, bound⟩ := exists_slot (mem result List.mem_cons_self)
      have hit (other : Fin limits.width) :
          (result == limits.lo + other) = decide (⟨slot, bound⟩ = other) := by
        simp only [beq_eq_decide, decide_eq_decide, Fin.ext_iff]
        omega
      have others := ih fun other member => mem other (List.mem_cons_of_mem result member)
      simp [List.count_cons, Finset.sum_add_distrib, others, hit]

section Tally

variable {ε : Type} {add : Histogram → Int → Except ε Histogram} {failed : EvalError → ε}
variable {expr : Expr} {bound trials : Nat} {earlier : List Int} {master : Master}

/-- A tally with a way of its own to add a result. -/
def tallyWith (add : Histogram → Int → Except ε Histogram) (failed : EvalError → ε)
    (expr : Expr) : (trials : Nat) → Histogram → Master → Except ε Histogram × Master
  | 0, histogram, master => (.ok histogram, master)
  | trials + 1, histogram, master =>
      let (generator, master) := master.next
      match (expr.roll generator.supply).1 with
      | .error error => (.error (failed error), master)
      | .ok roll =>
          match add histogram roll.result with
          | .error error => (.error error, master)
          | .ok histogram => tallyWith add failed expr trials histogram master

/-- Every result within the limits is added, as long as there are fewer than `bound`. -/
def Adds (add : Histogram → Int → Except ε Histogram) (limits : Limits) (bound : Nat) : Prop :=
  ∀ (earlier : List Int) (result : Int), result ∈ limits → earlier.length < bound →
    add (ofResults limits earlier) result = .ok (ofResults limits (earlier ++ [result]))

def addOrRefuse (histogram : Histogram) (result : Int) : Except HistogramError Histogram :=
  match histogram.add? result with
  | none => .error .outsideLimits
  | some histogram => .ok histogram

theorem tally_eq_tallyWith (histogram : Histogram) :
    tally expr trials histogram master =
      tallyWith addOrRefuse .evaluation expr trials histogram master := by
  induction trials generalizing histogram master with
  | zero => rfl
  | succ trials ih =>
      simp only [tally, tallyWith, addOrRefuse]
      cases (expr.roll master.next.1.supply).1 with
      | error error => rfl
      | ok roll =>
          cases added : histogram.add? roll.result with
          | none => simp [added]
          | some next => simp [added, ih]

theorem ofExpr_of_narrow (narrow : ¬ maxSlots < expr.limits.width) :
    ofExpr expr trials master =
      tallyWith addOrRefuse .evaluation expr trials (ofResults expr.limits []) master := by
  rw [← tally_eq_tallyWith, ← empty_eq_ofResults]
  exact if_neg narrow

theorem adds_addOrRefuse (limits : Limits) (bound : Nat) : Adds addOrRefuse limits bound := by
  intro earlier result mem _
  rw [addOrRefuse, add?_ofResults mem]

theorem tallyWith_succ_of_error {error : EvalError} (histogram : Histogram)
    (h : (expr.roll master.next.1.supply).1.map Roll.result = .error error) :
    tallyWith add failed expr (trials + 1) histogram master =
      (.error (failed error), master.next.2) := by
  simp only [tallyWith, Outcome.map_eq_error_iff.mp h]

theorem tallyWith_succ_of_ok {result : Int} (adds : Adds add expr.limits bound)
    (few : earlier.length < bound)
    (h : (expr.roll master.next.1.supply).1.map Roll.result = .ok result) :
    tallyWith add failed expr (trials + 1) (ofResults expr.limits earlier) master =
      tallyWith add failed expr trials (ofResults expr.limits (earlier ++ [result]))
        master.next.2 := by
  obtain ⟨roll, rolled, rfl⟩ := Outcome.map_eq_ok_iff.mp h
  have mem : roll.result ∈ expr.limits := Expr.result_mem_limits (Prod.ext rolled rfl)
  simp only [tallyWith, rolled, adds earlier roll.result mem few]

theorem tallyWith_of_error {error : EvalError} {results : List Int}
    {later : List (Except EvalError Int)} (adds : Adds add expr.limits bound)
    (few : earlier.length + trials ≤ bound)
    (h : master.outcomes expr trials = results.map .ok ++ .error error :: later) :
    tallyWith add failed expr trials (ofResults expr.limits earlier) master =
      (.error (failed error), master.after (results.length + 1)) := by
  induction trials generalizing earlier results master with
  | zero => simp [Master.outcomes] at h
  | succ trials ih =>
      rw [Master.outcomes_succ] at h
      cases results with
      | nil => exact tallyWith_succ_of_error _ (List.cons.inj h).1
      | cons result rest =>
          obtain ⟨head, tail⟩ := List.cons.inj h
          rw [tallyWith_succ_of_ok adds (by omega) head, ih (by simp; omega) tail,
            Master.after_next]
          rfl

theorem tallyWith_of_ok {results : List Int} (adds : Adds add expr.limits bound)
    (few : earlier.length + trials ≤ bound)
    (h : master.outcomes expr trials = results.map .ok) :
    tallyWith add failed expr trials (ofResults expr.limits earlier) master =
      (.ok (ofResults expr.limits (earlier ++ results)), master.after trials) := by
  induction trials generalizing earlier results master with
  | zero =>
      have none : results = [] := by simpa [Master.outcomes] using h.symm
      simp [tallyWith, none, Master.after]
  | succ trials ih =>
      rw [Master.outcomes_succ] at h
      cases results with
      | nil => cases h
      | cons result rest =>
          obtain ⟨head, tail⟩ := List.cons.inj h
          rw [tallyWith_succ_of_ok adds (by omega) head, ih (by simp; omega) tail,
            Master.after_next, List.append_assoc]
          rfl

theorem ofExpr_of_results {results : List Int} (narrow : ¬ maxSlots < expr.limits.width)
    (h : master.outcomes expr trials = results.map .ok) :
    ofExpr expr trials master = (.ok (ofResults expr.limits results), master.after trials) := by
  rw [ofExpr_of_narrow narrow]
  exact tallyWith_of_ok (adds_addOrRefuse expr.limits trials) (by simp) h

theorem ofExpr_of_first_error {error : EvalError} {results : List Int}
    {later : List (Except EvalError Int)} (narrow : ¬ maxSlots < expr.limits.width)
    (h : master.outcomes expr trials = results.map .ok ++ .error error :: later) :
    ofExpr expr trials master =
      (.error (.evaluation error), master.after (results.length + 1)) := by
  rw [ofExpr_of_narrow narrow]
  exact tallyWith_of_error (adds_addOrRefuse expr.limits trials) (by simp) h

theorem results_of_ofExpr {histogram : Histogram}
    (h : (ofExpr expr trials master).1 = .ok histogram) :
    ∃ results : List Int, master.outcomes expr trials = results.map .ok ∧
      histogram = ofResults expr.limits results := by
  by_cases wide : maxSlots < expr.limits.width
  · rw [ofExpr, if_pos wide] at h
    cases h
  · rcases exists_first_error (master.outcomes expr trials) with
      ⟨results, error, later, split⟩ | ⟨results, all⟩
    · rw [ofExpr_of_first_error wide split] at h
      cases h
    · rw [ofExpr_of_results wide all] at h
      cases h
      exact ⟨results, all, rfl⟩

end Tally

end Histogram

end DiceNotation
