import DiceNotation.Proofs.Executor.Service
import DiceNotation.Proofs.Histogram

/-! A tally and an executor take their generators from a master on their own.  Under the same
seed the trials of the tally are the rolls of the executor, one by one, up to the first that
fails: there the tally ends, while the executor goes on. -/

namespace DiceNotation

def RollResult.result (roll : RollResult) : Except EvalError Int :=
  roll.outcome.map Roll.result

def RollResult.Succeeds (roll : RollResult) : Prop :=
  ∃ rolled, roll.outcome = .ok rolled

namespace Executor

def requests (expr : Expr) (num : Nat) : List Event :=
  List.replicate num (.request (.expression expr))

def rolls (master : Master) (expr : Expr) (num : Nat) : List RollResult :=
  (List.range num).map fun number => expr.rollOn (master.generator number)

def answered (roll : RollResult) : Option Reply := some (.ok (some roll))

theorem rolls_succ (master : Master) (expr : Expr) (num : Nat) :
    rolls master expr (num + 1) = expr.rollOn master.next.1 :: rolls master.next.2 expr num := by
  have later (number : Nat) :
      master.generator (number + 1) = master.next.2.generator number := by
    simp only [Master.generator, Master.next, Nat.add_assoc, Nat.add_comm number 1]
  simp only [rolls, List.range_succ_eq_map, List.map_cons, List.map_map]
  exact congrArg _ (List.map_congr_left fun number _ => congrArg expr.rollOn (later number))

theorem outcomes_eq (master : Master) (expr : Expr) (num : Nat) :
    master.outcomes expr num = (rolls master expr num).map RollResult.result := by
  rw [Master.outcomes, rolls, List.map_map]
  rfl

theorem run_requests {executor : Executor} (providing : executor.providing = true)
    (expr : Expr) (num : Nat) :
    (executor.run (requests expr num)).1 = (rolls executor.master expr num).map answered := by
  induction num generalizing executor with
  | zero => rfl
  | succ num ih =>
      have handled : executor.handle (.request (.expression expr)) =
          (answered (expr.rollOn executor.master.next.1),
            { executor with master := executor.master.next.2 }) := by
        rw [handle, answer, roll_of_providing providing]
        rfl
      have later := @ih { executor with master := executor.master.next.2 } providing
      rw [requests, List.replicate_succ, run, handled, rolls_succ, List.map_cons, ← later]
      rfl

end Executor

namespace Histogram

open Executor

variable {master : Master} {expr : Expr} {num : Nat}

theorem exists_results {rolls : List RollResult} (h : ∀ roll ∈ rolls, roll.Succeeds) :
    ∃ results : List Int, rolls.map RollResult.result = results.map .ok := by
  induction rolls with
  | nil => exact ⟨[], rfl⟩
  | cons roll rest ih =>
      obtain ⟨rolled, ok⟩ := h roll List.mem_cons_self
      obtain ⟨results, all⟩ := ih fun other member => h other (List.mem_cons_of_mem _ member)
      refine ⟨rolled.result :: results, ?_⟩
      rw [List.map_cons, List.map_cons, all, RollResult.result, ok]
      rfl

theorem ofExpr_eq_ok_iff_rolls (narrow : ¬ maxSlots < expr.limits.width) :
    (∃ histogram, (ofExpr expr num master).1 = .ok histogram) ↔
      ∀ roll ∈ rolls master expr num, roll.Succeeds := by
  constructor
  · rintro ⟨histogram, counted⟩ roll member
    obtain ⟨results, all, _⟩ := results_of_ofExpr counted
    rw [outcomes_eq] at all
    have found : roll.result ∈ results.map .ok := all ▸ List.mem_map_of_mem member
    obtain ⟨result, _, same⟩ := List.mem_map.mp found
    obtain ⟨rolled, ok, _⟩ := Outcome.map_eq_ok_iff.mp same.symm
    exact ⟨rolled, ok⟩
  · intro succeed
    obtain ⟨results, all⟩ := exists_results succeed
    rw [← outcomes_eq] at all
    exact ⟨_, congrArg Prod.fst (ofExpr_of_results narrow all)⟩

theorem count_eq_countP_rolls {results : List Int}
    (all : master.outcomes expr num = results.map .ok) (result : Int) :
    results.count result =
      (rolls master expr num).countP fun roll => roll.result = .ok result := by
  have same : results.count result =
      (results.map Except.ok).countP fun outcome : Except EvalError Int => outcome = .ok result := by
    rw [List.countP_map, List.count_eq_countP]
    exact List.countP_congr fun other _ => by simp
  rw [same, ← all, outcomes_eq, List.countP_map]
  rfl

theorem ofExpr_of_first_failing {earlier later : List RollResult} {roll : RollResult}
    {error : EvalError} (narrow : ¬ maxSlots < expr.limits.width)
    (split : rolls master expr num = earlier ++ roll :: later)
    (succeed : ∀ other ∈ earlier, other.Succeeds) (fails : roll.outcome = .error error) :
    (ofExpr expr num master).1 = .error (.evaluation error) := by
  obtain ⟨results, all⟩ := exists_results succeed
  have outcomes : master.outcomes expr num =
      results.map .ok ++ .error error :: later.map RollResult.result := by
    rw [outcomes_eq, split, List.map_append, List.map_cons, all, RollResult.result, fails]
    rfl
  exact congrArg Prod.fst (ofExpr_of_first_error narrow outcomes)

/-- Under one seed the trials of a histogram are the rolls that as many requests for its
expression are answered with, whatever turns the parts of the executor take. -/
theorem ofExpr_agrees_with_rolls (settings : Settings) (seed : UInt64) (entropy : ChaCha.Key)
    (expr : Expr) (num : UInt32) (narrow : expr.limits.hi - expr.limits.lo + 1 ≤ 2 ^ 20) :
    let executor := Executor.start { settings with seed? := some seed } entropy
    let asked := Service.start executor (requests expr num.toNat)
    let counted := (ofExpr expr num.toNat (.ofSeed seed)).1
    ∃ rolls : List RollResult, rolls.length = num.toNat ∧
      (executor.run (requests expr num.toNat)).1 = rolls.map answered ∧
      (Acc (fun later earlier => Service.Step earlier later) asked ∧
        ∀ service, Relation.ReflTransGen Service.Step asked service →
          (∀ next, ¬ Service.Step service next) → service.replies = rolls.map answered) ∧
      ((∃ histogram, counted = .ok histogram) ↔ ∀ roll ∈ rolls, roll.Succeeds) ∧
      (∀ histogram, counted = .ok histogram →
        (histogram.counts.size : Int) = expr.limits.hi - expr.limits.lo + 1 ∧
        ∀ slot : Fin histogram.counts.size, histogram.counts[slot] =
          rolls.countP fun roll => roll.result = .ok (expr.limits.lo + slot)) ∧
      ∀ earlier roll later error, rolls = earlier ++ roll :: later →
        (∀ other ∈ earlier, other.Succeeds) → roll.outcome = .error error →
          counted = .error (.evaluation error) := by
  intro executor asked counted
  have width := expr.width_limits
  have bound : maxSlots = 1048576 := rfl
  have few : ¬ maxSlots < expr.limits.width := by omega
  have replied := @run_requests executor rfl expr num.toNat
  have mirrors := Service.mirrors_start settings seed entropy (requests expr num.toNat)
  refine ⟨rolls (.ofSeed seed) expr num.toNat, by simp [rolls], replied,
    ⟨mirrors.acc, fun service run stuck => ?_⟩, ofExpr_eq_ok_iff_rolls few,
    fun histogram counted => ?_,
    fun earlier roll later error split succeed fails =>
      ofExpr_of_first_failing few split succeed fails⟩
  · obtain ⟨last, mirrors', same⟩ := mirrors.reaches run
    rw [mirrors'.eq_expected_of_stuck stuck, same]
    exact replied
  · obtain ⟨results, all, rfl⟩ := results_of_ofExpr counted
    refine ⟨by simpa using width, fun slot => ?_⟩
    rw [← count_eq_countP_rolls all]
    exact getElem_ofResults slot.isLt

theorem ofExpr_agrees_with_rolls_zero_divisor :
    let expr := Expr.compound (.const 10) .div
      (.compound (.dice ⟨.d4, 1, by decide, by decide⟩) .sub (.const 1))
    expr.limits.hi - expr.limits.lo + 1 ≤ 2 ^ 20 ∧ ∃ rolls : List RollResult,
      ((Executor.start { seed? := some 7 } (.ofSeed 0)).run (requests expr 7)).1 =
        rolls.map answered ∧
      (∃ histogram, (ofExpr expr 4 (.ofSeed 7)).1 = .ok histogram) ∧
      (ofExpr expr 7 (.ofSeed 7)).1 = .error (.evaluation .divisionByZero) ∧
      ¬ ∀ roll ∈ rolls, roll.Succeeds := by
  intro expr
  have narrow : expr.limits.hi - expr.limits.lo + 1 ≤ 2 ^ 20 := by decide +kernel
  have ends : (ofExpr expr 7 (.ofSeed 7)).1 = .error (.evaluation .divisionByZero) := by
    decide +kernel
  have fourth : (ofExpr expr 4 (.ofSeed 7)).1 = .ok ⟨3, #[0, 0, 3, 0, 0, 0, 0, 1]⟩ := by
    decide +kernel
  obtain ⟨rolls, _, replied, _, iff, _⟩ :=
    ofExpr_agrees_with_rolls {} 7 (.ofSeed 0) expr 7 narrow
  refine ⟨narrow, rolls, replied, ⟨_, fourth⟩, ends, fun succeed => ?_⟩
  obtain ⟨histogram, counted⟩ := iff.mpr succeed
  cases ends.symm.trans counted

end Histogram

end DiceNotation
