import DiceNotation.Command
import DiceNotation.Proofs.Histogram

namespace DiceNotation

theorem inWord_eq_ok_iff {operation : WordOverflow} {m n : Int} :
    inWord operation n = .ok m ↔ Fits n ∧ m = n := by
  by_cases fits : Fits n
  · simp [inWord, fits, eq_comm]
  · simp [inWord, fits]

theorem fits_mul_of_le {few many : Nat} {n : Int} (le : few ≤ many) (fits : Fits (many * n)) :
    Fits (few * n) := by
  have casted : (few : Int) ≤ many := Int.ofNat_le.mpr le
  unfold Fits minInteger maxInteger at fits ⊢
  rcases Int.le_total 0 n with nonneg | nonpos
  · have lower : 0 ≤ few * n := Int.mul_nonneg (Int.natCast_nonneg few) nonneg
    have upper := Int.mul_le_mul_of_nonneg_right casted nonneg
    omega
  · have upper : few * n ≤ 0 := Int.mul_nonpos_of_nonneg_of_nonpos (Int.natCast_nonneg few) nonpos
    have lower := Int.mul_le_mul_of_nonpos_right casted nonpos
    omega

theorem fits_of_between {limits : Limits} {few many : Nat} {n : Int} (le : few ≤ many)
    (low : Fits (many * limits.lo)) (high : Fits (many * limits.hi))
    (lower : few * limits.lo ≤ n) (upper : n ≤ few * limits.hi) : Fits n :=
  ⟨Int.le_trans (fits_mul_of_le le low).1 lower, Int.le_trans upper (fits_mul_of_le le high).2⟩

theorem sum_between {limits : Limits} {results : List Int}
    (mem : ∀ result ∈ results, result ∈ limits) :
    results.length * limits.lo ≤ results.sum ∧ results.sum ≤ results.length * limits.hi := by
  induction results with
  | nil => simp
  | cons result rest ih =>
      have bounds := Limits.mem_def.mp (mem result List.mem_cons_self)
      have others := ih fun other member => mem other (List.mem_cons_of_mem result member)
      rw [List.length_cons, List.sum_cons, Nat.cast_succ, Int.add_mul, Int.add_mul]
      omega

theorem sum_filter_lt_succ (results : List Int) (value : Int) :
    (results.filter (· < value + 1)).sum =
      (results.filter (· < value)).sum + results.count value * value := by
  induction results with
  | nil => simp
  | cons result rest ih =>
      rcases lt_trichotomy result value with below | rfl | above
      · have next : result < value + 1 := by omega
        rw [List.filter_cons_of_pos (by simpa using next),
          List.filter_cons_of_pos (by simpa using below),
          List.count_cons_of_ne (by omega), List.sum_cons, List.sum_cons, ih, Int.add_assoc]
      · rw [List.filter_cons_of_pos (by simp), List.filter_cons_of_neg (by simp),
          List.count_cons_self, List.sum_cons, ih, Nat.cast_succ, Int.add_mul]
        omega
      · have beyond : ¬ result < value + 1 := by omega
        rw [List.filter_cons_of_neg (by simpa using beyond),
          List.filter_cons_of_neg (by simpa using above.le),
          List.count_cons_of_ne (by omega), ih]

namespace Histogram

variable {limits : Limits} {results : List Int}

def weigh (result : Int) : List Nat → Int
  | [] => 0
  | count :: rest => count * result + weigh (result + 1) rest

theorem weigh_append_singleton (result : Int) (counts : List Nat) (count : Nat) :
    weigh result (counts ++ [count]) =
      weigh result counts + count * (result + counts.length) := by
  induction counts generalizing result with
  | nil => simp [weigh]
  | cons first rest ih =>
      have place : result + 1 + (rest.length : Int) = result + (first :: rest).length := by
        rw [List.length_cons]
        omega
      rw [List.cons_append, weigh, ih, weigh, place, Int.add_assoc]

theorem totalFrom_cons_eq_ok_iff {sum result total : Int} {count : Nat} {rest : List Nat} :
    totalFrom sum result (count :: rest) = .ok total ↔
      Fits (result + 1) ∧ Fits (count * result) ∧ Fits (sum + count * result) ∧
        totalFrom (sum + count * result) (result + 1) rest = .ok total := by
  simp [totalFrom, Outcome.bind_eq_ok_iff, inWord_eq_ok_iff, and_assoc]

/-- The checked sum is the exact one.  It is there if every step fits: the next result, the
product and the sum up to the slot. -/
theorem totalFrom_eq_ok_iff {sum result total : Int} {counts : List Nat} :
    totalFrom sum result counts = .ok total ↔
      total = sum + weigh result counts ∧ ∀ slot (h : slot < counts.length),
        Fits (result + slot + 1) ∧ Fits (counts[slot] * (result + slot)) ∧
          Fits (sum + weigh result (counts.take (slot + 1))) := by
  induction counts generalizing sum result with
  | nil => simp [totalFrom, weigh, eq_comm]
  | cons count rest ih =>
      have place (slot : Nat) : result + 1 + (slot : Int) = result + (slot + 1 : Nat) := by omega
      rw [totalFrom_cons_eq_ok_iff, ih, weigh, ← Int.add_assoc]
      constructor
      · rintro ⟨next, product, partialSum, exact, steps⟩
        refine ⟨exact, fun slot h => ?_⟩
        cases slot with
        | zero => simpa [weigh] using ⟨next, product, partialSum⟩
        | succ slot =>
            have later := steps slot (Nat.lt_of_succ_lt_succ h)
            rwa [place, Int.add_assoc sum] at later
      · rintro ⟨exact, steps⟩
        obtain ⟨next, product, partialSum⟩ := steps 0 (Nat.succ_pos _)
        refine ⟨by simpa using next, by simpa using product, by simpa [weigh] using partialSum,
          exact, fun slot h => ?_⟩
        rw [place, Int.add_assoc sum]
        exact steps (slot + 1) (Nat.succ_lt_succ h)

theorem weigh_take_ofResults (mem : ∀ result ∈ results, result ∈ limits) {slots : Nat}
    (few : slots ≤ limits.width) :
    weigh limits.lo ((ofResults limits results).counts.toList.take slots) =
      (results.filter (· < limits.lo + slots)).sum := by
  induction slots with
  | zero =>
      have none : results.filter (· < limits.lo + (0 : Nat)) = [] :=
        List.filter_eq_nil_iff.mpr fun result member => by
          simpa using (Limits.mem_def.mp (mem result member)).1
      rw [none]
      rfl
  | succ slots ih =>
      have inside : slots < (ofResults limits results).counts.toList.length := by
        simpa using Nat.lt_of_succ_le few
      have place : limits.lo + (slots + 1 : Nat) = limits.lo + slots + 1 := by omega
      rw [← List.take_append_getElem inside, weigh_append_singleton, ih (Nat.le_of_succ_le few),
        Array.getElem_toList, getElem_ofResults, List.length_take_of_le inside.le, place,
        sum_filter_lt_succ]

theorem weigh_ofResults (ordered : limits.lo ≤ limits.hi)
    (mem : ∀ result ∈ results, result ∈ limits) :
    weigh limits.lo (ofResults limits results).counts.toList = results.sum := by
  have all : results.filter (· < limits.lo + limits.width) = results :=
    List.filter_eq_self.mpr fun result member => by
      have bounds := Limits.mem_def.mp (mem result member)
      rw [Limits.width, decide_eq_true_eq]
      omega
  rw [← congrArg List.sum all, ← weigh_take_ofResults mem le_rfl, List.take_of_length_le]
  simp

theorem total_ofResults_eq_ok_iff (ordered : limits.lo ≤ limits.hi) (fits : Fits limits.lo)
    (mem : ∀ result ∈ results, result ∈ limits) {total : Int} :
    (ofResults limits results).total = .ok total ↔ total = results.sum ∧
      limits.hi < maxInteger ∧ ∀ value ∈ limits,
        Fits (results.count value * value) ∧ Fits (results.filter (· ≤ value)).sum := by
  have slots : (ofResults limits results).counts.toList.length = limits.width := by simp
  have upTo {slot : Nat} (h : slot < limits.width) :
      0 + weigh limits.lo ((ofResults limits results).counts.toList.take (slot + 1)) =
        (results.filter (· ≤ limits.lo + slot)).sum := by
    simp only [Int.zero_add, weigh_take_ofResults mem h, Nat.cast_succ, ← Int.add_assoc,
      Int.lt_add_one_iff]
  rw [Histogram.total, totalFrom_eq_ok_iff, lo_ofResults, weigh_ofResults ordered mem, Int.zero_add]
  refine and_congr_right fun _ => ⟨fun steps => ⟨?_, fun value inside => ?_⟩, ?_⟩
  · obtain ⟨slot, place, h⟩ := exists_slot (Limits.mem_def.mpr ⟨ordered, le_refl limits.hi⟩)
    have last := (steps slot (slots ▸ h)).1.2
    omega
  · obtain ⟨slot, place, h⟩ := exists_slot inside
    obtain ⟨_, product, partialSum⟩ := steps slot (slots ▸ h)
    have value_eq : limits.lo + slot = value := by omega
    rw [upTo h, value_eq] at partialSum
    rw [Array.getElem_toList, getElem_ofResults, value_eq] at product
    exact ⟨product, partialSum⟩
  · rintro ⟨last, steps⟩ slot h
    rw [slots] at h
    have inside : limits.lo + slot ∈ limits := by
      rw [Limits.width] at h
      exact Limits.mem_def.mpr ⟨by omega, by omega⟩
    obtain ⟨product, partialSum⟩ := steps _ inside
    rw [upTo h, Array.getElem_toList, getElem_ofResults]
    exact ⟨⟨Int.le_trans fits.1 (by omega), by have := (Limits.mem_def.mp inside).2; omega⟩,
      product, partialSum⟩

theorem total_ofResults_of_fits (ordered : limits.lo ≤ limits.hi) (fits : Fits limits.lo)
    (mem : ∀ result ∈ results, result ∈ limits) (low : Fits (results.length * limits.lo))
    (high : Fits (results.length * limits.hi)) (last : limits.hi < maxInteger) :
    (ofResults limits results).total = .ok results.sum := by
  refine (total_ofResults_eq_ok_iff ordered fits mem).mpr ⟨rfl, last, fun value inside => ⟨?_, ?_⟩⟩
  · have few : results.count value ≤ results.length := List.count_le_length
    obtain ⟨lower, upper⟩ := Limits.mem_def.mp inside
    exact fits_of_between few low high
      (Int.mul_le_mul_of_nonneg_left lower (Int.natCast_nonneg _))
      (Int.mul_le_mul_of_nonneg_left upper (Int.natCast_nonneg _))
  · have below : ∀ result ∈ results.filter (· ≤ value), result ∈ limits :=
      fun result member => mem result (List.mem_of_mem_filter member)
    obtain ⟨lower, upper⟩ := sum_between below
    exact fits_of_between (List.length_filter_le _ results) low high lower upper

/-- The total of a histogram is the sum of the results of all trials, whenever there is one.
There is none exactly if a step on the way leaves the words: the result behind the largest
one, the product for a value or the sum up to it. -/
theorem total_of_trials (expr : Expr) (num : UInt32) (master : Master) (histogram : Histogram)
    (counted : (ofExpr expr num.toNat master).1 = .ok histogram) :
    let limits := expr.limits
    ∃ results : List Int, master.outcomes expr num.toNat = results.map .ok ∧
      num.toNat * limits.lo ≤ results.sum ∧ results.sum ≤ num.toNat * limits.hi ∧
      (∀ total, histogram.total = .ok total → total = results.sum ∧
        Sample.mean ⟨expr, num, histogram, total⟩ =
          (Binary64.ofInt results.sum).div (.ofNat (max num.toNat 1))) ∧
      ((∃ total, histogram.total = .ok total) ↔ limits.hi < maxInteger ∧ ∀ value ∈ limits,
        Fits (results.count value * value) ∧ Fits (results.filter (· ≤ value)).sum) ∧
      (Fits (num.toNat * limits.lo) → Fits (num.toNat * limits.hi) → limits.hi < maxInteger →
        histogram.total = .ok results.sum) := by
  intro limits
  obtain ⟨results, all, rfl⟩ := results_of_ofExpr counted
  have mem := Master.outcome_mem_limits all
  have length : results.length = num.toNat := by
    simpa [Master.outcomes] using (congrArg List.length all).symm
  have between := sum_between mem
  have ordered := expr.limits_ordered
  have start := expr.limits_fit.1
  have exact (total : Int) : (ofResults limits results).total = .ok total ↔ _ :=
    total_ofResults_eq_ok_iff ordered start mem
  refine ⟨results, all, length ▸ between.1, length ▸ between.2, fun total h => ?_, ?_,
    fun low high last => ?_⟩
  · obtain ⟨rfl, _⟩ := (exact _).mp h
    exact ⟨rfl, rfl⟩
  · constructor
    · rintro ⟨total, h⟩
      exact ((exact total).mp h).2
    · exact fun steps => ⟨_, (exact _).mpr ⟨rfl, steps⟩⟩
  · exact total_ofResults_of_fits ordered start mem (length ▸ low) (length ▸ high) last

theorem total_of_trials_two_dice :
    let expr := Expr.compound (.dice ⟨.d6, 2, by decide, by decide⟩) .sub (.const 7)
    let histogram : Histogram := ⟨-5, #[0, 0, 0, 1, 0, 1, 0, 0, 0, 1, 0]⟩
    (ofExpr expr (3 : UInt32).toNat (.ofSeed 1)).1 = .ok histogram ∧
      histogram.total = .ok 2 ∧
      ∃ results : List Int, (Master.ofSeed 1).outcomes expr 3 = results.map .ok ∧
        results.sum = 2 ∧
        Sample.mean ⟨expr, 3, histogram, 2⟩ = (Binary64.ofInt results.sum).div (.ofNat 3) := by
  intro expr histogram
  have counted : (ofExpr expr (3 : UInt32).toNat (.ofSeed 1)).1 = .ok histogram := by
    decide +kernel
  have total : histogram.total = .ok 2 := by decide +kernel
  obtain ⟨results, all, _, _, exact, _, inWords⟩ :=
    total_of_trials expr 3 (.ofSeed 1) histogram counted
  have low : Fits ((3 : UInt32).toNat * expr.limits.lo) := by decide +kernel
  have high : Fits ((3 : UInt32).toNat * expr.limits.hi) := by decide +kernel
  have sum := inWords low high (by decide +kernel)
  exact ⟨counted, total, results, all, Except.ok.inj (sum.symm.trans total), (exact 2 total).2⟩

/-- The results of two rolls of a large constant have no product, and behind the largest
result of all there is no word.  The command breaks off then: it prints no mean and writes no
file. -/
theorem total_of_trials_too_large :
    let square := Expr.compound (.const 3000000000) .mul (.const 3000000000)
    let largest := Expr.compound (.compound (.const 153092023) .mul (.const 92737)) .mul
      (.const 649657)
    let outcome := SampleCommand.run ["3000000000x3000000000", "2"] (.ofSeed 0)
    ((ofExpr square 2 (.ofSeed 0)).1 = .ok ⟨9000000000000000000, #[2]⟩ ∧
      (Master.ofSeed 0).outcomes square 2 =
        [.ok 9000000000000000000, .ok 9000000000000000000] ∧
      total ⟨9000000000000000000, #[2]⟩ = .error .multiplication) ∧
    ((ofExpr largest 1 (.ofSeed 0)).1 = .ok ⟨maxInteger, #[1]⟩ ∧
      total ⟨maxInteger, #[1]⟩ = .error .addition) ∧
    outcome = .aborted .multiplication ∧ outcome.exitCode = 101 ∧
      outcome.printed.output = [] ∧ outcome.file? = none := by
  refine ⟨⟨?_, ?_, ?_⟩, ⟨?_, ?_⟩, ?_, ?_, ?_, ?_⟩ <;> decide +kernel

end Histogram

end DiceNotation
