import DiceNotation.Proofs.Histogram

/-! The width of the limits, the distance of a result from the lowest one and the counts
are words, and only a word that is not negative is an index.  None of these steps fails,
since every result is within the limits and no slot counts more than all trials. -/

namespace DiceNotation

inductive WordFault where
  | negative
  | overflow
  | refused (error : HistogramError)
  deriving DecidableEq

def word (n : Int) : Except WordFault Int :=
  if Fits n then .ok n else .error .overflow

def wordIndex (n : Int) : Except WordFault Nat :=
  if 0 ≤ n then .ok n.toNat else .error .negative

theorem word_of_fits {n : Int} (h : Fits n) : word n = .ok n := if_pos h

theorem word_of_not_fits {n : Int} (h : ¬ Fits n) : word n = .error .overflow := if_neg h

theorem wordIndex_natCast (n : Nat) : wordIndex n = .ok n := if_pos (Int.natCast_nonneg n)

def Limits.slots? (limits : Limits) : Option Nat :=
  let slots : Except WordFault Nat := do
    let span ← word (limits.hi - limits.lo)
    wordIndex (← word (span + 1))
  match slots with
  | .ok slots => if slots ≤ maxSlots then some slots else none
  | .error _ => none

theorem Limits.slots?_of_ordered {limits : Limits} (ordered : limits.lo ≤ limits.hi) :
    limits.slots? = if maxSlots < limits.width then none else some limits.width := by
  have width : (limits.width : Int) = limits.hi - limits.lo + 1 := by
    rw [Limits.width]
    omega
  have bound : maxSlots = 1048576 := rfl
  have wide_of_not_fits {n : Int} (h : ¬ Fits n) (lower : 0 ≤ n) (upper : n ≤ limits.width) :
      maxSlots < limits.width := by
    unfold Fits minInteger maxInteger at h
    omega
  unfold slots?
  by_cases span : Fits (limits.hi - limits.lo)
  · rw [word_of_fits span, Outcome.ok_bind, ← width]
    by_cases total : Fits (limits.width : Int)
    · rw [word_of_fits total, Outcome.ok_bind, wordIndex_natCast]
      by_cases wide : maxSlots < limits.width
      · rw [if_pos wide]
        exact if_neg (Nat.not_le_of_lt wide)
      · rw [if_neg wide]
        exact if_pos (Nat.le_of_not_lt wide)
    · rw [word_of_not_fits total, if_pos (wide_of_not_fits total (by omega) (by omega))]
      rfl
  · rw [word_of_not_fits span, if_pos (wide_of_not_fits span (by omega) (by omega))]
    rfl

namespace Histogram

def addInWords (histogram : Histogram) (result : Int) : Except WordFault Histogram := do
  let slot ← wordIndex (← word (result - histogram.lo))
  if h : slot < histogram.counts.size then
    let count ← word (histogram.counts[slot] + 1)
    return { histogram with counts := histogram.counts.set slot count.toNat }
  else throw (.refused .outsideLimits)

def ofExprInWords (expr : Expr) (trials : Nat) (master : Master) :
    Except WordFault Histogram × Master :=
  match expr.limits.slots? with
  | none => (.error (.refused (.tooWide expr.limits)), master)
  | some slots =>
      tallyWith addInWords (fun error => .refused (.evaluation error)) expr trials
        ⟨expr.limits.lo, Array.replicate slots 0⟩ master

theorem ofExprInWords_of_wide {expr : Expr} (wide : maxSlots < expr.limits.width) (trials : Nat)
    (master : Master) :
    ofExprInWords expr trials master = (.error (.refused (.tooWide expr.limits)), master) := by
  rw [ofExprInWords, Limits.slots?_of_ordered expr.limits_ordered, if_pos wide]

theorem ofExprInWords_of_narrow {expr : Expr} (narrow : ¬ maxSlots < expr.limits.width)
    (trials : Nat) (master : Master) :
    ofExprInWords expr trials master =
      tallyWith addInWords (fun error => .refused (.evaluation error)) expr trials
        (ofResults expr.limits []) master := by
  rw [← empty_eq_ofResults, ofExprInWords, Limits.slots?_of_ordered expr.limits_ordered,
    if_neg narrow]
  rfl

theorem adds_addInWords {limits : Limits} {bound : Nat} (narrow : limits.width ≤ maxSlots)
    (few : (bound : Int) ≤ maxInteger) : Adds addInWords limits bound := by
  intro earlier result mem fewer
  obtain ⟨slot, exact, inside⟩ := exists_slot mem
  have index : slot < (ofResults limits earlier).counts.size := by simpa using inside
  have slots : maxSlots = 1048576 := rfl
  have counted := List.count_le_length (a := limits.lo + slot) (l := earlier)
  have distance : Fits (slot : Int) := by
    unfold Fits minInteger maxInteger
    omega
  have count : Fits ((ofResults limits earlier).counts[slot] + 1 : Int) := by
    rw [getElem_ofResults]
    unfold Fits minInteger
    omega
  have next : ((ofResults limits earlier).counts[slot] + 1 : Int).toNat =
      (ofResults limits earlier).counts[slot] + 1 := by omega
  simp only [addInWords, lo_ofResults, exact, word_of_fits distance, wordIndex_natCast,
    Outcome.ok_bind, dif_pos index, word_of_fits count, next]
  exact congrArg Except.ok (set_ofResults exact index)

/-- Limits that are too wide are refused before a generator is taken.  Else the first trial
that fails ends the tally, and without one every slot counts the trials with its result.  In
words the outcome is the same: no step overflows or is refused for a result. -/
theorem ofExpr_accounts (expr : Expr) (num : UInt32) (master : Master) :
    let limits := expr.limits
    let outcomes := master.outcomes expr num.toNat
    let tallied := ofExpr expr num.toNat master
    ((2 ^ 20 < limits.hi - limits.lo + 1 ∧ tallied = (.error (.tooWide limits), master)) ∨
      (limits.hi - limits.lo + 1 ≤ 2 ^ 20 ∧
        ((∃ (results : List Int) (error : EvalError) (later : List (Except EvalError Int)),
            outcomes = results.map .ok ++ .error error :: later ∧
            tallied = (.error (.evaluation error), master.after (results.length + 1))) ∨
          ∃ (results : List Int) (histogram : Histogram), outcomes = results.map .ok ∧
            tallied = (.ok histogram, master.after num.toNat) ∧
            histogram.lo = limits.lo ∧
            (histogram.counts.size : Int) = limits.hi - limits.lo + 1 ∧
            (∀ slot : Fin histogram.counts.size,
              histogram.counts[slot] = results.count (limits.lo + slot)) ∧
            histogram.counts.sum = num.toNat))) ∧
      ofExprInWords expr num.toNat master = (tallied.1.mapError .refused, tallied.2) := by
  intro limits outcomes tallied
  have width : (limits.width : Int) = limits.hi - limits.lo + 1 := expr.width_limits
  have bound : maxSlots = 1048576 := rfl
  by_cases wide : maxSlots < limits.width
  · have refused : tallied = (.error (.tooWide limits), master) := if_pos wide
    refine ⟨.inl ⟨by omega, refused⟩, ?_⟩
    rw [ofExprInWords_of_wide wide, refused]
    rfl
  · have few : ([] : List Int).length + num.toNat ≤ num.toNat := by simp
    have small : (num.toNat : Int) ≤ maxInteger := by
      have := num.toNat_lt
      unfold maxInteger
      omega
    have run : tallied = _ := ofExpr_of_narrow wide
    have runInWords := ofExprInWords_of_narrow wide num.toNat master
    have adds := adds_addOrRefuse limits num.toNat
    have addsInWords := adds_addInWords (Nat.le_of_not_lt wide) small
    rcases exists_first_error outcomes with ⟨results, error, later, split⟩ | ⟨results, all⟩
    · rw [tallyWith_of_error adds few split] at run
      rw [tallyWith_of_error addsInWords few split] at runInWords
      refine ⟨.inr ⟨by omega, .inl ⟨results, error, later, split, run⟩⟩, ?_⟩
      rw [runInWords, run]
      rfl
    · rw [tallyWith_of_ok adds few all] at run
      rw [tallyWith_of_ok addsInWords few all] at runInWords
      have length : results.length = num.toNat := by
        simpa [outcomes, Master.outcomes] using (congrArg List.length all).symm
      refine ⟨.inr ⟨by omega, .inr ⟨results, _, all, run, rfl, by simpa using width, ?_, ?_⟩⟩, ?_⟩
      · exact fun slot => getElem_ofResults slot.isLt
      · exact (sum_ofResults (Master.outcome_mem_limits all)).trans length
      · rw [runInWords, run]
        rfl

end Histogram

end DiceNotation
