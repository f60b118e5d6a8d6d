import DiceNotation.Proofs.Histogram.Total
import Mathlib.Data.Nat.Digits.Defs

namespace DiceNotation

namespace Count

theorem le_ofDigitChars (n : Nat) (digits : List Char) : n ≤ Nat.ofDigitChars 10 digits n := by
  induction digits generalizing n with
  | nil => exact Nat.le_refl n
  | cons c rest ih =>
      rw [Nat.ofDigitChars_cons]
      exact Nat.le_trans (by omega) (ih _)

theorem readDigits_eq_ok_iff {n : Nat} (small : n ≤ 4294967295) {digits : List Char}
    {count : UInt32} :
    readDigits n digits = .ok count ↔
      (∀ c ∈ digits, c.isDigit = true) ∧ Nat.ofDigitChars 10 digits n = count.toNat := by
  induction digits generalizing n with
  | nil =>
      have value : (UInt32.ofNat n).toNat = n := UInt32.toNat_ofNat_of_lt' (by
        rw [UInt32.size]
        omega)
      simp [readDigits, ← UInt32.toNat_inj, value]
  | cons c rest ih =>
      rw [readDigits, List.forall_mem_cons, Nat.ofDigitChars_cons]
      generalize 10 * n + (c.toNat - '0'.toNat) = next
      by_cases digit : c.isDigit = true
      · by_cases large : 4294967295 < next
        · have beyond : Nat.ofDigitChars 10 rest next ≠ count.toNat := by
            have grows := le_ofDigitChars next rest
            have bound := count.toNat_lt
            omega
          simp [digit, large, beyond]
        · simp [digit, large, ih (Nat.le_of_not_lt large)]
      · simp [digit]

theorem read_eq_ok_iff {text : String} {count : UInt32} :
    read text = .ok count ↔ ∃ digits : List Char,
      (text.toList = digits ∨ text.toList = '+' :: digits) ∧ digits ≠ [] ∧
        (∀ c ∈ digits, c.isDigit = true) ∧ Nat.ofDigitChars 10 digits 0 = count.toNat := by
  have plus : ¬ '+'.isDigit = true := by decide
  rw [read]
  generalize text.toList = cs
  split
  · simp
  · simp [plus]
  · next digits nonempty =>
      rw [readDigits_eq_ok_iff (Nat.zero_le _)]
      constructor
      · exact fun read => ⟨digits, .inr rfl, fun none => nonempty (none ▸ rfl), read⟩
      · rintro ⟨run, rfl | same, _, digit, value⟩
        · exact absurd (digit _ List.mem_cons_self) plus
        · obtain rfl := List.tail_eq_of_cons_eq same
          exact ⟨digit, value⟩
  · next nonempty _ signless =>
      rw [readDigits_eq_ok_iff (Nat.zero_le _)]
      constructor
      · exact fun read => ⟨cs, .inl rfl, nonempty, read⟩
      · rintro ⟨run, rfl | same, _, digit, value⟩
        · exact ⟨digit, value⟩
        · exact absurd same (signless run)

end Count

namespace Npy

def readNumber (bytes : List UInt8) : Nat := Nat.ofDigits 256 (bytes.map UInt8.toNat)

def readItems : (count : Nat) → List UInt8 → List Int64
  | 0, _ => []
  | count + 1, bytes =>
      (UInt64.ofNat (readNumber (bytes.take 8))).toInt64 :: readItems count (bytes.drop 8)

def read? (file : ByteArray) : Option (List Int64) :=
  let bytes := file.data.toList
  if bytes.take 8 = magic then
    let data := bytes.drop (10 + readNumber ((bytes.drop 8).take 2))
    some (readItems (data.length / 8) data)
  else none

@[simp] theorem length_bytes (count n : Nat) : (bytes count n).length = count := by
  induction count generalizing n with
  | zero => rfl
  | succ count ih => exact congrArg (· + 1) (ih _)

theorem readNumber_bytes (count n : Nat) : readNumber (bytes count n) = n % 256 ^ count := by
  induction count generalizing n with
  | zero => simp [readNumber, bytes, Nat.mod_one]
  | succ count ih =>
      have byte : (UInt8.ofNat n).toNat = n % 256 := UInt8.toNat_ofNat
      calc readNumber (bytes (count + 1) n)
          = (UInt8.ofNat n).toNat + 256 * readNumber (bytes count (n / 256)) := Nat.ofDigits_cons
        _ = n % 256 + 256 * (n / 256 % 256 ^ count) := by rw [byte, ih]
        _ = n % 256 ^ (count + 1) := by rw [Nat.pow_succ', Nat.mod_mul]

theorem readNumber_int64Bytes (n : Int64) :
    (UInt64.ofNat (readNumber (int64Bytes n))).toInt64 = n := by
  have bound : n.toUInt64.toNat < 256 ^ 8 := n.toUInt64.toNat_lt
  rw [int64Bytes, readNumber_bytes, Nat.mod_eq_of_lt bound, UInt64.ofNat_toNat,
    Int64.toInt64_toUInt64]

theorem length_flatMap_int64Bytes (items : List Int64) :
    (items.flatMap int64Bytes).length = 8 * items.length := by
  induction items with
  | nil => rfl
  | cons item rest ih =>
      rw [List.flatMap_cons, List.length_append, ih, int64Bytes, length_bytes, List.length_cons]
      omega

theorem readItems_flatMap (items : List Int64) :
    readItems items.length (items.flatMap int64Bytes) = items := by
  induction items with
  | nil => rfl
  | cons item rest ih =>
      have eight : (int64Bytes item).length = 8 := length_bytes 8 _
      rw [List.length_cons, List.flatMap_cons, readItems, List.take_left' eight,
        List.drop_left' eight, ih, readNumber_int64Bytes]

theorem length_description (count : Nat) :
    (description count).length = 56 + (toString count).length := by
  have opening : "\x7b'descr': '<i8', 'fortran_order': False, 'shape': (".length = 51 := by
    decide +kernel
  have closing : ",), \x7d".length = 5 := by decide +kernel
  unfold description
  rw [String.length_append, String.length_append, opening, closing]
  omega

/-- The header has the same length for all arrays of less than 10²⁰ items. -/
theorem length_header {count : Nat} (small : count < 10 ^ 20) :
    (header count).length = headerLength := by
  have digits : (toString count).length ≤ 20 :=
    Nat.toString_eq_repr ▸ Nat.repr_length count 20 (by omega) small
  have ending : "\n".length = 1 := by decide +kernel
  rw [header, String.length_append, String.length_append, String.length_ofList,
    List.length_replicate, length_description, ending, headerLength]
  omega

theorem read?_file {items : List Int64} (small : items.length < 10 ^ 20) :
    read? (file items) = some items := by
  have start : magic.length = 8 := rfl
  have behind : (ascii (header items.length)).length = headerLength := by
    rw [ascii, List.length_map, String.length_toList, length_header small]
  have number : readNumber (bytes 2 headerLength) = headerLength := by
    rw [readNumber_bytes]
    rfl
  have whole : (file items).data.toList = magic ++ (bytes 2 headerLength ++
      (ascii (header items.length) ++ items.flatMap int64Bytes)) := by
    simp [file]
  have data : (file items).data.toList.drop (10 + headerLength) = items.flatMap int64Bytes := by
    rw [whole, ← List.append_assoc, ← List.append_assoc, List.drop_left']
    rw [List.length_append, List.length_append, start, length_bytes, behind]
  have length : (items.flatMap int64Bytes).length / 8 = items.length := by
    rw [length_flatMap_int64Bytes]
    omega
  have first : (file items).data.toList.take 8 = magic := by rw [whole, List.take_left' start]
  have second : ((file items).data.toList.drop 8).take 2 = bytes 2 headerLength := by
    rw [whole, List.drop_left' start, List.take_left' (length_bytes 2 _)]
  simp only [read?, first, second, number, data, length, readItems_flatMap, if_true]

end Npy

namespace Histogram

variable {limits : Limits} {results : List Int}

def kept (limits : Limits) (results : List Int) : List Int :=
  limits.lo :: (List.range limits.width).map fun slot : Nat => results.count (limits.lo + slot)

theorem read?_npy (fits : Fits limits.lo) (narrow : limits.width ≤ maxSlots)
    (few : (results.length : Int) ≤ maxInteger) :
    ∃ items, Npy.read? (ofResults limits results).npy = some items ∧
      items.map Int64.toInt = kept limits results := by
  have bound : maxSlots = 1048576 := rfl
  have lowest : (Int64.ofInt limits.lo).toInt = limits.lo :=
    Int64.toInt_ofInt_of_le fits.1 (Int.lt_of_le_of_lt fits.2 (by decide))
  have counts : (ofResults limits results).counts.toList =
      (List.range limits.width).map fun slot : Nat => results.count (limits.lo + slot) := by
    apply List.ext_getElem <;> simp
  refine ⟨_, Npy.read?_file ?_, ?_⟩
  · rw [List.length_cons, List.length_map, Array.length_toList, size_ofResults]
    omega
  · rw [kept, List.map_cons, lo_ofResults, lowest, counts, List.map_map, List.map_map]
    refine congrArg _ (List.map_congr_left fun slot _ => Int64.toInt_ofNat_of_lt ?_)
    have counted : results.count (limits.lo + slot) ≤ results.length := List.count_le_length
    unfold maxInteger at few
    exact Nat.lt_of_le_of_lt counted (by omega)

end Histogram

namespace SampleCommand

theorem readArguments_eq_ok_iff {arguments : List String} {expr : Expr} {trials : UInt32} :
    readArguments arguments = .ok (expr, trials) ↔ ∃ text rest, arguments = text :: rest ∧
      Expr.parse text = .ok expr ∧ (rest = [] ∧ trials = 1 ∨
        ∃ count more, rest = count :: more ∧ Count.read count = .ok trials) := by
  match arguments with
  | [] => simp [readArguments]
  | [text] =>
      cases parsed : Expr.parse text with
      | error error => simp [readArguments, parsed]
      | ok parsedExpr => simp [readArguments, parsed, eq_comm]
  | text :: count :: more =>
      cases parsed : Expr.parse text with
      | error error => simp [readArguments, parsed]
      | ok parsedExpr =>
          cases counted : Count.read count with
          | error error => simp [readArguments, parsed, counted]
          | ok trials => simp [readArguments, parsed, counted]

/-- The trials come to these results, few enough to be counted and to be added up in words. -/
structure Rolls (expr : Expr) (trials : Nat) (master : Master) (results : List Int) : Prop where
  outcomes : master.outcomes expr trials = results.map .ok
  narrow : expr.limits.hi - expr.limits.lo + 1 ≤ 2 ^ 20
  last : expr.limits.hi < maxInteger
  sums : ∀ value ∈ expr.limits,
    Fits (results.count value * value) ∧ Fits (results.filter (· ≤ value)).sum

variable {expr : Expr} {trials : UInt32} {entropy : ChaCha.Key} {results : List Int}

theorem Rolls.iff_total {master : Master} :
    Rolls expr trials.toNat master results ↔
      (Histogram.ofExpr expr trials.toNat master).1 =
          .ok (Histogram.ofResults expr.limits results) ∧
        master.outcomes expr trials.toNat = results.map .ok ∧
        (Histogram.ofResults expr.limits results).total = .ok results.sum := by
  have width := expr.width_limits
  have bound : maxSlots = 1048576 := rfl
  constructor
  · rintro ⟨outcomes, narrow, last, sums⟩
    refine ⟨congrArg Prod.fst (Histogram.ofExpr_of_results (by omega) outcomes), outcomes, ?_⟩
    exact (Histogram.total_ofResults_eq_ok_iff expr.limits_ordered expr.limits_fit.1
      (Master.outcome_mem_limits outcomes)).mpr ⟨rfl, last, sums⟩
  · rintro ⟨counted, outcomes, total⟩
    obtain ⟨_, last, sums⟩ := (Histogram.total_ofResults_eq_ok_iff expr.limits_ordered
      expr.limits_fit.1 (Master.outcome_mem_limits outcomes)).mp total
    refine ⟨outcomes, ?_, last, sums⟩
    by_contra wide
    rw [Histogram.ofExpr, if_pos (by omega)] at counted
    cases counted

theorem run_of_rolls {arguments : List String}
    (read : readArguments arguments = .ok (expr, trials))
    (rolls : Rolls expr trials.toNat { key := entropy } results) :
    run arguments entropy =
      .sampled ⟨expr, trials, .ofResults expr.limits results, results.sum⟩ := by
  obtain ⟨counted, _, total⟩ := Rolls.iff_total.mp rolls
  simp only [run, read, counted, total]

theorem rolls_of_run {arguments : List String} {sample : Sample}
    (read : readArguments arguments = .ok (expr, trials))
    (sampled : run arguments entropy = .sampled sample) :
    ∃ results, Rolls expr trials.toNat { key := entropy } results := by
  simp only [run, read] at sampled
  split at sampled
  · cases sampled
  · next histogram counted =>
      split at sampled
      · cases sampled
      · next total summed =>
          obtain ⟨results, outcomes, rfl⟩ := Histogram.results_of_ofExpr counted
          obtain ⟨rfl, _⟩ := (Histogram.total_ofResults_eq_ok_iff expr.limits_ordered
            expr.limits_fit.1 (Master.outcome_mem_limits outcomes)).mp summed
          exact ⟨results, Rolls.iff_total.mpr ⟨counted, outcomes, summed⟩⟩

theorem Outcome.silent_of_not_sampled {outcome : Outcome}
    (h : ∀ sample, outcome ≠ .sampled sample) :
    outcome.exitCode ≠ 0 ∧ outcome.printed.output = [] ∧
      outcome.printed.errors.length = 1 ∧ outcome.file? = none := by
  cases outcome with
  | refused error => exact ⟨(by decide : (1 : UInt32) ≠ 0), rfl, rfl, rfl⟩
  | aborted overflow => exact ⟨(by decide : (101 : UInt32) ≠ 0), rfl, rfl, rfl⟩
  | sampled sample => exact absurd rfl (h sample)

/-- If all trials have a result and their sum can be made, the command prints the limits and the
mean, and writes how often each value came up.  Else it only complains. -/
theorem run_exact {arguments : List String}
    (read : readArguments arguments = .ok (expr, trials)) (entropy : ChaCha.Key) :
    let outcome := run arguments entropy
    let limits := expr.limits
    (∀ results, Rolls expr trials.toNat { key := entropy } results →
      let mean := (Binary64.ofInt results.sum).div (.ofNat (max trials.toNat 1))
      outcome.exitCode = 0 ∧ outcome.printed.errors = [] ∧
      outcome.printed.output = [expr.text ++ ": " ++ toString trials ++ " rolls in " ++
        toString limits.lo ++ "..=" ++ toString limits.hi ++ ", mean " ++ mean.fixedText 3] ∧
      ∃ file items, outcome.file? = some file ∧ Npy.read? file = some items ∧
        items.map Int64.toInt = Histogram.kept limits results) ∧
    ((¬ ∃ results, Rolls expr trials.toNat { key := entropy } results) →
      outcome.exitCode ≠ 0 ∧ outcome.printed.output = [] ∧
        outcome.printed.errors.length = 1 ∧ outcome.file? = none) := by
  refine ⟨fun results rolls => ?_, fun fails => ?_⟩
  · have length : results.length = trials.toNat := by
      simpa [Master.outcomes] using (congrArg List.length rolls.outcomes).symm
    have few : (results.length : Int) ≤ maxInteger := by
      have := trials.toNat_lt
      unfold maxInteger
      omega
    have narrow : expr.limits.width ≤ maxSlots := by
      have width := expr.width_limits
      have bound : maxSlots = 1048576 := rfl
      have := rolls.narrow
      omega
    obtain ⟨items, written, exact⟩ := Histogram.read?_npy expr.limits_fit.1 narrow few
    rw [run_of_rolls read rolls]
    exact ⟨rfl, rfl, rfl, _, items, rfl, written, exact⟩
  · exact Outcome.silent_of_not_sampled fun sample sampled => fails (rolls_of_run read sampled)

end SampleCommand

end DiceNotation
