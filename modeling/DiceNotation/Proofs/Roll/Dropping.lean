import DiceNotation.Proofs.Roll.Faces

namespace DiceNotation

def DropPolicy.extreme? : DropPolicy → List Nat → Option Nat
  | .lowest, draws => draws.min?
  | .highest, draws => draws.max?

theorem DropPolicy.value?_eq_extreme? (policy : DropPolicy) (draws : List Nat) :
    policy.value? draws = policy.extreme? draws := by
  cases policy with
  | lowest => exact value?_lowest draws
  | highest => exact value?_highest draws

theorem DropPolicy.mem_of_extreme? {policy : DropPolicy} {draws : List Nat} {value : Nat}
    (h : policy.extreme? draws = some value) : value ∈ draws := by
  cases policy with
  | lowest => exact List.min?_mem h
  | highest => exact List.max?_mem h

theorem DropPolicy.exists_extreme (policy : DropPolicy) {draws : List Nat}
    (nonempty : draws ≠ []) : ∃ value, policy.extreme? draws = some value := by
  cases policy with
  | lowest => exact Option.isSome_iff_exists.mp (List.isSome_min?_of_ne_nil nonempty)
  | highest => exact Option.isSome_iff_exists.mp (List.isSome_max?_of_ne_nil nonempty)

theorem DropPolicy.lowest_le_highest {draws : List Nat} {low high : Nat}
    (lowest : DropPolicy.lowest.extreme? draws = some low)
    (highest : DropPolicy.highest.extreme? draws = some high) : low ≤ high := by
  apply (List.min?_eq_some_iff.mp lowest).2
  exact mem_of_extreme? highest

theorem Pool.Drawn.ne_nil {pool : Pool} {draws : List Nat} (drawn : pool.Drawn draws) :
    draws ≠ [] := by
  intro empty
  have none : pool.count = 0 := by rw [← drawn.length, empty, List.length_nil]
  exact absurd none (Nat.ne_of_gt pool.count_pos)

/-- The roll has the draws of the plain one, and one of them is taken from the sum. -/
structure Roll.Drops (roll plain : Roll) (draws : List Nat) (value : Nat) : Prop where
  faces : roll.faces = draws
  result : roll.result = draws.sum - value
  kept : roll.result = (draws.erase value).sum
  description : roll.description = plain.description ++ " - " ++ toString value

namespace DiceTerm

theorem result_ofDraws_plain (pool : Pool) (draws : List Nat) :
    (ofDraws { pool } draws).result = draws.sum :=
  ofDraws_result { pool } draws

theorem drops_ofDraws (pool : Pool) {policy : DropPolicy} {draws : List Nat} {value : Nat}
    (found : policy.extreme? draws = some value) :
    (ofDraws { pool, drop? := some policy } draws).Drops (ofDraws { pool } draws) draws value := by
  have dropped : (policy.value? draws).getD 0 = value := by
    rw [policy.value?_eq_extreme?, found, Option.getD_some]
  have parts : value + (draws.erase value).sum = draws.sum :=
    List.sum_erase (DropPolicy.mem_of_extreme? found)
  have result : (ofDraws { pool, drop? := some policy } draws).result = draws.sum - value := by
    rw [← dropped]
    rfl
  refine ⟨faces_ofDraws _ draws, result, ?_, ?_⟩
  · rw [result]
    omega
  · rw [← dropped]
    rfl

end DiceTerm

theorem Pool.Drawn.bounds_of_drops {pool : Pool} {draws : List Nat} {value : Nat}
    {roll plain : Roll} (drawn : pool.Drawn draws) (member : value ∈ draws)
    (drops : roll.Drops plain draws value) :
    (pool.count : Int) - 1 ≤ roll.result ∧
      roll.result ≤ ((pool.count : Int) - 1) * pool.die.sides := by
  have ⟨lower, upper⟩ := Die.mem_limitsOf.mp (pool.kept_mem_limits drawn member)
  have fewer : ((pool.count - 1 : Nat) : Int) = (pool.count : Int) - 1 :=
    Int.natCast_pred_of_pos pool.count_pos
  rw [← drops.result, fewer] at lower
  rw [← drops.result, Int.natCast_mul, fewer] at upper
  exact ⟨lower, upper⟩

variable {σ : Type} [WordSource σ]

/-- Where the words last for a pool, its plain roll and both rolls that drop a draw take the
same draws and leave the same supply.  The value that is dropped is always there: a default
for it is never needed. -/
theorem Pool.rolls_of_draw (pool : Pool) (supply : Supply σ)
    (lasts : (pool.draw supply).1 ≠ .error .exhausted) :
    ∃ (draws : List Nat) (rest : Supply σ) (plain : Roll) (dropping : DropPolicy → Roll),
      draws.length = pool.count ∧ (∀ face ∈ draws, 1 ≤ face ∧ face ≤ pool.die.sides) ∧
      (Expr.dice pool).roll supply = (.ok plain, rest) ∧
      plain.faces = draws ∧ plain.result = draws.sum ∧
      (∀ policy, (Expr.dropping pool policy).roll supply = (.ok (dropping policy), rest) ∧
        ∃ value, policy.extreme? draws = some value ∧
          (∀ default, (policy.value? draws).getD default = value) ∧
          (dropping policy).Drops plain draws value ∧
          (pool.count : Int) - 1 ≤ (dropping policy).result ∧
          (dropping policy).result ≤ ((pool.count : Int) - 1) * pool.die.sides) ∧
      (dropping .highest).result ≤ (dropping .lowest).result ∧
      (dropping .lowest).result < plain.result := by
  rcases drawing : pool.draw supply with ⟨error | draws, rest⟩
  · rw [drawing] at lasts
    obtain ⟨rfl, _⟩ := pool.draw_error drawing
    exact absurd rfl lasts
  -- All three rolls begin with this draw, and differ only in what they make of it.
  · have drawn := pool.drawn_of_draw drawing
    have extreme (policy : DropPolicy) := policy.exists_extreme drawn.ne_nil
    refine ⟨draws, rest, DiceTerm.ofDraws { pool } draws,
      fun policy => DiceTerm.ofDraws { pool, drop? := some policy } draws,
      drawn.length, drawn.faces, DiceTerm.roll_of_draw drawing,
      DiceTerm.faces_ofDraws _ draws, DiceTerm.result_ofDraws_plain pool draws, ?_, ?_, ?_⟩
    · intro policy
      obtain ⟨value, found⟩ := extreme policy
      have drops := DiceTerm.drops_ofDraws pool found
      refine ⟨DiceTerm.roll_of_draw drawing, value, found, ?_, drops, ?_⟩
      · intro default
        rw [policy.value?_eq_extreme?, found, Option.getD_some]
      · exact drawn.bounds_of_drops (DropPolicy.mem_of_extreme? found) drops
    · obtain ⟨low, lowest⟩ := extreme .lowest
      obtain ⟨high, highest⟩ := extreme .highest
      have ordered := DropPolicy.lowest_le_highest lowest highest
      rw [(DiceTerm.drops_ofDraws pool highest).result, (DiceTerm.drops_ofDraws pool lowest).result]
      omega
    · obtain ⟨low, lowest⟩ := extreme .lowest
      have positive := (drawn.faces low (DropPolicy.mem_of_extreme? lowest)).1
      rw [(DiceTerm.drops_ofDraws pool lowest).result, DiceTerm.result_ofDraws_plain]
      omega

theorem Pool.rolls_of_draw_tied :
    let pool : Pool := ⟨.d6, 3, by decide, by decide⟩
    let words : Supply WordCycle := ⟨⟨3074457345618258602, [9223372036854775808, 0], []⟩, 9⟩
    (pool.draw words).1 ≠ .error .exhausted ∧
    ∃ (rest : Supply WordCycle) (plain : Roll) (dropping : DropPolicy → Roll),
      (Expr.dice pool).roll words = (.ok plain, rest) ∧ plain.result = 9 ∧
      (∀ policy, (Expr.dropping pool policy).roll words = (.ok (dropping policy), rest)) ∧
      (dropping .lowest).Drops plain [4, 1, 4] 1 ∧
      (dropping .highest).Drops plain [4, 1, 4] 4 := by
  intro pool words
  have drawn : (pool.draw words).1 = .ok [4, 1, 4] := by decide +kernel
  have lasts : (pool.draw words).1 ≠ .error .exhausted := by simp [drawn]
  obtain ⟨draws, rest, plain, dropping, _, _, rolled, faces, sum, drops, _⟩ :=
    pool.rolls_of_draw words lasts
  have known : (Expr.dice pool).roll words =
      (.ok (DiceTerm.ofDraws { pool } [4, 1, 4]), (pool.draw words).2) :=
    DiceTerm.roll_of_draw (Prod.ext drawn rfl)
  obtain rfl : DiceTerm.ofDraws { pool } [4, 1, 4] = plain :=
    Except.ok.inj (Prod.mk.inj (known.symm.trans rolled)).1
  obtain rfl : [4, 1, 4] = draws := faces
  obtain ⟨rolledLow, _, low, _, dropsLow, _⟩ := drops .lowest
  obtain ⟨rolledHigh, _, high, _, dropsHigh, _⟩ := drops .highest
  cases low
  cases high
  refine ⟨lasts, rest, _, dropping, rolled, sum, ?_, dropsLow, dropsHigh⟩
  exact fun policy => (drops policy).1

end DiceNotation
