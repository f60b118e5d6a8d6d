import DiceNotation.Proofs.LeftNested
import DiceNotation.Proofs.Outcome
import DiceNotation.Proofs.Roll

/-! A roll takes the dice of its expression from the front, one after the other.  Operators,
nesting, constants and dropped draws decide only how far it gets. -/

namespace DiceNotation

def Term.pool? : Term → Option Pool
  | .const _ => none
  | .dice d => some d.pool

def Pool.allDice (pool : Pool) : List Die := List.replicate pool.count pool.die

namespace Expr

def pools (expr : Expr) : List Pool := expr.leaves.filterMap Term.pool?

def allDice (expr : Expr) : List Die := expr.pools.flatMap Pool.allDice

@[simp] theorem pools_compound (lhs rhs : Expr) (op : Operator) :
    (compound lhs op rhs).pools = lhs.pools ++ rhs.pools :=
  List.filterMap_append

@[simp] theorem allDice_compound (lhs rhs : Expr) (op : Operator) :
    (compound lhs op rhs).allDice = lhs.allDice ++ rhs.allDice := by
  simp [allDice]

theorem allDice_leaf (d : DiceTerm) : (leaf (.dice d)).allDice = d.pool.allDice :=
  List.append_nil _

end Expr

variable {σ : Type} [WordSource σ]

def Supply.after? : (words : Nat) → Supply σ → Option (Supply σ)
  | 0, supply => some supply
  | words + 1, supply => supply.next?.bind fun (_, rest) => rest.after? words

theorem Supply.after?_add {first second : Nat} {supply middle rest : Supply σ}
    (front : supply.after? first = some middle) (back : middle.after? second = some rest) :
    supply.after? (first + second) = some rest := by
  induction first generalizing supply with
  | zero =>
      cases front
      rwa [Nat.zero_add]
  | succ first ih =>
      obtain ⟨⟨word, next⟩, found, front⟩ := Option.bind_eq_some_iff.mp front
      rw [Nat.succ_add, after?, found]
      exact ih front

theorem Die.after?_drawWithin (die : Die) (left : Nat) (source : σ) :
    ∃ words, (⟨source, left⟩ : Supply σ).after? words = some (die.drawWithin left source).2 := by
  induction left generalizing source with
  | zero => exact ⟨0, rfl⟩
  | succ left ih =>
      unfold drawWithin
      cases accepted : die.face? (WordSource.next source).1 with
      | some face => exact ⟨1, by simp [Supply.after?, Supply.next?, accepted]⟩
      | none =>
          obtain ⟨words, found⟩ := ih (WordSource.next source).2
          exact ⟨words + 1, by simpa [Supply.after?, Supply.next?, accepted] using found⟩

namespace Die

def drawEach (dice : List Die) : Rolling σ (List Nat) := dice.mapM draw

/-- The faces of dice that are drawn in order, as far as the supply lasts. -/
def faces : List Die → Supply σ → List Nat
  | [], _ => []
  | die :: dice, supply =>
      match die.draw supply with
      | (.ok face, rest) => face :: faces dice rest
      | (.error _, _) => []

variable {die : Die} {dice front back : List Die} {drawn : List Nat}
  {supply middle rest : Supply σ} {error : EvalError}

theorem drawEach_cons (die : Die) (dice : List Die) :
    (drawEach (die :: dice) : Rolling σ (List Nat)) = do
      let face ← die.draw
      let others ← drawEach dice
      return face :: others :=
  List.mapM_cons

theorem drawMany_eq (die : Die) (count : Nat) :
    (die.drawMany count : Rolling σ (List Nat)) = drawEach (List.replicate count die) := by
  induction count with
  | zero => rfl
  | succ count ih => rw [drawMany, ih, List.replicate_succ, drawEach_cons]

theorem drawEach_append_of_ok (h : drawEach front supply = (.ok drawn, middle)) :
    drawEach (front ++ back) supply =
      ((drawEach back middle).1.map (drawn ++ ·), (drawEach back middle).2) := by
  unfold drawEach at h ⊢
  rw [List.mapM_append, Rolling.bind_of_ok h, Rolling.bind_apply]
  rcases back.mapM draw middle with ⟨error | others, rest⟩ <;> rfl

theorem drawEach_append_of_error (h : drawEach front supply = (.error error, rest)) :
    drawEach (front ++ back) supply = (.error error, rest) := by
  unfold drawEach at h ⊢
  rw [List.mapM_append, Rolling.bind_of_error h]

theorem after?_drawEach (dice : List Die) (supply : Supply σ) :
    ∃ words, supply.after? words = some (drawEach dice supply).2 := by
  induction dice generalizing supply with
  | nil => exact ⟨0, rfl⟩
  | cons die dice ih =>
      obtain ⟨first, front⟩ := after?_drawWithin die supply.left supply.source
      rw [drawEach_cons]
      rcases drawn : die.draw supply with ⟨error | face, middle⟩
      · rw [Rolling.bind_of_error drawn]
        exact ⟨first, front.trans (congrArg (some ·.2) drawn)⟩
      · obtain ⟨second, behind⟩ := ih middle
        rw [Rolling.bind_of_ok drawn, Rolling.bind_apply]
        refine ⟨first + second,
          Supply.after?_add (front.trans (congrArg (some ·.2) drawn)) (behind.trans ?_)⟩
        rcases drawEach dice middle with ⟨error | others, rest⟩ <;> rfl

theorem faces_append_of_ok (back : List Die)
    (h : drawEach front supply = (.ok drawn, middle)) :
    faces (front ++ back) supply = drawn ++ faces back middle := by
  induction front generalizing supply drawn with
  | nil =>
      cases h
      rfl
  | cons die front ih =>
      rw [drawEach_cons] at h
      rcases first : die.draw supply with ⟨error | face, next⟩
      · rw [Rolling.bind_of_error first] at h
        cases h
      · rw [Rolling.bind_of_ok first] at h
        rcases others : drawEach front next with ⟨error | drawn, rest⟩
        · rw [Rolling.bind_of_error others] at h
          cases h
        · rw [Rolling.bind_of_ok others] at h
          cases h
          simp [faces, first, ih others]

theorem faces_of_drawEach (h : drawEach dice supply = (.ok drawn, rest)) :
    faces dice supply = drawn := by
  simpa [faces] using faces_append_of_ok [] h

theorem faces_prefix (front back : List Die) (supply : Supply σ) :
    faces front supply <+: faces (front ++ back) supply := by
  induction front generalizing supply with
  | nil => exact List.nil_prefix
  | cons die front ih =>
      rcases first : die.draw supply with ⟨error | face, next⟩
      · simp [faces, first]
      · simpa [faces, first] using ih next

end Die

theorem Pool.draw_eq (pool : Pool) :
    (pool.draw : Rolling σ (List Nat)) = Die.drawEach pool.allDice :=
  Die.drawMany_eq pool.die pool.count

def Contribution.faces : Contribution → List Nat
  | .constant _ => []
  | .draws values => values
  | .dropping values _ => values

def Breakdown.faces : Breakdown → List Nat
  | .leaf values => values.faces
  | .compound lhs _ rhs => lhs.faces ++ rhs.faces

def Roll.faces (roll : Roll) : List Nat := roll.breakdown.faces

theorem DiceTerm.faces_ofDraws (dice : DiceTerm) (draws : List Nat) :
    (dice.ofDraws draws).faces = draws := by
  obtain ⟨pool, drop?⟩ := dice
  cases drop? <;> rfl

def Expr.faces : Expr → Supply σ → List Nat
  | .leaf term, supply => Die.faces (leaf term).allDice supply
  | .compound lhs _ rhs, supply =>
      match lhs.roll supply with
      | (.ok _, rest) => lhs.faces supply ++ rhs.faces rest
      | (.error _, _) => lhs.faces supply

variable {supply rest middle : Supply σ} {roll : Roll} {error : EvalError}

theorem Term.drawEach_of_roll {term : Term} (h : term.roll supply = (.ok roll, rest)) :
    Die.drawEach (Expr.leaf term).allDice supply = (.ok roll.faces, rest) := by
  cases term with
  | const value =>
      cases h
      rfl
  | dice d =>
      rw [Expr.allDice_leaf, ← Pool.draw_eq]
      rcases drawn : d.pool.draw supply with ⟨error | draws, behind⟩
      · cases (Rolling.bind_of_error drawn _).symm.trans h
      · cases (Rolling.bind_of_ok drawn _).symm.trans h
        rw [d.faces_ofDraws]

theorem Term.drawEach_of_roll_error {term : Term} (h : term.roll supply = (.error error, rest)) :
    Die.drawEach (Expr.leaf term).allDice supply = (.error error, rest) := by
  cases term with
  | const value => cases h
  | dice d =>
      rw [Expr.allDice_leaf, ← Pool.draw_eq]
      rcases drawn : d.pool.draw supply with ⟨fault | draws, behind⟩
      · cases (Rolling.bind_of_error drawn _).symm.trans h
        rfl
      · cases (Rolling.bind_of_ok drawn _).symm.trans h

namespace Expr

variable {expr other lhs rhs : Expr} {op : Operator}

theorem faces_of_operands {a b : Roll} (left : lhs.roll supply = (.ok a, middle))
    (right : rhs.roll middle = (.ok b, rest))
    (h : (compound lhs op rhs).roll supply = (.ok roll, rest)) :
    roll.faces = a.faces ++ b.faces := by
  rw [roll_of_operands op left right] at h
  obtain ⟨n, _, same⟩ := Outcome.map_eq_ok_iff.mp (congrArg Prod.fst h)
  rw [← same]
  rfl

theorem drawEach_of_roll (h : expr.roll supply = (.ok roll, rest)) :
    Die.drawEach expr.allDice supply = (.ok roll.faces, rest) := by
  induction expr generalizing supply rest roll with
  | leaf term => exact Term.drawEach_of_roll h
  | compound lhs op rhs left right =>
      obtain ⟨a, b, middle, rolledLeft, rolledRight, _⟩ := operands_of_roll h
      rw [allDice_compound, Die.drawEach_append_of_ok (left rolledLeft), right rolledRight,
        faces_of_operands rolledLeft rolledRight h]
      rfl

theorem faces_compound_of_ok {a : Roll} (h : lhs.roll supply = (.ok a, middle)) :
    (compound lhs op rhs).faces supply = lhs.faces supply ++ rhs.faces middle := by
  rw [faces, h]

theorem faces_compound_of_error (h : lhs.roll supply = (.error error, rest)) :
    (compound lhs op rhs).faces supply = lhs.faces supply := by
  rw [faces, h]

theorem faces_of_roll (h : expr.roll supply = (.ok roll, rest)) :
    expr.faces supply = roll.faces := by
  induction expr generalizing supply rest roll with
  | leaf term => exact Die.faces_of_drawEach (Term.drawEach_of_roll h)
  | compound lhs op rhs left right =>
      obtain ⟨a, b, middle, rolledLeft, rolledRight, _⟩ := operands_of_roll h
      rw [faces_compound_of_ok rolledLeft, left rolledLeft, right rolledRight,
        faces_of_operands rolledLeft rolledRight h]

/-- Whatever comes of the roll, it draws its dice from the front. -/
theorem faces_prefix (expr : Expr) (supply : Supply σ) :
    expr.faces supply <+: Die.faces expr.allDice supply := by
  induction expr generalizing supply with
  | leaf term => exact List.prefix_rfl
  | compound lhs op rhs left right =>
      rw [allDice_compound]
      rcases rolled : lhs.roll supply with ⟨error | a, middle⟩
      · rw [faces_compound_of_error rolled]
        exact (left supply).trans (Die.faces_prefix lhs.allDice rhs.allDice supply)
      · rw [faces_compound_of_ok rolled, faces_of_roll rolled,
          Die.faces_append_of_ok rhs.allDice (drawEach_of_roll rolled), List.prefix_append_right_inj]
        exact right middle

theorem drawEach_of_roll_error (h : expr.roll supply = (.error error, rest))
    (supplied : error ≠ .exhausted) :
    ∃ front, front <+: expr.allDice ∧
      Die.drawEach front supply = (.ok (expr.faces supply), rest) := by
  induction expr generalizing supply rest with
  -- Only a lack of words can fail the roll of a single term.
  | leaf term => exact absurd (Term.error_of_roll h) supplied
  | compound lhs op rhs left right =>
      rcases faults_of_roll h with
        failed | ⟨a, middle, rolled, failed⟩ | ⟨a, b, middle, rolled, rolledRight, _⟩
      · obtain ⟨front, within, drawn⟩ := left failed
        refine ⟨front, within.trans ?_, ?_⟩
        · rw [allDice_compound]
          exact List.prefix_append lhs.allDice rhs.allDice
        · rw [faces_compound_of_error failed, drawn]
      · obtain ⟨front, within, drawn⟩ := right failed
        refine ⟨lhs.allDice ++ front, ?_, ?_⟩
        · rw [allDice_compound]
          exact List.prefix_append_right_inj lhs.allDice |>.mpr within
        · rw [Die.drawEach_append_of_ok (drawEach_of_roll rolled), drawn,
            faces_compound_of_ok rolled, faces_of_roll rolled]
          rfl
      · refine ⟨(compound lhs op rhs).allDice, List.prefix_rfl, ?_⟩
        rw [allDice_compound, Die.drawEach_append_of_ok (drawEach_of_roll rolled),
          drawEach_of_roll rolledRight, faces_compound_of_ok rolled, faces_of_roll rolled,
          faces_of_roll rolledRight]
        rfl

theorem roll_of_no_pools (empty : expr.pools = []) :
    ∃ outcome, ∀ (σ : Type) [WordSource σ] (supply : Supply σ),
      expr.roll supply = (outcome, supply) := by
  induction expr with
  | leaf term =>
      cases term with
      | const value => exact ⟨_, fun _ _ _ => rfl⟩
      | dice d => cases empty
  | compound lhs op rhs left right =>
      rw [pools_compound, List.append_eq_nil_iff] at empty
      obtain ⟨first, rolledLeft⟩ := left empty.1
      obtain ⟨second, rolledRight⟩ := right empty.2
      cases first with
      | error error => exact ⟨_, fun _ _ supply => roll_of_left_error (rolledLeft _ supply)⟩
      | ok a =>
          cases second with
          | error error =>
              exact ⟨_, fun _ _ supply =>
                roll_of_right_error (rolledLeft _ supply) (rolledRight _ supply)⟩
          | ok b =>
              exact ⟨_, fun _ _ supply =>
                roll_of_operands op (rolledLeft _ supply) (rolledRight _ supply)⟩

theorem drawEach_of_exhausted (h : expr.roll supply = (.error .exhausted, rest)) :
    Die.drawEach expr.allDice supply = (.error .exhausted, rest) := by
  induction expr generalizing supply with
  | leaf term => exact Term.drawEach_of_roll_error h
  | compound lhs op rhs left right =>
      rw [allDice_compound]
      rcases faults_of_roll h with failed | ⟨a, middle, rolled, failed⟩ | ⟨a, b, _, _, _, applied⟩
      · exact Die.drawEach_append_of_error (left failed)
      · rw [Die.drawEach_append_of_ok (drawEach_of_roll rolled), right failed]
        rfl
      · exact absurd applied (op.apply_ne_exhausted a.result b.result)

/-- Of two expressions with the same pools in order, rolls that succeed draw the same faces
and leave the same supply.  If one of them fails, it has drawn the front of its dice, and its
faces are the first ones of the other.  Without dice no word is taken, and the outcome is the
same for all sources. -/
theorem rolls_of_same_pools (same : expr.pools = other.pools) (supply : Supply σ) :
    (∀ a restA b restB, expr.roll supply = (.ok a, restA) → other.roll supply = (.ok b, restB) →
      a.faces = b.faces ∧ restA = restB ∧ ∃ words, supply.after? words = some restA) ∧
    (∀ error restA b restB, expr.roll supply = (.error error, restA) →
      other.roll supply = (.ok b, restB) →
        expr.faces supply <+: b.faces ∧
        ∃ front, front <+: expr.allDice ∧
          Die.drawEach front supply = (.ok (expr.faces supply), restA)) ∧
    (expr.pools = [] → ∃ outcome, ∀ (τ : Type) [WordSource τ] (source : Supply τ),
      expr.roll source = (outcome, source)) := by
  have dice : expr.allDice = other.allDice := by rw [allDice, same, allDice]
  refine ⟨?_, ?_, roll_of_no_pools⟩
  · intro a restA b restB rolledA rolledB
    have drawn := drawEach_of_roll rolledA
    have taken := Die.after?_drawEach expr.allDice supply
    rw [drawn] at taken
    rw [dice, drawEach_of_roll rolledB, Prod.mk.injEq, Except.ok.injEq] at drawn
    exact ⟨drawn.1.symm, drawn.2.symm, taken⟩
  · intro error restA b restB failed rolled
    have drawn := drawEach_of_roll rolled
    rw [← dice] at drawn
    -- Both need the same dice, and the words have lasted for the other roll.
    have supplied : error ≠ .exhausted := by
      rintro rfl
      cases drawn.symm.trans (drawEach_of_exhausted failed)
    refine ⟨?_, drawEach_of_roll_error failed supplied⟩
    rw [← Die.faces_of_drawEach drawn]
    exact faces_prefix expr supply

theorem rolls_of_same_pools_rejected_word :
    let six : Pool := ⟨.d6, 1, by decide, by decide⟩
    let eight : Pool := ⟨.d8, 1, by decide, by decide⟩
    let product := compound (.const 3) .mul
      (compound (.dropping six .lowest) .add (.dropping eight .highest))
    let quotient := compound (.dice six) .div (compound (.dice eight) .sub (.const 1))
    let faulty := compound (compound (.dice six) .div (.const 0)) .add (.dice eight)
    let words : Supply WordCycle := ⟨⟨3074457345618258602, [9223372036854775808], []⟩, 9⟩
    quotient.pools = product.pools ∧ faulty.pools = product.pools ∧ (const 7).pools = [] ∧
    (∃ a b rest, quotient.roll words = (.ok a, rest) ∧ product.roll words = (.ok b, rest) ∧
      b.faces = [4, 2] ∧ a.faces = b.faces ∧ ∃ count, words.after? count = some rest) ∧
    (∃ rest b restB, faulty.roll words = (.error .divisionByZero, rest) ∧
      product.roll words = (.ok b, restB) ∧ faulty.faces words = [4] ∧
      faulty.faces words <+: b.faces) ∧
    ∃ outcome, ∀ (τ : Type) [WordSource τ] (source : Supply τ),
      (const 7).roll source = (outcome, source) := by
  intro six eight product quotient faulty words
  have rolled : ∃ a b rest, quotient.roll words = (.ok a, rest) ∧
      product.roll words = (.ok b, rest) ∧ b.faces = [4, 2] := by
    dsimp only [six, eight, product, quotient, words]
    exact ⟨_, _, _, rfl, rfl, rfl⟩
  have failed : ∃ rest, faulty.roll words = (.error .divisionByZero, rest) ∧
      faulty.faces words = [4] := by
    dsimp only [six, eight, faulty, words]
    exact ⟨_, rfl, rfl⟩
  obtain ⟨a, b, rest, rolledA, rolledB, drawn⟩ := rolled
  obtain ⟨restC, failed, front⟩ := failed
  have whole : quotient.pools = product.pools := rfl
  have cut : faulty.pools = product.pools := rfl
  have alone : (const 7).pools = (const 7).pools := rfl
  obtain ⟨faces, _, taken⟩ := (rolls_of_same_pools whole words).1 _ _ _ _ rolledA rolledB
  have first := ((rolls_of_same_pools cut words).2.1 _ _ _ _ failed rolledB).1
  exact ⟨whole, cut, rfl, ⟨a, b, rest, rolledA, rolledB, drawn, faces, taken⟩,
    ⟨restC, b, rest, failed, rolledB, front, first⟩,
    (rolls_of_same_pools alone words).2.2 rfl⟩

end Expr

end DiceNotation
