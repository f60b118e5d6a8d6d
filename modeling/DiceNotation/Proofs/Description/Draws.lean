import DiceNotation.Proofs.Description
import DiceNotation.Proofs.Sampled

/-! A description has no outer parentheses, and its signs stand between draws as well as between
terms.  Still it can be cut in one way only once the expression is known: no number goes on
behind a draw, so equal texts have the same draw in front, and then equal texts behind it. -/

namespace DiceNotation

namespace Sampled

variable {σ : Type}

def draws : Sampled σ → List (Term × Option (List Nat))
  | .leaf term draws? _ => [(term, draws?)]
  | .compound lhs _ rhs => lhs.draws ++ rhs.draws

@[simp] theorem draws_leaf (term : Term) (draws? : Option (List Nat)) (rest : Supply σ) :
    (leaf term draws? rest).draws = [(term, draws?)] := rfl

@[simp] theorem draws_compound (lhs rhs : Sampled σ) (op : Operator) :
    (compound lhs op rhs).draws = lhs.draws ++ rhs.draws := rfl

end Sampled

section

variable {σ : Type} [WordSource σ] {supply middle rest : Supply σ} {roll : Roll}

theorem Expr.draws_sampled_fst (expr : Expr) (supply : Supply σ) :
    (expr.sampled supply).draws.map (·.1) = expr.leaves := by
  induction expr generalizing supply with
  | leaf term => rfl
  | compound lhs op rhs left right =>
      rw [sampled, Sampled.draws_compound, List.map_append, left, right, leaves_compound]

theorem Expr.rest_sampled_of_roll {expr : Expr} (h : expr.roll supply = (.ok roll, rest)) :
    (expr.sampled supply).rest = rest := by
  cases found : (expr.sampled supply).first? with
  | none =>
      obtain ⟨other, rolled, _⟩ := roll_of_first?_eq_none found
      cases h.symm.trans rolled
      rfl
  | some fault => cases h.symm.trans (roll_of_first?_eq_some found)

theorem Expr.draws_compound_of_roll {lhs rhs : Expr} {op : Operator} {a : Roll}
    (left : lhs.roll supply = (.ok a, middle)) :
    ((compound lhs op rhs).sampled supply).draws =
      (lhs.sampled supply).draws ++ (rhs.sampled middle).draws := by
  rw [sampled, Sampled.draws_compound, rest_sampled_of_roll left]

theorem Expr.draws_of_draw {term : Term} {draws : List Nat}
    (h : term.draw supply = (.ok draws, rest)) :
    ((leaf term).sampled supply).draws = [(term, some draws)] := by
  rw [sampled_leaf h]
  rfl

theorem Expr.isSome_of_roll {expr : Expr} (h : expr.roll supply = (.ok roll, rest)) :
    ∀ entry ∈ (expr.sampled supply).draws, entry.2.isSome = true := by
  induction expr generalizing supply rest roll with
  | leaf term =>
      rcases drawn : term.draw supply with ⟨error | draws, behind⟩
      · cases h.symm.trans (Term.roll_of_draw_error drawn)
      · simp [draws_of_draw drawn]
  | compound lhs op rhs left right =>
      obtain ⟨a, b, middle, rolledLeft, rolledRight, _⟩ := operands_of_roll h
      intro entry member
      rw [draws_compound_of_roll rolledLeft] at member
      cases List.mem_append.mp member with
      | inl member => exact left rolledLeft entry member
      | inr member => exact right rolledRight entry member

end

namespace Description

variable {a b : List Nat} {cs ds : List Char}

/-- No number goes on here. -/
def Stops (cs : List Char) : Prop := ∀ d ∈ cs.head?, d.isDigit = false

theorem stops_space (cs : List Char) : Stops (' ' :: cs) := by simp [Stops]

theorem stops_summands (values : List Nat) (cs : List Char) :
    Stops (summands values ++ ')' :: cs) := by
  cases values <;> simp [Stops, summands]

theorem toString_append_inj {m n : Nat} (stopsLeft : Stops cs) (stopsRight : Stops ds)
    (same : (toString m).toList ++ cs = (toString n).toList ++ ds) : m = n ∧ cs = ds := by
  have cut := congrArg Lexeme.split same
  rw [split_toString_append m stopsLeft, split_toString_append n stopsRight] at cut
  have digits : Nat.toDigits 10 m = Nat.toDigits 10 n := Lexeme.digits.inj (List.cons.inj cut).1
  have number : m = n := by
    rw [← Nat.ofDigitChars_ten_toDigits (n := m), digits, Nat.ofDigitChars_ten_toDigits]
  subst number
  exact ⟨rfl, List.append_cancel_left same⟩

theorem summands_append_inj (same : summands a ++ ')' :: cs = summands b ++ ')' :: ds) :
    a = b ∧ cs = ds := by
  induction a generalizing b with
  | nil =>
      cases b with
      | nil => simpa [summands] using same
      | cons other others => simp [summands] at same
  | cons value rest ih =>
      cases b with
      | nil => simp [summands] at same
      | cons other others =>
          have front : (toString value).toList ++ (summands rest ++ ')' :: cs) =
              (toString other).toList ++ (summands others ++ ')' :: ds) := by
            simpa [summands] using same
          obtain ⟨rfl, later⟩ :=
            toString_append_inj (stops_summands rest cs) (stops_summands others ds) front
          obtain ⟨rfl, behind⟩ := ih later
          exact ⟨rfl, behind⟩

theorem toList_drawsText (value next : Nat) (rest : List Nat) :
    (drawsText (value :: next :: rest)).toList =
      '(' :: ((toString value).toList ++ (summands (next :: rest) ++ [')'])) := by
  have text : drawsText (value :: next :: rest) =
      "(" ++ " + ".intercalate ((value :: next :: rest).map toString) ++ ")" := rfl
  rw [text, String.toList_append, String.toList_append, toList_intercalate]
  simp

theorem drawsText_append_inj (length : a.length = b.length) (stopsLeft : Stops cs)
    (stopsRight : Stops ds)
    (same : (drawsText a).toList ++ cs = (drawsText b).toList ++ ds) : a = b ∧ cs = ds := by
  match a, b with
  | [], [] => exact ⟨rfl, List.append_cancel_left same⟩
  | [value], [other] =>
      obtain ⟨rfl, behind⟩ := toString_append_inj stopsLeft stopsRight same
      exact ⟨rfl, behind⟩
  | value :: next :: rest, other :: following :: others =>
      rw [toList_drawsText, toList_drawsText] at same
      have front : (toString value).toList ++ (summands (next :: rest) ++ ')' :: cs) =
          (toString other).toList ++ (summands (following :: others) ++ ')' :: ds) := by
        simpa using same
      obtain ⟨rfl, later⟩ :=
        toString_append_inj (stops_summands _ cs) (stops_summands _ ds) front
      obtain ⟨tail, behind⟩ := summands_append_inj later
      exact ⟨by rw [tail], behind⟩

theorem ofDraws_append_inj {dice : DiceTerm} (length : a.length = b.length)
    (stopsLeft : Stops cs) (stopsRight : Stops ds)
    (same : (dice.ofDraws a).description.toList ++ cs =
      (dice.ofDraws b).description.toList ++ ds) : a = b ∧ cs = ds := by
  obtain ⟨pool, drop?⟩ := dice
  cases drop? with
  | none => exact drawsText_append_inj length stopsLeft stopsRight same
  | some policy =>
      have spread (draws : List Nat) (more : List Char) :
          (DiceTerm.ofDraws ⟨pool, some policy⟩ draws).description.toList ++ more =
            (drawsText draws).toList ++ (' ' :: '-' :: ' ' ::
              ((toString ((policy.value? draws).getD 0)).toList ++ more)) := by
        have text : (DiceTerm.ofDraws ⟨pool, some policy⟩ draws).description =
            drawsText draws ++ " - " ++ toString ((policy.value? draws).getD 0) := rfl
        rw [text, String.toList_append, String.toList_append, List.append_assoc,
          List.append_assoc]
        rfl
      -- The draws decide which of them is dropped, so the rest of the two texts is the same.
      have front := same
      rw [spread a, spread b] at front
      obtain ⟨rfl, _⟩ := drawsText_append_inj length (stops_space _) (stops_space _) front
      exact ⟨rfl, List.append_cancel_left same⟩

variable {σ τ : Type} [WordSource σ] [WordSource τ] {supply restLeft : Supply σ}
  {source restRight : Supply τ} {left right : Roll}

theorem term_append_inj {term : Term} (rolledLeft : term.roll supply = (.ok left, restLeft))
    (rolledRight : term.roll source = (.ok right, restRight)) (stopsLeft : Stops cs)
    (stopsRight : Stops ds)
    (same : left.description.toList ++ cs = right.description.toList ++ ds) :
    left = right ∧ cs = ds ∧
      ((Expr.leaf term).sampled supply).draws = ((Expr.leaf term).sampled source).draws := by
  cases term with
  | const value =>
      cases rolledLeft
      cases rolledRight
      exact ⟨rfl, List.append_cancel_left same, rfl⟩
  | dice d =>
      obtain ⟨a, drawnLeft, rfl⟩ := DiceTerm.draws_of_roll rolledLeft
      obtain ⟨b, drawnRight, rfl⟩ := DiceTerm.draws_of_roll rolledRight
      have length : a.length = b.length :=
        (Pool.drawn_of_draw drawnLeft).length.trans (Pool.drawn_of_draw drawnRight).length.symm
      obtain ⟨rfl, behind⟩ := ofDraws_append_inj length stopsLeft stopsRight same
      have drawsLeft : ((Expr.leaf (.dice d)).sampled supply).draws = [(.dice d, some a)] :=
        Expr.draws_of_draw drawnLeft
      have drawsRight : ((Expr.leaf (.dice d)).sampled source).draws = [(.dice d, some a)] :=
        Expr.draws_of_draw drawnRight
      exact ⟨rfl, behind, drawsLeft.trans drawsRight.symm⟩

theorem expr_append_inj {expr : Expr} (rolledLeft : expr.roll supply = (.ok left, restLeft))
    (rolledRight : expr.roll source = (.ok right, restRight)) (stopsLeft : Stops cs)
    (stopsRight : Stops ds)
    (same : left.description.toList ++ cs = right.description.toList ++ ds) :
    left = right ∧ cs = ds ∧ (expr.sampled supply).draws = (expr.sampled source).draws := by
  -- The text behind is general: behind the left operand it is the rest of the compound.
  induction expr generalizing supply restLeft source restRight left right cs ds with
  | leaf term => exact term_append_inj rolledLeft rolledRight stopsLeft stopsRight same
  | compound lhs op rhs ihLhs ihRhs =>
      obtain ⟨a, b, middle, lhsLeft, rhsLeft, _⟩ := Expr.operands_of_roll rolledLeft
      obtain ⟨c, d, between, lhsRight, rhsRight, _⟩ := Expr.operands_of_roll rolledRight
      have spread (first second : Roll) (more : List Char) :
          (first.description ++ " " ++ op.text ++ " " ++ second.description).toList ++ more =
            first.description.toList ++
              (' ' :: (op.text.toList ++ ' ' :: (second.description.toList ++ more))) := by
        simp
      rw [Expr.description_compound lhsLeft rhsLeft rolledLeft,
        Expr.description_compound lhsRight rhsRight rolledRight, spread, spread] at same
      obtain ⟨rfl, later, drawsLhs⟩ :=
        ihLhs lhsLeft lhsRight (stops_space _) (stops_space _) same
      have second : b.description.toList ++ cs = d.description.toList ++ ds := by
        simpa using later
      obtain ⟨rfl, behind, drawsRhs⟩ := ihRhs rhsLeft rhsRight stopsLeft stopsRight second
      refine ⟨?_, behind, ?_⟩
      · rw [Expr.roll_of_operands op lhsLeft rhsLeft] at rolledLeft
        rw [Expr.roll_of_operands op lhsRight rhsRight] at rolledRight
        have outcomeLeft := (Prod.mk.inj rolledLeft).1
        have outcomeRight := (Prod.mk.inj rolledRight).1
        exact Except.ok.inj (outcomeLeft.symm.trans outcomeRight)
      · rw [Expr.draws_compound_of_roll lhsLeft, Expr.draws_compound_of_roll lhsRight, drawsLhs,
          drawsRhs]

/-- Two rolls of an expression with the same description have the same draws for each of its
terms, whatever the words they were taken from, and the same result. -/
theorem draws_of_description (expr : Expr) (rolledLeft : expr.roll supply = (.ok left, restLeft))
    (rolledRight : expr.roll source = (.ok right, restRight))
    (same : left.description = right.description) :
    (expr.sampled supply).draws = (expr.sampled source).draws ∧
      (expr.sampled supply).draws.map (·.1) = expr.leaves ∧
      (∀ entry ∈ (expr.sampled supply).draws, entry.2.isSome = true) ∧
      left.result = right.result := by
  have ends : Stops [] := by simp [Stops]
  have texts : left.description.toList ++ [] = right.description.toList ++ [] := by rw [same]
  obtain ⟨rfl, _, draws⟩ := expr_append_inj rolledLeft rolledRight ends ends texts
  exact ⟨draws, expr.draws_sampled_fst supply, Expr.isSome_of_roll rolledLeft, rfl⟩

theorem draws_of_description_rejected_word :
    let expr := Expr.compound (.compound (.dropping ⟨.d6, 2, by decide, by decide⟩ .lowest) .sub
      (.const (-3))) .add (.dice ⟨.d8, 1, by decide, by decide⟩)
    let words : Supply WordCycle := ⟨⟨3074457345618258602, [9223372036854775808, 0], []⟩, 9⟩
    let others : Supply WordCycle := ⟨⟨9223372036854775808, [0, 2305843009213693952], []⟩, 9⟩
    ∃ left restLeft right restRight, expr.roll words = (.ok left, restLeft) ∧
      expr.roll others = (.ok right, restRight) ∧
      left.description = "(4 + 1) - 1 - -3 + 2" ∧ left.description = right.description ∧
      (expr.sampled words).draws = (expr.sampled others).draws ∧
      left.result = right.result := by
  intro expr words others
  have rolled : ∃ left restLeft right restRight, expr.roll words = (.ok left, restLeft) ∧
      expr.roll others = (.ok right, restRight) ∧
      left.description = "(4 + 1) - 1 - -3 + 2" ∧
      right.description = "(4 + 1) - 1 - -3 + 2" := by
    dsimp only [expr, words, others]
    exact ⟨_, _, _, _, rfl, rfl, by decide +kernel, by decide +kernel⟩
  obtain ⟨left, restLeft, right, restRight, rolledLeft, rolledRight, text, other⟩ := rolled
  have same : left.description = right.description := text.trans other.symm
  obtain ⟨draws, _, _, result⟩ := draws_of_description expr rolledLeft rolledRight same
  exact ⟨left, restLeft, right, restRight, rolledLeft, rolledRight, text, same, draws, result⟩

end Description

end DiceNotation
