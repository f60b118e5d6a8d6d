import DiceNotation.Command
import DiceNotation.Proofs.LeftNested
import DiceNotation.Proofs.Lexeme
import DiceNotation.Proofs.Roll

/-! A description is read from left to right, as notation is: a sum in parentheses is added up
first, then each operator takes the value of all that stands before it.  Read like this it
gives the result of the roll, unless a term that drops a draw stands behind a minus, a
times or a division: the dropped draw is then taken from what the operator gave. -/

namespace DiceNotation

def Operator.ofChar? : Char → Option Operator
  | '+' => some .add
  | '-' => some .sub
  | 'x' => some .mul
  | '/' => some .div
  | _ => none

namespace Description

mutual
def operand? (left : Int) (op : Operator) : List Lexeme → Option Int
  | .digits run :: rest => do
      behind? (← op.result? left (Nat.ofDigitChars 10 run 0)) rest
  | .single '(' :: .digits run :: rest =>
      summand? left op (Nat.ofDigitChars 10 run 0) rest
  | _ => none

def summand? (left : Int) (op : Operator) (total : Int) : List Lexeme → Option Int
  | .single ')' :: rest => do behind? (← op.result? left total) rest
  | .single ' ' :: .single '+' :: .single ' ' :: .digits run :: rest =>
      summand? left op (total + Nat.ofDigitChars 10 run 0) rest
  | _ => none

def behind? (left : Int) : List Lexeme → Option Int
  | [] => some left
  | .single ' ' :: .single c :: .single ' ' :: rest => do
      operand? left (← Operator.ofChar? c) rest
  | _ => none
end

/-- The value of a description, none if it is no arithmetic or divides by zero. -/
def value? (text : String) : Option Int :=
  operand? 0 .add (Lexeme.split text.toList)

variable {left n : Int} {op : Operator} {more : List Char}

theorem split_toString_append (n : Nat) (stops : ∀ d ∈ more.head?, d.isDigit = false) :
    Lexeme.split ((toString n).toList ++ more) =
      .digits (Nat.toDigits 10 n) :: Lexeme.split more := by
  have digits : ∀ c ∈ Nat.toDigits 10 n, c.isDigit = true :=
    fun c => Nat.isDigit_of_mem_toDigits (by decide) (by decide)
  rw [Lexeme.split_append (.of_head stops), Nat.toString_eq_repr, Nat.toList_repr,
    Lexeme.split_of_digits digits Nat.toDigits_ne_nil]
  rfl

theorem operand?_number (number : Nat) (stops : ∀ d ∈ more.head?, d.isDigit = false)
    (applied : op.result? left number = some n) :
    operand? left op (Lexeme.split ((toString number).toList ++ more)) =
      behind? n (Lexeme.split more) := by
  rw [split_toString_append number stops, operand?, Nat.ofDigitChars_ten_toDigits, applied]
  rfl

def summands (values : List Nat) : List Char :=
  values.flatMap fun value => ' ' :: '+' :: ' ' :: (toString value).toList

theorem toList_intercalate (value : Nat) (values : List Nat) :
    (" + ".intercalate ((value :: values).map toString)).toList =
      (toString value).toList ++ summands values := by
  rw [String.toList_intercalate]
  induction values generalizing value with
  | nil => simp [summands]
  | cons next rest ih =>
      simp only [List.map_cons, List.intercalate_cons_cons] at ih ⊢
      rw [ih next]
      simp [summands]

theorem summand?_summands {total : Int} (values : List Nat)
    (applied : op.result? left (total + (faceTotal values : Int)) = some n) :
    summand? left op total (Lexeme.split (summands values ++ ')' :: more)) =
      behind? n (Lexeme.split more) := by
  induction values generalizing total with
  | nil =>
      have closing : Lexeme.split (')' :: more) = .single ')' :: Lexeme.split more := rfl
      have whole : op.result? left total = some n := by simpa [faceTotal] using applied
      rw [summands, List.flatMap_nil, List.nil_append, closing, summand?, whole]
      rfl
  | cons value rest ih =>
      have stops : ∀ d ∈ (summands rest ++ ')' :: more).head?, d.isDigit = false := by
        cases rest <;> simp [summands]
      have spread : Lexeme.split (summands (value :: rest) ++ ')' :: more) =
          .single ' ' :: .single '+' :: .single ' ' :: .digits (Nat.toDigits 10 value) ::
            Lexeme.split (summands rest ++ ')' :: more) := by
        rw [← split_toString_append value stops, summands, List.flatMap_cons]
        simp only [List.cons_append, List.append_assoc]
        rfl
      rw [spread, summand?, Nat.ofDigitChars_ten_toDigits]
      apply ih
      rw [← applied, faceTotal, faceTotal, List.foldr_cons]
      congr 1
      omega

theorem operand?_drawsText {draws : List Nat} (nonempty : draws ≠ [])
    (stops : ∀ d ∈ more.head?, d.isDigit = false)
    (applied : op.result? left (faceTotal draws) = some n) :
    operand? left op (Lexeme.split ((drawsText draws).toList ++ more)) =
      behind? n (Lexeme.split more) := by
  match draws with
  | [] => exact absurd rfl nonempty
  | [value] => exact operand?_number value stops (by simpa [faceTotal] using applied)
  | value :: next :: rest =>
      have behind : ∀ d ∈ (summands (next :: rest) ++ ')' :: more).head?, d.isDigit = false := by
        simp [summands]
      have text : drawsText (value :: next :: rest) =
          "(" ++ " + ".intercalate ((value :: next :: rest).map toString) ++ ")" := rfl
      have spread : Lexeme.split ((drawsText (value :: next :: rest)).toList ++ more) =
          .single '(' :: .digits (Nat.toDigits 10 value) ::
            Lexeme.split (summands (next :: rest) ++ ')' :: more) := by
        rw [← split_toString_append value behind, text, String.toList_append,
          String.toList_append, toList_intercalate]
        simp only [List.append_assoc]
        rfl
      rw [spread, operand?, Nat.ofDigitChars_ten_toDigits]
      apply summand?_summands
      rw [← applied, faceTotal, faceTotal, List.foldr_cons]
      congr 1

theorem behind?_operator (left : Int) (op : Operator) (more : List Char) :
    behind? left (Lexeme.split (' ' :: (op.text.toList ++ ' ' :: more))) =
      operand? left op (Lexeme.split more) := by
  cases op <;> rfl

end Description

def Term.drops : Term → Bool
  | .const _ => false
  | .dice d => d.drop?.isSome

/-- Every term that drops a draw stands first or behind a plus. -/
def Expr.DropsAdded (expr : Expr) : Prop :=
  ∀ entry ∈ expr.behind, entry.2.drops = true → entry.1 = .add

instance (expr : Expr) : Decidable expr.DropsAdded :=
  inferInstanceAs (Decidable (∀ _ ∈ _, _))

theorem Expr.dropsAdded_compound_leaf {lhs : Expr} {op : Operator} {term : Term}
    (h : (compound lhs op (.leaf term)).DropsAdded) :
    lhs.DropsAdded ∧ (term.drops = true → op = .add) :=
  ⟨fun entry member => h entry (List.mem_append_left _ member),
    h (op, term) (List.mem_append_right _ List.mem_cons_self)⟩

variable {σ : Type} [WordSource σ] {supply middle rest : Supply σ} {roll : Roll}

theorem Expr.description_compound {lhs rhs : Expr} {op : Operator} {a b : Roll}
    (left : lhs.roll supply = (.ok a, middle)) (right : rhs.roll middle = (.ok b, rest))
    (rolled : (compound lhs op rhs).roll supply = (.ok roll, rest)) :
    roll.description = a.description ++ " " ++ op.text ++ " " ++ b.description := by
  rw [roll_of_operands op left right] at rolled
  cases applied : op.apply a.result b.result with
  | error error =>
      rw [applied] at rolled
      cases rolled
  | ok n =>
      rw [applied] at rolled
      cases rolled
      rfl

namespace Description

variable {left n : Int} {op : Operator} {more : List Char}

theorem operand?_const {value : Int64} (written : (Term.const value).hasNotation = true)
    (applied : op.result? left value.toInt = some n)
    (stops : ∀ d ∈ more.head?, d.isDigit = false) :
    operand? left op (Lexeme.split ((toString value.toInt).toList ++ more)) =
      behind? n (Lexeme.split more) := by
  simp only [Term.hasNotation, Bool.and_eq_true, decide_eq_true_eq] at written
  obtain ⟨number, exact⟩ := Int.eq_ofNat_of_zero_le written.1
  rw [exact] at applied ⊢
  exact operand?_number number stops applied

theorem operand?_ofDraws {dice : DiceTerm} {draws : List Nat} (nonempty : draws ≠ [])
    (added : dice.drop?.isSome = true → op = .add)
    (applied : op.result? left (dice.ofDraws draws).result = some n)
    (stops : ∀ d ∈ more.head?, d.isDigit = false) :
    operand? left op (Lexeme.split ((dice.ofDraws draws).description.toList ++ more)) =
      behind? n (Lexeme.split more) := by
  obtain ⟨pool, drop?⟩ := dice
  cases drop? with
  | none => exact operand?_drawsText nonempty stops applied
  | some policy =>
      obtain rfl := added rfl
      generalize dropped : (policy.value? draws).getD 0 = value
      have text : (DiceTerm.ofDraws ⟨pool, some policy⟩ draws).description =
          drawsText draws ++ " - " ++ toString value := dropped ▸ rfl
      have result : left + ((faceTotal draws : Int) - value) = n := by
        simpa [DiceTerm.ofDraws, dropped, Operator.result?] using applied
      have spaced : ∀ d ∈ (' ' :: (Operator.text .sub).toList ++ ' ' ::
          ((toString value).toList ++ more)).head?, d.isDigit = false := by simp
      have difference : Operator.result? .sub (left + (faceTotal draws : Int)) value = some n := by
        rw [← result, Operator.result?]
        congr 1
        omega
      calc
        operand? left .add (Lexeme.split
            ((DiceTerm.ofDraws ⟨pool, some policy⟩ draws).description.toList ++ more))
          = operand? left .add (Lexeme.split ((drawsText draws).toList ++
              (' ' :: (Operator.text .sub).toList ++ ' ' ::
                ((toString value).toList ++ more)))) := by
            rw [text]
            simp only [String.toList_append, List.append_assoc]
            rfl
        _ = behind? (left + (faceTotal draws : Int)) (Lexeme.split
              (' ' :: (Operator.text .sub).toList ++ ' ' ::
                ((toString value).toList ++ more))) :=
            operand?_drawsText nonempty spaced rfl
        _ = operand? (left + (faceTotal draws : Int)) .sub
              (Lexeme.split ((toString value).toList ++ more)) :=
            behind?_operator _ .sub _
        _ = behind? n (Lexeme.split more) := operand?_number value stops difference

theorem operand?_term {term : Term} (written : term.hasNotation = true)
    (added : term.drops = true → op = .add)
    (rolled : term.roll supply = (.ok roll, rest))
    (applied : op.result? left roll.result = some n)
    (stops : ∀ d ∈ more.head?, d.isDigit = false) :
    operand? left op (Lexeme.split (roll.description.toList ++ more)) =
      behind? n (Lexeme.split more) := by
  cases term with
  | const value =>
      cases rolled
      exact operand?_const written applied stops
  | dice d =>
      rcases drawn : d.pool.draw supply with ⟨error | draws, last⟩
      · rw [Term.roll, Rolling.bind_of_error drawn] at rolled
        cases rolled
      · rw [Term.roll, Rolling.bind_of_ok drawn] at rolled
        cases rolled
        have nonempty : draws ≠ [] := by
          rintro rfl
          exact absurd (Pool.drawn_of_draw drawn).length.symm (Nat.ne_of_gt d.pool.count_pos)
        exact operand?_ofDraws nonempty added applied stops

theorem operand?_description {expr : Expr} (written : expr.hasNotation = true)
    (added : expr.DropsAdded) (rolled : expr.roll supply = (.ok roll, rest))
    (stops : ∀ d ∈ more.head?, d.isDigit = false) :
    operand? 0 .add (Lexeme.split (roll.description.toList ++ more)) =
      behind? roll.result (Lexeme.split more) := by
  induction expr generalizing roll rest more with
  | leaf term =>
      have first : Operator.result? .add 0 roll.result = some roll.result :=
        congrArg some (Int.zero_add _)
      exact operand?_term written (fun _ => rfl) rolled first stops
  | compound lhs op rhs ih _ =>
      cases rhs with
      | compound l inner r => cases written
      | leaf term =>
          rw [Expr.hasNotation_compound_leaf, Bool.and_eq_true] at written
          obtain ⟨addedLeft, addedTerm⟩ := Expr.dropsAdded_compound_leaf added
          obtain ⟨a, b, middle, left, right, applied⟩ := Expr.operands_of_roll rolled
          have spaced : ∀ d ∈ (' ' :: (op.text.toList ++ ' ' ::
              (b.description.toList ++ more))).head?, d.isDigit = false := by simp
          calc
            operand? 0 .add (Lexeme.split (roll.description.toList ++ more))
              = operand? 0 .add (Lexeme.split (a.description.toList ++
                  ' ' :: (op.text.toList ++ ' ' :: (b.description.toList ++ more)))) := by
                rw [Expr.description_compound left right rolled]
                simp only [String.toList_append, List.append_assoc]
                rfl
            _ = behind? a.result (Lexeme.split
                  (' ' :: (op.text.toList ++ ' ' :: (b.description.toList ++ more)))) :=
                ih written.1 addedLeft left spaced
            _ = operand? a.result op (Lexeme.split (b.description.toList ++ more)) :=
                behind?_operator a.result op _
            _ = behind? roll.result (Lexeme.split more) :=
                operand?_term written.2 addedTerm right
                  (Operator.apply_eq_ok_iff.mp applied).1 stops

/-- The line that is printed for a notation is an equation that holds, where every term that
drops a draw stands first or behind a plus. -/
theorem value?_description (expr : Expr) (supply rest : Supply σ) (roll : Roll)
    (written : expr.hasNotation = true) (added : expr.DropsAdded)
    (rolled : expr.roll supply = (.ok roll, rest)) :
    value? roll.description = some roll.result ∧
      ∀ text, RollCommand.line? text (.ok (some ⟨expr.text, .ok roll⟩)) =
        some (.result (expr.text ++ " = " ++ (roll.description ++ " = " ++
          toString roll.result))) := by
  refine ⟨?_, fun _ => rfl⟩
  have ends : ∀ d ∈ ([] : List Char).head?, d.isDigit = false := by simp
  have read := operand?_description written added rolled ends
  rwa [List.append_nil] at read

theorem value?_description_two_drops :
    let expr := Expr.compound (.compound (.compound (.compound
      (.dropping ⟨.d6, 4, by decide, by decide⟩ .lowest) .mul (.const 2)) .add
        (.dropping ⟨.d4, 3, by decide, by decide⟩ .highest)) .div (.const 3)) .sub
          (.dice ⟨.d100, 1, by decide, by decide⟩)
    let words : WordCycle := ⟨0, [9223372036854775808, 4611686018427387904], []⟩
    ∃ roll, (expr.roll (.ofSource words)).1 = .ok roll ∧ expr.text = "4d6-Lx2+3d4-H/3-d%" ∧
      roll.description = "(1 + 4 + 2 + 1) - 1 x 2 + (3 + 2 + 1) - 3 / 3 - 51" ∧
      roll.result = -46 ∧ value? roll.description = some roll.result := by
  intro expr words
  have rolled : (expr.roll (.ofSource words)).1.map
      (fun roll => (roll.description, roll.result)) =
        .ok ("(1 + 4 + 2 + 1) - 1 x 2 + (3 + 2 + 1) - 3 / 3 - 51", -46) := by decide +kernel
  obtain ⟨roll, ok, same⟩ := Outcome.map_eq_ok_iff.mp rolled
  obtain ⟨description, result⟩ := Prod.mk.inj same
  exact ⟨roll, ok, by decide +kernel, description, result,
    (value?_description expr _ _ roll (by decide) (by decide) (Prod.ext ok rfl)).1⟩

theorem value?_description_behind_minus :
    let rolled (op : Operator) :=
      ((Expr.compound (.const 10) op
        (.dropping ⟨.d4, 2, by decide, by decide⟩ .lowest)).roll
          (Supply.ofSource (⟨0, [], []⟩ : WordCycle))).1.map fun roll =>
            (roll.description, value? roll.description, roll.result)
    rolled .sub = .ok ("10 - (1 + 1) - 1", some 7, 9) ∧
      rolled .mul = .ok ("10 x (1 + 1) - 1", some 19, 10) ∧
      rolled .div = .ok ("10 / (1 + 1) - 1", some 4, 10) ∧
      ¬ ∀ (expr : Expr) (supply rest : Supply WordCycle) (roll : Roll),
        expr.hasNotation = true → expr.roll supply = (.ok roll, rest) →
          value? roll.description = some roll.result := by
  intro rolled
  have minus : rolled .sub = .ok ("10 - (1 + 1) - 1", some 7, 9) := by decide +kernel
  refine ⟨minus, by decide +kernel, by decide +kernel, fun claim => ?_⟩
  obtain ⟨roll, ok, same⟩ := Outcome.map_eq_ok_iff.mp minus
  obtain ⟨-, same⟩ := Prod.mk.inj same
  obtain ⟨read, result⟩ := Prod.mk.inj same
  have equation := claim _ _ _ roll (by decide) (Prod.ext ok rfl)
  rw [read, result] at equation
  cases equation

end Description

end DiceNotation
