import DiceNotation.Command
import DiceNotation.Roll
import DiceNotation.Text

/-! No line ends inside the text of an expression or of a roll.  What is printed from such texts
is cut into them again. -/

namespace DiceNotation

def OneLine (text : String) : Prop :=
  ∀ c ∈ text.toList, c ≠ '\n' ∧ c ≠ '\r'

instance (text : String) : Decidable (OneLine text) :=
  List.decidableBAll (fun c => c ≠ '\n' ∧ c ≠ '\r') text.toList

theorem textLines_append {line : List Char} (h : ∀ c ∈ line, c ≠ '\n' ∧ c ≠ '\r')
    (rest : List Char) : textLines (line ++ '\n' :: rest) = line :: textLines rest := by
  induction line with
  | nil => rfl
  | cons c line ih =>
      obtain ⟨feed, carriage⟩ := h c List.mem_cons_self
      have tail := ih fun other member => h other (List.mem_cons_of_mem c member)
      simp [textLines, carriage, tail]

theorem Printed.textLines_text {lines : List String} (h : ∀ line ∈ lines, OneLine line) :
    textLines (Printed.text lines).toList = lines.map String.toList := by
  induction lines with
  | nil => rfl
  | cons line rest ih =>
      have tail := ih fun other member => h other (List.mem_cons_of_mem line member)
      have split : (Printed.text (line :: rest)).toList =
          line.toList ++ '\n' :: (Printed.text rest).toList := by
        simp [Printed.text, String.toList_join]
      rw [split, textLines_append (h line List.mem_cons_self), tail, List.map_cons]

namespace OneLine

theorem append {a b : String} (first : OneLine a) (second : OneLine b) : OneLine (a ++ b) := by
  intro c member
  rw [String.toList_append] at member
  exact (List.mem_append.mp member).elim (first c) (second c)

theorem intercalate {separator : String} (between : OneLine separator) {parts : List String}
    (h : ∀ part ∈ parts, OneLine part) : OneLine (separator.intercalate parts) := by
  induction parts with
  | nil =>
      rw [String.intercalate_nil]
      decide
  | cons part rest ih =>
      have head := h part List.mem_cons_self
      have tail := ih fun other member => h other (List.mem_cons_of_mem part member)
      cases rest with
      | nil => rwa [String.intercalate_singleton]
      | cons next more =>
          rw [String.intercalate_cons_cons]
          exact (head.append between).append tail

theorem toString_nat (n : Nat) : OneLine (toString n) := by
  intro c member
  rw [Nat.toString_eq_repr, Nat.toList_repr] at member
  have digit : c.isDigit = true := Nat.isDigit_of_mem_toDigits (by decide) (by decide) member
  constructor <;> rintro rfl <;> cases digit

theorem toString_int (n : Int) : OneLine (toString n) := by
  cases n with
  | ofNat n => exact toString_nat n
  | negSucc n =>
      have sign : OneLine "-" := by decide
      exact sign.append (toString_nat (n + 1))

end OneLine

theorem Pool.oneLine_text (pool : Pool) : OneLine pool.text := by
  have die : OneLine pool.die.text := by cases pool.die <;> decide
  unfold Pool.text
  split
  · exact die
  · exact (OneLine.toString_nat pool.count).append die

theorem Term.oneLine_text (term : Term) : OneLine term.text := by
  match term with
  | .const value => exact OneLine.toString_int value.toInt
  | .dice ⟨pool, none⟩ => exact pool.oneLine_text
  | .dice ⟨pool, some policy⟩ =>
      have minus : OneLine "-" := by decide
      have marker : OneLine policy.text := by cases policy <;> decide
      exact (pool.oneLine_text.append minus).append marker

theorem Operator.oneLine_text (op : Operator) : OneLine op.text := by
  cases op <;> decide

theorem Expr.oneLine_text (expr : Expr) : OneLine expr.text := by
  induction expr with
  | leaf term => exact term.oneLine_text
  | compound lhs op rhs left right => exact (left.append op.oneLine_text).append right

theorem oneLine_drawsText (draws : List Nat) : OneLine (drawsText draws) := by
  unfold drawsText
  split
  · exact OneLine.toString_nat _
  · have summands : ∀ part ∈ draws.map toString, OneLine part := by
      intro part member
      obtain ⟨value, _, rfl⟩ := List.mem_map.mp member
      exact OneLine.toString_nat value
    have plus : OneLine " + " := by decide
    have opening : OneLine "(" := by decide
    have closing : OneLine ")" := by decide
    exact (opening.append (plus.intercalate summands)).append closing

theorem Contribution.oneLine_text (values : Contribution) : OneLine values.text := by
  cases values with
  | constant value => exact OneLine.toString_int value
  | draws values => exact oneLine_drawsText values
  | dropping values dropped =>
      have minus : OneLine " - " := by decide
      exact ((oneLine_drawsText values).append minus).append (OneLine.toString_nat dropped)

theorem Breakdown.oneLine_text (breakdown : Breakdown) : OneLine breakdown.text := by
  have space : OneLine " " := by decide
  induction breakdown with
  | leaf values => exact values.oneLine_text
  | compound lhs op rhs left right =>
      exact (((left.append space).append op.oneLine_text).append space).append right

theorem Roll.oneLine_text (roll : Roll) : OneLine roll.text := by
  have equals : OneLine " = " := by decide
  exact (roll.breakdown.oneLine_text.append equals).append (OneLine.toString_int roll.result)

end DiceNotation
