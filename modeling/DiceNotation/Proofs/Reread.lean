import DiceNotation.Proofs.LeftNested
import DiceNotation.Proofs.RoundTrip
import DiceNotation.Proofs.Sampled

namespace DiceNotation

def Term.oversized : Term → Bool
  | .const value => maxNumber < value.toInt.natAbs
  | .dice _ => false

def Term.negative : Term → Bool
  | .const value => value.toInt < 0
  | .dice _ => false

namespace Term

variable {term : Term} {tokens : List Token}

theorem hasNotation_iff :
    term.hasNotation = true ↔ term.oversized = false ∧ term.negative = false := by
  cases term with
  | const value =>
      simp only [hasNotation, oversized, negative, Bool.and_eq_true, decide_eq_true_eq,
        decide_eq_false_iff_not]
      omega
  | dice d => simp [hasNotation, oversized, negative]

theorem tokens?_of_oversized {value : Int64} (h : (const value).oversized = true) :
    (const value).tokens? = .error (.numberOutOfRange (toString value.toInt.natAbs)) := by
  have large : ¬ value.toInt.natAbs ≤ maxNumber := by simpa [oversized] using h
  exact if_neg large

theorem tokens?_of_negative (small : term.oversized = false) (negative : term.negative = true) :
    ∃ value, term.tokens? = .ok [.operator .sub, .number value] := by
  cases term with
  | const value =>
      have bounded : value.toInt.natAbs ≤ maxNumber := by simpa [oversized] using small
      have below : value.toInt < 0 := by simpa [Term.negative] using negative
      refine ⟨UInt32.ofNat value.toInt.natAbs, ?_⟩
      rw [tokens?, Token.ofInt?, if_pos bounded, if_pos below]
      rfl
  | dice d => cases negative

theorem exists_tokens? (small : term.oversized = false) :
    ∃ token tail, term.tokens? = .ok (token :: tail) ∧ ∀ policy, token ≠ .drop policy := by
  cases negative : term.negative with
  | true =>
      obtain ⟨value, written⟩ := tokens?_of_negative small negative
      exact ⟨_, _, written, fun _ => Token.noConfusion⟩
  | false =>
      obtain ⟨tokens, written, spelled⟩ := ofTerm_tokens (hasNotation_iff.mpr ⟨small, negative⟩)
      obtain ⟨token, tail, rfl, differs⟩ := spelled.head_ne_drop
      exact ⟨token, tail, written, differs⟩

end Term

namespace Accumulator

open Spelling

variable {acc : Accumulator} {term : Term}

theorem run_operator_of_holds (holds : acc.Holds term) (op : Operator) {tokens : List Token}
    (plain : ∀ policy, tokens.head? ≠ some (.drop policy)) :
    ∃ next : Accumulator, acc.run (.operator op :: tokens) = next.run tokens ∧
      next.Settled ∧ next.operator? = some op := by
  refine ⟨{ acc with
      number? := none, dice? := none, operator? := some op
      tree? := some (acc.closed term) },
    ?_, ⟨rfl, rfl, holds.dropOperator, holds.awaiting, rfl⟩, rfl⟩
  rw [run_cons, step_operator_of_holds holds op plain]
  rfl

/-- An operator behind another one finds no term to move into the tree. -/
theorem run_operator_of_settled (settled : acc.Settled) (pending : acc.operator?.isSome)
    (op : Operator) {tokens : List Token} (plain : ∀ policy, tokens.head? ≠ some (.drop policy)) :
    acc.run (.operator op :: tokens) = .error .consecutiveMathOperators := by
  obtain ⟨first, operator⟩ := Option.isSome_iff_exists.mp pending
  obtain ⟨lhs, tree⟩ := Option.isSome_iff_exists.mp (settled.paired.trans pending)
  have nothing : acc.pendingTerm? = .ok none := by
    simp [pendingTerm?, settled.number, settled.dice]
  rw [run_cons, step_operator_of_ne_drop acc op plain]
  simp [settled.awaiting, combine, tree, operator, nothing]

theorem run_sign (value : UInt32) (rest : List Token) :
    empty.run (.operator .sub :: .number value :: rest) =
      ({ number? := some value, operator? := some .sub } : Accumulator).run rest := rfl

theorem run_operator_of_sign (value : UInt32) (op : Operator) {tokens : List Token}
    (plain : ∀ policy, tokens.head? ≠ some (.drop policy)) :
    ({ number? := some value, operator? := some .sub } : Accumulator).run
      (.operator op :: tokens) = .error .consecutiveMathOperators := by
  rw [run_cons, step_operator_of_ne_drop _ op plain]
  rfl

end Accumulator

namespace Expr

open Accumulator

theorem exists_tokens? {expr : Expr} (h : expr.leaves.find? Term.oversized = none) :
    ∃ tokens, expr.tokens? = .ok tokens := by
  induction expr with
  | leaf term =>
      obtain ⟨token, tail, written, _⟩ := Term.exists_tokens? (by simpa using h)
      exact ⟨_, written⟩
  | compound lhs op rhs left right =>
      rw [leaves_compound, List.find?_append, Option.or_eq_none_iff] at h
      obtain ⟨tokens, written⟩ := left h.1
      obtain ⟨others, writtenRight⟩ := right h.2
      exact ⟨tokens ++ .operator op :: others, by rw [tokens?, written, writtenRight]; rfl⟩

theorem tokens?_of_oversized {expr : Expr} {value : Int64}
    (h : expr.leaves.find? Term.oversized = some (.const value)) :
    expr.tokens? = .error (.numberOutOfRange (toString value.toInt.natAbs)) := by
  induction expr with
  | leaf term =>
      obtain ⟨large, same⟩ : term.oversized = true ∧ term = .const value := by simpa using h
      subst same
      exact Term.tokens?_of_oversized large
  | compound lhs op rhs left right =>
      rw [leaves_compound, List.find?_append] at h
      cases found : lhs.leaves.find? Term.oversized with
      | some term =>
          rw [found] at h
          cases h
          rw [tokens?, left found]
          rfl
      | none =>
          rw [found, Option.none_or] at h
          obtain ⟨tokens, written⟩ := exists_tokens? found
          rw [tokens?, written, right h]
          rfl

theorem parse_text_eq (expr : Expr) : parse? expr.text = expr.tokens? >>= ofTokens? := by
  rw [parse?, expr.tokenize_text]

theorem tokens?_compound_leaf {lhs : Expr} {term : Term} {op : Operator} {tokens : List Token}
    (h : (compound lhs op (leaf term)).tokens? = .ok tokens) :
    ∃ left right, lhs.tokens? = .ok left ∧ term.tokens? = .ok right ∧
      tokens = left ++ .operator op :: right := by
  obtain ⟨left, writtenLeft, h⟩ := Outcome.bind_eq_ok_iff.mp h
  obtain ⟨right, writtenRight, h⟩ := Outcome.bind_eq_ok_iff.mp h
  cases h
  exact ⟨left, right, writtenLeft, writtenRight, rfl⟩

theorem run_of_hasNotation {expr : Expr} {tokens : List Token} (h : expr.hasNotation = true)
    (written : expr.tokens? = .ok tokens) (rest : List Token) :
    ∃ (next : Accumulator) (term : Term),
      empty.run (tokens ++ rest) = next.run rest ∧ next.Holds term := by
  induction expr generalizing tokens rest with
  | leaf term =>
      obtain ⟨others, same, spelled⟩ := Term.ofTerm_tokens h
      cases written.symm.trans same
      obtain ⟨next, reads, holds, _, _⟩ := run_ofTerm spelled rest settled_empty
      exact ⟨next, term, reads, holds⟩
  | compound lhs op rhs left _ =>
      cases rhs with
      | compound l inner r => cases h
      | leaf term =>
          rw [hasNotation_compound_leaf, Bool.and_eq_true] at h
          obtain ⟨before, behind, writtenLeft, writtenTerm, rfl⟩ := tokens?_compound_leaf written
          obtain ⟨others, same, spelled⟩ := Term.ofTerm_tokens h.2
          cases writtenTerm.symm.trans same
          obtain ⟨token, tail, begins, differs⟩ := spelled.head_ne_drop
          have plain : ∀ policy, (behind ++ rest).head? ≠ some (.drop policy) := by
            simpa [begins] using differs
          obtain ⟨acc, _, reads, holds⟩ := left h.1 writtenLeft (.operator op :: behind ++ rest)
          obtain ⟨settled, readsOperator, isSettled, _⟩ := run_operator_of_holds holds op plain
          obtain ⟨next, readsTerm, holdsTerm, _, _⟩ := run_ofTerm spelled rest isSettled
          refine ⟨next, term, ?_, holdsTerm⟩
          rw [List.append_assoc, reads, List.cons_append, readsOperator, readsTerm]

theorem run_of_last_negative {lhs : Expr} {op : Operator} {term : Term} {tokens : List Token}
    (left : lhs.hasNotation = true) (small : term.oversized = false)
    (negative : term.negative = true)
    (written : (compound lhs op (leaf term)).tokens? = .ok tokens) (rest : List Token) :
    empty.run (tokens ++ rest) = .error .consecutiveMathOperators := by
  obtain ⟨before, behind, writtenLeft, writtenTerm, rfl⟩ := tokens?_compound_leaf written
  obtain ⟨value, signed⟩ := Term.tokens?_of_negative small negative
  cases writtenTerm.symm.trans signed
  obtain ⟨acc, _, reads, holds⟩ :=
    run_of_hasNotation left writtenLeft (.operator op :: .operator .sub :: .number value :: rest)
  have sign : ∀ policy, (Token.operator .sub :: .number value :: rest).head? ≠
      some (.drop policy) := by simp
  have number : ∀ policy, (Token.number value :: rest).head? ≠ some (.drop policy) := by simp
  obtain ⟨next, readsOperator, settled, pending⟩ := run_operator_of_holds holds op sign
  rw [List.append_assoc]
  calc
    empty.run (before ++ .operator op :: .operator .sub :: .number value :: rest)
      = next.run (.operator .sub :: .number value :: rest) := reads.trans readsOperator
    _ = .error .consecutiveMathOperators :=
      run_operator_of_settled settled (by simp [pending]) .sub number

/-- The sign of the first negative constant meets the operator before it, or the one
behind it when that constant is the first term. -/
theorem run_of_negative {lhs : Expr} {op : Operator} {term : Term} {tokens : List Token}
    (nested : lhs.LeftNested) (small : ∀ other ∈ lhs.leaves ++ [term], other.oversized = false)
    (negative : ∃ other ∈ lhs.leaves ++ [term], other.negative = true)
    (written : (compound lhs op (leaf term)).tokens? = .ok tokens) (rest : List Token) :
    empty.run (tokens ++ rest) = .error .consecutiveMathOperators := by
  induction lhs generalizing op term tokens rest with
  | leaf first =>
      obtain ⟨before, behind, writtenLeft, writtenTerm, rfl⟩ := tokens?_compound_leaf written
      have smallFirst : first.oversized = false := small first (by simp)
      have smallLast : term.oversized = false := small term (by simp)
      cases sign : first.negative with
      | true =>
          obtain ⟨value, signed⟩ := Term.tokens?_of_negative smallFirst sign
          cases writtenLeft.symm.trans signed
          obtain ⟨token, tail, begins, differs⟩ := Term.exists_tokens? smallLast
          cases writtenTerm.symm.trans begins
          have plain : ∀ policy, (token :: tail ++ rest).head? ≠ some (.drop policy) := by
            simpa using differs
          exact (run_sign value _).trans (run_operator_of_sign value op plain)
      | false =>
          have last : term.negative = true := by simpa [sign] using negative
          have left : (leaf first).hasNotation = true :=
            Term.hasNotation_iff.mpr ⟨smallFirst, sign⟩
          exact run_of_last_negative left smallLast last written rest
  | compound l inner r left _ =>
      cases r with
      | compound _ _ _ => cases nested
      | leaf second =>
          obtain ⟨before, behind, writtenLeft, writtenTerm, rfl⟩ := tokens?_compound_leaf written
          have smallLeft : ∀ other ∈ l.leaves ++ [second], other.oversized = false :=
            fun other member => small other (List.mem_append_left _ member)
          by_cases inside : ∃ other ∈ l.leaves ++ [second], other.negative = true
          · rw [List.append_assoc]
            exact left nested smallLeft inside writtenLeft _
          · have last : term.negative = true := by
              obtain ⟨other, member, sign⟩ := negative
              rcases List.mem_append.mp member with member | member
              · exact absurd ⟨other, member, sign⟩ inside
              · exact List.mem_singleton.mp member ▸ sign
            refine run_of_last_negative ((hasNotation_iff _).mpr ⟨nested, ?_⟩)
              (small term (by simp)) last written rest
            intro other member
            exact Term.hasNotation_iff.mpr ⟨smallLeft other member,
              eq_false_of_ne_true fun sign => inside ⟨other, member, sign⟩⟩

theorem parse_leaf_of_negative {term : Term} (small : term.oversized = false)
    (negative : term.negative = true) :
    parse? (leaf term).text = .error .missingExpression := by
  obtain ⟨value, signed⟩ := Term.tokens?_of_negative small negative
  rw [parse_text_eq, tokens?, signed]
  rfl

theorem parse_compound_of_negative {lhs rhs : Expr} {op : Operator}
    (small : ∀ term ∈ (compound lhs op rhs).leaves, term.oversized = false)
    (negative : ∃ term ∈ (compound lhs op rhs).leaves, term.negative = true) :
    parse? (compound lhs op rhs).text = .error .consecutiveMathOperators := by
  have nested := leftNested_leftNested (compound lhs op rhs)
  rw [← leaves_leftNested] at small negative
  have operators := operators_leftNested (compound lhs op rhs)
  rw [← text_leftNested, parse_text_eq]
  generalize (compound lhs op rhs).leftNested = shape at *
  cases shape with
  | leaf term => simp [Expr.operators] at operators
  | compound l inner r =>
      cases r with
      | compound _ _ _ => cases nested
      | leaf last =>
          obtain ⟨tokens, written⟩ := exists_tokens? (List.find?_eq_none.mpr fun term member => by
            simpa using small term member)
          have inner : l.LeftNested := nested
          have refused := run_of_negative inner small negative written []
          rw [List.append_nil] at refused
          rw [written, Outcome.ok_bind, ofTokens?, refused]
          rfl

theorem parse_text {expr : Expr} (h : expr.hasNotation = true) :
    parse? expr.text = .ok (some expr) := by
  obtain ⟨tokens, written, spelled⟩ := ofExpr_tokens h
  rw [parse_text_eq, written]
  exact ofTokens?_of_spelled spelled

theorem hasNotation_of_parse {text : String} {expr : Expr}
    (h : parse? text = .ok (some expr)) : expr.hasNotation = true := by
  obtain ⟨tokens, _, reads⟩ := Outcome.bind_eq_ok_iff.mp h
  rcases ofTokens?_sound reads with ⟨_, impossible⟩ | ⟨_, spelled, same⟩
  · cases impossible
  · cases same
    exact hasNotation_of_spelled spelled

theorem parse_text_of_hasNotation {expr : Expr}
    (h : ∀ term ∈ expr.leaves, term.hasNotation = true) :
    parse? expr.text = .ok (some expr.leftNested) := by
  rw [← text_leftNested]
  apply parse_text
  exact (hasNotation_iff _).mpr ⟨expr.leftNested_leftNested, by rwa [leaves_leftNested]⟩

/-- The first constant that is too large decides.  Without one, a negative constant leaves
an operator without an operand.  Every other tree is read as the left-nested one with the
same terms and operators in order. -/
theorem parse_text_of_leaves (expr : Expr) :
    (∀ value, expr.leaves.find? Term.oversized = some (.const value) →
      parse? expr.text = .error (.numberOutOfRange (toString value.toInt.natAbs))) ∧
    ((∀ term ∈ expr.leaves, term.oversized = false) →
      (∃ term ∈ expr.leaves, term.negative = true) →
        parse? expr.text = .error
          (match expr with
            | leaf _ => .missingExpression
            | compound _ _ _ => .consecutiveMathOperators)) ∧
    ((∀ term ∈ expr.leaves, term.oversized = false) →
      (∀ term ∈ expr.leaves, term.negative = false) →
        ∃ nested : Expr, parse? expr.text = .ok (some nested) ∧ nested.LeftNested ∧
          nested.leaves = expr.leaves ∧ nested.operators = expr.operators) := by
  refine ⟨?_, ?_, ?_⟩
  · intro value found
    rw [parse_text_eq, tokens?_of_oversized found]
    rfl
  · intro small negative
    cases expr with
    | leaf term =>
        exact parse_leaf_of_negative (small term (by simp)) (by simpa using negative)
    | compound lhs op rhs => exact parse_compound_of_negative small negative
  · intro small positive
    refine ⟨expr.leftNested, parse_text_of_hasNotation ?_, expr.leftNested_leftNested,
      expr.leaves_leftNested, expr.operators_leftNested⟩
    exact fun term member => Term.hasNotation_iff.mpr ⟨small term member, positive term member⟩

theorem parse_text_of_leaves_right_nested :
    let large := compound (.const (-1)) .sub (compound (.const Int64.minValue) .add (.const 2))
    let signed := compound (.const 3) .mul (compound (.const 6) .div (.const (-2)))
    let plain := compound (.const 3) .mul (compound (.const 6) .div (.const 2))
    (large.leaves.find? Term.oversized = some (.const Int64.minValue) ∧
      parse? large.text = .error (.numberOutOfRange "9223372036854775808")) ∧
    ((∀ term ∈ signed.leaves, term.oversized = false) ∧
      (∃ term ∈ signed.leaves, term.negative = true) ∧
      parse? signed.text = .error .consecutiveMathOperators) ∧
    parse? (Expr.const (-3)).text = .error .missingExpression ∧
    (∀ term ∈ plain.leaves, term.oversized = false) ∧
    (∀ term ∈ plain.leaves, term.negative = false) ∧
    ∃ nested : Expr, parse? plain.text = .ok (some nested) ∧ nested.LeftNested ∧
      nested.leaves = plain.leaves ∧ nested.operators = plain.operators := by
  refine ⟨⟨by decide, ?_⟩, ⟨by decide, by decide, ?_⟩, ?_, by decide, by decide, ?_⟩
  · exact (parse_text_of_leaves _).1 Int64.minValue (by decide)
  · exact (parse_text_of_leaves _).2.1 (by decide) (by decide)
  · exact (parse_text_of_leaves (.const (-3))).2.1 (by decide) (by decide)
  · exact (parse_text_of_leaves _).2.2 (by decide) (by decide)

end Expr

theorem Term.const_bounds {value : Int64} (h : (const value).hasNotation = true) :
    0 ≤ value.toInt ∧ value.toInt ≤ 4294967295 := by
  simp only [hasNotation, Bool.and_eq_true, decide_eq_true_eq] at h
  exact h

namespace Expr

variable {text : String} {expr tree : Expr}

theorem eq_of_text_eq (written : expr.hasNotation = true) (writtenTree : tree.hasNotation = true)
    (same : expr.text = tree.text) : expr = tree := by
  have reread := parse_text written
  rw [same, parse_text writtenTree] at reread
  cases reread
  rfl

/-- A tree that was read has a notation and is read back from it, and it is the only one with
this canonical text. -/
theorem canonical_of_parse (h : parse? text = .ok (some expr)) :
    expr.hasNotation = true ∧
    (∀ node ∈ expr.compounds, ∃ term, node.rhs = leaf term) ∧
    (∀ value, .const value ∈ expr.leaves → 0 ≤ value.toInt ∧ value.toInt ≤ 4294967295) ∧
    (∀ dice, .dice dice ∈ expr.leaves → 1 ≤ dice.pool.count ∧ dice.pool.count ≤ 1000) ∧
    parse? expr.text = .ok (some expr) ∧
    ∀ other tree, parse? other = .ok (some tree) → (expr = tree ↔ expr.text = tree.text) := by
  have written := hasNotation_of_parse h
  have leaves := ((hasNotation_iff expr).mp written).2
  refine ⟨written, ?_, ?_, ?_, parse_text written, ?_⟩
  · intro node member
    obtain ⟨term, single, _⟩ := rhs_of_hasNotation written member
    exact ⟨term, single⟩
  · exact fun value member => Term.const_bounds (leaves _ member)
  · exact fun dice _ => ⟨dice.pool.count_pos, dice.pool.count_le⟩
  · intro other tree read
    exact ⟨congrArg Expr.text, eq_of_text_eq written (hasNotation_of_parse read)⟩

theorem canonical_of_parse_spellings :
    let product := compound (.dropping ⟨.d6, 4, by decide, by decide⟩ .lowest) .mul
      (.dice ⟨.d100, 1, by decide, by decide⟩)
    let sum := compound (.const 4) .add (.const 6)
    parse? " 04 D6 -L * 1%" = .ok (some product) ∧ product.hasNotation = true ∧
      product.text = "4d6-Lxd%" ∧ parse? "4d6-Lxd%" = .ok (some product) ∧
      parse? "4d6-Lx1d100" = .ok (some product) ∧ parse? "4+06" = .ok (some sum) ∧
      (product = sum ↔ product.text = sum.text) := by
  intro product sum
  have spaced : parse? " 04 D6 -L * 1%" = .ok (some product) := by decide
  have other : parse? "4+06" = .ok (some sum) := by decide
  obtain ⟨written, _, _, _, reread, unique⟩ := canonical_of_parse spaced
  exact ⟨spaced, written, rfl, reread, by decide, other, unique _ _ other⟩

end Expr

end DiceNotation
