import DiceNotation.Notation
import DiceNotation.Proofs.Accumulator
import DiceNotation.Proofs.Lexeme

namespace DiceNotation

def Die.tokens : Die → List Token
  | .d100 => [.die, .percentile]
  | die => [.die, .number (UInt32.ofNat die.sides)]

def Pool.tokens (pool : Pool) : List Token :=
  if pool.count = 1 then pool.die.tokens
  else .number (UInt32.ofNat pool.count) :: pool.die.tokens

def DiceTerm.tokens (dice : DiceTerm) : List Token :=
  match dice.drop? with
  | none => dice.pool.tokens
  | some policy => dice.pool.tokens ++ [.operator .sub, .drop policy]

def Token.ofInt? (value : Int) : Except NotationError (List Token) :=
  if value.natAbs ≤ maxNumber then
    .ok ((if value < 0 then [.operator .sub] else []) ++
      [.number (UInt32.ofNat value.natAbs)])
  else .error (.numberOutOfRange (toString value.natAbs))

def Term.tokens? : Term → Except NotationError (List Token)
  | .const value => Token.ofInt? value.toInt
  | .dice d => .ok d.tokens

/-- The tokens that are written for an expression, or its first oversized number. -/
def Expr.tokens? : Expr → Except NotationError (List Token)
  | .leaf term => term.tokens?
  | .compound lhs op rhs => do
      let tokens ← lhs.tokens?
      let others ← rhs.tokens?
      return tokens ++ .operator op :: others

theorem tokenize_append_of_head {a b : String} (h : ∀ d ∈ b.toList.head?, d.isDigit = false) :
    tokenize (a ++ b) = (do
      let tokens ← tokenize a
      let others ← tokenize b
      return tokens ++ others) :=
  tokenize_append (.of_head h)

theorem tokenize_append_of_last {a b : String}
    (h : ∀ c ∈ a.toList.getLast?, c.isDigit = false) :
    tokenize (a ++ b) = (do
      let tokens ← tokenize a
      let others ← tokenize b
      return tokens ++ others) :=
  tokenize_append (.of_last h)

theorem Die.tokenize_text (die : Die) : tokenize die.text = .ok die.tokens := by
  cases die <;> rfl

theorem Die.head_text (die : Die) : ∀ d ∈ die.text.toList.head?, d.isDigit = false := by
  cases die <;> simp [Die.text]

theorem Pool.tokenize_text (pool : Pool) : tokenize pool.text = .ok pool.tokens := by
  unfold Pool.text Pool.tokens
  split
  · exact pool.die.tokenize_text
  · have small : pool.count ≤ maxNumber := Nat.le_trans pool.count_le (by decide)
    rw [tokenize_append_of_head pool.die.head_text, tokenize_toString_nat, if_pos small,
      pool.die.tokenize_text]
    rfl

theorem DiceTerm.tokenize_text (dice : DiceTerm) : tokenize dice.text = .ok dice.tokens := by
  unfold DiceTerm.text DiceTerm.tokens
  cases dice.drop? with
  | none => exact dice.pool.tokenize_text
  | some policy =>
      have marker : tokenize ("-" ++ policy.text) = .ok [.operator .sub, .drop policy] := by
        cases policy <;> rfl
      have head : ∀ d ∈ ("-" ++ policy.text).toList.head?, d.isDigit = false := by
        simp [String.toList_append]
      simp only [String.append_assoc]
      rw [tokenize_append_of_head head, dice.pool.tokenize_text, marker]
      rfl

theorem tokenize_toString_int (value : Int) : tokenize (toString value) = Token.ofInt? value := by
  unfold Token.ofInt?
  cases value with
  | ofNat n =>
      have text : toString (Int.ofNat n) = toString n := rfl
      have positive : ¬ Int.ofNat n < 0 := by simp
      rw [text, tokenize_toString_nat, if_neg positive]
      rfl
  | negSucc n =>
      have text : toString (Int.negSucc n) = "-" ++ toString (n + 1) := rfl
      have sign : tokenize "-" = .ok [.operator .sub] := rfl
      have last : ∀ c ∈ ("-" : String).toList.getLast?, c.isDigit = false := by simp
      rw [text, tokenize_append_of_last last, sign, tokenize_toString_nat, Int.natAbs_negSucc,
        if_pos (Int.negSucc_lt_zero n)]
      split <;> rfl

theorem Term.tokenize_text (term : Term) : tokenize term.text = term.tokens? := by
  cases term with
  | const value => exact tokenize_toString_int value.toInt
  | dice d => exact d.tokenize_text

theorem Operator.tokenize_text (op : Operator) : tokenize op.text = .ok [.operator op] := by
  cases op <;> rfl

theorem Expr.tokenize_text (expr : Expr) : tokenize expr.text = expr.tokens? := by
  induction expr with
  | leaf term => exact term.tokenize_text
  | compound lhs op rhs left right =>
      have head : ∀ d ∈ op.text.toList.head?, d.isDigit = false := by
        cases op <;> simp [Operator.text]
      have last : ∀ c ∈ (lhs.text ++ op.text).toList.getLast?, c.isDigit = false := by
        cases op <;> simp [Operator.text, String.toList_append]
      rw [Expr.text_compound, tokenize_append_of_last last, tokenize_append_of_head head,
        left, right, op.tokenize_text, Expr.tokens?]
      cases lhs.tokens? with
      | error error => rfl
      | ok tokens => cases rhs.tokens? <;> simp

open Spelling

theorem Die.ofDie_tokens (die : Die) : OfDie die.tokens die := by
  cases die with
  | d100 => exact .marked .percentile
  | _ => exact .marked (.number rfl)

theorem Pool.ofPool_tokens (pool : Pool) : OfPool pool.tokens pool := by
  unfold Pool.tokens
  split
  · next one => exact .single pool.die.ofDie_tokens one
  · have small : pool.count < UInt32.size := Nat.lt_of_le_of_lt pool.count_le (by decide)
    exact .counted pool.die.ofDie_tokens (UInt32.toNat_ofNat_of_lt small)

theorem toInt_ofNat_toNat (value : UInt32) :
    (Int64.ofNat value.toNat).toInt = value.toNat :=
  Int64.toInt_ofNat_of_lt (Nat.lt_trans value.toNat_lt (by decide))

theorem Term.ofTerm_tokens {term : Term} (h : term.hasNotation = true) :
    ∃ tokens, term.tokens? = .ok tokens ∧ OfTerm tokens term := by
  cases term with
  | const value =>
      simp only [Term.hasNotation, Bool.and_eq_true, decide_eq_true_eq] at h
      obtain ⟨positive, small⟩ := h
      have bounded : value.toInt.natAbs ≤ maxNumber := by omega
      have exact : (UInt32.ofNat value.toInt.natAbs).toNat = value.toInt.natAbs :=
        UInt32.toNat_ofNat_of_lt (Nat.lt_of_le_of_lt bounded (by decide))
      refine ⟨[.number (UInt32.ofNat value.toInt.natAbs)], ?_, ?_⟩
      · rw [Term.tokens?, Token.ofInt?, if_pos bounded, if_neg (by omega)]
        rfl
      · have same : value = Int64.ofNat (UInt32.ofNat value.toInt.natAbs).toNat := by
          apply Int64.toInt.inj
          rw [toInt_ofNat_toNat, exact]
          omega
        have spelled := OfTerm.number (UInt32.ofNat value.toInt.natAbs)
        rwa [← same] at spelled
  | dice d =>
      obtain ⟨pool, drop?⟩ := d
      cases drop? with
      | none => exact ⟨_, rfl, .plain pool.ofPool_tokens⟩
      | some policy => exact ⟨_, rfl, .dropping pool.ofPool_tokens policy⟩

theorem Expr.ofExpr_tokens {expr : Expr} (h : expr.hasNotation = true) :
    ∃ tokens, expr.tokens? = .ok tokens ∧ OfExpr tokens expr := by
  induction expr with
  | leaf term =>
      obtain ⟨tokens, written, spelled⟩ := Term.ofTerm_tokens h
      exact ⟨tokens, written, .leaf spelled⟩
  | compound lhs op rhs left right =>
      cases rhs with
      | compound l inner r => cases h
      | leaf term =>
          rw [Expr.hasNotation_compound_leaf, Bool.and_eq_true] at h
          obtain ⟨tokens, written, spelled⟩ := left h.1
          obtain ⟨others, writtenTerm, spelledTerm⟩ := Term.ofTerm_tokens h.2
          refine ⟨tokens ++ .operator op :: others, ?_, spelled.compound op spelledTerm⟩
          simp [Expr.tokens?, written, writtenTerm]

theorem Term.hasNotation_of_spelled {tokens : List Token} {term : Term}
    (spelled : OfTerm tokens term) : term.hasNotation = true := by
  cases spelled with
  | number value =>
      have bounded : value.toNat ≤ maxNumber := Nat.le_of_lt_succ value.toNat_lt
      simp only [Term.hasNotation, toInt_ofNat_toNat, Bool.and_eq_true, decide_eq_true_eq]
      omega
  | plain _ => rfl
  | dropping _ _ => rfl

theorem Expr.hasNotation_chain {tokens : List Token} {rest : List (Operator × Term)}
    {lhs : Expr} (left : lhs.hasNotation = true) (spelled : OfRest tokens rest) :
    (lhs.chain rest).hasNotation = true := by
  induction spelled generalizing lhs with
  | nil => exact left
  | cons op head _ ih =>
      apply ih
      rw [Expr.hasNotation_compound_leaf, left, Term.hasNotation_of_spelled head]
      rfl

theorem Expr.hasNotation_of_spelled {tokens : List Token} {expr : Expr}
    (spelled : OfExpr tokens expr) : expr.hasNotation = true := by
  cases spelled with
  | chain head tail => exact Expr.hasNotation_chain (Term.hasNotation_of_spelled head) tail

/-- Reading the text of an expression gives it back exactly when it has a notation. -/
theorem Expr.hasNotation_iff_parse_text (expr : Expr) :
    expr.hasNotation = true ↔ Expr.parse? expr.text = .ok (some expr) := by
  unfold Expr.parse?
  rw [Expr.tokenize_text]
  constructor
  · intro h
    obtain ⟨tokens, written, spelled⟩ := Expr.ofExpr_tokens h
    rw [written]
    exact Accumulator.ofTokens?_of_spelled spelled
  · intro h
    obtain ⟨tokens, _, reads⟩ := Outcome.bind_eq_ok_iff.mp h
    rcases Accumulator.ofTokens?_sound reads with ⟨_, impossible⟩ | ⟨_, spelled, same⟩
    · cases impossible
    · cases same
      exact Expr.hasNotation_of_spelled spelled

end DiceNotation
