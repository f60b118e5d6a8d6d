import DiceNotation.Json.Shape
import DiceNotation.Proofs.Json
import DiceNotation.Proofs.Json.Shape
import DiceNotation.Proofs.Reread
import DiceNotation.Templates
import Mathlib.Data.List.TakeWhile

namespace DiceNotation

theorem Expr.parse_eq_ok_iff {text : String} {expr : Expr} :
    Expr.parse text = .ok expr ↔ Expr.parse? text = .ok (some expr) := by
  unfold Expr.parse
  cases Expr.parse? text with
  | error error => simp
  | ok tree? => cases tree? <;> simp

namespace Json

variable {source : Json} {expr : Expr}

theorem readDice_natural (n : Nat) :
    (Json.number (.natural n)).readDice = .ok expr ↔
      (n : Int) ≤ maxInteger ∧ expr = .const (Int64.ofNat n) := by
  unfold readDice
  simp only [offered, Outcome.ok_bind, Expr.ofOffered]
  by_cases small : (n : Int) ≤ maxInteger
  · simp [small, eq_comm]
  · simp [small]

theorem readDice_string (text : String) :
    (Json.string text).readDice = .ok expr ↔ Expr.parse text = .ok expr := by
  unfold readDice
  simp only [offered, Outcome.ok_bind, Expr.ofOffered]
  cases Expr.parse text <;> simp

theorem readDice_eq_ok_iff :
    source.readDice = .ok expr ↔
      (∃ n : Nat, source = .number (.natural n) ∧ (n : Int) ≤ maxInteger ∧
        expr = .const (Int64.ofNat n)) ∨
      ∃ text, source = .string text ∧ Expr.parse text = .ok expr := by
  cases source with
  | number n =>
      cases n with
      | natural n => simp [readDice_natural]
      | negative n => simp [readDice, offered, Expr.ofOffered]
      | float x => simp [readDice, offered, Expr.ofOffered]
  | string text => simp [readDice_string]
  | _ => simp [readDice, offered, Expr.ofOffered]

/-- What a field holds lacks a notation only if it is a number of more than 32 bits. -/
theorem hasNotation_of_readDice (read : source.readDice = .ok expr) :
    expr.hasNotation = false ↔ ∃ n > maxNumber, source = .number (.natural n) := by
  rcases readDice_eq_ok_iff.mp read with ⟨n, rfl, small, rfl⟩ | ⟨text, rfl, parsed⟩
  · have exact : (Int64.ofNat n).toInt = n := by
      unfold maxInteger at small
      exact Int64.toInt_ofNat_of_lt (by omega)
    have written : (Expr.const (Int64.ofNat n)).hasNotation = true ↔ n ≤ maxNumber := by
      simp [Term.hasNotation, exact]
    rw [← Bool.not_eq_true, written]
    simp
  · simp [Expr.hasNotation_of_parse (Expr.parse_eq_ok_iff.mp parsed)]

theorem readDice_null : Json.null.readDice ≠ .ok expr := by
  intro read
  cases read

theorem readOptionalDice_of_ne_null (given : source ≠ .null) :
    source.readOptionalDice = source.readDice.map some := by
  cases source with
  | null => exact absurd rfl given
  | _ => rfl

end Json

theorem Expr.toJson_eq_ok_iff {expr : Expr} {doc : Json} :
    expr.toJson = .ok doc ↔ expr.hasNotation = true ∧ doc = .string expr.text := by
  unfold Expr.toJson Expr.fieldText
  split
  · next written => simp [written, eq_comm]
  · next lacking => simp [lacking]

theorem Expr.readDice_toJson {expr : Expr} {doc : Json} (written : expr.toJson = .ok doc) :
    doc.readDice = .ok expr := by
  obtain ⟨writable, rfl⟩ := Expr.toJson_eq_ok_iff.mp written
  exact (Json.readDice_string _).mpr (Expr.parse_eq_ok_iff.mpr (Expr.parse_text writable))

theorem head?_toDigits_ne_zero {n : Nat} (positive : 0 < n) :
    (Nat.toDigits 10 n).head? ≠ some '0' := by
  induction n using Nat.strongRecOn with
  | ind n ih =>
      rw [Nat.toDigits_eq_if (by decide)]
      split
      · next small =>
          have digits : ∀ n < 10, 0 < n → Nat.digitChar n ≠ '0' := by decide
          simpa using digits n small positive
      · rw [List.head?_append_of_ne_nil _ Nat.toDigits_ne_nil]
        exact ih (n / 10) (by omega) (by omega)

theorem toDigits_ne_zero_cons (n : Nat) (c : Char) (cs : List Char) :
    Nat.toDigits 10 n ≠ '0' :: c :: cs := by
  intro same
  cases n with
  | zero => cases same
  | succ n => exact head?_toDigits_ne_zero n.succ_pos (congrArg List.head? same)

namespace Json

theorem readValue_digit {c : Char} (digit : c.isDigit = true) (fuel : Nat) (cs : List Char) :
    readValue (fuel + 1) (c :: cs) = readNumber false (c :: cs) := by
  have other {d : Char} (letter : d.isDigit = false) : c ≠ d := by
    rintro rfl
    cases digit.symm.trans letter
  have visible : isSpace c = false := by
    simp only [isSpace, Bool.or_eq_false_iff, beq_eq_false_iff_ne]
    exact ⟨⟨⟨other rfl, other rfl⟩, other rfl⟩, other rfl⟩
  rw [readValue, skipSpace_cons visible]
  simp only [if_neg (other (d := 'n') rfl), if_neg (other (d := 't') rfl),
    if_neg (other (d := 'f') rfl), if_neg (other (d := '-') rfl), if_pos digit]

theorem readNumber_toDigits (n : Nat) :
    readNumber false (Nat.toDigits 10 n) =
      (ofNumber? (JsonNumber.integer? false (Nat.toDigits 10 n)), []) := by
  have digits : ∀ c ∈ Nat.toDigits 10 n, c.isDigit = true :=
    fun c => Nat.isDigit_of_mem_toDigits (by decide) (by decide)
  have all : (Nat.toDigits 10 n).takeWhile Char.isDigit = Nat.toDigits 10 n :=
    List.takeWhile_eq_self_iff.mpr digits
  have none : (Nat.toDigits 10 n).dropWhile Char.isDigit = [] :=
    List.dropWhile_eq_nil_iff.mpr digits
  rw [readNumber, all, none]
  split
  · next empty => exact absurd empty Nat.toDigits_ne_nil
  · next zeros => exact absurd zeros (toDigits_ne_zero_cons n _ _)
  · rfl

theorem read_toString (n : Nat) :
    Json.read (toString n) =
      (ofNumber? (JsonNumber.integer? false (Nat.toDigits 10 n)), true) := by
  have text : (toString n).toList = Nat.toDigits 10 n := by
    rw [Nat.toString_eq_repr, Nat.toList_repr]
  obtain ⟨c, cs, same⟩ := List.exists_cons_of_ne_nil (Nat.toDigits_ne_nil (b := 10) (n := n))
  have digit : c.isDigit = true :=
    Nat.isDigit_of_mem_toDigits (by decide) (by decide) (same ▸ List.mem_cons_self)
  have value := readValue_digit digit (2 * (c :: cs).length + 1) cs
  rw [← same, readNumber_toDigits] at value
  simp only [Json.read, text, value]
  rfl

variable {expr : Expr}

theorem readDice_float? (negative : Bool) (whole fraction : List Char) (exponent : Int) :
    (ofNumber? (JsonNumber.float? negative whole fraction exponent)).readDice ≠ .ok expr := by
  have refused (x? : Option Binary64) (signed : Binary64 → Binary64) :
      (ofNumber? (x?.map fun x => .float (signed x))).readDice ≠ .ok expr := by
    intro read
    cases x? <;> cases read
  exact refused _ _

theorem readDice_integer? (n : Nat) :
    (ofNumber? (JsonNumber.integer? false (Nat.toDigits 10 n))).readDice = .ok expr ↔
      (n : Int) ≤ maxInteger ∧ expr = .const (Int64.ofNat n) := by
  unfold JsonNumber.integer?
  rw [Nat.ofDigitChars_ten_toDigits]
  by_cases large : maxWord < n
  · have beyond : ¬ (n : Int) ≤ maxInteger := by
      unfold maxWord at large
      unfold maxInteger
      omega
    rw [if_pos large]
    exact iff_of_false (readDice_float? _ _ _ _) fun bounds => beyond bounds.1
  · simp [large, ofNumber?, readDice_natural]

theorem readWhole_toString {n : Nat} :
    Json.readWhole readDice (toString n) = .ok expr ↔
      (n : Int) ≤ maxInteger ∧ expr = .const (Int64.ofNat n) := by
  rw [readWhole_eq_ok_iff, read_toString, readDice_integer?, and_iff_left rfl]

theorem readWhole_string {s : String} :
    Json.readWhole readDice (Json.string s).text = .ok expr ↔ Expr.parse s = .ok expr := by
  have plain : (Json.string s).Plain := trivial
  rw [readWhole_eq_ok_iff, read_text plain, readDice_string, and_iff_left rfl]

end Json

theorem Expr.parse_toString {n : Nat} {expr : Expr} :
    Expr.parse (toString n) = .ok expr ↔ n ≤ maxNumber ∧ expr = .const (Int64.ofNat n) := by
  have written (small : n ≤ maxNumber) :
      Expr.parse? (toString n) = .ok (some (.const (Int64.ofNat n))) := by
    have exact : (Int64.ofNat n).toInt = n := by
      unfold maxNumber at small
      exact Int64.toInt_ofNat_of_lt (by omega)
    have text : (Expr.const (Int64.ofNat n)).text = toString n := by
      rw [Expr.text_leaf, Term.text, exact]
      rfl
    rw [← text]
    refine Expr.parse_text ?_
    simp [Term.hasNotation, exact, small]
  rw [Expr.parse_eq_ok_iff]
  constructor
  · intro parsed
    by_cases small : n ≤ maxNumber
    · rw [written small] at parsed
      cases parsed
      exact ⟨small, rfl⟩
    · rw [Expr.parse?, tokenize_toString_nat, if_neg small] at parsed
      cases parsed
  · rintro ⟨small, rfl⟩
    exact written small

/-- A dice field is read exactly from the natural numbers of 63 bits and from notation.  It is
written exactly if it has a notation, and read back.  A raw number and a string of its digits
agree exactly up to the largest number of notation. -/
theorem Expr.field_codec :
    (∀ (value : Json) (expr : Expr), value.readDice = .ok expr ↔
      (∃ n : Nat, value = .number (.natural n) ∧ n ≤ 9223372036854775807 ∧
        expr = .const (Int64.ofNat n)) ∨
      ∃ text, value = .string text ∧ Expr.parse? text = .ok (some expr)) ∧
    (∀ expr : Expr, ((∃ doc, expr.toJson = .ok doc) ↔ expr.hasNotation = true) ∧
      ∀ doc, expr.toJson = .ok doc → Json.readWhole Json.readDice doc.text = .ok expr) ∧
    ∀ n : Nat, (∃ expr, Json.readWhole Json.readDice (toString n) = .ok expr ∧
      Json.readWhole Json.readDice (Json.string (toString n)).text = .ok expr) ↔
        n ≤ 4294967295 := by
  have fits (n : Nat) : (n : Int) ≤ maxInteger ↔ n ≤ 9223372036854775807 := by
    unfold maxInteger
    omega
  refine ⟨?_, ?_, ?_⟩
  · intro value expr
    rw [Json.readDice_eq_ok_iff]
    simp only [fits, Expr.parse_eq_ok_iff]
  · intro expr
    refine ⟨⟨?_, ?_⟩, ?_⟩
    · rintro ⟨doc, written⟩
      exact (Expr.toJson_eq_ok_iff.mp written).1
    · exact fun written => ⟨_, Expr.toJson_eq_ok_iff.mpr ⟨written, rfl⟩⟩
    · intro doc written
      obtain ⟨writable, rfl⟩ := Expr.toJson_eq_ok_iff.mp written
      rw [Json.readWhole_string, Expr.parse_eq_ok_iff]
      exact Expr.parse_text writable
  · intro n
    simp only [Json.readWhole_toString, Json.readWhole_string, Expr.parse_toString, fits]
    constructor
    · rintro ⟨expr, _, small, _⟩
      exact small
    · intro small
      exact ⟨_, ⟨Nat.le_trans small (by decide), rfl⟩, small, rfl⟩

theorem Expr.field_codec_between_bounds :
    let dropping := Expr.dropping ⟨.d6, 4, by decide, by decide⟩ .lowest
    (∀ expr, (Json.read "5.0").1.readDice ≠ .ok expr) ∧
    (∀ expr, (Json.read "-0").1.readDice ≠ .ok expr) ∧
    (Json.number (.natural 5000000000)).readDice = .ok (.const 5000000000) ∧
    (¬ ∃ expr, Json.readWhole Json.readDice (toString 5000000000) = .ok expr ∧
      Json.readWhole Json.readDice (Json.string (toString 5000000000)).text = .ok expr) ∧
    dropping.toJson = .ok (.string "4d6-L") ∧
      Json.readWhole Json.readDice (Json.string "4d6-L").text = .ok dropping := by
  intro dropping
  obtain ⟨decoded, encoded, digits⟩ := Expr.field_codec
  have refused {value : Json} (float : ∃ x, value = .number (.float x)) :
      ∀ expr, value.readDice ≠ .ok expr := by
    rintro expr read
    obtain ⟨x, rfl⟩ := float
    rcases (decoded _ _).mp read with ⟨n, natural, _⟩ | ⟨text, string, _⟩
    · cases natural
    · cases string
  refine ⟨refused ⟨_, rfl⟩, refused ⟨_, rfl⟩, ?_, ?_, rfl, ?_⟩
  · exact (decoded _ _).mpr (.inl ⟨5000000000, rfl, by decide, rfl⟩)
  · exact fun agree => absurd ((digits 5000000000).mp agree) (by decide)
  · exact (encoded dropping).2 _ rfl

end DiceNotation
