import DiceNotation.Notation
import DiceNotation.Proofs.Lexeme
import Mathlib.Data.List.Chain
import Mathlib.Data.List.ReduceOption

namespace DiceNotation

namespace Lexeme

def IsRun : Lexeme → Prop
  | .digits _ => True
  | .single _ => False

/-- The pieces make up the text, and no run could be longer: a run has all digits that
stand together. -/
structure Cut (cs : List Char) (lexemes : List Lexeme) : Prop where
  joined : (lexemes.map chars).flatten = cs
  digits : ∀ run, .digits run ∈ lexemes → run ≠ [] ∧ ∀ c ∈ run, c.isDigit = true
  single : ∀ c, .single c ∈ lexemes → c.isDigit = false
  longest : lexemes.IsChain fun lexeme next => ¬ (lexeme.IsRun ∧ next.IsRun)

namespace Cut

variable {cs : List Char} {c : Char} {lexemes : List Lexeme}

theorem nil : Cut [] [] := ⟨rfl, by simp, by simp, .nil⟩

theorem tail {lexeme : Lexeme} (cut : Cut cs (lexeme :: lexemes)) :
    Cut (lexemes.map chars).flatten lexemes where
  joined := rfl
  digits := fun run member => cut.digits run (List.mem_cons_of_mem _ member)
  single := fun c member => cut.single c (List.mem_cons_of_mem _ member)
  longest := cut.longest.tail

theorem cons_single (cut : Cut cs lexemes) (other : c.isDigit = false) :
    Cut (c :: cs) (.single c :: lexemes) where
  joined := by simp [chars, cut.joined]
  digits := by simpa using cut.digits
  single := by simpa [other] using cut.single
  longest := by
    cases lexemes with
    | nil => exact .singleton _
    | cons lexeme rest => exact .cons_cons (by simp [IsRun]) cut.longest

theorem cons_digit (cut : Cut cs lexemes) (digit : c.isDigit = true) :
    Cut (c :: cs) (consDigit c lexemes) where
  joined := by rw [flatten_consDigit, cut.joined]
  digits := by
    cases lexemes with
    | nil => simp [consDigit, digit]
    | cons lexeme rest =>
        cases lexeme with
        | single d => simpa [consDigit, digit] using cut.digits
        | digits run =>
            have known := cut.digits
            simp only [List.mem_cons] at known
            simpa [consDigit, digit] using
              ⟨(known run (.inl rfl)).2, fun run member => known run (.inr member)⟩
  single := by
    cases lexemes with
    | nil => simp [consDigit]
    | cons lexeme rest => cases lexeme <;> simpa [consDigit] using cut.single
  longest := by
    cases lexemes with
    | nil => exact .singleton _
    | cons lexeme rest =>
        cases lexeme with
        | single d => exact .cons_cons (by simp [IsRun]) cut.longest
        | digits run =>
            cases rest with
            | nil => exact .singleton _
            | cons next rest =>
                have apart := cut.longest
                rw [List.isChain_cons_cons] at apart
                exact .cons_cons apart.1 apart.2

theorem seam_of_run {run : List Char} (cut : Cut cs (.digits run :: lexemes)) :
    Seam run (lexemes.map chars).flatten := by
  apply Seam.of_head
  match lexemes with
  | [] => simp
  | .single d :: rest =>
      have other : d.isDigit = false := cut.single d (by simp)
      simpa [chars] using other
  | .digits more :: rest =>
      have apart := cut.longest
      simp [List.isChain_cons_cons, IsRun] at apart

end Cut

theorem cut_split (cs : List Char) : Cut cs (split cs) := by
  induction cs with
  | nil => exact .nil
  | cons c cs ih =>
      rw [split_cons]
      split
      · next digit => exact ih.cons_digit digit
      · next other => exact ih.cons_single (by simpa using other)

theorem eq_split_of_cut {cs : List Char} {lexemes : List Lexeme} (cut : Cut cs lexemes) :
    lexemes = split cs := by
  induction lexemes generalizing cs with
  | nil =>
      obtain rfl : [] = cs := cut.joined
      rfl
  | cons lexeme rest ih =>
      have behind := ih cut.tail
      have joined := cut.joined
      cases lexeme with
      | single c =>
          have other : c.isDigit = false := cut.single c (by simp)
          rw [← joined, List.map_cons, List.flatten_cons, chars, List.singleton_append, split_cons,
            if_neg (by simp [other]), ← behind]
      | digits run =>
          obtain ⟨nonempty, digits⟩ := cut.digits run (by simp)
          rw [← joined, List.map_cons, List.flatten_cons, chars, split_append cut.seam_of_run,
            split_of_digits digits nonempty, ← behind, List.singleton_append]

theorem cut_iff {cs : List Char} {lexemes : List Lexeme} :
    Cut cs lexemes ↔ lexemes = split cs :=
  ⟨eq_split_of_cut, fun same => same ▸ cut_split cs⟩

end Lexeme

def Token.symbols : List (Char × Token) :=
  [('+', .operator .add), ('-', .operator .sub), ('x', .operator .mul), ('*', .operator .mul),
    ('/', .operator .div), ('d', .die), ('D', .die), ('L', .drop .lowest),
    ('H', .drop .highest), ('%', .percentile)]

theorem Token.ofChar?_eq_some_iff {c : Char} {token : Token} :
    Token.ofChar? c = some token ↔ (c, token) ∈ Token.symbols := by
  unfold Token.ofChar?
  split <;> simp_all [Token.symbols, eq_comm]

theorem Token.visible_of_symbol {c : Char} {token : Token} (known : (c, token) ∈ Token.symbols) :
    isBlank c = false := by
  have visible : ∀ symbol ∈ Token.symbols, isBlank symbol.1 = false := by decide
  exact visible _ known

theorem Token.ofDigits_eq_ok_iff {run : List Char} {token : Token} :
    Token.ofDigits run = .ok token ↔
      ∃ value : UInt32, value.toNat = Nat.ofDigitChars 10 run 0 ∧ token = .number value := by
  unfold Token.ofDigits maxNumber
  by_cases small : Nat.ofDigitChars 10 run 0 ≤ 4294967295
  · simp only [small, if_true, Except.ok.injEq]
    constructor
    · rintro rfl
      exact ⟨_, UInt32.toNat_ofNat_of_lt' (by unfold UInt32.size; omega), rfl⟩
    · rintro ⟨value, denoted, rfl⟩
      rw [← denoted, UInt32.ofNat_toNat]
  · simp only [small, if_false, reduceCtorEq, false_iff]
    rintro ⟨value, denoted, _⟩
    have bound := value.toNat_lt
    omega

theorem Token.ofDigits_eq_error_iff {run : List Char} {error : NotationError} :
    Token.ofDigits run = .error error ↔
      4294967295 < Nat.ofDigitChars 10 run 0 ∧ error = .numberOutOfRange (String.ofList run) := by
  unfold Token.ofDigits maxNumber
  by_cases small : Nat.ofDigitChars 10 run 0 ≤ 4294967295
  · simp only [small, if_true, reduceCtorEq, false_iff]
    omega
  · simp only [small, if_false, Except.error.injEq]
    exact ⟨fun same => ⟨by omega, same.symm⟩, fun ⟨_, same⟩ => same.symm⟩

namespace Lexeme

/-- A run spells its value, zeros in front included, a symbol its token, and a blank no token. -/
inductive Spells : Lexeme → Option Token → Prop
  | number {run : List Char} {value : UInt32} (denoted : value.toNat = Nat.ofDigitChars 10 run 0) :
      Spells (.digits run) (some (.number value))
  | symbol {c : Char} {token : Token} (known : (c, token) ∈ Token.symbols) :
      Spells (.single c) (some token)
  | blank {c : Char} (blank : isBlank c = true) : Spells (.single c) none

/-- A run of more than 32 bits is at fault with its digits as they stand, and so is a character
that is neither a symbol nor blank. -/
inductive AtFault : Lexeme → NotationError → Prop
  | oversized {run : List Char} (large : 4294967295 < Nat.ofDigitChars 10 run 0) :
      AtFault (.digits run) (.numberOutOfRange (String.ofList run))
  | foreign {c : Char} (unknown : ∀ token, (c, token) ∉ Token.symbols)
      (visible : isBlank c = false) : AtFault (.single c) (.invalidCharacter c)

theorem token?_digits (run : List Char) :
    token? (.digits run) = (Token.ofDigits run).map some := by
  cases h : Token.ofDigits run <;> simp [token?, h, Except.map]

theorem token?_symbol {c : Char} {token : Token} (known : (c, token) ∈ Token.symbols) :
    token? (.single c) = .ok (some token) := by
  simp [token?, Token.ofChar?_eq_some_iff.mpr known]

theorem token?_other {c : Char} (unknown : ∀ token, (c, token) ∉ Token.symbols) :
    token? (.single c) = if isBlank c then .ok none else .error (.invalidCharacter c) := by
  have none : Token.ofChar? c = none := by
    rw [Option.eq_none_iff_forall_ne_some]
    exact fun token same => unknown token (Token.ofChar?_eq_some_iff.mp same)
  simp [token?, none]

theorem token?_eq_ok_iff {lexeme : Lexeme} {token? : Option Token} :
    lexeme.token? = .ok token? ↔ lexeme.Spells token? := by
  constructor
  · intro ok
    cases lexeme with
    | digits run =>
        rw [token?_digits, Outcome.map_eq_ok_iff] at ok
        obtain ⟨token, read, rfl⟩ := ok
        obtain ⟨value, denoted, rfl⟩ := Token.ofDigits_eq_ok_iff.mp read
        exact .number denoted
    | single c =>
        by_cases known : ∃ token, (c, token) ∈ Token.symbols
        · obtain ⟨token, known⟩ := known
          rw [token?_symbol known] at ok
          cases ok
          exact .symbol known
        · rw [token?_other (not_exists.mp known)] at ok
          split at ok
          · next blank =>
              cases ok
              exact .blank blank
          · cases ok
  · rintro (denoted | known | blank)
    · rw [token?_digits, Outcome.map_eq_ok_iff]
      exact ⟨_, Token.ofDigits_eq_ok_iff.mpr ⟨_, denoted, rfl⟩, rfl⟩
    · exact token?_symbol known
    · rw [token?_other, if_pos blank]
      intro token known
      rw [Token.visible_of_symbol known] at blank
      cases blank

theorem token?_eq_error_iff {lexeme : Lexeme} {error : NotationError} :
    lexeme.token? = .error error ↔ lexeme.AtFault error := by
  constructor
  · intro refused
    cases lexeme with
    | digits run =>
        rw [token?_digits, Outcome.map_eq_error_iff, Token.ofDigits_eq_error_iff] at refused
        obtain ⟨large, rfl⟩ := refused
        exact .oversized large
    | single c =>
        by_cases known : ∃ token, (c, token) ∈ Token.symbols
        · obtain ⟨token, known⟩ := known
          rw [token?_symbol known] at refused
          cases refused
        · rw [token?_other (not_exists.mp known)] at refused
          split at refused
          · cases refused
          · next visible =>
              cases refused
              exact .foreign (not_exists.mp known) (by simpa using visible)
  · rintro (large | ⟨unknown, visible⟩)
    · rw [token?_digits, Outcome.map_eq_error_iff, Token.ofDigits_eq_error_iff]
      exact ⟨large, rfl⟩
    · rw [token?_other unknown, if_neg (by simp [visible])]

end Lexeme

theorem Token.ofLexemes_eq_ok_iff {lexemes : List Lexeme} {tokens : List Token} :
    Token.ofLexemes lexemes = .ok tokens ↔
      ∃ tokens?, List.Forall₂ Lexeme.Spells lexemes tokens? ∧ tokens = tokens?.reduceOption := by
  induction lexemes generalizing tokens with
  | nil => simp [Token.ofLexemes, eq_comm]
  | cons lexeme rest ih =>
      simp only [Token.ofLexemes, Outcome.bind_eq_ok_iff, Outcome.pure_eq_ok, Except.ok.injEq,
        Lexeme.token?_eq_ok_iff, ih]
      constructor
      · rintro ⟨token?, spells, _, ⟨tokens?, others, rfl⟩, rfl⟩
        exact ⟨token? :: tokens?, .cons spells others, by cases token? <;> simp⟩
      · rintro ⟨_, spelled, rfl⟩
        obtain ⟨token?, tokens?, spells, others, rfl⟩ := List.forall₂_cons_left_iff.mp spelled
        exact ⟨token?, spells, _, ⟨tokens?, others, rfl⟩, by cases token? <;> simp⟩

theorem Token.ofLexemes_eq_error_iff {lexemes : List Lexeme} {error : NotationError} :
    Token.ofLexemes lexemes = .error error ↔
      ∃ before lexeme after, lexemes = before ++ lexeme :: after ∧
        (∀ earlier ∈ before, ∃ token?, earlier.Spells token?) ∧ lexeme.AtFault error := by
  induction lexemes with
  | nil => simp [Token.ofLexemes]
  | cons lexeme rest ih =>
      cases outcome : lexeme.token? with
      | error first =>
          simp only [Token.ofLexemes, outcome, Outcome.error_bind, Except.error.injEq]
          constructor
          · rintro rfl
            exact ⟨[], lexeme, rest, rfl, by simp, Lexeme.token?_eq_error_iff.mp outcome⟩
          · rintro ⟨before, other, after, same, earlier, fault⟩
            cases before with
            | nil =>
                cases same
                rw [Lexeme.token?_eq_error_iff.mpr fault] at outcome
                exact (Except.error.inj outcome).symm
            | cons head before =>
                cases same
                obtain ⟨token?, spells⟩ := earlier lexeme (by simp)
                rw [Lexeme.token?_eq_ok_iff.mpr spells] at outcome
                cases outcome
      | ok token? =>
          have skipped : Token.ofLexemes (lexeme :: rest) = .error error ↔
              Token.ofLexemes rest = .error error := by
            cases others : Token.ofLexemes rest <;> simp [Token.ofLexemes, outcome, others]
          have spells := Lexeme.token?_eq_ok_iff.mp outcome
          rw [skipped, ih]
          constructor
          · rintro ⟨before, other, after, rfl, earlier, fault⟩
            exact ⟨lexeme :: before, other, after, rfl,
              List.forall_mem_cons.mpr ⟨⟨token?, spells⟩, earlier⟩, fault⟩
          · rintro ⟨before, other, after, same, earlier, fault⟩
            cases before with
            | nil =>
                cases same
                rw [Lexeme.token?_eq_error_iff.mpr fault] at outcome
                cases outcome
            | cons head before =>
                cases same
                exact ⟨before, other, after, rfl, (List.forall_mem_cons.mp earlier).2, fault⟩

/-- A text has one cut into longest runs of digits and other characters.  It has tokens exactly
if every piece spells something, and then they are what the pieces spell, in order; otherwise
its fault is that of the leftmost piece that is at fault. -/
theorem tokenize_exact (text : String) :
    ∃ lexemes, (∀ others, Lexeme.Cut text.toList others ↔ others = lexemes) ∧
      ((∃ tokens, tokenize text = .ok tokens) ↔
        ∀ lexeme ∈ lexemes, ∃ token?, lexeme.Spells token?) ∧
      (∀ tokens, tokenize text = .ok tokens ↔
        ∃ tokens?, List.Forall₂ Lexeme.Spells lexemes tokens? ∧ tokens = tokens?.reduceOption) ∧
      ∀ error, tokenize text = .error error ↔
        ∃ before lexeme after, lexemes = before ++ lexeme :: after ∧
          (∀ earlier ∈ before, ∃ token?, earlier.Spells token?) ∧ lexeme.AtFault error := by
  simp only [tokenize_eq]
  refine ⟨Lexeme.split text.toList, fun others => Lexeme.cut_iff, ?_,
    fun tokens => Token.ofLexemes_eq_ok_iff, fun error => Token.ofLexemes_eq_error_iff⟩
  rw [← Outcome.exists_forall₂_iff]
  simp only [Token.ofLexemes_eq_ok_iff]
  constructor
  · rintro ⟨_, tokens?, spelled, _⟩
    exact ⟨tokens?, spelled⟩
  · rintro ⟨tokens?, spelled⟩
    exact ⟨_, tokens?, spelled, rfl⟩

theorem isDigit_eq_false_of_isBlank {c : Char} (blank : isBlank c = true) : c.isDigit = false := by
  cases digit : c.isDigit with
  | false => rfl
  | true =>
      rw [isBlank_eq_false_of_isDigit digit] at blank
      cases blank

theorem Token.ofLexemes_split_of_blank {cs : List Char} (blank : ∀ c ∈ cs, isBlank c = true) :
    Token.ofLexemes (Lexeme.split cs) = .ok [] := by
  induction cs with
  | nil => rfl
  | cons c cs ih =>
      rw [List.forall_mem_cons] at blank
      have other := isDigit_eq_false_of_isBlank blank.1
      have nothing : Lexeme.token? (.single c) = .ok none :=
        Lexeme.token?_eq_ok_iff.mpr (.blank blank.1)
      rw [Lexeme.split_cons, if_neg (by simp [other]), Token.ofLexemes, nothing, ih blank.2]
      rfl

namespace Lexeme

variable {cs ds blanks : List Char}

theorem Seam.blank_append (seam : Seam cs ds) (blank : ∀ c ∈ blanks, isBlank c = true) :
    Seam cs (blanks ++ ds) := by
  cases blanks with
  | nil => exact seam
  | cons b blanks =>
      apply Seam.of_head
      rintro _ ⟨⟩
      exact isDigit_eq_false_of_isBlank (blank b List.mem_cons_self)

theorem Seam.of_blank (blank : ∀ c ∈ blanks, isBlank c = true) : Seam blanks ds :=
  Seam.of_last fun c member =>
    isDigit_eq_false_of_isBlank (blank c (List.mem_of_getLast? member))

end Lexeme

theorem tokenize_blank_append {blanks : String} (text : String)
    (blank : ∀ c ∈ blanks.toList, isBlank c = true) :
    tokenize (blanks ++ text) = tokenize text := by
  have nothing : tokenize blanks = .ok [] :=
    (tokenize_eq blanks).trans (Token.ofLexemes_split_of_blank blank)
  rw [tokenize_append (.of_blank blank), nothing]
  cases tokenize text <;> rfl

/-- Two texts that no run of digits goes across have the tokens of the one and then of the other,
or the first fault of the two in that order.  Blanks between them change neither the expression
nor the fault. -/
theorem Expr.parse?_blanks_between {a b blanks : String} (seam : Lexeme.Seam a.toList b.toList)
    (blank : ∀ c ∈ blanks.toList, isBlank c = true) :
    Expr.parse? (a ++ blanks ++ b) = Expr.parse? (a ++ b) ∧
      tokenize (a ++ b) = (do
        let tokens ← tokenize a
        let others ← tokenize b
        return tokens ++ others) := by
  have behind : Lexeme.Seam a.toList (blanks ++ b).toList := by
    rw [String.toList_append]
    exact seam.blank_append blank
  have same : tokenize (a ++ blanks ++ b) = tokenize (a ++ b) := by
    rw [String.append_assoc, tokenize_append behind, tokenize_blank_append b blank,
      ← tokenize_append seam]
  exact ⟨by rw [Expr.parse?, same, Expr.parse?], tokenize_append seam⟩

theorem Expr.parse?_blanks_between_marker :
    Lexeme.Seam "4d6".toList "-L".toList ∧ (∀ c ∈ "\u3000\t".toList, isBlank c = true) ∧
      Expr.parse? ("4d6" ++ "\u3000\t" ++ "-L") =
        .ok (some (.dropping ⟨.d6, 4, by decide, by decide⟩ .lowest)) ∧
      Lexeme.Seam "2#".toList "99999999999".toList ∧ (∀ c ∈ "\u2003".toList, isBlank c = true) ∧
      Expr.parse? ("2#" ++ "\u2003" ++ "99999999999") = .error (.invalidCharacter '#') := by
  have marker : Lexeme.Seam "4d6".toList "-L".toList := .of_head (by simp)
  have wide : ∀ c ∈ "\u3000\t".toList, isBlank c = true := by simp [isBlank, blankCodePoints]
  have fault : Lexeme.Seam "2#".toList "99999999999".toList := .of_last (by simp)
  have em : ∀ c ∈ "\u2003".toList, isBlank c = true := by simp [isBlank, blankCodePoints]
  exact ⟨marker, wide, (Expr.parse?_blanks_between marker wide).1.trans (by decide +kernel),
    fault, em, (Expr.parse?_blanks_between fault em).1.trans (by decide +kernel)⟩

example : Expr.parse? ("1" ++ " " ++ "0") ≠ Expr.parse? ("1" ++ "0") := by decide +kernel

end DiceNotation
