import DiceNotation.Proofs.Outcome
import DiceNotation.Notation

namespace DiceNotation

/-! A text is cut into its longest runs of digits and its other characters.  Each piece stands for
one token, for none, or for a fault.  The scan of the text gives what the pieces of the digits in
its buffer and of the text behind them stand for. -/

inductive Lexeme where
  | digits (run : List Char)
  | single (c : Char)
  deriving DecidableEq, Repr

namespace Lexeme

def chars : Lexeme → List Char
  | .digits run => run
  | .single c => [c]

def consDigit (c : Char) : List Lexeme → List Lexeme
  | .digits run :: rest => .digits (c :: run) :: rest
  | rest => .digits [c] :: rest

def split : List Char → List Lexeme
  | [] => []
  | c :: cs => if c.isDigit then consDigit c (split cs) else .single c :: split cs

def token? : Lexeme → Except NotationError (Option Token)
  | .digits run => some <$> Token.ofDigits run
  | .single c =>
      match Token.ofChar? c with
      | some token => .ok (some token)
      | none => if isBlank c then .ok none else .error (.invalidCharacter c)

theorem flatten_consDigit (c : Char) (lexemes : List Lexeme) :
    ((consDigit c lexemes).map chars).flatten = c :: (lexemes.map chars).flatten := by
  match lexemes with
  | [] => rfl
  | .digits run :: rest => simp [consDigit, chars]
  | .single _ :: rest => simp [consDigit, chars]

/-- No run of digits goes across the seam. -/
def Seam (cs ds : List Char) : Prop :=
  ∀ c ∈ cs.getLast?, ∀ d ∈ ds.head?, c.isDigit = true → d.isDigit = false

theorem Seam.of_head {cs ds : List Char} (h : ∀ d ∈ ds.head?, d.isDigit = false) :
    Seam cs ds :=
  fun _ _ d member _ => h d member

theorem Seam.of_last {cs ds : List Char} (h : ∀ c ∈ cs.getLast?, c.isDigit = false) :
    Seam cs ds := by
  intro c member _ _ digit
  rw [h c member] at digit
  cases digit

theorem split_cons (c : Char) (cs : List Char) :
    split (c :: cs) =
      if c.isDigit then consDigit c (split cs) else .single c :: split cs := rfl

theorem split_cons_ne_nil (c : Char) (cs : List Char) : split (c :: cs) ≠ [] := by
  rw [split_cons]
  split
  · unfold consDigit
    split <;> exact List.cons_ne_nil _ _
  · exact List.cons_ne_nil _ _

theorem consDigit_append (c : Char) {lexemes : List Lexeme} (more : List Lexeme)
    (nonempty : lexemes ≠ []) :
    consDigit c (lexemes ++ more) = consDigit c lexemes ++ more := by
  match lexemes with
  | [] => exact absurd rfl nonempty
  | .digits run :: rest => rfl
  | .single d :: rest => rfl

theorem consDigit_split_of_head {ds : List Char} (c : Char)
    (h : ∀ d ∈ ds.head?, d.isDigit = false) :
    consDigit c (split ds) = .digits [c] :: split ds := by
  cases ds with
  | nil => rfl
  | cons d ds =>
      have plain : d.isDigit = false := h d rfl
      simp [split, plain, consDigit]

theorem split_append {cs ds : List Char} (seam : Seam cs ds) :
    split (cs ++ ds) = split cs ++ split ds := by
  induction cs with
  | nil => rfl
  | cons c cs ih =>
      cases cs with
      | nil =>
          -- Here is the seam: a digit must not join a run of the second text.
          by_cases digit : c.isDigit = true
          · have apart : ∀ d ∈ ds.head?, d.isDigit = false :=
              fun d member => seam c rfl d member digit
            rw [List.singleton_append, split_cons, if_pos digit, consDigit_split_of_head c apart,
              split_cons, if_pos digit]
            rfl
          · simp [split, digit]
      | cons next cs =>
          have rest : split (next :: cs ++ ds) = split (next :: cs) ++ split ds :=
            ih fun last member => seam last (by simpa using member)
          rw [List.cons_append, split_cons, rest, split_cons c (next :: cs)]
          split
          · exact consDigit_append c _ (split_cons_ne_nil next cs)
          · rfl

theorem split_of_digits {cs : List Char} (digits : ∀ c ∈ cs, c.isDigit = true)
    (nonempty : cs ≠ []) : split cs = [.digits cs] := by
  induction cs with
  | nil => exact absurd rfl nonempty
  | cons c cs ih =>
      have digit : c.isDigit = true := digits c List.mem_cons_self
      cases cs with
      | nil => simp [split, digit, consDigit]
      | cons next cs =>
          rw [split, if_pos digit,
            ih (fun d member => digits d (List.mem_cons_of_mem c member)) (List.cons_ne_nil _ _)]
          rfl

end Lexeme

def Token.ofLexemes : List Lexeme → Except NotationError (List Token)
  | [] => .ok []
  | lexeme :: rest => do
      let token? ← lexeme.token?
      let tokens ← Token.ofLexemes rest
      return token?.toList ++ tokens

theorem Token.ofLexemes_append (lexemes more : List Lexeme) :
    Token.ofLexemes (lexemes ++ more) = (do
      let tokens ← Token.ofLexemes lexemes
      let others ← Token.ofLexemes more
      return tokens ++ others) := by
  induction lexemes with
  | nil => cases others : Token.ofLexemes more <;> simp [Token.ofLexemes, others]
  | cons lexeme rest ih =>
      rw [List.cons_append, Token.ofLexemes, Token.ofLexemes, ih]
      cases lexeme.token? with
      | error error => rfl
      | ok token? =>
          cases Token.ofLexemes rest with
          | error error => rfl
          | ok tokens => cases Token.ofLexemes more <;> simp

namespace Scan

def Buffered (scan : Scan) : Prop := ∀ c ∈ scan.digits, c.isDigit = true

def finish (scan : Scan) (cs : List Char) : Except NotationError (List Token) := do
  let scan ← cs.foldlM step scan
  return (← scan.flush).tokens

theorem flush_eq {scan : Scan} (buffered : scan.Buffered) :
    scan.flush = (do
      let tokens ← Token.ofLexemes (Lexeme.split scan.digits)
      return { tokens := scan.tokens ++ tokens }) := by
  obtain ⟨tokens, digits⟩ := scan
  unfold flush
  cases digits with
  | nil => simp [Lexeme.split, Token.ofLexemes]
  | cons c rest =>
      rw [Lexeme.split_of_digits buffered (List.cons_ne_nil _ _)]
      cases read : Token.ofDigits (c :: rest) with
      | error error => simp [Token.ofLexemes, Lexeme.token?, read]
      | ok token => simp [Token.ofLexemes, Lexeme.token?, read]

theorem finish_digit {c : Char} (digit : c.isDigit = true) (scan : Scan) (cs : List Char) :
    scan.finish (c :: cs) = { scan with digits := scan.digits ++ [c] : Scan }.finish cs := by
  rw [finish, List.foldlM_cons, step, if_pos digit]
  rfl

theorem finish_other {c : Char} (other : c.isDigit = false) (scan : Scan) (cs : List Char) :
    scan.finish (c :: cs) = (do
      let scan ← scan.flush
      let token? ← Lexeme.token? (.single c)
      { scan with tokens := scan.tokens ++ token?.toList : Scan }.finish cs) := by
  rw [finish, List.foldlM_cons, step, if_neg (by simp [other]), Lexeme.token?]
  cases scan.flush with
  | error error => rfl
  | ok flushed =>
      cases Token.ofChar? c with
      | some token => rfl
      | none => by_cases blank : isBlank c = true <;> simp [blank, finish]

/-- From any state the scan goes on as if the digits in its buffer stood in front of the text. -/
theorem finish_eq {scan : Scan} (buffered : scan.Buffered) (cs : List Char) :
    scan.finish cs = (do
      let tokens ← Token.ofLexemes (Lexeme.split (scan.digits ++ cs))
      return scan.tokens ++ tokens) := by
  induction cs generalizing scan with
  | nil =>
      rw [List.append_nil, finish, List.foldlM_nil]
      simp only [Outcome.pure_eq_ok, Outcome.ok_bind, flush_eq buffered]
      cases Token.ofLexemes (Lexeme.split scan.digits) <;> rfl
  | cons c cs ih =>
      by_cases digit : c.isDigit = true
      · have more : Buffered { scan with digits := scan.digits ++ [c] } := by
          intro d member
          rcases List.mem_append.mp member with member | last
          · exact buffered d member
          · rw [List.mem_singleton.mp last]
            exact digit
        rw [finish_digit digit, ih more, List.append_assoc, List.singleton_append]
      · have other : c.isDigit = false := by simpa using digit
        have seam : Lexeme.Seam scan.digits (c :: cs) := .of_head (by simpa using other)
        rw [finish_other other, Lexeme.split_append seam, Token.ofLexemes_append,
          Lexeme.split_cons, if_neg digit, Token.ofLexemes, flush_eq buffered]
        cases Token.ofLexemes (Lexeme.split scan.digits) with
        | error error => rfl
        | ok tokens =>
            cases Lexeme.token? (.single c) with
            | error error => rfl
            | ok token? =>
                have empty : Buffered { tokens := scan.tokens ++ tokens ++ token?.toList } :=
                  fun _ member => by cases member
                simp only [Outcome.ok_bind, Outcome.pure_eq_ok, ih empty, List.nil_append]
                cases Token.ofLexemes (Lexeme.split cs) <;> simp

end Scan

theorem tokenize_eq (text : String) :
    tokenize text = Token.ofLexemes (Lexeme.split text.toList) := by
  have start : Scan.Buffered {} := fun _ member => by cases member
  have scanned : tokenize text = Scan.finish {} text.toList := rfl
  rw [scanned, Scan.finish_eq start, List.nil_append]
  cases Token.ofLexemes (Lexeme.split text.toList) <;> rfl

theorem tokenize_append {a b : String} (seam : Lexeme.Seam a.toList b.toList) :
    tokenize (a ++ b) = (do
      let tokens ← tokenize a
      let others ← tokenize b
      return tokens ++ others) := by
  rw [tokenize_eq, String.toList_append, Lexeme.split_append seam, Token.ofLexemes_append,
    tokenize_eq, tokenize_eq]

theorem tokenize_toString_nat (n : Nat) :
    tokenize (toString n) =
      if n ≤ maxNumber then .ok [.number (UInt32.ofNat n)]
      else .error (.numberOutOfRange (toString n)) := by
  have digits : ∀ c ∈ Nat.toDigits 10 n, c.isDigit = true :=
    fun c => Nat.isDigit_of_mem_toDigits (by decide) (by decide)
  have text : String.ofList (Nat.toDigits 10 n) = toString n := by
    rw [Nat.toString_eq_repr, Nat.repr_eq_ofList_toDigits]
  rw [tokenize_eq, ← text, String.toList_ofList,
    Lexeme.split_of_digits digits Nat.toDigits_ne_nil]
  by_cases small : n ≤ maxNumber
  · simp [Token.ofLexemes, Lexeme.token?, Token.ofDigits, Nat.ofDigitChars_ten_toDigits, small]
  · simp [Token.ofLexemes, Lexeme.token?, Token.ofDigits, Nat.ofDigitChars_ten_toDigits, small]

end DiceNotation
