import DiceNotation.Command
import DiceNotation.Proofs.Executor
import DiceNotation.Proofs.Text.Lines

/-! Under a given seed the expressions that are read are rolled in their order, each on the
generator with its number.  Notations without an expression take no generator, so the results
are the same without them. -/

namespace DiceNotation

namespace RollCommand

def expr? (written : String) : Option Expr :=
  match Expr.parse? written with
  | .ok expr? => expr?
  | .error _ => none

/-- The expressions that are rolled, each with the number of its generator. -/
def rolled (written : List String) (taken : Nat) : List (Expr × Nat) :=
  (written.filterMap expr?).zipIdx taken

def outcome (key : ChaCha.Key) (turn : Expr × Nat) : Except EvalError Roll :=
  (turn.1.roll (Xoshiro.ofBytes (key.seedBytes turn.2)).supply).1

def resultText? (key : ChaCha.Key) (turn : Expr × Nat) : Option String :=
  (outcome key turn).toOption.map fun roll => turn.1.text ++ " = " ++ roll.text

def Fails (key : ChaCha.Key) (written : List String) (taken : Nat) : Prop :=
  (∃ text ∈ written, ∃ error, Expr.parse? text = .error error) ∨
    ∃ turn ∈ rolled written taken, ∃ error, outcome key turn = .error error

def given (notations : List String) (input : ByteArray) : List String :=
  if notations.isEmpty then inputNotations input else notations

namespace Line

def result? : Line → Option String
  | .result text => some text
  | .complaint _ => none

def complains : Line → Bool
  | .result _ => false
  | .complaint _ => true

def ofOutcome (expr : Expr) : Except EvalError Roll → Line
  | .ok roll => .result (expr.text ++ " = " ++ roll.text)
  | .error error => .complaint (expr.text ++ ": " ++ error.message)

theorem result?_ofOutcome (key : ChaCha.Key) (expr : Expr) (number : Nat) :
    (ofOutcome expr (outcome key (expr, number))).result? = resultText? key (expr, number) := by
  rw [resultText?]
  cases outcome key (expr, number) with
  | ok roll => rfl
  | error error => rfl

theorem complains_ofOutcome {expr : Expr} {outcome : Except EvalError Roll} :
    (ofOutcome expr outcome).complains = true ↔ ∃ error, outcome = .error error := by
  cases outcome with
  | ok roll => simp [ofOutcome, complains]
  | error error => simp [ofOutcome, complains]

end Line

theorem output_print (lines : List Line) : (print lines).output = lines.filterMap Line.result? := by
  induction lines with
  | nil => rfl
  | cons line rest ih =>
      cases line with
      | result text => exact congrArg (text :: ·) ih
      | complaint text => exact ih

theorem exitCode_print (lines : List Line) :
    (print lines).exitCode = if lines.any Line.complains then 1 else 0 := by
  have complained : (print lines).errors.isEmpty = !lines.any Line.complains := by
    induction lines with
    | nil => rfl
    | cons line rest ih =>
        cases line with
        | result text => exact ih
        | complaint text => rfl
  rw [Printed.exitCode, complained]
  cases lines.any Line.complains <;> rfl

theorem line?_ofOutcome (text : String) (expr : Expr) (outcome : Except EvalError Roll) :
    line? text (.ok (some { text := expr.text, outcome })) = some (.ofOutcome expr outcome) := by
  cases outcome with
  | ok roll => rfl
  | error error => rfl

section Steps

variable {executor : Executor} {text : String} {rest : List String}

theorem lines_of_refused {error : NotationError} (h : Expr.parse? text = .error error) :
    lines executor (text :: rest) =
      .complaint (trimBlanks text ++ ": " ++ error.message) :: lines executor rest := by
  simp only [lines, Executor.answer, h]
  rfl

theorem lines_of_blank (h : Expr.parse? text = .ok none) :
    lines executor (text :: rest) = lines executor rest := by
  simp only [lines, Executor.answer, h]
  rfl

theorem lines_of_expr {expr : Expr} (providing : executor.providing = true)
    (h : Expr.parse? text = .ok (some expr)) :
    lines executor (text :: rest) =
      .ofOutcome expr (outcome executor.master.key (expr, executor.master.taken)) ::
        lines { executor with master := executor.master.next.2 } rest := by
  simp only [lines, Executor.answer, h, Executor.roll_of_providing providing, Expr.rollOn,
    line?_ofOutcome, Master.next_fst, ChaCha.Key.generator_eq_ofBytes]
  rfl

theorem rolled_of_none (h : expr? text = none) (taken : Nat) :
    rolled (text :: rest) taken = rolled rest taken := by
  rw [rolled, List.filterMap_cons_none h, rolled]

theorem rolled_of_some {expr : Expr} (h : expr? text = some expr) (taken : Nat) :
    rolled (text :: rest) taken = (expr, taken) :: rolled rest (taken + 1) := by
  rw [rolled, List.filterMap_cons_some h, List.zipIdx_cons, rolled]

end Steps

theorem results_lines {executor : Executor} (providing : executor.providing = true)
    (written : List String) :
    (lines executor written).filterMap Line.result? =
      (rolled written executor.master.taken).filterMap (resultText? executor.master.key) := by
  induction written generalizing executor with
  | nil => rfl
  | cons text rest ih =>
      rcases read : Expr.parse? text with error | _ | expr
      · rw [lines_of_refused read, rolled_of_none (by rw [expr?, read])]
        exact ih providing
      · rw [lines_of_blank read, rolled_of_none (by rw [expr?, read])]
        exact ih providing
      · have behind := @ih { executor with master := executor.master.next.2 } providing
        rw [lines_of_expr providing read, rolled_of_some (by rw [expr?, read]),
          List.filterMap_cons, List.filterMap_cons, Line.result?_ofOutcome, behind,
          Master.next_key, Master.next_taken]

theorem complains_lines_iff {executor : Executor} (providing : executor.providing = true)
    (written : List String) :
    (lines executor written).any Line.complains = true ↔
      Fails executor.master.key written executor.master.taken := by
  induction written generalizing executor with
  | nil => simp [lines, Fails, rolled]
  | cons text rest ih =>
      rcases read : Expr.parse? text with error | _ | expr
      · rw [lines_of_refused read]
        exact iff_of_true rfl (.inl ⟨text, List.mem_cons_self, error, read⟩)
      · rw [lines_of_blank read, ih providing, Fails, Fails,
          rolled_of_none (by rw [expr?, read])]
        simp [read]
      · have behind := @ih { executor with master := executor.master.next.2 } providing
        rw [lines_of_expr providing read, List.any_cons, Bool.or_eq_true,
          Line.complains_ofOutcome, behind, Fails, Fails, rolled_of_some (by rw [expr?, read])]
        simp [read, or_left_comm]

theorem rolled_filter (written : List String) (taken : Nat) :
    rolled (written.filter fun text => (expr? text).isSome) taken = rolled written taken := by
  rw [rolled, rolled, List.filterMap_filter]
  congr 2
  funext text
  cases expr? text with
  | none => rfl
  | some expr => rfl

theorem oneLine_resultText {key : ChaCha.Key} {turn : Expr × Nat} {text : String}
    (h : resultText? key turn = some text) : OneLine text := by
  obtain ⟨roll, _, rfl⟩ := Option.map_eq_some_iff.mp h
  have equals : OneLine " = " := by decide
  exact (turn.1.oneLine_text.append equals).append roll.oneLine_text

section Seeded

variable {file : SettingsFile} {seed : UInt64}

theorem printed_run (seeded : (Settings.load .toml file).settings.seed? = some seed)
    (notations : List String) (input : ByteArray) (entropy : ChaCha.Key) :
    (run (some file) notations input entropy).printed =
      print (lines { master := .ofSeed seed, seeded := true } (given notations input)) := by
  have started : Executor.start (Settings.load .toml file).settings entropy =
      { master := .ofSeed seed, seeded := true } := by
    rw [Executor.start, seeded]
    rfl
  rw [← started]
  rfl

theorem output_run (seeded : (Settings.load .toml file).settings.seed? = some seed)
    (notations : List String) (input : ByteArray) (entropy : ChaCha.Key) :
    (run (some file) notations input entropy).printed.output =
      (rolled (given notations input) 0).filterMap (resultText? (.ofSeed seed)) := by
  rw [printed_run seeded, output_print]
  exact results_lines rfl _

theorem exitCode_run (seeded : (Settings.load .toml file).settings.seed? = some seed)
    (notations : List String) (input : ByteArray) (entropy : ChaCha.Key) :
    let code := (run (some file) notations input entropy).printed.exitCode
    (code = 1 ↔ Fails (.ofSeed seed) (given notations input) 0) ∧
      (code = 0 ↔ ¬ Fails (.ofSeed seed) (given notations input) 0) := by
  intro code
  have complained :
      (lines { master := .ofSeed seed, seeded := true } (given notations input)).any
          Line.complains = true ↔ Fails (.ofSeed seed) (given notations input) 0 :=
    complains_lines_iff rfl _
  have exit : code = _ := congrArg Printed.exitCode (printed_run seeded notations input entropy)
  rw [exit, exitCode_print, ← complained]
  cases (lines _ (given notations input)).any Line.complains <;> decide

/-- The results are those of the expressions in their order, one on a line, and the command
fails if a notation cannot be read or rolled.  Notations without an expression change no
result. -/
theorem printed_of_seed (seeded : (Settings.load .toml file).settings.seed? = some seed)
    (notations : List String) (input : ByteArray) (entropy : ChaCha.Key) :
    let printed := (run (some file) notations input entropy).printed
    let written := given notations input
    printed.output = (rolled written 0).filterMap (resultText? (.ofSeed seed)) ∧
    textLines printed.outputText.toList = printed.output.map String.toList ∧
    (printed.exitCode = 1 ↔ Fails (.ofSeed seed) written 0) ∧
    (printed.exitCode = 0 ↔ ¬ Fails (.ofSeed seed) written 0) ∧
    ∀ (notations' : List String) (input' : ByteArray) (entropy' : ChaCha.Key),
      (given notations' input').filter (fun text => (expr? text).isSome) =
        written.filter (fun text => (expr? text).isSome) →
      (run (some file) notations' input' entropy').printed.outputText = printed.outputText := by
  intro printed written
  have output : printed.output = _ := output_run seeded notations input entropy
  obtain ⟨fails, succeeds⟩ := exitCode_run seeded notations input entropy
  refine ⟨output, ?_, fails, succeeds, ?_⟩
  · apply Printed.textLines_text
    intro line member
    rw [output] at member
    obtain ⟨turn, _, shown⟩ := List.mem_filterMap.mp member
    exact oneLine_resultText shown
  · intro notations' input' entropy' same
    apply congrArg Printed.text
    rw [output, output_run seeded, ← rolled_filter, same, rolled_filter]

end Seeded

theorem printed_of_seed_mixed :
    let file : SettingsFile := { contents? := some "seed = 7\n".toUTF8 }
    let printed := (run (some file) ["d7", "6/0", "d20", " ", "2+3"] .empty (.ofSeed 0)).printed
    let die := Expr.dice ⟨.d20, 1, by decide, by decide⟩
    (Settings.load .toml file).settings.seed? = some 7 ∧
      printed.output = (resultText? (.ofSeed 7) (die, 1)).toList ++ ["2+3 = 2 + 3 = 5"] ∧
      printed.exitCode = 1 ∧
      (run (some file) ["6/0", "!", "d20", "2+3"] .empty (.ofSeed 1)).printed.outputText =
        printed.outputText := by
  intro file printed die
  have seeded : (Settings.load .toml file).settings.seed? = some 7 := by decide +kernel
  obtain ⟨output, _, fails, _, same⟩ :=
    printed_of_seed seeded ["d7", "6/0", "d20", " ", "2+3"] .empty (.ofSeed 0)
  have turns : rolled (given ["d7", "6/0", "d20", " ", "2+3"] .empty) 0 =
      [(.compound (.const 6) .div (.const 0), 0), (die, 1),
        (.compound (.const 2) .add (.const 3), 2)] := by decide
  have first : resultText? (.ofSeed 7) (.compound (.const 6) .div (.const 0), 0) = none := by
    decide
  have last : resultText? (.ofSeed 7) (.compound (.const 2) .add (.const 3), 2) =
      some "2+3 = 2 + 3 = 5" := by decide
  refine ⟨seeded, ?_, fails.mpr (.inl ⟨"d7", by decide, _, rfl⟩), same _ _ _ (by decide)⟩
  rw [output, turns, List.filterMap_cons_none first, List.filterMap_cons,
    List.filterMap_cons_some last]
  cases resultText? (.ofSeed 7) (die, 1) with
  | none => rfl
  | some text => rfl

end RollCommand

end DiceNotation
