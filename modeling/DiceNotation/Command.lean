import DiceNotation.Binary64
import DiceNotation.Executor
import DiceNotation.Histogram
import DiceNotation.Notation
import DiceNotation.Settings
import DiceNotation.Text

namespace DiceNotation

structure Printed where
  output : List String := []
  errors : List String := []
  deriving DecidableEq, Repr

namespace Printed

def text (lines : List String) : String := String.join (lines.map (· ++ "\n"))

def outputText (printed : Printed) : String := text printed.output

def errorText (printed : Printed) : String := text printed.errors

def exitCode (printed : Printed) : UInt32 := if printed.errors.isEmpty then 0 else 1

end Printed

inductive CountError where
  | empty
  | invalidDigit
  | tooLarge
  deriving DecidableEq, Repr

namespace Count

/-- Appends digits to a number of 32 bits; the first fault counts. -/
def readDigits (n : Nat) : List Char → Except CountError UInt32
  | [] => .ok (UInt32.ofNat n)
  | c :: rest =>
      if !c.isDigit then .error .invalidDigit
      else
        let next := 10 * n + (c.toNat - '0'.toNat)
        if 4294967295 < next then .error .tooLarge else readDigits next rest

def read (text : String) : Except CountError UInt32 :=
  match text.toList with
  | [] => .error .empty
  | ['+'] => .error .invalidDigit
  | '+' :: digits => readDigits 0 digits
  | digits => readDigits 0 digits

end Count

def NotationError.outline : NotationError → String
  | .invalidCharacter c => "InvalidCharacter(" ++ quoteChar c ++ ")"
  | .numberOutOfRange digits => "NumberOutOfRange(" ++ quoteText digits ++ ")"
  | .invalidDieSides sides => "InvalidDieSides(" ++ toString sides ++ ")"
  | .invalidDieCount => "InvalidDieCount"
  | .tooManyDice count => "TooManyDice(" ++ toString count ++ ")"
  | .missingMinus => "MissingMinus"
  | .missingSimpleDice => "MissingSimpleDice"
  | .missingDieSides => "MissingDieSides"
  | .missingExpression => "MissingExpression"
  | .consecutiveNumbers => "ConsecutiveNumbers"
  | .consecutiveMathOperators => "ConsecutiveMathOperators"
  | .consecutiveDiceExpressions => "ConsecutiveDiceExpressions"

def EvalError.outline : EvalError → String
  | .divisionByZero => "DivideByZero"
  | .overflow => "Overflow"
  | .exhausted => "Exhausted"

def CountError.outline (error : CountError) : String :=
  let kind := match error with
    | .empty => "Empty"
    | .invalidDigit => "InvalidDigit"
    | .tooLarge => "PosOverflow"
  "ParseIntError \x7b kind: " ++ kind ++ " \x7d"

def HistogramError.outline : HistogramError → String
  | .evaluation error => error.outline
  | error => quoteText error.message

inductive SampleError where
  | usage
  | unreadable (error : NotationError)
  | count (error : CountError)
  | histogram (error : HistogramError)
  deriving DecidableEq

def SampleError.outline : SampleError → String
  | .usage => quoteText "usage: roll-cmd <notation> [count]"
  | .unreadable error => error.outline
  | .count error => error.outline
  | .histogram error => error.outline

structure Sample where
  expr : Expr
  trials : UInt32
  histogram : Histogram
  total : Int
  deriving DecidableEq

namespace Sample

def mean (sample : Sample) : Binary64 :=
  (Binary64.ofInt sample.total).div (.ofNat (max sample.trials.toNat 1))

def summary (sample : Sample) : String :=
  let limits := sample.expr.limits
  sample.expr.text ++ ": " ++ toString sample.trials ++ " rolls in " ++ toString limits.lo ++
    "..=" ++ toString limits.hi ++ ", mean " ++ sample.mean.fixedText 3

end Sample

namespace SampleCommand

def readArguments : List String → Except SampleError (Expr × UInt32)
  | [] => .error .usage
  | text :: rest =>
      match Expr.parse text with
      | .error error => .error (.unreadable error)
      | .ok expr =>
          match rest with
          | [] => .ok (expr, 1)
          | count :: _ =>
              match Count.read count with
              | .error error => .error (.count error)
              | .ok trials => .ok (expr, trials)

inductive Outcome where
  | refused (error : SampleError)
  | aborted (overflow : WordOverflow)
  | sampled (sample : Sample)
  deriving DecidableEq

def run (arguments : List String) (entropy : ChaCha.Key) : Outcome :=
  match readArguments arguments with
  | .error error => .refused error
  | .ok (expr, trials) =>
      match (Histogram.ofExpr expr trials.toNat { key := entropy }).1 with
      | .error error => .refused (.histogram error)
      | .ok histogram =>
          match histogram.total with
          | .error overflow => .aborted overflow
          | .ok total => .sampled { expr, trials, histogram, total }

namespace Outcome

def printed : Outcome → Printed
  | .refused error => { errors := ["Error: " ++ error.outline] }
  | .aborted overflow => { errors := [overflow.message] }
  | .sampled sample => { output := [sample.summary] }

def exitCode : Outcome → UInt32
  | .aborted _ => 101
  | outcome => outcome.printed.exitCode

def file? : Outcome → Option ByteArray
  | .sampled sample => some sample.histogram.npy
  | _ => none

end Outcome

end SampleCommand

namespace RollCommand

inductive Line where
  | result (text : String)
  | complaint (text : String)
  deriving DecidableEq, Repr

/-- The line for the reply to a written request, none for a blank one. -/
def line? (written : String) : Reply → Option Line
  | .error error => some (.complaint (trimBlanks written ++ ": " ++ error.message))
  | .ok none => none
  | .ok (some { text, outcome := .ok roll }) => some (.result (text ++ " = " ++ roll.text))
  | .ok (some { text, outcome := .error error }) =>
      some (.complaint (text ++ ": " ++ error.message))

def lines (executor : Executor) : List String → List Line
  | [] => []
  | written :: rest =>
      let (reply, executor) := executor.answer (.written written)
      (line? written reply).toList ++ lines executor rest

def print : List Line → Printed
  | [] => {}
  | .result text :: rest => { print rest with output := text :: (print rest).output }
  | .complaint text :: rest => { print rest with errors := text :: (print rest).errors }

def inputNotations (input : ByteArray) : List String :=
  match String.fromUTF8? input with
  | none => []
  | some text => (textLines text.toList).map String.ofList

structure Outcome where
  printed : Printed
  file? : Option SettingsFile

/-- Rolls the notations, or those of the input if there are none.  Without a settings
file the settings are the defaults. -/
def run (file? : Option SettingsFile) (notations : List String) (input : ByteArray)
    (entropy : ChaCha.Key) : Outcome :=
  let loaded? := file?.map (Settings.load .toml)
  let settings := (loaded?.map (·.settings)).getD Settings.defaults
  let notations := if notations.isEmpty then inputNotations input else notations
  { printed := print (lines (Executor.start settings entropy) notations)
    file? := loaded?.map (·.file) }

end RollCommand

end DiceNotation
