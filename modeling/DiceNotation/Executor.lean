import DiceNotation.Notation
import DiceNotation.Random
import DiceNotation.Roll
import DiceNotation.Settings

/-! An executor rolls expressions on request, each on the next generator of its master.
Only a request that holds an expression takes a generator.  When the provider of
generators is gone, such requests are refused. -/

namespace DiceNotation

inductive Request where
  | written (text : String)
  | expression (expr : Expr)
  deriving DecidableEq

inductive RequestError where
  | invalid (error : NotationError)
  | stopped
  deriving DecidableEq

def RequestError.message : RequestError → String
  | .invalid error => error.message
  | .stopped => "the random number provider has stopped"

structure RollResult where
  text : String
  outcome : Except EvalError Roll

inductive Event where
  | request (request : Request)
  /-- The signal to stop replacing the master. -/
  | stopSignal
  | signalLost
  | providerLost
  deriving DecidableEq

/-- The answer to a request; a blank notation has no result. -/
abbrev Reply := Except RequestError (Option RollResult)

structure Executor where
  master : Master
  seeded : Bool
  providing : Bool := true

def Expr.rollOn (expr : Expr) (generator : Xoshiro) : RollResult where
  text := expr.text
  outcome := (expr.roll generator.supply).1

namespace Executor

def start (settings : Settings) (entropy : ChaCha.Key) : Executor where
  master :=
    match settings.seed? with
    | some seed => .ofSeed seed
    | none => { key := entropy }
  seeded := settings.seed?.isSome

def reseeds (executor : Executor) : Bool := !executor.seeded

/-- Whether the task that serves the generators has finished while the executor is
alive, unknown once the provider is gone: it waits for the executor. -/
def taskFinished? (executor : Executor) : Option Bool :=
  if executor.providing then some false else none

def endsCleanly? (executor : Executor) : Option Bool :=
  if executor.providing then some true else none

def roll (executor : Executor) (expr : Expr) : Reply × Executor :=
  if executor.providing then
    let (generator, master) := executor.master.next
    (.ok (some (expr.rollOn generator)), { executor with master })
  else (.error .stopped, executor)

def answer (executor : Executor) : Request → Reply × Executor
  | .written text =>
      match Expr.parse? text with
      | .error error => (.error (.invalid error), executor)
      | .ok none => (.ok none, executor)
      | .ok (some expr) => executor.roll expr
  | .expression expr => executor.roll expr

/-- The executor after an event, and the reply if it was a request. -/
def handle (executor : Executor) : Event → Option Reply × Executor
  | .request request =>
      let (reply, executor) := executor.answer request
      (some reply, executor)
  | .stopSignal => (none, executor)
  | .signalLost => (none, executor)
  | .providerLost => (none, { executor with providing := false })

def run (executor : Executor) : List Event → List (Option Reply) × Executor
  | [] => ([], executor)
  | event :: rest =>
      let (reply, executor) := executor.handle event
      let (replies, executor) := executor.run rest
      (reply :: replies, executor)

end Executor

end DiceNotation
