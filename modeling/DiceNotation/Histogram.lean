import DiceNotation.Limits
import DiceNotation.Random
import DiceNotation.Roll

/-! How often each result came up in a number of trials, each on the next generator of a
master.  There is one slot for every integer within the limits of the expression. -/

namespace DiceNotation

def maxSlots : Nat := 1048576

inductive HistogramError where
  | tooWide (limits : Limits)
  | evaluation (error : EvalError)
  | outsideLimits
  deriving DecidableEq

def HistogramError.message : HistogramError → String
  | .tooWide limits =>
      "results range from " ++ toString limits.lo ++ " to " ++ toString limits.hi ++
        ", too wide for a histogram"
  | .evaluation error => error.message
  | .outsideLimits => "roll outside of the expression limits"

inductive WordOverflow where
  | addition
  | multiplication
  deriving DecidableEq, Repr

def WordOverflow.message : WordOverflow → String
  | .addition => "attempt to add with overflow"
  | .multiplication => "attempt to multiply with overflow"

def inWord (operation : WordOverflow) (n : Int) : Except WordOverflow Int :=
  if Fits n then .ok n else .error operation

structure Histogram where
  lo : Int
  counts : Array Nat
  deriving DecidableEq

def Limits.width (limits : Limits) : Nat := (limits.hi - limits.lo + 1).toNat

namespace Histogram

def empty (limits : Limits) : Histogram where
  lo := limits.lo
  counts := Array.replicate limits.width 0

def add? (histogram : Histogram) (result : Int) : Option Histogram :=
  let slot := result - histogram.lo
  if slot < 0 then none
  else if h : slot.toNat < histogram.counts.size then
    some { histogram with
      counts := histogram.counts.set slot.toNat (histogram.counts[slot.toNat] + 1) }
  else none

/-- Rolls so many trials; the first failing one ends the tally. -/
def tally (expr : Expr) : (trials : Nat) → Histogram → Master →
    Except HistogramError Histogram × Master
  | 0, histogram, master => (.ok histogram, master)
  | trials + 1, histogram, master =>
      let (generator, master) := master.next
      match (expr.roll generator.supply).1 with
      | .error error => (.error (.evaluation error), master)
      | .ok roll =>
          match histogram.add? roll.result with
          | none => (.error .outsideLimits, master)
          | some histogram => tally expr trials histogram master

/-- The histogram of an expression.  Nothing is taken from the master if the limits
are too wide. -/
def ofExpr (expr : Expr) (trials : Nat) (master : Master) :
    Except HistogramError Histogram × Master :=
  if maxSlots < expr.limits.width then (.error (.tooWide expr.limits), master)
  else tally expr trials (empty expr.limits) master

/-- Adds counts, each times its result, to a sum.  The result behind that of the last count
is taken as well. -/
def totalFrom (sum result : Int) : List Nat → Except WordOverflow Int
  | [] => .ok sum
  | count :: rest => do
      let next ← inWord .addition (result + 1)
      let product ← inWord .multiplication (count * result)
      totalFrom (← inWord .addition (sum + product)) next rest

def total (histogram : Histogram) : Except WordOverflow Int :=
  totalFrom 0 histogram.lo histogram.counts.toList

end Histogram

namespace Npy

def headerLength : Nat := 86

def ascii (text : String) : List UInt8 := text.toList.map fun c => UInt8.ofNat c.toNat

def magic : List UInt8 := 0x93 :: ascii "NUMPY" ++ [1, 0]

def description (count : Nat) : String :=
  "\x7b'descr': '<i8', 'fortran_order': False, 'shape': (" ++ toString count ++ ",), \x7d"

def header (count : Nat) : String :=
  let padding := List.replicate (headerLength - 1 - (description count).length) ' '
  description count ++ String.ofList padding ++ "\n"

def bytes : (count : Nat) → Nat → List UInt8
  | 0, _ => []
  | count + 1, n => UInt8.ofNat n :: bytes count (n / 256)

def int64Bytes (n : Int64) : List UInt8 := bytes 8 n.toUInt64.toNat

def file (items : List Int64) : ByteArray :=
  .mk (magic ++ bytes 2 headerLength ++ ascii (header items.length) ++
    items.flatMap int64Bytes).toArray

end Npy

def Histogram.npy (histogram : Histogram) : ByteArray :=
  Npy.file (Int64.ofInt histogram.lo :: histogram.counts.toList.map Int64.ofNat)

end DiceNotation
