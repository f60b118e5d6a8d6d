import DiceNotation.Binary64
import DiceNotation.Expr
import DiceNotation.Limits
import DiceNotation.Notation
import DiceNotation.Text

/-! A dice field of a document holds a natural number or a notation.  What else a
document may offer there is refused, by its kind. -/

namespace DiceNotation

inductive Offered where
  | natural (n : Nat)
  | negative (n : Int)
  | text (s : String)
  | bool (b : Bool)
  | float (x : Binary64)
  | unit
  | absent
  | sequence
  | map
  | bytes
  deriving DecidableEq, Repr

def Offered.phrase : Offered → String
  | .natural n => "integer `" ++ toString n ++ "`"
  | .negative n => "integer `" ++ toString n ++ "`"
  | .text s => "string " ++ quoteText s
  | .bool b => "boolean `" ++ toString b ++ "`"
  | .float x => "floating point `" ++ x.text ++ "`"
  | .unit => "unit value"
  | .absent => "Option value"
  | .sequence => "sequence"
  | .map => "map"
  | .bytes => "byte array"

inductive FieldError where
  | tooLarge (n : Nat)
  | negative (n : Int)
  | invalidNotation (text : String) (error : NotationError)
  | wrongKind (value : Offered)
  | byteArray
  deriving DecidableEq, Repr

def FieldError.message : FieldError → String
  | .tooLarge n => "could not decode dice value: " ++ toString n ++ " is too large"
  | .negative n => "could not decode dice value: " ++ toString n ++ " is negative"
  | .invalidNotation text error =>
      "could not decode dice value: \"" ++ text ++ "\": " ++ error.message
  | .wrongKind value => "could not decode dice value: " ++ value.phrase
  | .byteArray =>
      "invalid type: byte array, expected a dice value " ++
        "(non-negative integer or dice notation)"

def Expr.ofOffered : Offered → Except FieldError Expr
  | .natural n =>
      if (n : Int) ≤ maxInteger then .ok (.const (Int64.ofNat n)) else .error (.tooLarge n)
  | .negative n => .error (.negative n)
  | .text s =>
      match Expr.parse s with
      | .ok expr => .ok expr
      | .error error => .error (.invalidNotation s error)
  | .bytes => .error .byteArray
  | value => .error (.wrongKind value)

structure WriteError where
  expr : Expr
  deriving DecidableEq

def WriteError.message (error : WriteError) : String :=
  error.expr.outline ++ " has no dice notation"

def Expr.fieldText (expr : Expr) : Except WriteError String :=
  if expr.hasNotation then .ok expr.text else .error ⟨expr⟩

end DiceNotation
