import DiceNotation.Field
import DiceNotation.Json.Reader

/-! Records are objects, whose members may come in any order and whose unknown members
are skipped, or arrays of their fields in order. -/

namespace DiceNotation

inductive DocumentError where
  | fault (fault : JsonFault)
  | field (error : FieldError)
  | missingField (name : String)
  | duplicateField (name : String)
  | invalidLength (length : Nat) (expected : String)
  | invalidType (value : Offered) (expected : String)
  deriving DecidableEq, Repr

def Offered.documentPhrase : Offered → String
  | .unit => "null"
  | .float x => "floating point `" ++ x.documentText ++ "`"
  | value => value.phrase

def DocumentError.message : DocumentError → String
  | .fault .malformed => "malformed document"
  | .fault .truncated => "document ends too early"
  | .field error => error.message
  | .missingField name => "missing field `" ++ name ++ "`"
  | .duplicateField name => "duplicate field `" ++ name ++ "`"
  | .invalidLength length expected =>
      "invalid length " ++ toString length ++ ", expected " ++ expected
  | .invalidType value expected =>
      "invalid type: " ++ value.documentPhrase ++ ", expected " ++ expected

abbrev Reading := Except DocumentError

namespace Json

/-- The value by its kind.  The kind of a list or an object is known before its
contents are read. -/
def offered : Json → Reading Offered
  | .null => .ok .unit
  | .bool b => .ok (.bool b)
  | .number (.natural n) => .ok (.natural n)
  | .number (.negative n) => .ok (.negative n)
  | .number (.float x) => .ok (.float x)
  | .string s => .ok (.text s)
  | .array _ => .ok .sequence
  | .object _ => .ok .map
  | .broken fault _ => .error (.fault fault)

def typeError {α : Type} (value : Json) (expected : String) : Reading α := do
  throw (.invalidType (← value.offered) expected)

def readName : Json → Reading String
  | .string s => .ok s
  | value => value.typeError "a string"

def readDice (value : Json) : Reading Expr := do
  match Expr.ofOffered (← value.offered) with
  | .ok expr => return expr
  | .error error => throw (.field error)

def readOptionalDice : Json → Reading (Option Expr)
  | .null => .ok none
  | value => some <$> value.readDice

def readSkipped (value : Json) : Reading Unit :=
  match value.skip with
  | .ok () => .ok ()
  | .error fault => .error (.fault fault)

end Json

namespace JsonItems

variable {α : Type}

def readAll (read : Json → Reading α) : JsonItems → Reading (List α)
  | .done => .ok []
  | .cut fault => .error (.fault fault)
  | .more item rest => do
      let value ← read item
      let values ← rest.readAll read
      return value :: values

def readField (index : Nat) (expected : String) (read : Json → Reading α) :
    JsonItems → Reading (α × JsonItems)
  | .done => .error (.invalidLength index expected)
  | .cut fault => .error (.fault fault)
  | .more item rest => return (← read item, rest)

def readFieldOr (default : α) (read : Json → Reading α) :
    JsonItems → Reading (α × JsonItems)
  | .done => .ok (default, .done)
  | .cut fault => .error (.fault fault)
  | .more item rest => return (← read item, rest)

def readEnd : JsonItems → Reading Unit
  | .done => .ok ()
  | .cut fault => .error (.fault fault)
  | .more _ _ => .error (.fault .malformed)

end JsonItems

def Json.readList {α : Type} (read : Json → Reading α) : Json → Reading (List α)
  | .array items => items.readAll read
  | value => value.typeError "a sequence"

def JsonMembers.readAll {σ : Type} (visit : σ → String → Json → Reading σ) :
    σ → JsonMembers → Reading σ
  | state, .done => .ok state
  | _, .cut fault _ => .error (.fault fault)
  | _, .more none _ _ => .error (.fault .malformed)
  | state, .more (some name) value rest => do
      rest.readAll visit (← visit state name value)

def fillSlot {α : Type} (name : String) (slot : Option α) (read : Json → Reading α)
    (value : Json) : Reading (Option α) :=
  if slot.isSome then .error (.duplicateField name) else some <$> read value

def needSlot {α : Type} (name : String) (slot : Option α) : Reading α :=
  match slot with
  | some value => .ok value
  | none => .error (.missingField name)

def Json.readWhole {α : Type} (read : Json → Reading α) (text : String) : Reading α := do
  let (value, clean) := Json.read text
  let result ← read value
  if clean then return result else throw (.fault .malformed)

end DiceNotation
