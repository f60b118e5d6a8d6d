import DiceNotation.Json.Shape

namespace DiceNotation

abbrev Writing := Except WriteError

/-- A field of a record.  One without a default has to be given. -/
structure RecordField where
  name : String
  {α : Type}
  read : Json → Reading α
  write : α → Writing Json
  default? : Option α := none

@[reducible] def Row : List RecordField → Type
  | [] => Unit
  | field :: rest => field.α × Row rest

@[reducible] def Slots : List RecordField → Type
  | [] => Unit
  | field :: rest => Option field.α × Slots rest

namespace Slots

def empty : (fields : List RecordField) → Slots fields
  | [] => ()
  | _ :: rest => (none, empty rest)

/-- Reads a member of an object.  One of an unknown name is skipped. -/
def visit : (fields : List RecordField) → Slots fields → String → Json → Reading (Slots fields)
  | [], slots, _, value => do
      value.readSkipped
      return slots
  | field :: rest, (slot, slots), name, value =>
      if name = field.name then
        return (← fillSlot name slot field.read value, slots)
      else
        return (slot, ← visit rest slots name value)

def close : (fields : List RecordField) → Slots fields → Reading (Row fields)
  | [], _ => return ()
  | field :: rest, (slot, slots) => do
      let value ← needSlot field.name (slot.or field.default?)
      return (value, ← close rest slots)

end Slots

def RecordField.readNext (field : RecordField) (index : Nat) (expected : String)
    (items : JsonItems) : Reading (field.α × JsonItems) :=
  match field.default? with
  | none => items.readField index expected field.read
  | some default => items.readFieldOr default field.read

namespace Row

def ofItems (expected : String) :
    (fields : List RecordField) → (index : Nat) → JsonItems → Reading (Row fields)
  | [], _, items => items.readEnd
  | field :: rest, index, items => do
      let (value, items) ← field.readNext index expected items
      return (value, ← ofItems expected rest (index + 1) items)

def write : (fields : List RecordField) → Row fields → Writing (List (String × Json))
  | [], _ => return []
  | field :: rest, (value, row) => do
      let written ← field.write value
      return (field.name, written) :: (← write rest row)

end Row

/-- How a structure is kept in documents. -/
structure Record (σ : Type) where
  name : String
  fields : List RecordField
  build : Row fields → σ
  row : σ → Row fields
  build_row : ∀ value, build (row value) = value
  row_build : ∀ values, row (build values) = values
  distinct : (fields.map RecordField.name).Nodup

namespace Record

variable {σ : Type}

def ofJson (record : Record σ) : Json → Reading σ
  | .object members => do
      let slots ← members.readAll (Slots.visit record.fields) (.empty record.fields)
      return record.build (← slots.close)
  | .array items => do
      let expected :=
        "struct " ++ record.name ++ " with " ++ toString record.fields.length ++ " elements"
      return record.build (← Row.ofItems expected record.fields 0 items)
  | value => value.typeError ("struct " ++ record.name)

def toJson (record : Record σ) (value : σ) : Writing Json := do
  return .object (.ofList (← Row.write record.fields (record.row value)))

end Record

end DiceNotation
