import DiceNotation.Json.Record
import DiceNotation.Proofs.Outcome
import Mathlib.Data.List.Forall2

namespace DiceNotation

def JsonItems.toList : JsonItems → List Json
  | .more item rest => item :: rest.toList
  | _ => []

def JsonMembers.find? (key : String) : JsonMembers → Option Json
  | .more name? value rest => if name? = some key then some value else rest.find? key
  | _ => none

namespace Json

/-- The value of a field: the member of that name or, in a list, the item at that place. -/
def field? (name : String) (index : Nat) : Json → Option Json
  | .object members => members.find? name
  | .array items => items.toList[index]?
  | _ => none

def entries (name : String) (index : Nat) (record : Json) : List Json :=
  match record.field? name index with
  | some (.array items) => items.toList
  | _ => []

end Json

theorem fillSlot_eq_ok_iff {α : Type} {name : String} {slot next? : Option α}
    {read : Json → Reading α} {value : Json} :
    fillSlot name slot read value = .ok next? ↔
      slot = none ∧ ∃ a, read value = .ok a ∧ next? = some a := by
  unfold fillSlot
  cases slot with
  | some a => simp
  | none => cases read value <;> simp [eq_comm]

theorem needSlot_eq_ok_iff {α : Type} {name : String} {slot : Option α} {value : α} :
    needSlot name slot = .ok value ↔ slot = some value := by
  cases slot <;> simp [needSlot]

theorem JsonItems.readAll_eq_ok {α : Type} {read : Json → Reading α} {items : JsonItems}
    {values : List α} (all : items.readAll read = .ok values) :
    List.Forall₂ (fun item value => read item = .ok value) items.toList values := by
  fun_induction JsonItems.readAll read items generalizing values with
  | case1 =>
      cases all
      exact .nil
  | case2 fault => cases all
  | case3 item rest ih =>
      obtain ⟨value, reads, all⟩ := Outcome.bind_eq_ok_iff.mp all
      obtain ⟨others, readsOthers, all⟩ := Outcome.bind_eq_ok_iff.mp all
      cases all
      exact .cons reads (ih readsOthers)

theorem Json.typeError_ne_ok {α : Type} {value : Json} {expected : String} {a : α} :
    value.typeError expected ≠ .ok a := by
  intro impossible
  obtain ⟨_, _, impossible⟩ := Outcome.bind_eq_ok_iff.mp impossible
  cases impossible

def RecordField.Accepts (field : RecordField) : Option Json → field.α → Prop
  | some value, a => field.read value = .ok a
  | none, a => field.default? = some a

/-- The fields hold what the record gives under their names or, from this place on, in their
order. -/
def Row.From (record : Json) : (fields : List RecordField) → (index : Nat) → Row fields → Prop
  | [], _, _ => True
  | field :: rest, index, (a, row) =>
      field.Accepts (record.field? field.name index) a ∧ From record rest (index + 1) row

theorem RecordField.accepts_of_readNext {field : RecordField} {index : Nat} {expected : String}
    {items rest : JsonItems} {a : field.α}
    (read : field.readNext index expected items = .ok (a, rest)) :
    field.Accepts items.toList.head? a ∧ rest.toList = items.toList.tail := by
  unfold readNext at read
  split at read <;> cases items <;> try cases read
  · next item others =>
      obtain ⟨_, reads, same⟩ := Outcome.bind_eq_ok_iff.mp read
      cases same
      exact ⟨reads, rfl⟩
  · next given => exact ⟨given, rfl⟩
  · next item others =>
      obtain ⟨_, reads, same⟩ := Outcome.bind_eq_ok_iff.mp read
      cases same
      exact ⟨reads, rfl⟩

theorem Row.from_of_ofItems {expected : String} {fields : List RecordField} {index : Nat}
    {items whole : JsonItems} {row : Row fields} (place : items.toList = whole.toList.drop index)
    (read : Row.ofItems expected fields index items = .ok row) :
    Row.From (.array whole) fields index row := by
  induction fields generalizing index items with
  | nil => trivial
  | cons field rest ih =>
      obtain ⟨⟨a, others⟩, next, read⟩ := Outcome.bind_eq_ok_iff.mp read
      obtain ⟨row, onward, same⟩ := Outcome.bind_eq_ok_iff.mp read
      cases same
      obtain ⟨accepts, behind⟩ := RecordField.accepts_of_readNext next
      rw [place, List.head?_drop] at accepts
      rw [place, List.tail_drop] at behind
      exact ⟨accepts, ih behind onward⟩

theorem Json.readWhole_eq_ok_iff {α : Type} {read : Json → Reading α} {text : String}
    {result : α} :
    Json.readWhole read text = .ok result ↔
      read (Json.read text).1 = .ok result ∧ (Json.read text).2 = true := by
  unfold Json.readWhole
  cases Json.read text with
  | mk value clean =>
      cases outcome : read value <;> cases clean <;> simp [outcome]

end DiceNotation
