import DiceNotation.Proofs.Json
import DiceNotation.Proofs.Json.Shape

/-! An object is read as a record exactly if each known field is given as the record wants it, in
whatever order, among whatever else.  What a field holds comes from the only member of its name. -/

namespace DiceNotation

abbrev Members := List (String × Json)

namespace Members

def values (name : String) (members : Members) : List Json :=
  (members.filter fun member => member.1 = name).map Prod.snd

def Gives {α : Type} (members : Members) (name : String) (read : Json → Reading α) (a : α) :
    Prop :=
  ∃ value, members.values name = [value] ∧ read value = .ok a

/-- No member of these names is repeated. -/
def Once (names : List String) (members : Members) : Prop :=
  ∀ name ∈ names, (members.values name).length ≤ 1

def Skippable (members : Members) : Prop := ∀ member ∈ members, member.2.skip = .ok ()

@[simp] theorem values_nil (name : String) : values name [] = [] := rfl

theorem values_cons (name other : String) (value : Json) (rest : Members) :
    values name ((other, value) :: rest) =
      if other = name then value :: values name rest else values name rest := by
  by_cases same : other = name <;> simp [values, same]

@[simp] theorem values_cons_self (name : String) (value : Json) (rest : Members) :
    values name ((name, value) :: rest) = value :: values name rest := by
  simp [values_cons]

theorem values_cons_of_ne {name other : String} (value : Json) (rest : Members)
    (differs : other ≠ name) : values name ((other, value) :: rest) = values name rest := by
  simp [values_cons, differs]

theorem mem_values {name : String} {members : Members} {value : Json} :
    value ∈ members.values name ↔ (name, value) ∈ members := by
  simp [values]

theorem exists_gives_iff {α : Type} {members : Members} {name : String} {read : Json → Reading α} :
    (∃ a, members.Gives name read a) ↔
      (members.values name).length ≤ 1 ∧
        ∃ value ∈ members.values name, ∃ a, read value = .ok a := by
  constructor
  · rintro ⟨a, value, only, reads⟩
    simp [only, reads]
  · rintro ⟨once, value, member, a, reads⟩
    obtain ⟨other, only⟩ := List.length_eq_one_iff.mp
      (Nat.le_antisymm once (List.length_pos_of_mem member))
    rw [only, List.mem_singleton] at member
    subst member
    exact ⟨a, value, only, reads⟩

end Members

def Json.ofMembers (members : Members) : Json := .object (.ofList members)

def Json.ofRecords (records : List Members) : Json :=
  .array (.ofList (records.map Json.ofMembers))

theorem JsonMembers.ofList_injective : Function.Injective ofList := by
  intro members
  induction members with
  | nil =>
      intro others same
      cases others with
      | nil => rfl
      | cons => cases same
  | cons member rest ih =>
      intro others same
      cases others with
      | nil => cases same
      | cons other others =>
          obtain ⟨name, value, behind⟩ := JsonMembers.more.inj same
          rw [Prod.ext (Option.some.inj name) value, ih behind]

theorem JsonItems.ofList_injective : Function.Injective ofList := by
  intro items
  induction items with
  | nil =>
      intro others same
      cases others with
      | nil => rfl
      | cons => cases same
  | cons item rest ih =>
      intro others same
      cases others with
      | nil => cases same
      | cons other others =>
          obtain ⟨first, behind⟩ := JsonItems.more.inj same
          rw [first, ih behind]

theorem Json.ofMembers_injective : Function.Injective Json.ofMembers := fun _ _ same =>
  JsonMembers.ofList_injective (Json.object.inj same)

theorem Json.ofRecords_injective : Function.Injective Json.ofRecords := fun _ _ same =>
  Json.ofMembers_injective.list_map (JsonItems.ofList_injective (Json.array.inj same))

theorem Json.skip_ofMembers {members : Members} :
    (Json.ofMembers members).skip = .ok () ↔ members.Skippable := by
  unfold Json.ofMembers Members.Skippable
  rw [Json.skip]
  induction members with
  | nil => simp [JsonMembers.ofList, JsonMembers.skip]
  | cons member rest ih =>
      rw [List.forall_mem_cons, ← ih, JsonMembers.ofList, JsonMembers.skip]
      cases member.2.skip <;> simp

theorem Json.skip_ofRecords {records : List Members} :
    (Json.ofRecords records).skip = .ok () ↔ ∀ record ∈ records, record.Skippable := by
  unfold Json.ofRecords
  rw [Json.skip]
  induction records with
  | nil => simp [JsonItems.ofList, JsonItems.skip]
  | cons record rest ih =>
      rw [List.forall_mem_cons, ← ih, ← Json.skip_ofMembers, List.map_cons, JsonItems.ofList,
        JsonItems.skip]
      cases (Json.ofMembers record).skip <;> simp

namespace RecordField

/-- The field is given once and holds what its value is read as, or it is not given and holds
its default. -/
def Holds (field : RecordField) (members : Members) (a : field.α) : Prop :=
  members.Gives field.name field.read a ∨
    members.values field.name = [] ∧ field.default? = some a

/-- The field is given something that it can read, or need not be given. -/
def Usable (field : RecordField) (members : Members) : Prop :=
  (∃ value ∈ members.values field.name, ∃ a, field.read value = .ok a) ∨
    members.values field.name = [] ∧ ∃ a, field.default? = some a

theorem exists_holds_iff {field : RecordField} {members : Members} :
    (∃ a, field.Holds members a) ↔
      (members.values field.name).length ≤ 1 ∧ field.Usable members := by
  simp only [Holds, exists_or, Members.exists_gives_iff, exists_and_left]
  constructor
  · rintro (⟨once, given⟩ | absent)
    · exact ⟨once, .inl given⟩
    · exact ⟨by simp [absent.1], .inr absent⟩
  · rintro ⟨once, given | absent⟩
    · exact .inl ⟨once, given⟩
    · exact .inr absent

/-- The members of its name lead the slot of a field from the one state to the other. -/
def Fills (field : RecordField) (members : Members) (before after : Option field.α) : Prop :=
  members.values field.name = [] ∧ after = before ∨
    before = none ∧ ∃ a, members.Gives field.name field.read a ∧ after = some a

variable {field : RecordField} {members rest : Members} {name : String} {value : Json}
  {before after : Option field.α}

theorem fills_cons_of_ne (differs : name ≠ field.name) :
    field.Fills ((name, value) :: rest) before after ↔ field.Fills rest before after := by
  simp only [Fills, Members.Gives, Members.values_cons_of_ne value rest differs]

theorem fills_cons_self :
    field.Fills ((field.name, value) :: rest) before after ↔
      before = none ∧ ∃ a, field.read value = .ok a ∧ field.Fills rest (some a) after := by
  simp only [Fills, Members.Gives, Members.values_cons_self]
  constructor
  · rintro (⟨impossible, _⟩ | ⟨empty, a, ⟨_, only, reads⟩, rfl⟩)
    · cases impossible
    · obtain ⟨rfl, behind⟩ := List.cons.inj only
      exact ⟨empty, a, reads, .inl ⟨behind, rfl⟩⟩
  · rintro ⟨empty, a, reads, ⟨behind, rfl⟩ | ⟨impossible, _⟩⟩
    · exact .inr ⟨empty, a, ⟨value, by rw [behind], reads⟩, rfl⟩
    · cases impossible

theorem exists_fills_iff {a : field.α} :
    (∃ slot, field.Fills members none slot ∧ slot.or field.default? = some a) ↔
      field.Holds members a := by
  constructor
  · rintro ⟨_, ⟨lacking, rfl⟩ | ⟨_, a, gives, rfl⟩, same⟩
    · exact .inr ⟨lacking, same⟩
    · cases same
      exact .inl gives
  · rintro (gives | ⟨lacking, given⟩)
    · exact ⟨some a, .inr ⟨rfl, a, gives, rfl⟩, rfl⟩
    · exact ⟨none, .inl ⟨lacking, rfl⟩, given⟩

end RecordField

/-- Every field holds its part of the row. -/
def Row.Holds : (fields : List RecordField) → Members → Row fields → Prop
  | [], _, _ => True
  | field :: rest, members, (a, row) => field.Holds members a ∧ Holds rest members row

def Members.Passes (fields : List RecordField) (members : Members) : Prop :=
  ∀ member ∈ members, member.1 ∉ fields.map RecordField.name → member.2.skip = .ok ()

def Members.without (name : String) (members : Members) : Members :=
  members.filter fun member => member.1 ≠ name

section

variable {field : RecordField} {fields : List RecordField} {members : Members}

theorem Members.values_without {name other : String} (differs : other ≠ name) :
    (members.without name).values other = members.values other := by
  rw [values, without, List.filter_filter, values]
  congr 2
  funext member
  by_cases same : member.1 = other <;> simp [same, differs]

theorem RecordField.holds_without {name : String} (differs : field.name ≠ name) {a : field.α} :
    field.Holds (members.without name) a ↔ field.Holds members a := by
  simp only [Holds, Members.Gives, Members.values_without differs]

theorem Row.holds_without {name : String} (other : name ∉ fields.map RecordField.name)
    {row : Row fields} :
    Row.Holds fields (members.without name) row ↔ Row.Holds fields members row := by
  induction fields with
  | nil => exact Iff.rfl
  | cons field rest ih =>
      rw [List.map_cons, List.mem_cons, not_or] at other
      exact and_congr (RecordField.holds_without (Ne.symm other.1)) (ih other.2)

theorem Members.passes_cons :
    members.Passes (field :: fields) ↔ (members.without field.name).Passes fields := by
  simp only [Passes, without, List.map_cons, List.mem_cons, List.mem_filter, not_or, and_imp,
    decide_eq_true_eq, ne_eq]

/-- A visit leads the slot of the first field on its own; the others see the remaining members. -/
theorem JsonMembers.readAll_visit_cons {slot slot' : Option field.α} {slots slots' : Slots fields} :
    (ofList members).readAll (Slots.visit (field :: fields)) (slot, slots) = .ok (slot', slots') ↔
      field.Fills members slot slot' ∧
        (ofList (members.without field.name)).readAll (Slots.visit fields) slots = .ok slots' := by
  induction members generalizing slot slots with
  | nil =>
      simp [ofList, readAll, RecordField.Fills, Members.Gives, Members.without, eq_comm]
  | cons member rest ih =>
      obtain ⟨name, value⟩ := member
      by_cases here : name = field.name
      · subst here
        have others : Members.without field.name ((field.name, value) :: rest) =
            Members.without field.name rest := by simp [Members.without]
        rw [RecordField.fills_cons_self, others, ofList, readAll, Slots.visit, if_pos rfl]
        simp only [Outcome.bind_eq_ok_iff, fillSlot_eq_ok_iff, Outcome.pure_eq_ok, Except.ok.injEq]
        constructor
        · rintro ⟨_, ⟨_, ⟨empty, a, reads, rfl⟩, rfl⟩, onward⟩
          obtain ⟨fills, remaining⟩ := ih.mp onward
          exact ⟨⟨empty, a, reads, fills⟩, remaining⟩
        · rintro ⟨⟨empty, a, reads, fills⟩, remaining⟩
          exact ⟨_, ⟨_, ⟨empty, a, reads, rfl⟩, rfl⟩, ih.mpr ⟨fills, remaining⟩⟩
      · have others : Members.without field.name ((name, value) :: rest) =
            (name, value) :: Members.without field.name rest := by simp [Members.without, here]
        rw [RecordField.fills_cons_of_ne here, others, ofList, ofList, readAll, readAll, Slots.visit,
          if_neg here]
        simp only [Outcome.bind_eq_ok_iff, Outcome.pure_eq_ok, Except.ok.injEq]
        constructor
        · rintro ⟨_, ⟨next, visited, rfl⟩, onward⟩
          obtain ⟨fills, remaining⟩ := ih.mp onward
          exact ⟨fills, next, visited, remaining⟩
        · rintro ⟨fills, next, visited, remaining⟩
          exact ⟨_, ⟨next, visited, rfl⟩, ih.mpr ⟨fills, remaining⟩⟩

theorem Slots.close_cons {slot : Option field.α} {slots : Slots fields} {a : field.α}
    {row : Row fields} :
    Slots.close (field :: fields) (slot, slots) = .ok (a, row) ↔
      slot.or field.default? = some a ∧ Slots.close fields slots = .ok row := by
  simp [Slots.close, Outcome.bind_eq_ok_iff, needSlot_eq_ok_iff]

theorem Members.passes_nil_cons {name : String} {value : Json} {rest : Members} :
    Members.Passes [] ((name, value) :: rest) ↔ value.skip = .ok () ∧ Members.Passes [] rest := by
  simp [Passes]

theorem JsonMembers.readAll_visit_nil :
    (ofList members).readAll (Slots.visit []) () = .ok () ↔ members.Passes [] := by
  induction members with
  | nil => simp [ofList, readAll, Members.Passes]
  | cons member rest ih =>
      obtain ⟨name, value⟩ := member
      have skips : Slots.visit [] () name value = .ok () ↔ value.skip = .ok () := by
        cases skipped : value.skip <;> simp [Slots.visit, Json.readSkipped, skipped]
      rw [ofList, readAll, Members.passes_nil_cons, ← ih, ← skips, Outcome.bind_eq_ok_iff]
      exact ⟨fun ⟨_, step, onward⟩ => ⟨step, onward⟩, fun ⟨step, onward⟩ => ⟨(), step, onward⟩⟩

/-- The members of an object are read as a row exactly if each field holds its part of it and
all other members can be skipped. -/
theorem JsonMembers.read_iff_holds (distinct : (fields.map RecordField.name).Nodup)
    {row : Row fields} :
    (∃ slots, (ofList members).readAll (Slots.visit fields) (.empty fields) = .ok slots ∧
      slots.close = .ok row) ↔ Row.Holds fields members row ∧ members.Passes fields := by
  induction fields generalizing members with
  | nil =>
      rw [Row.Holds, true_and, ← readAll_visit_nil]
      exact ⟨fun ⟨_, visited, _⟩ => visited, fun visited => ⟨(), visited, rfl⟩⟩
  | cons field rest ih =>
      obtain ⟨a, row⟩ := row
      rw [List.map_cons, List.nodup_cons] at distinct
      have others := @ih (members.without field.name) distinct.2 row
      rw [Row.holds_without distinct.1, ← Members.passes_cons] at others
      rw [Row.Holds, and_assoc, ← others, ← RecordField.exists_fills_iff]
      constructor
      · rintro ⟨⟨slot, slots⟩, visited, closed⟩
        obtain ⟨fills, remaining⟩ := readAll_visit_cons.mp visited
        obtain ⟨value, closed⟩ := Slots.close_cons.mp closed
        exact ⟨⟨slot, fills, value⟩, slots, remaining, closed⟩
      · rintro ⟨⟨slot, fills, value⟩, slots, remaining, closed⟩
        exact ⟨(slot, slots), readAll_visit_cons.mpr ⟨fills, remaining⟩,
          Slots.close_cons.mpr ⟨value, closed⟩⟩

theorem Row.exists_holds_iff :
    (∃ row, Row.Holds fields members row) ↔ ∀ field ∈ fields, ∃ a, field.Holds members a := by
  induction fields with
  | nil => simp [Row.Holds]
  | cons field rest ih =>
      rw [List.forall_mem_cons, ← ih]
      constructor
      · rintro ⟨⟨a, row⟩, holds, others⟩
        exact ⟨⟨a, holds⟩, row, others⟩
      · rintro ⟨⟨a, holds⟩, row, others⟩
        exact ⟨(a, row), holds, others⟩

theorem Members.Skippable.passes (skippable : members.Skippable) : members.Passes fields :=
  fun member present _ => skippable member present

theorem JsonMembers.find?_ofList (name : String) :
    (ofList members).find? name = (members.values name).head? := by
  induction members with
  | nil => rfl
  | cons member rest ih =>
      obtain ⟨other, value⟩ := member
      rw [ofList, find?, ih, Members.values_cons]
      by_cases same : other = name <;> simp [same]

theorem Row.from_of_holds {index : Nat} {row : Row fields} (holds : Row.Holds fields members row) :
    Row.From (Json.ofMembers members) fields index row := by
  induction fields generalizing index with
  | nil => trivial
  | cons field rest ih =>
      obtain ⟨a, row⟩ := row
      refine ⟨?_, ih holds.2⟩
      rw [Json.ofMembers, Json.field?, JsonMembers.find?_ofList]
      rcases holds.1 with ⟨value, only, reads⟩ | ⟨lacking, given⟩
      · rw [only]
        exact reads
      · rw [lacking]
        exact given

theorem JsonMembers.exists_ofList {σ : Type} {visit : σ → String → Json → Reading σ}
    {state final : σ} {object : JsonMembers} (visited : object.readAll visit state = .ok final) :
    ∃ members, object = ofList members := by
  fun_induction JsonMembers.readAll visit state object with
  | case1 state => exact ⟨[], rfl⟩
  | case2 state read skip => cases visited
  | case3 state value rest => cases visited
  | case4 state name value rest ih =>
      obtain ⟨next, _, onward⟩ := Outcome.bind_eq_ok_iff.mp visited
      obtain ⟨members, rfl⟩ := ih next onward
      exact ⟨(name, value) :: members, rfl⟩

end

theorem JsonItems.readAll_ofList {α : Type} {read : Json → Reading α} {items : List Json}
    {values : List α} :
    (ofList items).readAll read = .ok values ↔
      List.Forall₂ (fun item value => read item = .ok value) items values := by
  induction items generalizing values with
  | nil => simp [ofList, readAll, eq_comm]
  | cons item rest ih =>
      simp only [ofList, readAll, Outcome.bind_eq_ok_iff, Outcome.pure_eq_ok, Except.ok.injEq, ih,
        List.forall₂_cons_left_iff]
      constructor
      · rintro ⟨value, reads, others, all, rfl⟩
        exact ⟨value, others, reads, all, rfl⟩
      · rintro ⟨value, others, reads, all, rfl⟩
        exact ⟨value, reads, others, all, rfl⟩

theorem Json.readList_ofRecords {α : Type} {read : Json → Reading α} {records : List Members}
    {values : List α} :
    (Json.ofRecords records).readList read = .ok values ↔
      List.Forall₂ (fun record value => read (Json.ofMembers record) = .ok value) records
        values := by
  rw [Json.ofRecords, Json.readList, JsonItems.readAll_ofList, List.forall₂_map_left_iff]

namespace Record

variable {σ : Type} {record : Record σ} {members : Members} {value : σ}

theorem ofJson_ofMembers :
    record.ofJson (Json.ofMembers members) = .ok value ↔
      Row.Holds record.fields members (record.row value) ∧ members.Passes record.fields := by
  rw [← JsonMembers.read_iff_holds record.distinct]
  simp only [Json.ofMembers, ofJson, Outcome.bind_eq_ok_iff, Outcome.pure_eq_ok, Except.ok.injEq]
  constructor
  · rintro ⟨slots, visited, row, closed, rfl⟩
    exact ⟨slots, visited, by rw [record.row_build, closed]⟩
  · rintro ⟨slots, visited, closed⟩
    exact ⟨slots, visited, _, closed, record.build_row value⟩

/-- Some value has what the members of an object give its fields exactly if no field is given
twice and each of them is usable. -/
theorem exists_holds_iff :
    (∃ value, Row.Holds record.fields members (record.row value)) ↔
      members.Once (record.fields.map RecordField.name) ∧
        ∀ field ∈ record.fields, field.Usable members := by
  calc (∃ value, Row.Holds record.fields members (record.row value))
      ↔ ∃ row, Row.Holds record.fields members row := by
        constructor
        · rintro ⟨value, holds⟩
          exact ⟨record.row value, holds⟩
        · rintro ⟨row, holds⟩
          exact ⟨record.build row, by rwa [record.row_build]⟩
    _ ↔ ∀ field ∈ record.fields,
          (members.values field.name).length ≤ 1 ∧ field.Usable members := by
        simp only [Row.exists_holds_iff, RecordField.exists_holds_iff]
    _ ↔ members.Once (record.fields.map RecordField.name) ∧
          ∀ field ∈ record.fields, field.Usable members := by
        simp only [Members.Once, List.forall_mem_map, ← forall₂_and]

theorem from_of_ofJson {document : Json} (read : record.ofJson document = .ok value) :
    Row.From document record.fields 0 (record.row value) := by
  cases document with
  | object object =>
      obtain ⟨slots, visited, _⟩ := Outcome.bind_eq_ok_iff.mp read
      obtain ⟨members, rfl⟩ := JsonMembers.exists_ofList visited
      exact Row.from_of_holds (ofJson_ofMembers.mp read).1
  | array items =>
      obtain ⟨row, ofItems, same⟩ := Outcome.bind_eq_ok_iff.mp read
      cases same
      rw [record.row_build]
      exact Row.from_of_ofItems rfl ofItems
  | _ => exact absurd read Json.typeError_ne_ok

end Record

/-- What is written has no numbers and is read as the value it was written for. -/
def Restores {α : Type} (read : Json → Reading α) (write : α → Writing Json) : Prop :=
  ∀ value doc, write value = .ok doc → doc.Plain ∧ read doc = .ok value

theorem JsonMembers.plain_ofList {members : Members} :
    (ofList members).Plain ↔ ∀ member ∈ members, member.2.Plain := by
  induction members with
  | nil => simp [ofList, Plain]
  | cons member rest ih => simp [ofList, Plain, ih]

section

variable {field : RecordField} {fields : List RecordField} {members : Members}

theorem Row.write_cons_eq_ok_iff {a : field.α} {row : Row fields} :
    Row.write (field :: fields) (a, row) = .ok members ↔ ∃ doc others,
      field.write a = .ok doc ∧ Row.write fields row = .ok others ∧
        members = (field.name, doc) :: others := by
  simp only [Row.write, Outcome.bind_eq_ok_iff, Outcome.pure_eq_ok, Except.ok.injEq]
  constructor
  · rintro ⟨doc, wrote, others, remaining, rfl⟩
    exact ⟨doc, others, wrote, remaining, rfl⟩
  · rintro ⟨doc, others, wrote, remaining, rfl⟩
    exact ⟨doc, wrote, others, remaining, rfl⟩

theorem Row.names_of_write {row : Row fields} (written : Row.write fields row = .ok members) :
    members.map Prod.fst = fields.map RecordField.name := by
  induction fields generalizing members with
  | nil =>
      cases written
      rfl
  | cons field rest ih =>
      obtain ⟨doc, others, _, remaining, rfl⟩ := write_cons_eq_ok_iff.mp written
      rw [List.map_cons, List.map_cons, ih remaining]

theorem Row.plain_of_write (restores : ∀ field ∈ fields, Restores field.read field.write)
    {row : Row fields} (written : Row.write fields row = .ok members) :
    ∀ member ∈ members, member.2.Plain := by
  induction fields generalizing members with
  | nil =>
      cases written
      exact fun member present => nomatch present
  | cons field rest ih =>
      obtain ⟨doc, others, wrote, remaining, rfl⟩ := write_cons_eq_ok_iff.mp written
      obtain ⟨head, tail⟩ := List.forall_mem_cons.mp restores
      exact List.forall_mem_cons.mpr ⟨(head _ _ wrote).1, ih tail remaining⟩

theorem Row.holds_cons {name : String} {value : Json}
    (other : name ∉ fields.map RecordField.name) {row : Row fields} :
    Row.Holds fields ((name, value) :: members) row ↔ Row.Holds fields members row := by
  have same : Members.without name ((name, value) :: members) = members.without name := by
    simp [Members.without]
  rw [← holds_without other, same, holds_without other]

theorem Row.holds_of_write (restores : ∀ field ∈ fields, Restores field.read field.write)
    (distinct : (fields.map RecordField.name).Nodup) {row : Row fields}
    (written : Row.write fields row = .ok members) : Row.Holds fields members row := by
  induction fields generalizing members with
  | nil => trivial
  | cons field rest ih =>
      obtain ⟨doc, others, wrote, remaining, rfl⟩ := write_cons_eq_ok_iff.mp written
      obtain ⟨head, tail⟩ := List.forall_mem_cons.mp restores
      rw [List.map_cons, List.nodup_cons] at distinct
      have behind : Members.values field.name others = [] := by
        rw [List.eq_nil_iff_forall_not_mem]
        intro value present
        have named := List.mem_map_of_mem (f := Prod.fst) (Members.mem_values.mp present)
        exact distinct.1 (names_of_write remaining ▸ named)
      refine ⟨.inl ⟨doc, ?_, (head _ _ wrote).2⟩,
        (holds_cons distinct.1).mpr (ih tail distinct.2 remaining)⟩
      rw [Members.values_cons_self, behind]

end

theorem Record.restores {σ : Type} {record : Record σ}
    (each : ∀ field ∈ record.fields, Restores field.read field.write) :
    Restores record.ofJson record.toJson := by
  intro value doc written
  obtain ⟨members, wrote, same⟩ := Outcome.bind_eq_ok_iff.mp written
  cases same
  have known : Members.Passes record.fields members := fun member present unknown =>
    absurd (Row.names_of_write wrote ▸ List.mem_map_of_mem present) unknown
  exact ⟨JsonMembers.plain_ofList.mpr (Row.plain_of_write each wrote),
    ofJson_ofMembers.mpr ⟨Row.holds_of_write each record.distinct wrote, known⟩⟩

section

variable {α : Type} {read : Json → Reading α} {write : α → Writing Json}

theorem Restores.items (each : Restores read write) {values : List α} {docs : List Json}
    (written : values.mapM write = .ok docs) :
    (JsonItems.ofList docs).Plain ∧ (JsonItems.ofList docs).readAll read = .ok values := by
  induction values generalizing docs with
  | nil =>
      cases written
      exact ⟨trivial, rfl⟩
  | cons value rest ih =>
      rw [List.mapM_cons] at written
      obtain ⟨head, writtenHead, written⟩ := Outcome.bind_eq_ok_iff.mp written
      obtain ⟨others, writtenOthers, written⟩ := Outcome.bind_eq_ok_iff.mp written
      cases written
      obtain ⟨plainHead, readHead⟩ := each _ _ writtenHead
      obtain ⟨plainOthers, readOthers⟩ := ih writtenOthers
      refine ⟨⟨plainHead, plainOthers⟩, ?_⟩
      simp [JsonItems.ofList, JsonItems.readAll, readHead, readOthers]

end

end DiceNotation
