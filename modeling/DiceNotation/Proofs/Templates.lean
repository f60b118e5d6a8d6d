import DiceNotation.Proofs.Field
import DiceNotation.Proofs.Json.Record
import DiceNotation.Templates

namespace DiceNotation

def RaceTemplate.dice (race : RaceTemplate) : List Expr :=
  [race.age, race.heightModifier, race.weightModifier]

def ClassTemplate.dice (cls : ClassTemplate) : List Expr :=
  cls.hitDice :: cls.startingGold?.toList

def BackgroundTemplate.dice (background : BackgroundTemplate) : List Expr :=
  [background.startingGold]

def Templates.dice (templates : Templates) : List Expr :=
  templates.races.flatMap RaceTemplate.dice ++ templates.classes.flatMap ClassTemplate.dice ++
    templates.backgrounds.flatMap BackgroundTemplate.dice

def lacking? (dice : List Expr) : Option WriteError :=
  (dice.find? fun expr => !expr.hasNotation).map WriteError.mk

theorem lacking?_append (dice more : List Expr) :
    lacking? (dice ++ more) = (lacking? dice).or (lacking? more) := by
  unfold lacking?
  rw [List.find?_append]
  cases dice.find? _ <;> rfl

theorem lacking?_eq_none_iff {dice : List Expr} :
    lacking? dice = none ↔ ∀ expr ∈ dice, expr.hasNotation = true := by
  simp [lacking?]

namespace Writing

variable {α β : Type}

def error? : Writing α → Option WriteError
  | .ok _ => none
  | .error error => some error

theorem error?_bind (writing : Writing α) (next : α → Writing β) {later : Option WriteError}
    (same : ∀ value, writing = .ok value → error? (next value) = later) :
    error? (writing >>= next) = writing.error?.or later := by
  cases writing with
  | error error => rfl
  | ok value => exact same value rfl

theorem error?_bind_pure (writing : Writing α) (f : α → β) :
    error? (writing >>= fun value => pure (f value)) = writing.error? := by
  cases writing <;> rfl

theorem error?_mapM {write : α → Writing β} {dice : α → List Expr}
    (each : ∀ value, (write value).error? = lacking? (dice value)) (values : List α) :
    error? (values.mapM write) = lacking? (values.flatMap dice) := by
  induction values with
  | nil => rfl
  | cons value rest ih =>
      rw [List.mapM_cons, List.flatMap_cons, lacking?_append, ← each value, ← ih]
      apply error?_bind
      intro written _
      apply error?_bind_pure

theorem error?_writeList {write : α → Writing Json} {dice : α → List Expr}
    (each : ∀ value, (write value).error? = lacking? (dice value)) (values : List α) :
    (writeList write values).error? = lacking? (values.flatMap dice) := by
  rw [← error?_mapM each values]
  apply error?_bind_pure

end Writing

open Writing

theorem lacking?_cons (expr : Expr) (rest : List Expr) :
    lacking? (expr :: rest) = expr.toJson.error?.or (lacking? rest) := by
  unfold Expr.toJson Expr.fieldText lacking?
  cases h : expr.hasNotation <;> simp [h, Writing.error?]

/-- The first field that cannot be written. -/
def Row.error? : (fields : List RecordField) → Row fields → Option WriteError
  | [], _ => none
  | field :: rest, (a, row) => (field.write a).error?.or (error? rest row)

theorem Row.error?_write (fields : List RecordField) (row : Row fields) :
    Writing.error? (Row.write fields row) = Row.error? fields row := by
  induction fields with
  | nil => rfl
  | cons field rest ih =>
      obtain ⟨a, row⟩ := row
      rw [Row.error?, ← ih]
      apply error?_bind
      intro written _
      apply error?_bind_pure

theorem Record.error?_toJson {σ : Type} (record : Record σ) (value : σ) :
    (record.toJson value).error? = Row.error? record.fields (record.row value) := by
  rw [← Row.error?_write]
  apply error?_bind_pure

theorem RaceTemplate.error?_toJson (race : RaceTemplate) :
    (record.toJson race).error? = lacking? race.dice := by
  rw [Record.error?_toJson, RaceTemplate.dice, lacking?_cons, lacking?_cons, lacking?_cons]
  rfl

theorem ClassTemplate.error?_toJson (cls : ClassTemplate) :
    (record.toJson cls).error? = lacking? cls.dice := by
  have optional : (writeOptionalDice cls.startingGold?).error?.or none =
      lacking? cls.startingGold?.toList := by
    cases cls.startingGold? with
    | none => rfl
    | some gold => rw [Option.toList_some, lacking?_cons]; rfl
  rw [Record.error?_toJson, ClassTemplate.dice, lacking?_cons, ← optional]
  rfl

theorem BackgroundTemplate.error?_toJson (background : BackgroundTemplate) :
    (record.toJson background).error? = lacking? background.dice := by
  rw [Record.error?_toJson, BackgroundTemplate.dice, lacking?_cons]
  rfl

theorem Templates.error?_toText (templates : Templates) :
    templates.toText.error? = lacking? templates.dice := by
  unfold Templates.toText
  rw [error?_bind_pure, Record.error?_toJson, Templates.dice, lacking?_append, lacking?_append,
    ← error?_writeList RaceTemplate.error?_toJson,
    ← error?_writeList ClassTemplate.error?_toJson,
    ← error?_writeList BackgroundTemplate.error?_toJson, Option.or_assoc]
  exact congrArg _ (congrArg _ Option.or_none)

theorem Expr.restores : Restores Json.readDice Expr.toJson := by
  intro expr doc written
  refine ⟨?_, Expr.readDice_toJson written⟩
  obtain ⟨_, rfl⟩ := Expr.toJson_eq_ok_iff.mp written
  trivial

namespace RecordField

theorem restores_ofName : Restores ofName.read ofName.write := by
  intro name doc written
  cases written
  exact ⟨trivial, rfl⟩

theorem restores_ofOptionalDice : Restores Json.readOptionalDice writeOptionalDice := by
  intro dice? doc written
  cases dice? with
  | none =>
      cases written
      exact ⟨trivial, rfl⟩
  | some dice =>
      obtain ⟨plain, reads⟩ := Expr.restores dice doc written
      have given : doc ≠ .null := by
        obtain ⟨_, rfl⟩ := Expr.toJson_eq_ok_iff.mp written
        simp
      rw [Json.readOptionalDice_of_ne_null given, reads]
      exact ⟨plain, rfl⟩

theorem restores_ofList {σ : Type} {record : Record σ}
    (each : Restores record.ofJson record.toJson) :
    Restores (Json.readList record.ofJson) (writeList record.toJson) := by
  intro values doc written
  obtain ⟨docs, wrote, same⟩ := Outcome.bind_eq_ok_iff.mp written
  cases same
  exact each.items wrote

end RecordField

open RecordField

theorem RaceTemplate.restores : Restores record.ofJson record.toJson := by
  apply Record.restores
  simp only [record, List.forall_mem_cons]
  exact ⟨restores_ofName, Expr.restores, Expr.restores, Expr.restores, List.forall_mem_nil _⟩

theorem ClassTemplate.restores : Restores record.ofJson record.toJson := by
  apply Record.restores
  simp only [record, List.forall_mem_cons]
  exact ⟨restores_ofName, Expr.restores, restores_ofOptionalDice, List.forall_mem_nil _⟩

theorem BackgroundTemplate.restores : Restores record.ofJson record.toJson := by
  apply Record.restores
  simp only [record, List.forall_mem_cons]
  exact ⟨restores_ofName, Expr.restores, List.forall_mem_nil _⟩

theorem Templates.restores : Restores record.ofJson record.toJson := by
  apply Record.restores
  simp only [record, List.forall_mem_cons]
  exact ⟨restores_ofList RaceTemplate.restores, restores_ofList ClassTemplate.restores,
    restores_ofList BackgroundTemplate.restores, List.forall_mem_nil _⟩

namespace Templates

variable {templates : Templates} {text : String}

theorem ofText_toText (saved : templates.toText = .ok text) : ofText text = .ok templates := by
  obtain ⟨doc, written, saved⟩ := Outcome.bind_eq_ok_iff.mp saved
  cases saved
  obtain ⟨plain, reads⟩ := restores _ _ written
  have whole := Json.read_text plain
  exact Json.readWhole_eq_ok_iff.mpr ⟨by rw [whole, reads], by rw [whole]⟩

theorem toText_ok_iff :
    (∃ text, templates.toText = .ok text) ↔ ∀ expr ∈ templates.dice, expr.hasNotation = true := by
  rw [← lacking?_eq_none_iff, ← error?_toText]
  cases templates.toText <;> simp [Writing.error?]

end Templates

end DiceNotation
