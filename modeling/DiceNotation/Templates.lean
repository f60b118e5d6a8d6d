import DiceNotation.Json.Record

namespace DiceNotation

structure RaceTemplate where
  name : String
  age : Expr
  heightModifier : Expr
  weightModifier : Expr
  deriving DecidableEq

structure ClassTemplate where
  name : String
  hitDice : Expr
  startingGold? : Option Expr
  deriving DecidableEq

structure BackgroundTemplate where
  name : String
  startingGold : Expr
  deriving DecidableEq

structure Templates where
  races : List RaceTemplate := []
  classes : List ClassTemplate := []
  backgrounds : List BackgroundTemplate := []
  deriving DecidableEq

namespace Templates

def race? (templates : Templates) (name : String) : Option RaceTemplate :=
  templates.races.find? (·.name = name)

def class? (templates : Templates) (name : String) : Option ClassTemplate :=
  templates.classes.find? (·.name = name)

def background? (templates : Templates) (name : String) : Option BackgroundTemplate :=
  templates.backgrounds.find? (·.name = name)

def summary (templates : Templates) : String :=
  "loaded " ++ toString templates.races.length ++ " races, " ++
    toString templates.classes.length ++ " classes and " ++
    toString templates.backgrounds.length ++ " backgrounds"

end Templates

def Expr.toJson (expr : Expr) : Writing Json := do
  return .string (← expr.fieldText)

def writeOptionalDice : Option Expr → Writing Json
  | none => return .null
  | some dice => dice.toJson

def writeList {α : Type} (write : α → Writing Json) (values : List α) : Writing Json := do
  return .array (.ofList (← values.mapM write))

namespace RecordField

def ofName : RecordField where
  name := "name"
  read := Json.readName
  write name := return .string name

def ofDice (name : String) : RecordField where
  name
  read := Json.readDice
  write := Expr.toJson

def ofOptionalDice (name : String) : RecordField where
  name
  read := Json.readOptionalDice
  write := writeOptionalDice
  default? := some none

def ofList {σ : Type} (name : String) (record : Record σ) : RecordField where
  name
  read := Json.readList record.ofJson
  write := writeList record.toJson
  default? := some []

end RecordField

open RecordField

def RaceTemplate.record : Record RaceTemplate where
  name := "RaceTemplate"
  fields := [ofName, ofDice "age", ofDice "height_modifier", ofDice "weight_modifier"]
  build := fun (name, age, heightModifier, weightModifier, ()) =>
    { name, age, heightModifier, weightModifier }
  row race := (race.name, race.age, race.heightModifier, race.weightModifier, ())
  build_row _ := rfl
  row_build _ := rfl
  distinct := by decide

def ClassTemplate.record : Record ClassTemplate where
  name := "ClassTemplate"
  fields := [ofName, ofDice "hit_dice", ofOptionalDice "starting_gold"]
  build := fun (name, hitDice, startingGold?, ()) => { name, hitDice, startingGold? }
  row cls := (cls.name, cls.hitDice, cls.startingGold?, ())
  build_row _ := rfl
  row_build _ := rfl
  distinct := by decide

def BackgroundTemplate.record : Record BackgroundTemplate where
  name := "BackgroundTemplate"
  fields := [ofName, ofDice "starting_gold"]
  build := fun (name, startingGold, ()) => { name, startingGold }
  row background := (background.name, background.startingGold, ())
  build_row _ := rfl
  row_build _ := rfl
  distinct := by decide

namespace Templates

def record : Record Templates where
  name := "Templates"
  fields := [ofList "races" RaceTemplate.record, ofList "classes" ClassTemplate.record,
    ofList "backgrounds" BackgroundTemplate.record]
  build := fun (races, classes, backgrounds, ()) => { races, classes, backgrounds }
  row templates := (templates.races, templates.classes, templates.backgrounds, ())
  build_row _ := rfl
  row_build _ := rfl
  distinct := by decide

def toText (templates : Templates) : Writing String := do
  return (← record.toJson templates).text

def ofText (text : String) : Reading Templates :=
  Json.readWhole record.ofJson text

end Templates

inductive TemplateError where
  | missingFile
  | notText
  | invalid (error : DocumentError)
  deriving DecidableEq

def TemplateError.message : TemplateError → String
  | .missingFile => "unable to read templates: No such file or directory (os error 2)"
  | .notText => "unable to read templates: stream did not contain valid UTF-8"
  | .invalid error => "invalid template file: " ++ error.message

namespace Templates

def load (text : String) : Except TemplateError Templates :=
  match ofText text with
  | .ok templates => .ok templates
  | .error error => .error (.invalid error)

/-- Loads the contents of a file, which may not exist. -/
def loadFile (file? : Option ByteArray) : Except TemplateError Templates :=
  match file? with
  | none => .error .missingFile
  | some bytes =>
      match String.fromUTF8? bytes with
      | none => .error .notText
      | some text => load text

end Templates

end DiceNotation
