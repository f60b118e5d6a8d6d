import DiceNotation.Proofs.Json.Record
import DiceNotation.Proofs.Templates.Sources
import DiceNotation.Templates

namespace DiceNotation

def Json.Decodes (value : Json) : Prop := ∃ expr, value.readDice = .ok expr

namespace Members

def MayGive (members : Members) (name : String) : Option Expr → Prop
  | some dice => members.Gives name Json.readDice dice
  | none => members.values name = [] ∨ members.values name = [.null]

/-- The list of that name is given at most once, and then has only such records. -/
def Lists (name : String) (Good : Members → Prop) (members : Members) : Prop :=
  members.values name = [] ∨
    ∃ records, members.values name = [Json.ofRecords records] ∧ ∀ record ∈ records, Good record

def GivesList {α : Type} (members : Members) (name : String) (Each : Members → α → Prop)
    (list : List α) : Prop :=
  (members.values name = [] ∧ list = []) ∨
    ∃ records, members.values name = [Json.ofRecords records] ∧ List.Forall₂ Each records list

end Members

structure RaceTemplate.Readable (record : Members) : Prop where
  once : record.Once ["name", "age", "height_modifier", "weight_modifier"]
  named : ∃ name, .string name ∈ record.values "name"
  dice : ∀ name ∈ ["age", "height_modifier", "weight_modifier"],
    ∃ value ∈ record.values name, value.Decodes

structure ClassTemplate.Readable (record : Members) : Prop where
  once : record.Once ["name", "hit_dice", "starting_gold"]
  named : ∃ name, .string name ∈ record.values "name"
  hitDice : ∃ value ∈ record.values "hit_dice", value.Decodes
  startingGold : ∀ value ∈ record.values "starting_gold", value = .null ∨ value.Decodes

structure BackgroundTemplate.Readable (record : Members) : Prop where
  once : record.Once ["name", "starting_gold"]
  named : ∃ name, .string name ∈ record.values "name"
  startingGold : ∃ value ∈ record.values "starting_gold", value.Decodes

structure Templates.Readable (document : Members) : Prop where
  races : document.Lists "races" RaceTemplate.Readable
  classes : document.Lists "classes" ClassTemplate.Readable
  backgrounds : document.Lists "backgrounds" BackgroundTemplate.Readable

structure RaceTemplate.Holds (record : Members) (race : RaceTemplate) : Prop where
  name : record.values "name" = [.string race.name]
  age : record.Gives "age" Json.readDice race.age
  heightModifier : record.Gives "height_modifier" Json.readDice race.heightModifier
  weightModifier : record.Gives "weight_modifier" Json.readDice race.weightModifier

structure ClassTemplate.Holds (record : Members) (cls : ClassTemplate) : Prop where
  name : record.values "name" = [.string cls.name]
  hitDice : record.Gives "hit_dice" Json.readDice cls.hitDice
  startingGold : record.MayGive "starting_gold" cls.startingGold?

structure BackgroundTemplate.Holds (record : Members) (background : BackgroundTemplate) :
    Prop where
  name : record.values "name" = [.string background.name]
  startingGold : record.Gives "starting_gold" Json.readDice background.startingGold

structure Templates.Holds (document : Members) (templates : Templates) : Prop where
  races : document.GivesList "races" RaceTemplate.Holds templates.races
  classes : document.GivesList "classes" ClassTemplate.Holds templates.classes
  backgrounds : document.GivesList "backgrounds" BackgroundTemplate.Holds templates.backgrounds

theorem Json.readName_eq_ok_iff {value : Json} {name : String} :
    value.readName = .ok name ↔ value = .string name := by
  cases value with
  | string text => simp [Json.readName]
  | _ => simp [Json.readName, Json.typeError_ne_ok]

theorem Members.gives_readName_iff {members : Members} {key name : String} :
    members.Gives key Json.readName name ↔ members.values key = [.string name] := by
  simp [Members.Gives, Json.readName_eq_ok_iff]

theorem Json.readOptionalDice_eq_ok_iff {value : Json} {gold? : Option Expr} :
    value.readOptionalDice = .ok gold? ↔
      (value = .null ∧ gold? = none) ∨ ∃ gold, value.readDice = .ok gold ∧ gold? = some gold := by
  by_cases null : value = .null
  · subst null
    simp only [Json.readOptionalDice, Json.readDice_null, false_and, exists_false, or_false,
      true_and, Except.ok.injEq]
    exact eq_comm
  · rw [Json.readOptionalDice_of_ne_null null, Outcome.map_eq_ok_iff]
    simp [null, eq_comm]

namespace RecordField

variable {members : Members} {key : String}

theorem holds_ofName {name : String} :
    ofName.Holds members name ↔ members.values "name" = [.string name] := by
  rw [← Members.gives_readName_iff]
  exact or_iff_left fun absent => nomatch absent.2

theorem holds_ofDice {dice : Expr} :
    (ofDice key).Holds members dice ↔ members.Gives key Json.readDice dice :=
  or_iff_left fun absent => nomatch absent.2

theorem holds_ofOptionalDice {dice? : Option Expr} :
    (ofOptionalDice key).Holds members dice? ↔ members.MayGive key dice? := by
  constructor
  · rintro (⟨value, only, reads⟩ | ⟨lacking, same⟩)
    · rcases Json.readOptionalDice_eq_ok_iff.mp reads with ⟨rfl, rfl⟩ | ⟨dice, gives, rfl⟩
      · exact .inr only
      · exact ⟨value, only, gives⟩
    · cases same
      exact .inl lacking
  · intro mayGive
    cases dice? with
    | some dice =>
        obtain ⟨value, only, reads⟩ := mayGive
        exact .inl ⟨value, only, Json.readOptionalDice_eq_ok_iff.mpr (.inr ⟨_, reads, rfl⟩)⟩
    | none =>
        rcases mayGive with lacking | only
        · exact .inr ⟨lacking, rfl⟩
        · exact .inl ⟨.null, only, rfl⟩

theorem holds_ofList {σ : Type} {record : Record σ} {Each : Members → σ → Prop}
    (each : ∀ {members value}, members.Skippable →
      (record.ofJson (Json.ofMembers members) = .ok value ↔ Each members value))
    (skippable : members.Skippable)
    (listed : ∀ value ∈ members.values key, ∃ records, value = Json.ofRecords records)
    {list : List σ} :
    (ofList key record).Holds members list ↔ members.GivesList key Each list := by
  have readList {records : List Members} (only : members.values key = [Json.ofRecords records]) :
      (Json.ofRecords records).readList record.ofJson = .ok list ↔
        List.Forall₂ Each records list := by
    have member : (key, Json.ofRecords records) ∈ members := Members.mem_values.mp (by simp [only])
    have skips := Json.skip_ofRecords.mp (skippable _ member)
    rw [Json.readList_ofRecords, List.forall₂_iff_zip, List.forall₂_iff_zip]
    refine and_congr_right fun _ => forall₃_congr fun record a zipped => ?_
    exact each (skips record (List.of_mem_zip zipped).1)
  constructor
  · rintro (⟨value, only, reads⟩ | ⟨lacking, same⟩)
    · have member : value ∈ members.values key := List.mem_of_mem_head? (congrArg List.head? only)
      obtain ⟨records, rfl⟩ := listed value member
      exact .inr ⟨records, only, (readList only).mp reads⟩
    · cases same
      exact .inl ⟨lacking, rfl⟩
  · rintro (⟨lacking, rfl⟩ | ⟨records, only, reads⟩)
    · exact .inr ⟨lacking, rfl⟩
    · exact .inl ⟨_, only, (readList only).mpr reads⟩

end RecordField

open RecordField

theorem Record.ofJson_of_skippable {σ : Type} {record : Record σ} {members : Members} {value : σ}
    (skippable : members.Skippable) :
    record.ofJson (Json.ofMembers members) = .ok value ↔
      Row.Holds record.fields members (record.row value) := by
  rw [Record.ofJson_ofMembers, and_iff_left skippable.passes]

theorem RaceTemplate.holds_iff {members : Members} {race : RaceTemplate} :
    Row.Holds record.fields members (record.row race) ↔ Holds members race := by
  constructor
  · rintro ⟨name, age, height, weight, _⟩
    exact ⟨holds_ofName.mp name, holds_ofDice.mp age, holds_ofDice.mp height,
      holds_ofDice.mp weight⟩
  · rintro ⟨name, age, height, weight⟩
    exact ⟨holds_ofName.mpr name, holds_ofDice.mpr age, holds_ofDice.mpr height,
      holds_ofDice.mpr weight, trivial⟩

theorem ClassTemplate.holds_iff {members : Members} {cls : ClassTemplate} :
    Row.Holds record.fields members (record.row cls) ↔ Holds members cls := by
  constructor
  · rintro ⟨name, hitDice, gold, _⟩
    exact ⟨holds_ofName.mp name, holds_ofDice.mp hitDice, holds_ofOptionalDice.mp gold⟩
  · rintro ⟨name, hitDice, gold⟩
    exact ⟨holds_ofName.mpr name, holds_ofDice.mpr hitDice, holds_ofOptionalDice.mpr gold, trivial⟩

theorem BackgroundTemplate.holds_iff {members : Members} {background : BackgroundTemplate} :
    Row.Holds record.fields members (record.row background) ↔ Holds members background := by
  constructor
  · rintro ⟨name, gold, _⟩
    exact ⟨holds_ofName.mp name, holds_ofDice.mp gold⟩
  · rintro ⟨name, gold⟩
    exact ⟨holds_ofName.mpr name, holds_ofDice.mpr gold, trivial⟩

theorem Templates.ofJson_ofMembers {document : Members} {templates : Templates}
    (skippable : document.Skippable)
    (listed : ∀ name ∈ ["races", "classes", "backgrounds"], ∀ value ∈ document.values name,
      ∃ records, value = Json.ofRecords records) :
    record.ofJson (Json.ofMembers document) = .ok templates ↔ Holds document templates := by
  simp only [List.forall_mem_cons] at listed
  obtain ⟨listedRaces, listedClasses, listedBackgrounds, _⟩ := listed
  have races := @holds_ofList document "races" _ RaceTemplate.record _
    (fun skips => (Record.ofJson_of_skippable skips).trans RaceTemplate.holds_iff) skippable
    listedRaces templates.races
  have classes := @holds_ofList document "classes" _ ClassTemplate.record _
    (fun skips => (Record.ofJson_of_skippable skips).trans ClassTemplate.holds_iff) skippable
    listedClasses templates.classes
  have backgrounds := @holds_ofList document "backgrounds" _ BackgroundTemplate.record _
    (fun skips => (Record.ofJson_of_skippable skips).trans BackgroundTemplate.holds_iff) skippable
    listedBackgrounds templates.backgrounds
  rw [Record.ofJson_of_skippable skippable]
  constructor
  · rintro ⟨givesRaces, givesClasses, givesBackgrounds, _⟩
    exact ⟨races.mp givesRaces, classes.mp givesClasses, backgrounds.mp givesBackgrounds⟩
  · rintro ⟨givesRaces, givesClasses, givesBackgrounds⟩
    exact ⟨races.mpr givesRaces, classes.mpr givesClasses, backgrounds.mpr givesBackgrounds,
      trivial⟩

theorem Json.exists_readOptionalDice_iff {value : Json} :
    (∃ gold?, value.readOptionalDice = .ok gold?) ↔ value = .null ∨ value.Decodes := by
  simp only [Json.readOptionalDice_eq_ok_iff, Json.Decodes]
  constructor
  · rintro ⟨_, ⟨null, _⟩ | ⟨gold, reads, _⟩⟩
    · exact .inl null
    · exact .inr ⟨gold, reads⟩
  · rintro (null | ⟨gold, reads⟩)
    · exact ⟨none, .inl ⟨null, rfl⟩⟩
    · exact ⟨some gold, .inr ⟨gold, reads, rfl⟩⟩

namespace RecordField

variable {members : Members} {key : String}

theorem usable_ofName :
    ofName.Usable members ↔ ∃ name, .string name ∈ members.values "name" := by
  constructor
  · rintro (⟨value, member, name, reads⟩ | ⟨_, _, default⟩)
    · exact ⟨name, Json.readName_eq_ok_iff.mp reads ▸ member⟩
    · cases default
  · rintro ⟨name, member⟩
    exact .inl ⟨_, member, name, Json.readName_eq_ok_iff.mpr rfl⟩

theorem usable_ofDice :
    (ofDice key).Usable members ↔ ∃ value ∈ members.values key, value.Decodes :=
  or_iff_left (by simp [ofDice])

theorem usable_ofOptionalDice (once : (members.values key).length ≤ 1) :
    (ofOptionalDice key).Usable members ↔
      ∀ value ∈ members.values key, value = .null ∨ value.Decodes := by
  simp only [← Json.exists_readOptionalDice_iff]
  cases given : members.values key with
  | nil => simp [Usable, ofOptionalDice, given]
  | cons value rest =>
      rw [given] at once
      obtain rfl : rest = [] := by simpa using once
      simp [Usable, ofOptionalDice, given]

end RecordField

theorem RaceTemplate.readable_iff (members : Members) :
    Readable members ↔ ∃ race, Holds members race := by
  rw [← exists_congr fun _ => holds_iff, Record.exists_holds_iff]
  simp only [record, List.forall_mem_cons, usable_ofName, usable_ofDice]
  constructor
  · rintro ⟨once, named, dice⟩
    simp only [List.forall_mem_cons] at dice
    obtain ⟨age, height, weight, _⟩ := dice
    exact ⟨once, named, age, height, weight, List.forall_mem_nil _⟩
  · rintro ⟨once, named, age, height, weight, _⟩
    refine ⟨once, named, ?_⟩
    simp only [List.forall_mem_cons]
    exact ⟨age, height, weight, List.forall_mem_nil _⟩

theorem ClassTemplate.readable_iff (members : Members) :
    Readable members ↔ ∃ cls, Holds members cls := by
  rw [← exists_congr fun _ => holds_iff, Record.exists_holds_iff]
  simp only [record, List.forall_mem_cons, usable_ofName, usable_ofDice]
  constructor
  · rintro ⟨once, named, hitDice, gold⟩
    have goldOnce := once "starting_gold" (by simp)
    exact ⟨once, named, hitDice, (usable_ofOptionalDice goldOnce).mpr gold, List.forall_mem_nil _⟩
  · rintro ⟨once, named, hitDice, gold, _⟩
    have goldOnce := once "starting_gold" (by simp [ofOptionalDice])
    exact ⟨once, named, hitDice, (usable_ofOptionalDice goldOnce).mp gold⟩

theorem BackgroundTemplate.readable_iff (members : Members) :
    Readable members ↔ ∃ background, Holds members background := by
  rw [← exists_congr fun _ => holds_iff, Record.exists_holds_iff]
  simp only [record, List.forall_mem_cons, usable_ofName, usable_ofDice]
  constructor
  · rintro ⟨once, named, gold⟩
    exact ⟨once, named, gold, List.forall_mem_nil _⟩
  · rintro ⟨once, named, gold, _⟩
    exact ⟨once, named, gold⟩

theorem Members.lists_iff {α : Type} {Each : Members → α → Prop} {Good : Members → Prop}
    (members : Members) (name : String) (good : ∀ record, Good record ↔ ∃ a, Each record a) :
    members.Lists name Good ↔ ∃ list, members.GivesList name Each list := by
  constructor
  · rintro (lacking | ⟨records, only, each⟩)
    · exact ⟨[], .inl ⟨lacking, rfl⟩⟩
    · obtain ⟨list, all⟩ := Outcome.exists_forall₂_iff.mpr fun record member =>
        (good record).mp (each record member)
      exact ⟨list, .inr ⟨records, only, all⟩⟩
  · rintro ⟨list, ⟨lacking, _⟩ | ⟨records, only, all⟩⟩
    · exact .inl lacking
    · exact .inr ⟨records, only, fun record member =>
        (good record).mpr (Outcome.exists_forall₂_iff.mp ⟨list, all⟩ record member)⟩

theorem Templates.readable_iff {document : Members} :
    Readable document ↔ ∃ templates, Holds document templates := by
  have racesIff := Members.lists_iff document "races" RaceTemplate.readable_iff
  have classesIff := Members.lists_iff document "classes" ClassTemplate.readable_iff
  have backgroundsIff := Members.lists_iff document "backgrounds" BackgroundTemplate.readable_iff
  constructor
  · rintro ⟨races, classes, backgrounds⟩
    obtain ⟨races, givesRaces⟩ := racesIff.mp races
    obtain ⟨classes, givesClasses⟩ := classesIff.mp classes
    obtain ⟨backgrounds, givesBackgrounds⟩ := backgroundsIff.mp backgrounds
    exact ⟨⟨races, classes, backgrounds⟩, givesRaces, givesClasses, givesBackgrounds⟩
  · rintro ⟨templates, races, classes, backgrounds⟩
    exact ⟨racesIff.mpr ⟨_, races⟩, classesIff.mpr ⟨_, classes⟩,
      backgroundsIff.mpr ⟨_, backgrounds⟩⟩

namespace Templates

variable {text : String} {document : Members}

theorem load_eq_ok_iff {templates : Templates} :
    load text = .ok templates ↔ ofText text = .ok templates := by
  unfold load
  cases ofText text <;> simp

/-- A document is loaded exactly if it is readable, and then what is loaded is what it holds.
Everything else is refused as a whole. -/
theorem load_exact (read : Json.read text = (Json.ofMembers document, true))
    (valid : document.Skippable)
    (listed : ∀ name ∈ ["races", "classes", "backgrounds"], ∀ value ∈ document.values name,
      ∃ records, value = Json.ofRecords records) :
    ((∃ templates, load text = .ok templates) ↔ Readable document) ∧
      (∀ templates, load text = .ok templates ↔ Holds document templates) ∧
      (¬ Readable document → ∃ error, load text = .error (.invalid error)) := by
  have loaded (templates : Templates) :
      load text = .ok templates ↔ Holds document templates := by
    rw [load_eq_ok_iff, ofText, Json.readWhole_eq_ok_iff, read,
      ← ofJson_ofMembers valid listed]
    exact and_iff_left rfl
  have readable : (∃ templates, load text = .ok templates) ↔ Readable document := by
    rw [readable_iff]
    exact exists_congr loaded
  refine ⟨readable, loaded, fun refused => ?_⟩
  have nothing (templates : Templates) : ofText text ≠ .ok templates := fun given =>
    refused (readable.mp ⟨templates, load_eq_ok_iff.mpr given⟩)
  unfold load
  cases outcome : ofText text with
  | ok templates => exact absurd outcome (nothing templates)
  | error error => exact ⟨error, rfl⟩

theorem load_exact_reordered :
    let wizard : Members := [("hit_dice", .string "d6"), ("starting_gold", .null),
      ("name", .string "Wizard")]
    let fighter : Members := [("skills", .array (.more (.string "d7") .done)),
      ("starting_gold", .string "d4x10"), ("hit_dice", .string "d10"), ("name", .string "Fighter")]
    let acolyte : Members := [("name", .string "Acolyte"), ("starting_gold", .string "d7")]
    let sound : Members := [("backgrounds", Json.ofRecords []), ("age", .null),
      ("classes", Json.ofRecords [wizard, fighter])]
    let broken : Members := [("classes", Json.ofRecords [wizard]),
      ("backgrounds", Json.ofRecords [acolyte])]
    (Json.ofMembers sound).text = "\x7b\"backgrounds\":[],\"age\":null,\"classes\":" ++
      "[\x7b\"hit_dice\":\"d6\",\"starting_gold\":null,\"name\":\"Wizard\"\x7d," ++
      "\x7b\"skills\":[\"d7\"],\"starting_gold\":\"d4x10\",\"hit_dice\":\"d10\"," ++
      "\"name\":\"Fighter\"\x7d]\x7d" ∧
    load (Json.ofMembers sound).text = .ok {
      classes := [⟨"Wizard", .dice ⟨.d6, 1, by decide, by decide⟩, none⟩,
        ⟨"Fighter", .dice ⟨.d10, 1, by decide, by decide⟩,
          some (.compound (.dice ⟨.d4, 1, by decide, by decide⟩) .mul (.const 10))⟩] } ∧
    ∃ error, load (Json.ofMembers broken).text = .error (.invalid error) := by
  intro wizard fighter acolyte sound broken
  have readSound : Json.read (Json.ofMembers sound).text = (Json.ofMembers sound, true) :=
    Json.read_text (by simp [sound, wizard, fighter, Json.ofMembers, Json.ofRecords, Json.Plain,
      JsonItems.Plain, JsonMembers.Plain, JsonItems.ofList, JsonMembers.ofList])
  have readBroken : Json.read (Json.ofMembers broken).text = (Json.ofMembers broken, true) :=
    Json.read_text (by simp [broken, wizard, acolyte, Json.ofMembers, Json.ofRecords, Json.Plain,
      JsonItems.Plain, JsonMembers.Plain, JsonItems.ofList, JsonMembers.ofList])
  refine ⟨by decide +kernel, ?_, ?_⟩
  · have valid : Members.Skippable sound := Json.skip_ofMembers.mp rfl
    have loads := load_exact readSound valid (by simp [sound, Members.values_cons])
    refine (loads.2.1 _).mpr ⟨.inl ⟨rfl, rfl⟩, .inr ⟨_, rfl, ?_⟩, .inr ⟨_, rfl, .nil⟩⟩
    refine .cons ⟨rfl, ⟨_, rfl, ?_⟩, .inr rfl⟩
      (.cons ⟨rfl, ⟨_, rfl, ?_⟩, ⟨_, rfl, ?_⟩⟩ .nil)
    all_goals decide +kernel
  · have valid : Members.Skippable broken := Json.skip_ofMembers.mp rfl
    have loads := load_exact readBroken valid (by simp [broken, Members.values_cons])
    have sevenSided : (Json.string "d7").readDice.toOption = none := by decide +kernel
    refine loads.2.2 fun readable => ?_
    obtain lacking | ⟨records, only, each⟩ := readable.backgrounds
    · cases lacking
    · cases Json.ofRecords_injective (List.singleton_injective only)
      obtain ⟨value, given, dice, reads⟩ := (each acolyte (by simp)).startingGold
      obtain rfl : value = .string "d7" := by simpa [acolyte, Members.values_cons] using given
      simp [reads, Except.toOption] at sevenSided

end Templates

end DiceNotation
