import DiceNotation.Proofs.Templates

namespace DiceNotation

def Json.dice? (name : String) (index : Nat) (record : Json) : Option Json :=
  match record.field? name index with
  | some .null => none
  | value? => value?

def RaceTemplate.sources (record : Json) : List Json :=
  (record.dice? "age" 1).toList ++ (record.dice? "height_modifier" 2).toList ++
    (record.dice? "weight_modifier" 3).toList

def ClassTemplate.sources (record : Json) : List Json :=
  (record.dice? "hit_dice" 1).toList ++ (record.dice? "starting_gold" 2).toList

def BackgroundTemplate.sources (record : Json) : List Json :=
  (record.dice? "starting_gold" 1).toList

def Templates.sources (document : Json) : List Json :=
  (document.entries "races" 0).flatMap RaceTemplate.sources ++
    (document.entries "classes" 1).flatMap ClassTemplate.sources ++
    (document.entries "backgrounds" 2).flatMap BackgroundTemplate.sources

def Json.Gives (source : Json) (expr : Expr) : Prop := source.readDice = .ok expr

namespace RecordField

open Json

variable {name : String} {index : Nat} {record : Json}

theorem sources_of_dice {dice : Expr}
    (accepts : (ofDice name).Accepts (record.field? name index) dice) :
    List.Forall₂ Gives (record.dice? name index).toList [dice] := by
  unfold dice?
  cases found : record.field? name index with
  | none =>
      rw [found] at accepts
      cases accepts
  | some value =>
      rw [found] at accepts
      cases value with
      | null => exact absurd accepts readDice_null
      | _ => exact .cons accepts .nil

theorem sources_of_optionalDice {dice? : Option Expr}
    (accepts : (ofOptionalDice name).Accepts (record.field? name index) dice?) :
    List.Forall₂ Gives (record.dice? name index).toList dice?.toList := by
  unfold Json.dice?
  cases found : record.field? name index with
  | none =>
      rw [found] at accepts
      cases accepts
      exact .nil
  | some value =>
      rw [found] at accepts
      by_cases null : value = .null
      · subst null
        cases accepts
        exact .nil
      · have reads : value.readOptionalDice = .ok dice? := accepts
        rw [readOptionalDice_of_ne_null null] at reads
        obtain ⟨expr, gives, rfl⟩ := Outcome.map_eq_ok_iff.mp reads
        cases value with
        | null => exact absurd rfl null
        | _ => exact .cons gives .nil

theorem entries_of_list {σ : Type} {item : Record σ} {values : List σ}
    (accepts : (ofList name item).Accepts (record.field? name index) values) :
    List.Forall₂ (fun entry value => item.ofJson entry = .ok value) (record.entries name index)
      values := by
  unfold entries
  cases found : record.field? name index with
  | none =>
      rw [found] at accepts
      cases accepts
      exact .nil
  | some value =>
      rw [found] at accepts
      cases value with
      | array items => exact JsonItems.readAll_eq_ok accepts
      | _ => exact absurd accepts typeError_ne_ok

end RecordField

open RecordField

theorem RaceTemplate.sources_of_ofJson {document : Json} {race : RaceTemplate}
    (read : record.ofJson document = .ok race) :
    List.Forall₂ Json.Gives (RaceTemplate.sources document) race.dice := by
  obtain ⟨_, age, height, weight, _⟩ := Record.from_of_ofJson read
  exact List.rel_append (List.rel_append (sources_of_dice age) (sources_of_dice height))
    (sources_of_dice weight)

theorem ClassTemplate.sources_of_ofJson {document : Json} {cls : ClassTemplate}
    (read : record.ofJson document = .ok cls) :
    List.Forall₂ Json.Gives (ClassTemplate.sources document) cls.dice := by
  obtain ⟨_, hit, gold, _⟩ := Record.from_of_ofJson read
  exact List.rel_append (sources_of_dice hit) (sources_of_optionalDice gold)

theorem BackgroundTemplate.sources_of_ofJson {document : Json} {background : BackgroundTemplate}
    (read : record.ofJson document = .ok background) :
    List.Forall₂ Json.Gives (BackgroundTemplate.sources document) background.dice := by
  obtain ⟨_, gold, _⟩ := Record.from_of_ofJson read
  exact sources_of_dice gold

theorem Templates.sources_of_ofJson {document : Json} {templates : Templates}
    (read : record.ofJson document = .ok templates) :
    List.Forall₂ Json.Gives (Templates.sources document) templates.dice := by
  obtain ⟨races, classes, backgrounds, _⟩ := Record.from_of_ofJson read
  have racesDice := List.rel_flatMap (entries_of_list races)
    fun _ _ read => RaceTemplate.sources_of_ofJson read
  have classesDice := List.rel_flatMap (entries_of_list classes)
    fun _ _ read => ClassTemplate.sources_of_ofJson read
  have backgroundsDice := List.rel_flatMap (entries_of_list backgrounds)
    fun _ _ read => BackgroundTemplate.sources_of_ofJson read
  exact List.rel_append (List.rel_append racesDice classesDice) backgroundsDice

/-- Of the values that are read, the numbers of more than 32 bits cannot be written. -/
theorem exists_lacking_iff {sources : List Json} {dice : List Expr}
    (given : List.Forall₂ Json.Gives sources dice) :
    (∃ expr ∈ dice, expr.hasNotation = false) ↔
      ∃ n > maxNumber, Json.number (.natural n) ∈ sources := by
  induction given with
  | nil => simp
  | cons gives _ ih =>
      have head := Json.hasNotation_of_readDice gives
      simp only [List.mem_cons, or_and_right, and_or_left, exists_or, exists_eq_left, head, ih,
        eq_comm (a := Json.number _)]

namespace Templates

theorem sources_of_ofText {text : String} {templates : Templates}
    (loaded : ofText text = .ok templates) :
    List.Forall₂ Json.Gives (sources (Json.read text).1) templates.dice :=
  sources_of_ofJson (Json.readWhole_eq_ok_iff.mp loaded).1

theorem toText_error_iff {templates : Templates} :
    (∃ error, templates.toText = .error error) ↔
      ∃ expr ∈ templates.dice, expr.hasNotation = false := by
  have saved := @toText_ok_iff templates
  cases outcome : templates.toText with
  | error error => simpa [outcome] using saved
  | ok text => simpa [outcome] using saved

/-- Templates whose dice have notations are saved and loaded as they were, all others are
not saved.  What keeps loaded templates from being saved is a number of more than 32 bits
that a dice field was given, and nothing else. -/
theorem saved_and_loaded :
    (∀ templates : Templates,
      ((∀ expr ∈ templates.dice, expr.hasNotation = true) →
        ∃ text, templates.toText = .ok text ∧ ofText text = .ok templates) ∧
      ((∃ expr ∈ templates.dice, expr.hasNotation = false) →
        ∃ error, templates.toText = .error error)) ∧
    ∀ (text : String) (templates : Templates), ofText text = .ok templates →
      List.Forall₂ Json.Gives (sources (Json.read text).1) templates.dice ∧
      ((∃ error, templates.toText = .error error) ↔
        ∃ n > maxNumber, Json.number (.natural n) ∈ sources (Json.read text).1) ∧
      ∀ saved, templates.toText = .ok saved → ofText saved = .ok templates := by
  refine ⟨fun templates => ⟨?_, toText_error_iff.mpr⟩, fun text templates loaded => ?_⟩
  · intro writable
    obtain ⟨text, saved⟩ := toText_ok_iff.mpr writable
    exact ⟨text, saved, ofText_toText saved⟩
  · have given := sources_of_ofText loaded
    refine ⟨given, ?_, fun _ => ofText_toText⟩
    rw [toText_error_iff, exists_lacking_iff given]

theorem saved_and_loaded_odd_names :
    let odd : Templates := {
      races := [⟨"\"\\\n\x01é🎲", .const 4294967295, .dice ⟨.d6, 2, by decide, by decide⟩, .const 0⟩]
      classes := [⟨"", .dropping ⟨.d6, 4, by decide, by decide⟩ .lowest, none⟩] }
    let signed : Templates := { backgrounds := [⟨"x", .const (-1)⟩] }
    let text := "\x7b\"backgrounds\":[[\"x\",4294967296]," ++
      "\x7b\"starting_gold\":\"d6x10\",\"name\":\"y\"\x7d]\x7d"
    let wide : Templates := { backgrounds := [⟨"x", .const 4294967296⟩,
      ⟨"y", .compound (.dice ⟨.d6, 1, by decide, by decide⟩) .mul (.const 10)⟩] }
    (∃ saved, odd.toText = .ok saved ∧ ofText saved = .ok odd) ∧
      (∃ error, signed.toText = .error error) ∧
      ofText text = .ok wide ∧ wide.toText = .error ⟨.const 4294967296⟩ ∧
      ∃ n > maxNumber, Json.number (.natural n) ∈ sources (Json.read text).1 := by
  intro odd signed text wide
  have loaded : ofText text = .ok wide := by decide +kernel
  have refused : wide.toText = .error ⟨.const 4294967296⟩ := by decide +kernel
  refine ⟨(saved_and_loaded.1 odd).1 (by decide), (saved_and_loaded.1 signed).2 ?_, loaded, refused,
    (saved_and_loaded.2 text wide loaded).2.1.mp ⟨_, refused⟩⟩
  exact ⟨.const (-1), by decide, by decide⟩

end Templates

end DiceNotation
