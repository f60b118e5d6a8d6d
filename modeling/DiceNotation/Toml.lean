import DiceNotation.Binary64
import DiceNotation.Datetime

/-! Entries are kept in the order of their keys, which is the order of the code points.
Inserting under a key changes what is found there and nowhere else. -/

namespace DiceNotation

abbrev Entries (α : Type) := List (String × α)

namespace Entries

variable {α : Type}

def find? (key : String) : Entries α → Option α
  | [] => none
  | (name, value) :: rest => if name = key then some value else find? key rest

def insert (key : String) (value : α) : Entries α → Entries α
  | [] => [(key, value)]
  | (name, other) :: rest =>
      if name = key then (key, value) :: rest
      else if key < name then (key, value) :: (name, other) :: rest
      else (name, other) :: insert key value rest

def contains (key : String) (entries : Entries α) : Bool := (find? key entries).isSome

def ofList (items : List (String × α)) : Entries α :=
  items.foldl (fun entries (key, value) => entries.insert key value) []

def ofDistinct? (start : Entries α) : List (String × α) → Option (Entries α)
  | [] => some start
  | (key, value) :: rest =>
      if start.contains key then none else ofDistinct? (start.insert key value) rest

theorem find?_insert (entries : Entries α) (key : String) (value : α) (other : String) :
    find? other (insert key value entries) =
      if other = key then some value else find? other entries := by
  induction entries with
  | nil => simp [insert, find?, eq_comm]
  | cons entry rest ih =>
      obtain ⟨name, old⟩ := entry
      by_cases same : name = key
      · subst same
        by_cases here : other = name
        · simp [insert, find?, here]
        · simp [insert, find?, here, Ne.symm here]
      · by_cases before : key < name
        · by_cases here : other = key
          · simp [insert, find?, same, before, here]
          · simp [insert, find?, same, before, here, Ne.symm here]
        · by_cases here : other = key
          · subst here
            simp [insert, find?, same, before, ih]
          · simp [insert, find?, same, before, here, ih]

theorem find?_insert_self (entries : Entries α) (key : String) (value : α) :
    find? key (insert key value entries) = some value := by
  simp [find?_insert]

theorem find?_insert_of_ne (entries : Entries α) {key other : String} (value : α)
    (h : other ≠ key) : find? other (insert key value entries) = find? other entries := by
  simp [find?_insert, h]

end Entries

inductive Toml where
  | string (s : String)
  | integer (n : Int64)
  | float (x : Binary64)
  | bool (b : Bool)
  | datetime (d : Datetime)
  | array (items : List Toml)
  | table (entries : List (String × Toml))
  deriving Repr

instance : Inhabited Toml := ⟨.table []⟩

mutual
def Toml.same : Toml → Toml → Bool
  | .string s, .string t => s == t
  | .integer m, .integer n => m == n
  | .float x, .float y => x == y
  | .bool a, .bool b => a == b
  | .datetime d, .datetime e => d == e
  | .array items, .array others => sameItems items others
  | .table entries, .table others => sameEntries entries others
  | _, _ => false

def Toml.sameItems : List Toml → List Toml → Bool
  | [], [] => true
  | a :: rest, b :: others => a.same b && sameItems rest others
  | _, _ => false

def Toml.sameEntries : List (String × Toml) → List (String × Toml) → Bool
  | [], [] => true
  | (key, a) :: rest, (other, b) :: others =>
      key == other && a.same b && sameEntries rest others
  | _, _ => false
end

mutual
theorem Toml.same_iff (a b : Toml) : a.same b = true ↔ a = b := by
  cases a with
  | array items =>
      cases b with
      | array others => rw [same, sameItems_iff, array.injEq]
      | _ => simp [same]
  | table entries =>
      cases b with
      | table others => rw [same, sameEntries_iff, table.injEq]
      | _ => simp [same]
  | _ => cases b <;> simp [same]

theorem Toml.sameItems_iff (items others : List Toml) :
    sameItems items others = true ↔ items = others := by
  cases items with
  | nil => cases others <;> simp [sameItems]
  | cons a rest =>
      cases others with
      | nil => simp [sameItems]
      | cons b others => simp [sameItems, same_iff a b, sameItems_iff rest others]

theorem Toml.sameEntries_iff (entries others : List (String × Toml)) :
    sameEntries entries others = true ↔ entries = others := by
  cases entries with
  | nil => cases others <;> simp [sameEntries]
  | cons entry rest =>
      obtain ⟨key, a⟩ := entry
      cases others with
      | nil => simp [sameEntries]
      | cons entry others =>
          obtain ⟨other, b⟩ := entry
          simp [sameEntries, same_iff a b, sameEntries_iff rest others]
end

instance : DecidableEq Toml := fun a b => decidable_of_iff _ (Toml.same_iff a b)

abbrev TomlTable := Entries Toml

namespace Toml

def isTable : Toml → Bool
  | .table _ => true
  | _ => false

def isTableArray : Toml → Bool
  | .array items => items.any isTable
  | _ => false

end Toml

namespace TomlPrinter

def hexDigits (c : Char) : List Char :=
  let digits := (Nat.toDigits 16 c.toNat).map Char.toUpper
  List.replicate (4 - digits.length) '0' ++ digits

def escapeChar (c : Char) : List Char :=
  match c with
  | '\x08' => ['\\', 'b']
  | '\t' => ['\\', 't']
  | '\n' => ['\\', 'n']
  | '\x0c' => ['\\', 'f']
  | '\r' => ['\\', 'r']
  | '"' => ['\\', '"']
  | '\\' => ['\\', '\\']
  | c => if c.toNat < 0x20 ∨ c.toNat = 0x7f then '\\' :: 'u' :: hexDigits c else [c]

def stringText (s : String) : String :=
  "\"" ++ String.ofList (s.toList.flatMap escapeChar) ++ "\""

def isBareKey (key : String) : Bool :=
  !key.isEmpty && key.toList.all fun c => c.isAlphanum || c == '-' || c == '_'

def keyText (key : String) : String := if isBareKey key then key else stringText key

def floatText : Binary64 → String
  | .nan negative => Binary64.signText negative ++ "nan"
  | .infinite negative => Binary64.signText negative ++ "inf"
  | .finite negative significand exponent =>
      Binary64.signText negative ++ Binary64.finiteText significand exponent

/-- One step from the place that is written to the document around it.  A table has to know
whether a header was already written inside it. -/
inductive Frame where
  | entry (key : String) (first headed : Bool)
  | item (first : Bool)

abbrev Place := List Frame

namespace Place

def keys : Place → List String
  | [] => []
  | .entry key _ _ :: outer => key :: keys outer
  | .item _ :: outer => keys outer

def path (place : Place) : String :=
  ".".intercalate (place.keys.reverse.map keyText)

def markHeaded : Place → Place
  | [] => []
  | .entry key first _ :: outer => .entry key first true :: markHeaded outer
  | .item first :: outer => .item first :: markHeaded outer

def gap (needed : Bool) : String := if needed then "\n" else ""

def itemGap (first : Bool) : Place → Bool
  | .entry _ outerFirst _ :: _ => !first || !outerFirst
  | _ => !first

def pendingHeaders : Place → String
  | .entry _ true _ :: .item first :: .entry key outerFirst headed :: outer =>
      let place : Place := .entry key outerFirst headed :: outer
      (if first then pendingHeaders (.entry key outerFirst headed :: outer) else "") ++
        gap (itemGap first place) ++ "[[" ++ place.path ++ "]]\n"
  | .entry _ true _ :: outer => pendingHeaders outer
  | _ => ""

def header : Place → String
  | [] => ""
  | .item first :: outer =>
      (if first then pendingHeaders outer else "") ++
        gap (itemGap first outer) ++ "[[" ++ path outer ++ "]]\n"
  | .entry key first headed :: outer =>
      let place : Place := .entry key first headed :: outer
      place.pendingHeaders ++ gap (!first) ++ "[" ++ place.path ++ "]\n"

/-- What stands before a plain value at the place, none if a header forbids it. -/
def open? : Place → Option (String × Place)
  | [] => some ("", [])
  | .item first :: outer =>
      if first then (open? outer).map fun (text, outer) => (text ++ "[", .item first :: outer)
      else some (", ", .item first :: outer)
  | .entry key first headed :: outer =>
      if headed then none
      else if first then
        some (header outer ++ keyText key ++ " = ", .entry key false headed :: markHeaded outer)
      else some (keyText key ++ " = ", .entry key first headed :: outer)

def lineEnd : Place → String
  | .entry _ _ _ :: _ => "\n"
  | _ => ""

end Place

def writePlain? (text : String) (place : Place) : Option (String × Place) :=
  place.open?.map fun (before, place) => (before ++ text ++ place.lineEnd, place)

/-- The end of an array, which depends on its first item. -/
def arrayEnd (place : Place) : List Toml → String
  | .table _ :: _ => ""
  | _ => "]" ++ place.lineEnd

inductive Group where
  | all
  | plain
  | arrays
  | tables

def Group.includes (group : Group) (value : Toml) : Bool :=
  match group with
  | .all => true
  | .plain => !value.isTable && !value.isTableArray
  | .arrays => value.isTableArray
  | .tables => value.isTable

mutual
/-- The text of a value at a place, none if it cannot be written there. -/
def write? : Toml → Place → Option (String × Place)
  | .string s, place => writePlain? (stringText s) place
  | .integer n, place => writePlain? (toString n.toInt) place
  | .float x, place => writePlain? (floatText x) place
  | .bool b, place => writePlain? (toString b) place
  | .datetime d, place => writePlain? d.text place
  | .array [], place => writePlain? "[]" place
  | .array items, place =>
      match writeItems? items true place with
      | none => none
      | some (text, place) => some (text ++ arrayEnd place items, place)
  | .table entries, place =>
      match writeEntries? .plain entries true false place with
      | none => none
      | some (text₁, first, headed, place) =>
          match writeEntries? .arrays entries first headed place with
          | none => none
          | some (text₂, first, headed, place) =>
              match writeEntries? .tables entries first headed place with
              | none => none
              | some (text₃, first, _, place) =>
                  if first then
                    some (text₁ ++ text₂ ++ text₃ ++ place.header, place.markHeaded)
                  else some (text₁ ++ text₂ ++ text₃, place)

def writeItems? : List Toml → (first : Bool) → Place → Option (String × Place)
  | [], _, place => some ("", place)
  | value :: rest, first, place =>
      match write? value (.item first :: place) with
      | some (text, _ :: place) =>
          (writeItems? rest false place).map fun (more, place) => (text ++ more, place)
      | _ => none

/-- Writes the entries of one group, and tells whether all entries are still to come
and whether a header was written. -/
def writeEntries? (group : Group) : List (String × Toml) → (first headed : Bool) → Place →
    Option (String × Bool × Bool × Place)
  | [], first, headed, place => some ("", first, headed, place)
  | (key, value) :: rest, first, headed, place =>
      if group.includes value then
        match write? value (.entry key first headed :: place) with
        | some (text, .entry _ _ headed :: place) =>
            (writeEntries? group rest false headed place).map fun (more, result) =>
              (text ++ more, result)
        | _ => none
      else writeEntries? group rest first headed place
end

end TomlPrinter

/-- The text of a document, none if it cannot be written in the order of the keys. -/
def TomlTable.text? (table : TomlTable) : Option String :=
  (TomlPrinter.writeEntries? .all table true false []).map Prod.fst

end DiceNotation
