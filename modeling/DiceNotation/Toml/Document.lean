import DiceNotation.Field
import DiceNotation.Toml
import DiceNotation.Toml.Node

/-! A document is a list of sections: the entries before the first header, and those behind
each header. -/

namespace DiceNotation

structure TomlSection where
  item : Bool
  path : List String
  entries : List (String × TomlNode)

namespace TomlSection

def root : TomlSection := { item := false, path := [], entries := [] }

def endLine? (tokens : List TomlToken) : Option (List TomlToken) :=
  match TomlNode.skipSpace tokens with
  | [] => some []
  | .newline :: rest => some rest
  | .comment :: .newline :: rest => some rest
  | [.comment] => some []
  | _ => none

def readHeader? (tokens : List TomlToken) : Option (TomlSection × List TomlToken) := do
  let (item, tokens) := match tokens with
    | .openBracket :: rest => (true, rest)
    | rest => (false, rest)
  let (path, tokens) ← TomlNode.readPath? true tokens
  match item, tokens with
  | true, .closeBracket :: .closeBracket :: rest =>
      return ({ item, path, entries := [] }, ← endLine? rest)
  | false, .closeBracket :: rest =>
      return ({ item, path, entries := [] }, ← endLine? rest)
  | _, _ => none

def readEntry? (current : TomlSection) (tokens : List TomlToken) :
    Option (TomlSection × List TomlToken) := do
  match ← TomlNode.readPath? true tokens with
  | (path, .equals :: rest) =>
      let (value, rest) ← TomlNode.readValue? (2 * rest.length + 2) (TomlNode.skipSpace rest)
      let entries ← TomlNode.addAt? value path current.entries
      return ({ current with entries }, ← endLine? rest)
  | _ => none

def readMany? : (fuel : Nat) → (current : TomlSection) → List TomlToken →
    Option (List TomlSection)
  | 0, _, _ => none
  | fuel + 1, current, tokens =>
      match TomlNode.skipGap tokens with
      | [] => some [current]
      | .openBracket :: rest =>
          match readHeader? rest with
          | none => none
          | some (next, rest) => (readMany? fuel next rest).map (current :: ·)
      | tokens =>
          match readEntry? current tokens with
          | none => none
          | some (current, rest) => readMany? fuel current rest

def ofText? (text : String) : Option (List TomlSection) :=
  match TomlToken.ofText? text with
  | none => none
  | some tokens => readMany? (tokens.length + 1) root tokens

end TomlSection

namespace TomlNode

def dateKey : String := "$__toml_private_datetime"

def date? : TomlNode → Option Datetime
  | .string s => Datetime.read? s
  | _ => none

/-- The value of the first entry, if it has the date key. -/
def leadingDate? : List (String × TomlNode) → Option TomlNode
  | (key, node) :: _ => if key = dateKey then some node else none
  | [] => none

end TomlNode

mutual
def TomlNode.value? : TomlNode → Option Toml
  | .string s => some (.string s)
  | .integer n => some (.integer n)
  | .float x => some (.float x)
  | .bool b => some (.bool b)
  | .datetime text => (Datetime.read? text).map .datetime
  | .array items => (valueItems? items).map .array
  | .table _ entries =>
      match TomlNode.leadingDate? entries with
      | some node => node.date?.map .datetime
      | none =>
          match valueEntries? entries with
          | none => none
          | some entries => (Entries.ofDistinct? [] entries).map .table

def TomlNode.valueItems? : List TomlNode → Option (List Toml)
  | [] => some []
  | item :: rest =>
      match item.value? with
      | none => none
      | some value => (valueItems? rest).map (value :: ·)

def TomlNode.valueEntries? : List (String × TomlNode) → Option (List (String × Toml))
  | [] => some []
  | (key, node) :: rest =>
      match node.value? with
      | none => none
      | some value => (valueEntries? rest).map ((key, value) :: ·)
end

/-- Gathering a document keeps in mind of which sections the entries were added. -/
abbrev Gathering := StateT (Array Bool) Option

/-- A table while it is gathered.  The path of its owner begins with the names of the table,
and the sections from `next` to `stop` have not been met yet. -/
structure TomlPlace where
  depth : Nat
  owner : Nat
  next : Nat
  stop : Nat

inductive TomlVisit where
  | finished
  | added (written : List (String × TomlNode))
  | below (key : String) (index : Nat)

/-- The date that a table stands for because of what it meets first. -/
def TomlVisit.leadingDate? : TomlVisit → Option (Option Datetime)
  | .finished => none
  | .added written => (TomlNode.leadingDate? written).map TomlNode.date?
  | .below key _ => if key = TomlNode.dateKey then some none else none

structure TomlReading (α : Type) where
  leading? : TomlVisit → Option (Option α)
  entries? : List (String × TomlNode) → Option (List (String × α))
  table? : List (String × α) → Option α
  array : List α → α

namespace TomlReading

def values : TomlReading Toml where
  leading? visit := visit.leadingDate?.map fun date? => date?.map .datetime
  entries? := TomlNode.valueEntries?
  table? entries := (Entries.ofDistinct? [] entries).map .table
  array := .array

def headers : TomlReading Unit where
  leading? _ := none
  entries? _ := some []
  table? _ := some ()
  array _ := ()

end TomlReading

namespace TomlPlace

def root (sections : Array TomlSection) : TomlPlace where
  depth := 0
  owner := 0
  next := 0
  stop := sections.size

def search? (sections : Array TomlSection) (added : Array Bool) (owner : TomlSection)
    (place : TomlPlace) : Option Nat :=
  let path := owner.path.take place.depth
  (List.range' place.next (place.stop - place.next)).find? fun index =>
    match sections[index]?, added[index]? with
    | some part, some false => part.path.take place.depth == path
    | _, _ => false

/-- The next visit of a table, and its place behind that visit.  Two sections must not
have the same path, but for items of an array.  A section without entries is passed
over; as it has the very path of the table, this happens once. -/
def advance? (sections : Array TomlSection) :
    (steps : Nat) → TomlPlace → Gathering (TomlVisit × TomlPlace)
  | 0, _ => failure
  | steps + 1, place => do
      if place.owner = place.stop ∨ place.next = place.stop then
        return (.finished, place)
      let owner ← sections[place.owner]?
      let added ← get
      match place.search? sections added owner with
      | none => return (.finished, place)
      | some index =>
          let part ← sections[index]?
          if index ≠ place.owner ∧ part.path = owner.path then failure
          let shorter := part.path.length < owner.path.length
          let place := { place with owner := if shorter then index else place.owner }
          match part.path[place.depth]? with
          | some key => return (.below key index, { place with next := index + 1 })
          | none =>
              if part.item then failure
              set (added.setIfInBounds index true)
              let place := { place with next := index }
              if part.entries.isEmpty then advance? sections steps place
              else return (.added part.entries, place)

def begin? (sections : Array TomlSection) (given : List (String × TomlNode))
    (place : TomlPlace) : Gathering (TomlVisit × TomlPlace) :=
  if given.isEmpty then advance? sections 2 place
  else return (.added given, place)

end TomlPlace

def TomlSection.nextItem (sections : Array TomlSection) (part : TomlSection)
    (index stop : Nat) : Nat :=
  let found := (List.range' (index + 1) (stop - (index + 1))).find? fun other =>
    match sections[other]? with
    | some next => next.item && next.path == part.path
    | none => false
  found.getD stop

mutual
/-- The table at a place.  The fuel bounds how deep tables nest and how many sections
each of them meets. -/
def TomlReading.tableAt? {α : Type} (reading : TomlReading α) (sections : Array TomlSection) :
    (fuel : Nat) → (given : List (String × TomlNode)) → TomlPlace → Gathering α
  | 0, _, _ => failure
  | fuel + 1, given, place => do
      let (visit, place) ← place.begin? sections given
      match reading.leading? visit with
      | some result? => result?
      | none => reading.table? (← reading.entriesFrom? sections fuel visit place)

def TomlReading.entriesFrom? {α : Type} (reading : TomlReading α)
    (sections : Array TomlSection) :
    (fuel : Nat) → TomlVisit → TomlPlace → Gathering (List (String × α))
  | 0, _, _ => failure
  | _ + 1, .finished, _ => return []
  | fuel + 1, .added written, place => do
      let entries ← reading.entries? written
      let (visit, place) ← place.advance? sections 2
      return entries ++ (← reading.entriesFrom? sections fuel visit place)
  | fuel + 1, .below key index, place => do
      let value ← reading.below? sections fuel place.depth index place.stop
      let (visit, place) ← place.advance? sections 2
      return (key, value) :: (← reading.entriesFrom? sections fuel visit place)

def TomlReading.below? {α : Type} (reading : TomlReading α) (sections : Array TomlSection) :
    (fuel : Nat) → (depth index stop : Nat) → Gathering α
  | 0, _, _, _ => failure
  | fuel + 1, depth, index, stop => do
      let part ← sections[index]?
      if part.item ∧ part.path.length = depth + 1 then
        return reading.array (← reading.itemsFrom? sections fuel depth index stop)
      else
        reading.tableAt? sections fuel []
          { depth := depth + 1, owner := index, next := 0, stop }

/-- The items of an array, from that of a section on.  An item reaches as far as the
next one. -/
def TomlReading.itemsFrom? {α : Type} (reading : TomlReading α)
    (sections : Array TomlSection) :
    (fuel : Nat) → (depth index stop : Nat) → Gathering (List α)
  | 0, _, _, _ => failure
  | fuel + 1, depth, index, stop => do
      if index = stop then return []
      let part ← sections[index]?
      let added ← get
      if added[index]? = some true then failure
      set (added.setIfInBounds index true)
      let next := part.nextItem sections index stop
      let item ← reading.tableAt? sections fuel part.entries
        { depth := depth + 1, owner := index, next := 0, stop := next }
      return item :: (← reading.itemsFrom? sections fuel depth next stop)
end

def gatheringFuel (sections : Array TomlSection) : Nat :=
  let longest := sections.foldl (fun length part => max length part.path.length) 0
  (longest + 2) * (2 * sections.size + 6)

def TomlReading.gather? {α : Type} (reading : TomlReading α) (sections : Array TomlSection) :
    Option (List (String × α)) := do
  let start := Array.replicate sections.size false
  let ((visit, place), added) ← ((TomlPlace.root sections).advance? sections 2).run start
  let (entries, _) ←
    (reading.entriesFrom? sections (gatheringFuel sections) visit place).run added
  return entries

namespace TomlTable

/-- Whether the headers of a document fit together. -/
def headersFit (sections : List TomlSection) : Bool :=
  (TomlReading.headers.gather? sections.toArray).isSome

def ofText? (text : String) : Option TomlTable :=
  match TomlSection.ofText? text with
  | none => none
  | some [] => some []
  | some (root :: rest) =>
      let sections := if root.entries.isEmpty then rest else root :: rest
      (TomlReading.values.gather? sections.toArray).map Entries.ofList

end TomlTable

def TomlNode.offered : TomlNode → Offered
  | .string s => .text s
  | .integer n => if n < 0 then .negative n.toInt else .natural n.toInt.toNat
  | .float x => .float x
  | .bool b => .bool b
  | .datetime _ => .map
  | .array _ => .sequence
  | .table _ _ => .map

inductive TomlFieldError where
  | unreadable
  | missing
  | invalid (error : FieldError)
  deriving DecidableEq, Repr

namespace TomlSection

def field (key : String) (part : TomlSection) : Except TomlFieldError Expr :=
  match Entries.find? key part.entries with
  | none => .error .missing
  | some node =>
      match Expr.ofOffered node.offered with
      | .ok expr => .ok expr
      | .error error => .error (.invalid error)

end TomlSection

def TomlSection.repeats (root : TomlSection) (rest : List TomlSection) (key : String) : Bool :=
  1 < (root.entries.filter fun entry => entry.1 == key).length ||
    rest.any fun part => part.path.head? == some key

/-- The expression that a document has under a key before its first header.  Of the rest
of the document only the headers are looked at. -/
def Expr.ofTomlField (key text : String) : Except TomlFieldError Expr :=
  match TomlSection.ofText? text with
  | some (root :: rest) =>
      match root.field key with
      | .ok expr =>
          if root.repeats rest key || !TomlTable.headersFit (root :: rest) then
            .error .unreadable
          else .ok expr
      | .error error => .error error
  | _ => .error .unreadable

end DiceNotation
