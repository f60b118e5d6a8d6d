import DiceNotation.Binary64
import DiceNotation.Limits
import DiceNotation.Text
import DiceNotation.Toml.Token

/-! The digits of a number may be parted by single underscores.  An integer has 64 bits.  A
float has to be finite, unless it is named. -/

namespace DiceNotation

namespace TomlNumber

def isDigitOf (base : Nat) (c : Char) : Bool :=
  match hexValue? c with
  | some value => value < base
  | none => false

/-- Whether every underscore has a digit behind it. -/
def isGrouped : List Char → Bool
  | [] => true
  | ['_'] => false
  | '_' :: '_' :: _ => false
  | _ :: rest => isGrouped rest

def takeGrouped? (base : Nat) (leadingZeros : Bool) (cs : List Char) :
    Option (List Char × List Char) :=
  let run := cs.takeWhile fun c => isDigitOf base c || c == '_'
  let digits := run.filter (· != '_')
  if run.isEmpty || run.head? == some '_' || !isGrouped run then none
  else if !leadingZeros && digits.head? == some '0' && digits.length ≠ 1 then none
  else some (digits, cs.drop run.length)

def takeSigned? (leadingZeros : Bool) (cs : List Char) :
    Option ((Bool × List Char) × List Char) := do
  let (negative, rest) := Binary64.takeSign cs
  let (digits, rest) ← takeGrouped? 10 leadingZeros rest
  return ((negative, digits), rest)

def valueOf (base : Nat) (digits : List Char) : Nat :=
  digits.foldl (fun value c => value * base + (hexValue? c).getD 0) 0

def word? (n : Int) : Option Int64 := if Fits n then some (Int64.ofInt n) else none

def based? (base : Nat) (cs : List Char) : Option Int64 := do
  let (digits, rest) ← takeGrouped? base true cs
  guard rest.isEmpty
  word? (valueOf base digits)

def decimal? (cs : List Char) : Option Int64 := do
  let ((negative, digits), rest) ← takeSigned? false cs
  guard rest.isEmpty
  let magnitude : Int := valueOf 10 digits
  word? (if negative then -magnitude else magnitude)

def float? (negative : Bool) (whole fraction : List Char) (exponent : Bool × List Char) :
    Option Binary64 :=
  let magnitude : Int := valueOf 10 exponent.2
  let scale := (if exponent.1 then -magnitude else magnitude) - fraction.length
  match Binary64.ofDecimal negative (valueOf 10 (whole ++ fraction)) scale with
  | .finite negative significand exponent => some (.finite negative significand exponent)
  | _ => none

def named? : String → Option Binary64
  | "inf" => some (.infinite false)
  | "-inf" => some (.infinite true)
  | "nan" => some (.nan false)
  | "-nan" => some (.nan true)
  | _ => none

def isExponentMark (c : Char) : Bool := c == 'e' || c == 'E'

end TomlNumber

inductive TomlNode where
  | string (s : String)
  | integer (n : Int64)
  | float (x : Binary64)
  | bool (b : Bool)
  | datetime (text : String)
  | array (items : List TomlNode)
  /-- The flag is set if the table comes from a key of several names. -/
  | table (byKey : Bool) (entries : List (String × TomlNode))

namespace TomlNode

abbrev Read (α : Type) := Option (α × List TomlToken)

def skipSpace : List TomlToken → List TomlToken
  | .space _ :: rest => skipSpace rest
  | tokens => tokens

/-- Reads names with periods between them.  The flag says whether a name has to come
next. -/
def readPath? : (expected : Bool) → List TomlToken → Read (List String)
  | expected, .space _ :: rest => readPath? expected rest
  | true, .word name :: rest => (readPath? false rest).map fun (path, rest) => (name :: path, rest)
  | true, .string name false :: rest =>
      (readPath? false rest).map fun (path, rest) => (name :: path, rest)
  | true, _ => none
  | false, .period :: rest => readPath? true rest
  | false, rest => some ([], rest)

def splitAt? (key : String) : List (String × TomlNode) →
    Option (List (String × TomlNode) × TomlNode × List (String × TomlNode))
  | [] => none
  | (name, node) :: rest =>
      if name = key then some ([], node, rest)
      else (splitAt? key rest).map fun (before, found, behind) =>
        ((name, node) :: before, found, behind)

/-- Appends an entry under a path.  All names of the path but the last lead through
tables that come from such paths as well. -/
def addAt? (value : TomlNode) : (path : List String) → List (String × TomlNode) →
    Option (List (String × TomlNode))
  | [], _ => none
  | [key], entries => some (entries ++ [(key, value)])
  | key :: path, entries =>
      match splitAt? key entries with
      | none => (addAt? value path []).map fun inner => entries ++ [(key, .table true inner)]
      | some (before, .table true inner, behind) =>
          (addAt? value path inner).map fun inner =>
            before ++ (key, .table true inner) :: behind
      | some _ => none

def readExponent? : List Char → List TomlToken → Read (Bool × List Char)
  | [], tokens => some ((false, []), tokens)
  | mark :: cs, tokens =>
      if !TomlNumber.isExponentMark mark then none
      else if cs.isEmpty then
        let tokens := match tokens with
          | .plus :: rest => rest
          | rest => rest
        match tokens with
        | .word digits :: rest =>
            match TomlNumber.takeGrouped? 10 true digits.toList with
            | some (digits, []) => some ((false, digits), rest)
            | _ => none
        | _ => none
      else
        match TomlNumber.takeSigned? true cs with
        | some (exponent, []) => some (exponent, tokens)
        | _ => none

/-- Reads a float that starts with a word; a fraction stands in a word of its own. -/
def readFloat? (word : List Char) (fraction? : Option (List Char)) (tokens : List TomlToken) :
    Option (TomlNode × List TomlToken) := do
  let ((negative, whole), behind) ← TomlNumber.takeSigned? false word
  let (fraction, behind) ← match fraction? with
    | none => some ([], behind)
    | some fraction =>
        if behind.isEmpty then TomlNumber.takeGrouped? 10 true fraction else none
  let (exponent, tokens) ← readExponent? behind tokens
  return (.float (← TomlNumber.float? negative whole fraction exponent), tokens)

def readNumber? (word : String) (tokens : List TomlToken) : Read TomlNode :=
  let whole (n? : Option Int64) : Read TomlNode := n?.map fun n => (.integer n, tokens)
  match word.toList with
  | '0' :: 'x' :: digits => whole (TomlNumber.based? 16 digits)
  | '0' :: 'o' :: digits => whole (TomlNumber.based? 8 digits)
  | '0' :: 'b' :: digits => whole (TomlNumber.based? 2 digits)
  | cs =>
      if cs.any TomlNumber.isExponentMark then readFloat? cs none tokens
      else
        match tokens with
        | .period :: .word fraction :: rest => readFloat? cs (some fraction.toList) rest
        | .period :: _ => none
        | _ =>
            match TomlNumber.named? word with
            | some x => some (.float x, tokens)
            | none => whole (TomlNumber.decimal? cs)

def readPart? (mark : TomlToken) (sign text : String) : List TomlToken → Read String
  | head :: tokens =>
      if head = mark then
        match tokens with
        | .word part :: rest => some (text ++ sign ++ part, rest)
        | _ => none
      else some (text, head :: tokens)
  | [] => some (text, [])

def readTime? (text : String) : List TomlToken → Option (TomlNode × List TomlToken)
  | .word minutes :: .colon :: .word seconds :: rest => do
      let text := text ++ ":" ++ minutes ++ ":" ++ seconds
      let (text, rest) ← readPart? .period "." text rest
      let (text, rest) ← readPart? .plus "+" text rest
      let (text, rest) ← readPart? .colon ":" text rest
      return (.datetime text, rest)
  | _ => none

/-- Reads a date behind its first word.  A single space may part it from its time. -/
def readDate? (word : String) (tokens : List TomlToken) : Read TomlNode :=
  let (text, tokens) := match tokens with
    | .space " " :: .word hour :: rest => (word ++ " " ++ hour, rest)
    | rest => (word, rest)
  match tokens with
  | .colon :: rest => readTime? text rest
  | rest => some (.datetime text, rest)

/-- Whether a word starts a date: it has the mark between date and time, or a hyphen
that is neither its sign nor that of its exponent. -/
def startsDate (word : String) : Bool :=
  let cs := word.toList
  let hasSignedExponent :=
    (cs.zip (cs.drop 1)).any fun (a, b) => TomlNumber.isExponentMark a && b == '-'
  cs.contains 'T' || cs.contains 't' || ((cs.drop 1).contains '-' && !hasSignedExponent)

def readWord? (word : String) (tokens : List TomlToken) : Read TomlNode :=
  let numeric := match word.toList with
    | c :: _ => c == '-' || c.isDigit || word == "inf" || word == "nan"
    | [] => false
  if word = "true" then some (.bool true, tokens)
  else if word = "false" then some (.bool false, tokens)
  else if !numeric then none
  else if startsDate word then readDate? word tokens
  else
    match tokens with
    | .colon :: rest => readTime? word rest
    | _ => readNumber? word tokens

def skipGap : List TomlToken → List TomlToken
  | .space _ :: rest => skipGap rest
  | .newline :: rest => skipGap rest
  | .comment :: rest => skipGap rest
  | tokens => tokens

mutual
def readValue? : (fuel : Nat) → List TomlToken → Read TomlNode
  | 0, _ => none
  | fuel + 1, tokens =>
      match tokens with
      | .string text _ :: rest => some (.string text, rest)
      | .word word :: rest => readWord? word rest
      | .plus :: .word word :: rest => readNumber? word rest
      | .openBracket :: rest =>
          (readItems? fuel rest).map fun (items, rest) => (.array items, rest)
      | .openBrace :: rest =>
          match skipSpace rest with
          | .closeBrace :: rest => some (.table false [], rest)
          | rest => (readEntries? fuel [] rest).map fun (entries, rest) =>
              (.table false entries, rest)
      | _ => none

def readItems? : (fuel : Nat) → List TomlToken → Read (List TomlNode)
  | 0, _ => none
  | fuel + 1, tokens =>
      match skipGap tokens with
      | .closeBracket :: rest => some ([], rest)
      | tokens =>
          match readValue? fuel tokens with
          | none => none
          | some (item, rest) =>
              match skipGap rest with
              | .comma :: rest =>
                  (readItems? fuel rest).map fun (items, rest) => (item :: items, rest)
              | .closeBracket :: rest => some ([item], rest)
              | _ => none

def readEntries? : (fuel : Nat) → List (String × TomlNode) → List TomlToken →
    Read (List (String × TomlNode))
  | 0, _, _ => none
  | fuel + 1, entries, tokens =>
      match readPath? true tokens with
      | some (path, .equals :: rest) =>
          match readValue? fuel (skipSpace rest) with
          | none => none
          | some (value, rest) =>
              match addAt? value path entries with
              | none => none
              | some entries =>
                  match skipSpace rest with
                  | .closeBrace :: rest => some (entries, rest)
                  | .comma :: rest => readEntries? fuel entries rest
                  | _ => none
      | _ => none
end

end TomlNode

end DiceNotation
