import DiceNotation.Text

/-! A string stands between quotes.  A basic string has escapes, a literal one has none; a
block may run over several lines.  A reader of either kind is a small machine that
takes one character at a time and remembers its place. -/

namespace DiceNotation

structure TomlQuoting where
  basic : Bool
  block : Bool
  deriving DecidableEq, Repr

namespace TomlQuoting

def quote (q : TomlQuoting) : Char := if q.basic then '"' else '\''

def closing (q : TomlQuoting) : Nat := if q.block then 3 else 1

/-- The largest number of quotes at the end: a block may end in two of its own. -/
def maxQuotes (q : TomlQuoting) : Nat := if q.block then 5 else 1

inductive Place where
  | text
  | quotes (count : Nat)
  | escape
  | digits (missing value : Nat)
  | lineEnd
  | indent
  deriving DecidableEq, Repr

def isPlain (c : Char) : Bool := c == '\t' || (0x20 ≤ c.toNat && c.toNat ≠ 0x7f)

def stepText (q : TomlQuoting) (c : Char) : Option (List Char × Place) :=
  if c = q.quote then some ([], .quotes 1)
  else if q.basic ∧ c = '\\' then some ([], .escape)
  else if c = '\n' then if q.block then some ([c], .text) else none
  else if isPlain c then some ([c], .text)
  else none

def stepEscape (q : TomlQuoting) : Char → Option (List Char × Place)
  | '"' => some (['"'], .text)
  | '\\' => some (['\\'], .text)
  | 'b' => some (['\x08'], .text)
  | 'f' => some (['\x0c'], .text)
  | 'n' => some (['\n'], .text)
  | 'r' => some (['\r'], .text)
  | 't' => some (['\t'], .text)
  | 'u' => some ([], .digits 4 0)
  | 'U' => some ([], .digits 8 0)
  | '\n' => if q.block then some ([], .indent) else none
  | ' ' => if q.block then some ([], .lineEnd) else none
  | '\t' => if q.block then some ([], .lineEnd) else none
  | _ => none

def stepDigits (missing value : Nat) (c : Char) : Option (List Char × Place) := do
  let value := 16 * value + (← hexValue? c)
  if 1 < missing then some ([], .digits (missing - 1) value)
  else if value.isValidChar then some ([Char.ofNat value], .text)
  else none

def step (q : TomlQuoting) : Place → Char → Option (List Char × Place)
  | .text, c => q.stepText c
  | .quotes count, c =>
      if c = q.quote then some ([], .quotes (count + 1))
      else (q.stepText c).map fun (text, place) => (List.replicate count q.quote ++ text, place)
  | .escape, c => q.stepEscape c
  | .digits missing value, c => stepDigits missing value c
  | .lineEnd, c =>
      if c = '\n' then some ([], .indent)
      else if c = ' ' ∨ c = '\t' then some ([], .lineEnd)
      else none
  | .indent, c =>
      if c = ' ' ∨ c = '\t' ∨ c = '\n' then some ([], .indent) else q.stepText c

def endsAt (q : TomlQuoting) : Place → List Char → Bool
  | .quotes count, rest =>
      q.closing ≤ count && (rest.head? ≠ some q.quote || count = q.maxQuotes)
  | _, _ => false

def ownQuotes (q : TomlQuoting) : Place → List Char
  | .quotes count => List.replicate (count - q.closing) q.quote
  | _ => []

/-- The text up to the end of the string, and what follows it. -/
def read? (q : TomlQuoting) (place : Place) : List Char → Option (List Char × List Char)
  | [] => if q.endsAt place [] then some (q.ownQuotes place, []) else none
  | c :: rest =>
      if q.endsAt place (c :: rest) then some (q.ownQuotes place, c :: rest)
      else
        match q.step place c with
        | none => none
        | some (added, place) =>
            (read? q place rest).map fun (text, rest) => (added ++ text, rest)

end TomlQuoting

inductive TomlToken where
  | newline
  | space (run : String)
  | comment
  | equals
  | period
  | comma
  | colon
  | plus
  | openBrace
  | closeBrace
  | openBracket
  | closeBracket
  | word (text : String)
  | string (text : String) (block : Bool)
  deriving DecidableEq, Repr

def foldLineEnds : List Char → List Char
  | '\r' :: '\n' :: rest => '\n' :: foldLineEnds rest
  | c :: rest => c :: foldLineEnds rest
  | [] => []

namespace TomlToken

def isSpace (c : Char) : Bool := c == ' ' || c == '\t'

def isWordChar (c : Char) : Bool := c.isAlphanum || c == '-' || c == '_'

def isCommentChar (c : Char) : Bool := c == '\t' || 0x20 ≤ c.toNat

def readString? (basic : Bool) (cs : List Char) : Option (TomlToken × List Char) :=
  let line : TomlQuoting := { basic, block := false }
  let block : TomlQuoting := { basic, block := true }
  match cs with
  | first :: second :: rest =>
      if first = line.quote then
        if second = line.quote then
          let body := match rest with
            | '\n' :: rest => rest
            | rest => rest
          (block.read? .text body).map fun (text, rest) =>
            (.string (String.ofList text) true, rest)
        else some (.string "" false, second :: rest)
      else
        (line.read? .text cs).map fun (text, rest) =>
          (.string (String.ofList text) false, rest)
  | _ =>
      (line.read? .text cs).map fun (text, rest) =>
        (.string (String.ofList text) false, rest)

/-- Reads one token, none if there is none. -/
def read? : List Char → Option (TomlToken × List Char)
  | [] => none
  | c :: rest =>
      match c with
      | '\n' => some (.newline, rest)
      | '#' => some (.comment, rest.dropWhile isCommentChar)
      | '=' => some (.equals, rest)
      | '.' => some (.period, rest)
      | ',' => some (.comma, rest)
      | ':' => some (.colon, rest)
      | '+' => some (.plus, rest)
      | '\x7b' => some (.openBrace, rest)
      | '\x7d' => some (.closeBrace, rest)
      | '[' => some (.openBracket, rest)
      | ']' => some (.closeBracket, rest)
      | '\'' => readString? false rest
      | '"' => readString? true rest
      | c =>
          if isSpace c then
            some (.space (String.ofList (c :: rest.takeWhile isSpace)), rest.dropWhile isSpace)
          else if isWordChar c then
            some (.word (String.ofList (c :: rest.takeWhile isWordChar)),
              rest.dropWhile isWordChar)
          else none

def readMany? : (fuel : Nat) → List Char → Option (List TomlToken)
  | _, [] => some []
  | 0, _ => none
  | fuel + 1, cs =>
      match read? cs with
      | none => none
      | some (token, rest) => (readMany? fuel rest).map (token :: ·)

def ofText? (text : String) : Option (List TomlToken) :=
  let cs := match text.toList with
    | '\uFEFF' :: rest => rest
    | cs => cs
  let cs := foldLineEnds cs
  readMany? cs.length cs

end TomlToken

end DiceNotation
