import DiceNotation.Json
import DiceNotation.Text

/-! Strict JSON, read from left to right.  Faults do not end the reading but become part
of the tree, and everything behind a fault is left out. -/

namespace DiceNotation

namespace Json

def isSpace (c : Char) : Bool :=
  c == ' ' || c == '\n' || c == '\t' || c == '\r'

def skipSpace (cs : List Char) : List Char := cs.dropWhile isSpace

def faultAt : List Char → JsonFault
  | [] => .truncated
  | _ :: _ => .malformed

def hexUnit? (a b c d : Char) : Option Nat := do
  let a ← hexValue? a
  let b ← hexValue? b
  let c ← hexValue? c
  let d ← hexValue? d
  return ((a * 16 + b) * 16 + c) * 16 + d

/-- The fault of an escape that lacks its four digits: the text counts as ended if
fewer than four bytes are left. -/
def shortEscapeFault (cs : List Char) : JsonFault :=
  if (cs.map Char.utf8Size).foldr (· + ·) 0 < 4 then .truncated else .malformed

def simpleEscape? : Char → Option Char
  | '"' => some '"'
  | '\\' => some '\\'
  | '/' => some '/'
  | 'b' => some '\x08'
  | 'f' => some '\x0c'
  | 'n' => some '\n'
  | 'r' => some '\r'
  | 't' => some '\t'
  | _ => none

def isLead (unit : Nat) : Bool := 0xd800 ≤ unit && unit ≤ 0xdbff

def isTrail (unit : Nat) : Bool := 0xdc00 ≤ unit && unit ≤ 0xdfff

def joinUnits (lead trail : Nat) : Char :=
  Char.ofNat ((lead - 0xd800) * 0x400 + (trail - 0xdc00) + 0x10000)

def readString : List Char → Except JsonFault (List Char × List Char)
  | [] => .error .truncated
  | '"' :: rest => .ok ([], rest)
  | '\\' :: 'u' :: a :: b :: c :: d :: rest =>
      match hexUnit? a b c d with
      | none => .error .malformed
      | some unit =>
          if isTrail unit then .error .malformed
          else if isLead unit then
            match rest with
            | '\\' :: 'u' :: a :: b :: c :: d :: rest =>
                match hexUnit? a b c d with
                | none => .error .malformed
                | some trail =>
                    if isTrail trail then do
                      let (text, rest) ← readString rest
                      return (joinUnits unit trail :: text, rest)
                    else .error .malformed
            | '\\' :: 'u' :: rest => .error (shortEscapeFault rest)
            | ['\\'] => .error .truncated
            | rest => .error (faultAt rest)
          else do
            let (text, rest) ← readString rest
            return (Char.ofNat unit :: text, rest)
  | '\\' :: 'u' :: rest => .error (shortEscapeFault rest)
  | '\\' :: c :: rest =>
      match simpleEscape? c with
      | none => .error .malformed
      | some c => do
          let (text, rest) ← readString rest
          return (c :: text, rest)
  | ['\\'] => .error .truncated
  | c :: rest =>
      if c.toNat < 0x20 then .error .malformed
      else do
        let (text, rest) ← readString rest
        return (c :: text, rest)

def skipString : List Char → Except JsonFault (List Char)
  | [] => .error .truncated
  | '"' :: rest => .ok rest
  | '\\' :: 'u' :: a :: b :: c :: d :: rest =>
      match hexUnit? a b c d with
      | none => .error .malformed
      | some _ => skipString rest
  | '\\' :: 'u' :: rest => .error (shortEscapeFault rest)
  | '\\' :: c :: rest =>
      match simpleEscape? c with
      | none => .error .malformed
      | some _ => skipString rest
  | ['\\'] => .error .truncated
  | c :: rest => if c.toNat < 0x20 then .error .malformed else skipString rest

def brokenBy (fault : JsonFault) : Json := .broken fault (some fault)

/-- A number that breaks off.  When it is skipped, the end of the text is no excuse. -/
def brokenNumber (rest : List Char) : Json × List Char :=
  (.broken (faultAt rest) (some .malformed), [])

def ofNumber? : Option JsonNumber → Json
  | some n => .number n
  | none => .broken .malformed none

def readExponent (negative : Bool) (whole fraction : List Char) (cs : List Char) :
    Json × List Char :=
  let (minus, digits) :=
    match cs with
    | '+' :: rest => (false, rest)
    | '-' :: rest => (true, rest)
    | rest => (false, rest)
  let run := digits.takeWhile Char.isDigit
  let rest := digits.dropWhile Char.isDigit
  if run.isEmpty then brokenNumber rest
  else
    let magnitude : Int := Nat.ofDigitChars 10 run 0
    let exponent := if minus then -magnitude else magnitude
    (ofNumber? (JsonNumber.float? negative whole fraction exponent), rest)

def isExponentMark (c : Char) : Bool := c == 'e' || c == 'E'

def readFraction (negative : Bool) (whole : List Char) (cs : List Char) : Json × List Char :=
  match cs with
  | '.' :: rest =>
      let fraction := rest.takeWhile Char.isDigit
      let rest := rest.dropWhile Char.isDigit
      if fraction.isEmpty then brokenNumber rest
      else
        match rest with
        | c :: behind =>
            if isExponentMark c then readExponent negative whole fraction behind
            else (ofNumber? (JsonNumber.float? negative whole fraction 0), rest)
        | [] => (ofNumber? (JsonNumber.float? negative whole fraction 0), [])
  | c :: behind =>
      if isExponentMark c then readExponent negative whole [] behind
      else (ofNumber? (JsonNumber.integer? negative whole), cs)
  | [] => (ofNumber? (JsonNumber.integer? negative whole), [])

def readNumber (negative : Bool) (cs : List Char) : Json × List Char :=
  let whole := cs.takeWhile Char.isDigit
  match whole with
  | [] => brokenNumber cs
  | '0' :: _ :: _ => (brokenBy .malformed, [])
  | _ => readFraction negative whole (cs.dropWhile Char.isDigit)

def readWord (value : Json) : (word cs : List Char) → Json × List Char
  | [], cs => (value, cs)
  | _, [] => (brokenBy .truncated, [])
  | w :: word, c :: cs => if w = c then readWord value word cs else (brokenBy .malformed, [])

def readText (cs : List Char) : Json × List Char :=
  match readString cs, skipString cs with
  | .ok (text, rest), _ => (.string (String.ofList text), rest)
  | .error fault, .ok rest => (.broken fault none, rest)
  | .error fault, .error skip => (.broken fault (some skip), [])

mutual
/-- Reads one value.  The fuel bounds the depth and length of what is read. -/
def readValue : (fuel : Nat) → List Char → Json × List Char
  | 0, _ => (brokenBy .truncated, [])
  | fuel + 1, cs =>
      match skipSpace cs with
      | [] => (brokenBy .truncated, [])
      | c :: rest =>
          if c = 'n' then readWord .null ['u', 'l', 'l'] rest
          else if c = 't' then readWord (.bool true) ['r', 'u', 'e'] rest
          else if c = 'f' then readWord (.bool false) ['a', 'l', 's', 'e'] rest
          else if c = '-' then readNumber true rest
          else if c.isDigit then readNumber false (c :: rest)
          else if c = '"' then readText rest
          else if c = '[' then
            match skipSpace rest with
            | ']' :: rest => (.array .done, rest)
            | [] => (.array (.cut .truncated), [])
            | rest =>
                let (items, rest) := readItems fuel rest
                (.array items, rest)
          else if c = '\x7b' then
            match skipSpace rest with
            | '\x7d' :: rest => (.object .done, rest)
            | [] => (.object (.cut .truncated .truncated), [])
            | rest =>
                let (members, rest) := readMembers fuel rest
                (.object members, rest)
          else (brokenBy .malformed, [])

def readItems : (fuel : Nat) → List Char → JsonItems × List Char
  | 0, _ => (.cut .truncated, [])
  | fuel + 1, cs =>
      let (item, rest) := readValue fuel cs
      match skipSpace rest with
      | ']' :: rest => (.more item .done, rest)
      | ',' :: rest =>
          let (items, rest) := readItems fuel rest
          (.more item items, rest)
      | rest => (.more item (.cut (faultAt rest)), [])

def readMembers : (fuel : Nat) → List Char → JsonMembers × List Char
  | 0, _ => (.cut .truncated .truncated, [])
  | fuel + 1, cs =>
      match skipSpace cs with
      | '"' :: rest =>
          match readText rest with
          | (.broken read (some skip), _) => (.cut read skip, [])
          | (name, rest) =>
              let name? := match name with
                | .string s => some s
                | _ => none
              match skipSpace rest with
              | ':' :: rest =>
                  let (value, rest) := readValue fuel rest
                  match skipSpace rest with
                  | '\x7d' :: rest => (.more name? value .done, rest)
                  | ',' :: rest =>
                      let (members, rest) := readMembers fuel rest
                      (.more name? value members, rest)
                  | rest => (.more name? value (.cut (faultAt rest) (faultAt rest)), [])
              | rest => (.more name? (brokenBy (faultAt rest)) .done, [])
      | rest => (.cut (faultAt rest) (faultAt rest), [])
end

def read (text : String) : Json × Bool :=
  let cs := text.toList
  let (value, rest) := readValue (2 * cs.length + 2) cs
  (value, (skipSpace rest).isEmpty)

end Json

end DiceNotation
