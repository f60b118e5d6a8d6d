import DiceNotation.Binary64

/-! A document is a tree in which the place is marked where its text stops being JSON.
So a reader of the tree meets the first problem of the text in the order of the
text, be it a fault of the JSON or a value of the wrong kind. -/

namespace DiceNotation

inductive JsonFault where
  | malformed
  | truncated
  deriving DecidableEq, Repr

/-- An integer of 64 bits, or else the nearest binary number. -/
inductive JsonNumber where
  | natural (n : Nat)
  | negative (n : Int)
  | float (x : Binary64)
  deriving DecidableEq, Repr

mutual
inductive Json where
  | null
  | bool (b : Bool)
  | number (n : JsonNumber)
  | string (s : String)
  | array (items : JsonItems)
  | object (members : JsonMembers)
  /-- A value that cannot be read; it may still be possible to skip it. -/
  | broken (read : JsonFault) (skip? : Option JsonFault)

inductive JsonItems where
  | done
  | cut (fault : JsonFault)
  | more (item : Json) (rest : JsonItems)

inductive JsonMembers where
  | done
  | cut (read skip : JsonFault)
  | more (name? : Option String) (value : Json) (rest : JsonMembers)
end

instance : Inhabited Json := ⟨.null⟩

def JsonItems.ofList : List Json → JsonItems
  | [] => .done
  | item :: rest => .more item (ofList rest)

def JsonMembers.ofList : List (String × Json) → JsonMembers
  | [] => .done
  | (name, value) :: rest => .more (some name) value (ofList rest)

mutual
def Json.skip : Json → Except JsonFault Unit
  | .array items => items.skip
  | .object members => members.skip
  | .broken _ (some fault) => .error fault
  | _ => .ok ()

def JsonItems.skip : JsonItems → Except JsonFault Unit
  | .done => .ok ()
  | .cut fault => .error fault
  | .more item rest =>
      match item.skip with
      | .ok () => rest.skip
      | .error fault => .error fault

def JsonMembers.skip : JsonMembers → Except JsonFault Unit
  | .done => .ok ()
  | .cut _ fault => .error fault
  | .more _ value rest =>
      match value.skip with
      | .ok () => rest.skip
      | .error fault => .error fault
end

def maxWord : Nat := 18446744073709551615

def absorbDigits (significand : Nat) : List Char → Nat × Nat
  | [] => (significand, 0)
  | c :: rest =>
      let next := significand * 10 + (c.toNat - '0'.toNat)
      if next ≤ maxWord then
        let (significand, count) := absorbDigits next rest
        (significand, count + 1)
      else (significand, 0)

def maxDecimalExponent : Nat := 308

def Binary64.powerOfTen (exponent : Nat) : Binary64 := .ofNat (tenTo exponent)

def Binary64.isZero : Binary64 → Bool
  | .finite _ significand _ => significand == 0
  | _ => false

/-- The number times a power of ten, none if it leaves the format. -/
def Binary64.scaleTen? (x : Binary64) : (steps : Nat) → (exponent : Int) → Option Binary64
  | 0, _ => some x
  | steps + 1, exponent =>
      if exponent.natAbs ≤ maxDecimalExponent then
        if 0 ≤ exponent then
          match x.mul (powerOfTen exponent.natAbs) with
          | .infinite _ => none
          | product => some product
        else some (x.div (powerOfTen exponent.natAbs))
      else if x.isZero then some x
      else if 0 ≤ exponent then none
      else
        scaleTen? (x.div (powerOfTen maxDecimalExponent)) steps (exponent + maxDecimalExponent)

namespace JsonNumber

/-- The float with the given digits around the point, none if it is too large.
After three splittings every significand has become zero. -/
def float? (negative : Bool) (whole fraction : List Char) (exponent : Int) :
    Option JsonNumber :=
  let (significand, count) := absorbDigits 0 whole
  let surplus : Int := (whole.length : Int) - count
  let (significand, places) := absorbDigits significand fraction
  ((Binary64.ofNat significand).scaleTen? 4 (surplus - places + exponent)).map fun x =>
    .float (if negative then x.neg else x)

def integer? (negative : Bool) (digits : List Char) : Option JsonNumber :=
  let n := Nat.ofDigitChars 10 digits 0
  if maxWord < n then float? negative digits [] 0
  else if !negative then some (.natural n)
  else if n = 0 || twoTo 63 < n then some (.float (Binary64.ofNat n).neg)
  else some (.negative (-(n : Int)))

def text : JsonNumber → String
  | .natural n => toString n
  | .negative n => toString n
  | .float x => x.documentText

end JsonNumber

namespace Json

def unitEscape (c : Char) : List Char :=
  '\\' :: 'u' :: '0' :: '0' ::
    [Nat.digitChar (c.toNat / 16), Nat.digitChar (c.toNat % 16)]

def escapeChar (c : Char) : List Char :=
  if c = '"' then ['\\', '"']
  else if c = '\\' then ['\\', '\\']
  else if c = '\x08' then ['\\', 'b']
  else if c = '\x0c' then ['\\', 'f']
  else if c = '\n' then ['\\', 'n']
  else if c = '\r' then ['\\', 'r']
  else if c = '\t' then ['\\', 't']
  else if c.toNat < 0x20 then unitEscape c
  else [c]

def quote (s : String) : List Char :=
  '"' :: (s.toList.flatMap escapeChar ++ ['"'])

mutual
def chars : Json → List Char
  | .null => ['n', 'u', 'l', 'l']
  | .bool true => ['t', 'r', 'u', 'e']
  | .bool false => ['f', 'a', 'l', 's', 'e']
  | .number n => n.text.toList
  | .string s => quote s
  | .array items => '[' :: (itemChars items ++ [']'])
  | .object members => '\x7b' :: (memberChars members ++ ['\x7d'])
  | .broken _ _ => []

def itemChars : JsonItems → List Char
  | .done => []
  | .cut _ => []
  | .more item .done => chars item
  | .more item rest => chars item ++ ',' :: itemChars rest

def memberChars : JsonMembers → List Char
  | .done => []
  | .cut _ _ => []
  | .more name? value .done => quote (name?.getD "") ++ ':' :: chars value
  | .more name? value rest =>
      quote (name?.getD "") ++ ':' :: (chars value ++ ',' :: memberChars rest)
end

def text (document : Json) : String := String.ofList document.chars

end Json

end DiceNotation
