/-! A source yields 64-bit words one after the other and never ends.  A supply is a
source from which at most `left` more words are taken, so that drawing until a word
is acceptable comes to an end. -/

namespace DiceNotation

class WordSource (σ : Type) where
  next : σ → UInt64 × σ

structure Supply (σ : Type) where
  source : σ
  left : Nat

namespace Supply

variable {σ : Type}

def allowance : Nat := 4611686018427387904

def ofSource (source : σ) : Supply σ := ⟨source, allowance⟩

def taken (supply : Supply σ) : Nat := allowance - supply.left

def next? [WordSource σ] (supply : Supply σ) : Option (UInt64 × Supply σ) :=
  match supply.left with
  | 0 => none
  | left + 1 =>
      let (word, source) := WordSource.next supply.source
      some (word, ⟨source, left⟩)

end Supply

/-- A list of words that starts over at its end.  The part still to come is
followed by the whole list. -/
structure WordCycle where
  first : UInt64
  rest : List UInt64
  ahead : List UInt64

namespace WordCycle

def ofList? : List UInt64 → Option WordCycle
  | [] => none
  | first :: rest => some ⟨first, rest, []⟩

instance : WordSource WordCycle where
  next cycle :=
    match cycle.ahead with
    | [] => (cycle.first, { cycle with ahead := cycle.rest })
    | word :: ahead => (word, { cycle with ahead })

end WordCycle

def rotateLeft64 (x : UInt64) (bits : UInt64) : UInt64 :=
  x <<< bits ||| x >>> (64 - bits)

def splitMix64 (state : UInt64) : UInt64 × UInt64 :=
  let state := state + 0x9e3779b97f4a7c15
  let z := (state ^^^ state >>> 30) * 0xbf58476d1ce4e5b9
  let z := (z ^^^ z >>> 27) * 0x94d049bb133111eb
  (z ^^^ z >>> 31, state)

structure Xoshiro where
  s0 : UInt64
  s1 : UInt64
  s2 : UInt64
  s3 : UInt64
  deriving DecidableEq, Repr

namespace Xoshiro

def ofSeed (seed : UInt64) : Xoshiro :=
  let (s0, state) := splitMix64 seed
  let (s1, state) := splitMix64 state
  let (s2, state) := splitMix64 state
  let (s3, _) := splitMix64 state
  ⟨s0, s1, s2, s3⟩

/-- The generator with the given state.  The state of four zeros would never change
and is replaced. -/
def ofWords (s0 s1 s2 s3 : UInt64) : Xoshiro :=
  if s0 = 0 ∧ s1 = 0 ∧ s2 = 0 ∧ s3 = 0 then ofSeed 0 else ⟨s0, s1, s2, s3⟩

def next (g : Xoshiro) : UInt64 × Xoshiro :=
  let word := rotateLeft64 (g.s0 + g.s3) 23 + g.s0
  let t := g.s1 <<< 17
  let s2 := g.s2 ^^^ g.s0
  let s3 := g.s3 ^^^ g.s1
  let s1 := g.s1 ^^^ s2
  let s0 := g.s0 ^^^ s3
  (word, ⟨s0, s1, s2 ^^^ t, rotateLeft64 s3 45⟩)

instance : WordSource Xoshiro where
  next := next

end Xoshiro

namespace ChaCha

def rotateLeft32 (x : UInt32) (bits : UInt32) : UInt32 :=
  x <<< bits ||| x >>> (32 - bits)

abbrev Key := Vector UInt32 8

abbrev Block := Vector UInt32 16

def quarterRound (s : Block) (i j k l : Fin 16) : Block :=
  let a := s[i] + s[j]
  let d := rotateLeft32 (s[l] ^^^ a) 16
  let c := s[k] + d
  let b := rotateLeft32 (s[j] ^^^ c) 12
  let a := a + b
  let d := rotateLeft32 (d ^^^ a) 8
  let c := c + d
  let b := rotateLeft32 (b ^^^ c) 7
  (((s.set i a).set j b).set k c).set l d

def columnRound (s : Block) : Block :=
  let s := quarterRound s 0 4 8 12
  let s := quarterRound s 1 5 9 13
  let s := quarterRound s 2 6 10 14
  quarterRound s 3 7 11 15

def diagonalRound (s : Block) : Block :=
  let s := quarterRound s 0 5 10 15
  let s := quarterRound s 1 6 11 12
  let s := quarterRound s 2 7 8 13
  quarterRound s 3 4 9 14

def doubleRounds : (count : Nat) → Block → Block
  | 0, s => s
  | count + 1, s => doubleRounds count (diagonalRound (columnRound s))

def start (key : Key) (counter : UInt64) : Block :=
  #v[0x61707865, 0x3320646e, 0x79622d32, 0x6b206574,
    key[0], key[1], key[2], key[3], key[4], key[5], key[6], key[7],
    counter.toUInt32, (counter >>> 32).toUInt32, 0, 0]

def block (key : Key) (counter : UInt64) : Block :=
  let s := start key counter
  (doubleRounds 10 s).zipWith (· + ·) s

/-- One step of the generator that spreads a seed over a key: the output and the next
state. -/
def keyWord (state : UInt64) : UInt32 × UInt64 :=
  let state := state * 6364136223846793005 + 11634580027462260723
  let mixed := (((state >>> 18) ^^^ state) >>> 27).toUInt32
  let turn := (state >>> 59).toUInt32
  (mixed >>> turn ||| mixed <<< ((32 - turn) % 32), state)

def Key.ofSeed (seed : UInt64) : Key :=
  let (w0, state) := keyWord seed
  let (w1, state) := keyWord state
  let (w2, state) := keyWord state
  let (w3, state) := keyWord state
  let (w4, state) := keyWord state
  let (w5, state) := keyWord state
  let (w6, state) := keyWord state
  let (w7, _) := keyWord state
  #v[w0, w1, w2, w3, w4, w5, w6, w7]

end ChaCha

namespace ChaCha

def joinWords (low high : UInt32) : UInt64 :=
  low.toUInt64 ||| high.toUInt64 <<< 32

def Key.generator (key : Key) (number : Nat) : Xoshiro :=
  let b := block key (UInt64.ofNat (number / 2))
  if number % 2 = 0 then
    .ofWords (joinWords b[0] b[1]) (joinWords b[2] b[3])
      (joinWords b[4] b[5]) (joinWords b[6] b[7])
  else
    .ofWords (joinWords b[8] b[9]) (joinWords b[10] b[11])
      (joinWords b[12] b[13]) (joinWords b[14] b[15])

end ChaCha

/-- A key and the number of generators taken from it. -/
structure Master where
  key : ChaCha.Key
  taken : Nat := 0
  deriving DecidableEq

namespace Master

def ofSeed (seed : UInt64) : Master := { key := .ofSeed seed }

def next (master : Master) : Xoshiro × Master :=
  (master.key.generator master.taken, { master with taken := master.taken + 1 })

@[simp] theorem next_fst (master : Master) :
    master.next.1 = master.key.generator master.taken := rfl

@[simp] theorem next_key (master : Master) : master.next.2.key = master.key := rfl

@[simp] theorem next_taken (master : Master) :
    master.next.2.taken = master.taken + 1 := rfl

end Master

def Xoshiro.supply (generator : Xoshiro) : Supply Xoshiro := .ofSource generator

end DiceNotation
