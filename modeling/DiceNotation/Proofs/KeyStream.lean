import DiceNotation.Random
import Mathlib.Data.Nat.Digits.Defs

/-! The blocks of a key, one after the other, are a stream of bytes, with the low byte of a
word first.  Each generator is seeded with the next 32 of them. -/

namespace DiceNotation

namespace Xoshiro

def seedWord (seed : Vector UInt8 32) (number : Fin 4) : UInt64 :=
  .ofNat (Nat.ofDigits 256 (List.ofFn fun i : Fin 8 => (seed[8 * number.val + i.val]).toNat))

def ofBytes (seed : Vector UInt8 32) : Xoshiro :=
  .ofWords (seedWord seed 0) (seedWord seed 1) (seedWord seed 2) (seedWord seed 3)

end Xoshiro

namespace ChaCha

theorem toNat_joinWords (low high : UInt32) :
    (joinWords low high).toNat = low.toNat + 2 ^ 32 * high.toNat := by
  have lower := low.toNat_lt
  have upper := high.toNat_lt
  have shifted : (high.toUInt64 <<< 32).toNat = high.toNat <<< 32 := by
    simp [UInt64.toNat_shiftLeft, Nat.shiftLeft_eq]
    omega
  rw [joinWords, UInt64.toNat_or, shifted, UInt32.toNat_toUInt64, Nat.or_comm,
    ← Nat.shiftLeft_add_eq_or_of_lt lower, Nat.shiftLeft_eq]
  omega

namespace Key

def word (key : Key) (place : Nat) : UInt32 :=
  (block key (UInt64.ofNat (place / 16)))[place % 16]

def byte (key : Key) (place : Nat) : UInt8 :=
  .ofNat ((key.word (place / 4)).toNat / 256 ^ (place % 4))

def seedBytes (key : Key) (number : Nat) : Vector UInt8 32 :=
  .ofFn fun i => key.byte (32 * number + i)

variable (key : Key)

theorem toNat_byte (place : Nat) {offset : Nat} (h : offset < 4) :
    (key.byte (4 * place + offset)).toNat = (key.word place).toNat / 256 ^ offset % 256 := by
  have whole : (4 * place + offset) / 4 = place := by omega
  have part : (4 * place + offset) % 4 = offset := by omega
  rw [byte, whole, part]
  rfl

theorem ofDigits_bytes (place : Nat) :
    Nat.ofDigits 256 (List.ofFn fun i : Fin 4 => (key.byte (4 * place + i)).toNat) =
      (key.word place).toNat := by
  simp only [toNat_byte key place (Fin.isLt _)]
  have small := (key.word place).toNat_lt
  generalize (key.word place).toNat = n at small
  have digits : (List.ofFn fun i : Fin 4 => n / 256 ^ i.val % 256) =
      [n % 256, n / 256 % 256, n / 65536 % 256, n / 16777216 % 256] := by
    simp [List.ofFn_succ]
  rw [digits, Nat.ofDigits_cons, Nat.ofDigits_cons, Nat.ofDigits_cons, Nat.ofDigits_singleton]
  omega

theorem seedWord_seedBytes (number : Nat) (i : Fin 4) :
    Xoshiro.seedWord (key.seedBytes number) i =
      joinWords (key.word (8 * number + 2 * i)) (key.word (8 * number + 2 * i + 1)) := by
  have low := ofDigits_bytes key (8 * number + 2 * i)
  have high := ofDigits_bytes key (8 * number + 2 * i + 1)
  have bytes : (List.ofFn fun j : Fin 8 => ((key.seedBytes number)[8 * i.val + j.val]).toNat) =
      (List.ofFn fun j : Fin 4 => (key.byte (4 * (8 * number + 2 * i) + j)).toNat) ++
        List.ofFn fun j : Fin 4 => (key.byte (4 * (8 * number + 2 * i + 1) + j)).toNat := by
    have early (j : Fin 4) : (key.seedBytes number)[8 * i.val + j.val] =
        key.byte (4 * (8 * number + 2 * i) + j) :=
      (Vector.getElem_ofFn _).trans (congrArg key.byte (by dsimp only; omega))
    have late (j : Fin 4) : (key.seedBytes number)[8 * i.val + (4 + j.val)] =
        key.byte (4 * (8 * number + 2 * i + 1) + j) :=
      (Vector.getElem_ofFn _).trans (congrArg key.byte (by dsimp only; omega))
    rw [List.ofFn_add (m := 4) (n := 4)]
    simp only [Fin.val_castLE, Fin.val_natAdd, early, late]
  apply UInt64.toNat_inj.mp
  rw [toNat_joinWords, Xoshiro.seedWord, bytes, Nat.ofDigits_append, low, high, List.length_ofFn]
  have := (key.word (8 * number + 2 * i)).toNat_lt
  have := (key.word (8 * number + 2 * i + 1)).toNat_lt
  rw [UInt64.toNat_ofNat']
  omega

theorem word_eq (number : Nat) {place : Nat} (h : place < 8) :
    key.word (8 * number + place) =
      (block key (UInt64.ofNat (number / 2)))[8 * (number % 2) + place] := by
  have block : (8 * number + place) / 16 = number / 2 := by omega
  have inside : (8 * number + place) % 16 = 8 * (number % 2) + place := by omega
  simp only [word, block, inside]

theorem seedWord_eq (number : Nat) (i : Fin 4) :
    Xoshiro.seedWord (key.seedBytes number) i =
      joinWords (block key (UInt64.ofNat (number / 2)))[8 * (number % 2) + 2 * i.val]
        (block key (UInt64.ofNat (number / 2)))[8 * (number % 2) + (2 * i.val + 1)] := by
  rw [seedWord_seedBytes, Nat.add_assoc, word_eq key number (by omega),
    word_eq key number (by omega)]

/-- The generator with number `k` is seeded with the `k`-th 32 bytes of the stream. -/
theorem generator_eq_ofBytes (number : Nat) :
    key.generator number = .ofBytes (key.seedBytes number) := by
  rcases Nat.mod_two_eq_zero_or_one number with even | odd
  · rw [generator, if_pos even, Xoshiro.ofBytes]
    simp only [seedWord_eq, even]
    rfl
  · rw [generator, if_neg (odd.trans_ne Nat.one_ne_zero), Xoshiro.ofBytes]
    simp only [seedWord_eq, odd]
    rfl

end Key

end ChaCha

end DiceNotation
