import DiceNotation.Proofs.Accumulator

/-! The fault for which tokens are refused names a defect that stands somewhere among them.  What
the accumulator holds is traced to the tokens that left it there, also where no expression can
be read any more, and every step that fails finds the defect in that trace. -/

namespace DiceNotation

namespace Spelling

inductive OfAnyDie : List Token → UInt32 → Prop
  | number (sides : UInt32) : OfAnyDie [.die, .number sides] sides
  | marked : OfAnyDie [.die, .percentile] 100
  | percentile : OfAnyDie [.percentile] 100

theorem OfAnyDie.ofDie {tokens : List Token} {sides : UInt32} {die : Die}
    (spelled : OfAnyDie tokens sides) (named : sides.toNat = die.sides) : OfDie tokens die := by
  have hundred (named : (100 : UInt32).toNat = die.sides) : die = .d100 :=
    Die.sides_injective (named.symm.trans rfl)
  cases spelled with
  | number sides => exact .marked (.number named)
  | marked =>
      cases hundred named
      exact .marked .percentile
  | percentile =>
      cases hundred named
      exact .percentile

/-- Dice and what may follow them without an operator between: a number, and a drop marker
behind it. -/
inductive OfDice : List Token → DiceTerm → Option UInt32 → Prop
  | term {tokens : List Token} {dice : DiceTerm} (spelled : OfTerm tokens (.dice dice)) :
      OfDice tokens dice none
  | number {tokens : List Token} {dice : DiceTerm} (spelled : OfTerm tokens (.dice dice))
      (value : UInt32) : OfDice (tokens ++ [.number value]) dice (some value)
  | dropping {tokens : List Token} {pool : Pool} (spelled : OfPool tokens pool)
      (value : UInt32) (policy : DropPolicy) :
      OfDice (tokens ++ [.number value, .operator .sub, .drop policy])
        { pool, drop? := some policy } (some value)

theorem OfDice.drop {tokens : List Token} {pool : Pool} {number? : Option UInt32}
    (spelled : OfDice tokens { pool } number?) (policy : DropPolicy) :
    OfDice (tokens ++ [.operator .sub, .drop policy]) { pool, drop? := some policy } number? := by
  cases spelled with
  | term spelled =>
      cases spelled with
      | plain spelled => exact .term (.dropping spelled policy)
  | number spelled value =>
      cases spelled with
      | plain spelled => simpa using OfDice.dropping spelled value policy

def EndsInDice (tokens : List Token) : Prop :=
  ∃ (front dice : List Token) (pool : Pool) (number? : Option UInt32) (op? : Option Operator),
    OfPool dice pool ∧
      tokens = front ++ dice ++ number?.toList.map .number ++ op?.toList.map .operator

/-- The place of a defect among the tokens, with the fault that names it. -/
inductive Defect : List Token → NotationError → Prop
  | unknownSides (front after : List Token) {sides : UInt32}
      (unknown : sides.toNat ∉ [4, 6, 8, 10, 12, 20, 100]) :
      Defect (front ++ .die :: .number sides :: after) (.invalidDieSides sides)
  | noDice (front after : List Token) {tokens : List Token} {die : Die}
      (spelled : OfDie tokens die) :
      Defect (front ++ .number 0 :: tokens ++ after) .invalidDieCount
  | manyDice (front after : List Token) {tokens : List Token} {die : Die} {count : UInt32}
      (spelled : OfDie tokens die) (many : 1000 < count.toNat) :
      Defect (front ++ .number count :: tokens ++ after) (.tooManyDice count)
  | operatorForSides (front after : List Token) (op : Operator) :
      Defect (front ++ .die :: .operator op :: after) .missingDieSides
  | endForSides (front : List Token) : Defect (front ++ [.die]) .missingDieSides
  | dropWithoutMinus (front after : List Token) (policy : DropPolicy)
      (unmarked : front.getLast? ≠ some (.operator .sub)) :
      Defect (front ++ .drop policy :: after) .missingMinus
  | dropWithoutDice (front after : List Token) (policy : DropPolicy)
      (lacking : ¬ EndsInDice front) :
      Defect (front ++ .drop policy :: after) .missingSimpleDice
  | operatorFirst (op : Operator) (after : List Token) :
      Defect (.operator op :: after) .missingExpression
  | operatorLast (front : List Token) (op : Operator) :
      Defect (front ++ [.operator op]) .missingExpression
  | operatorUnpaired (op : Operator) (after : List Token) :
      Defect (.operator op :: after) .consecutiveMathOperators
  | operatorTwice (front after : List Token) (op other : Operator) :
      Defect (front ++ .operator op :: .operator other :: after) .consecutiveMathOperators
  | numberTwice (front after : List Token) (value other : UInt32)
      (free : front.getLast? ≠ some .die) :
      Defect (front ++ .number value :: .number other :: after) .consecutiveNumbers
  | numberBehindDice (front after : List Token) {tokens : List Token} {dice : DiceTerm}
      (spelled : OfTerm tokens (.dice dice)) (value : UInt32) :
      Defect (front ++ tokens ++ .number value :: after) .consecutiveNumbers
  | markerTwice (front after : List Token) :
      Defect (front ++ .die :: .die :: after) .consecutiveDiceExpressions
  | diceTwice (front after : List Token) {tokens more : List Token} {dice : DiceTerm}
      {number? : Option UInt32} {sides : UInt32} (first : OfDice tokens dice number?)
      (second : OfAnyDie more sides) :
      Defect (front ++ tokens ++ more ++ after) .consecutiveDiceExpressions

end Spelling

theorem Die.ofSides_eq_error {sides : UInt32} {error : NotationError}
    (refused : Die.ofSides sides = .error error) :
    error = .invalidDieSides sides ∧ sides.toNat ∉ [4, 6, 8, 10, 12, 20, 100] := by
  have unknown : ∀ die : Die, sides.toNat ≠ die.sides := by
    intro die named
    rw [Die.ofSides_eq_ok_iff.mpr named] at refused
    cases refused
  unfold Die.ofSides at refused
  split at refused
  · cases refused
  · cases refused
    refine ⟨rfl, ?_⟩
    change sides.toNat ∉ Die.all.map Die.sides
    intro member
    obtain ⟨die, _, named⟩ := List.mem_map.mp member
    exact unknown die named.symm

theorem Pool.ofCount_eq_error {die : Die} {count : UInt32} {error : NotationError}
    (refused : Pool.ofCount die count = .error error) :
    (count = 0 ∧ error = .invalidDieCount) ∨
      (1000 < count.toNat ∧ error = .tooManyDice count) := by
  unfold Pool.ofCount at refused
  split at refused
  · next zero =>
      cases refused
      exact .inl ⟨UInt32.toNat_inj.mp zero, rfl⟩
  · split at refused
    · next large =>
        cases refused
        exact .inr ⟨large, rfl⟩
    · cases refused

namespace Accumulator

open Spelling

inductive Past : List Token → Option Expr → Option Operator → Prop
  | start : Past [] none none
  | lone (op : Operator) : Past [.operator op] none (some op)
  | operator (front : List Token) (lhs : Expr) (op : Operator) :
      Past (front ++ [.operator op]) (some lhs) (some op)

inductive Pending : List Token → Option UInt32 → Option DiceTerm → Bool → Prop
  | nothing : Pending [] none none false
  | number (value : UInt32) : Pending [.number value] (some value) none false
  | dice {tokens : List Token} {dice : DiceTerm} {number? : Option UInt32}
      (spelled : OfDice tokens dice number?) : Pending tokens number? (some dice) false
  | marked {tokens : List Token} {number? : Option UInt32} {dice? : Option DiceTerm}
      (before : Pending tokens number? dice? false) :
      Pending (tokens ++ [.die]) number? dice? true

def Traced (acc : Accumulator) (read : List Token) : Prop :=
  ∃ past part, read = past ++ part ∧ Past past acc.tree? acc.operator? ∧
    Pending part acc.number? acc.dice? acc.awaitingSides

/-- An operator is held back exactly when it was read last and a drop marker comes next. -/
inductive History (acc : Accumulator) (read : List Token) (next? : Option Token) : Prop
  | settled (free : acc.dropOperator? = none)
      (apart : ∀ policy op, next? = some (.drop policy) → read.getLast? ≠ some (.operator op))
      (traced : acc.Traced read)
  | beforeDrop {before : List Token} {op : Operator} {policy : DropPolicy}
      (held : acc.dropOperator? = some op) (next : next? = some (.drop policy))
      (same : read = before ++ [.operator op]) (closed : acc.awaitingSides = false)
      (traced : acc.Traced before)

/-- Reading went on with a history, or its fault names a defect of all tokens. -/
inductive Accounted (read rest : List Token) : Except NotationError Accumulator → Prop
  | history {next : Accumulator} (history : next.History read rest.head?) :
      Accounted read rest (.ok next)
  | defect {error : NotationError} (defect : Defect (read ++ rest) error) :
      Accounted read rest (.error error)

theorem Accounted.of_defect {read rest : List Token} {token : Token} {error : NotationError}
    (defect : Defect (read ++ token :: rest) error) :
    Accounted (read ++ [token]) rest (.error error) :=
  .defect (by rwa [← List.append_cons])

theorem history_empty (next? : Option Token) : empty.History [] next? :=
  .settled rfl (by simp) ⟨[], [], rfl, .start, .nothing⟩

theorem History.traced_of_ne_drop {acc : Accumulator} {read : List Token} {token : Token}
    (history : acc.History read (some token)) (plain : ∀ policy, token ≠ .drop policy) :
    acc.dropOperator? = none ∧ acc.Traced read := by
  cases history with
  | settled free _ traced => exact ⟨free, traced⟩
  | beforeDrop _ next _ _ _ => exact absurd (Option.some.inj next) (plain _)

theorem History.of_traced {acc : Accumulator} {read : List Token} {token : Token}
    {next? : Option Token} (free : acc.dropOperator? = none)
    (other : ∀ op, token ≠ .operator op) (traced : acc.Traced (read ++ [token])) :
    acc.History (read ++ [token]) next? :=
  .settled free (fun _ op _ => by simpa using other op) traced

section

variable {past part : List Token} {tree? : Option Expr} {operator? : Option Operator}
  {number? : Option UInt32} {dice? : Option DiceTerm}

theorem Past.getLast?_ne_die (h : Past past tree? operator?) : past.getLast? ≠ some .die := by
  cases h <;> simp

theorem Pending.unmark (h : Pending part number? dice? true) :
    ∃ tokens, part = tokens ++ [.die] ∧ Pending tokens number? dice? false := by
  cases h with
  | marked before => exact ⟨_, rfl, before⟩

theorem Pending.eq_nil (h : Pending part none none false) : part = [] := by
  cases h with
  | nothing => rfl

theorem Pending.ofDice {dice : DiceTerm} (h : Pending part number? (some dice) false) :
    OfDice part dice number? := by
  cases h with
  | dice spelled => exact spelled

theorem Pending.append_number (h : Pending part none dice? false) (value : UInt32) :
    Pending (part ++ [.number value]) (some value) dice? false := by
  cases h with
  | nothing => exact .number value
  | dice spelled =>
      cases spelled with
      | term spelled => exact .dice (.number spelled value)

theorem Pending.ofPool {tokens : List Token} {pool : Pool}
    (h : Pending part number? none false) (spelled : OfDie tokens pool.die)
    (count : pool.count = (number?.getD 1).toNat) : OfPool (part ++ tokens) pool := by
  cases h with
  | nothing => exact .single spelled count
  | number value => exact .counted spelled count.symm

theorem Pending.defect_of_count {tokens : List Token} {die : Die} {error : NotationError}
    (h : Pending part number? none false) (spelled : OfDie tokens die)
    (refused : Pool.ofCount die (number?.getD 1) = .error error) (after : List Token) :
    Defect (past ++ part ++ tokens ++ after) error := by
  cases h with
  | nothing => rcases Pool.ofCount_eq_error refused with ⟨zero, _⟩ | ⟨many, _⟩ <;> contradiction
  | number value =>
      rcases Pool.ofCount_eq_error refused with ⟨zero, rfl⟩ | ⟨many, rfl⟩
      · obtain rfl : value = 0 := zero
        simpa using Defect.noDice past after spelled
      · simpa using Defect.manyDice past after spelled many

theorem Pending.number_behind {value : UInt32} {dice : DiceTerm} {awaiting : Bool}
    (h : Pending part (some value) (some dice) awaiting) :
    ∃ tokens dice behind, OfTerm tokens (.dice dice) ∧
      part = tokens ++ .number value :: behind := by
  have of_dice {part : List Token} (spelled : OfDice part dice (some value)) :
      ∃ tokens dice behind, OfTerm tokens (.dice dice) ∧
        part = tokens ++ .number value :: behind := by
    cases spelled with
    | number spelled value => exact ⟨_, _, [], spelled, rfl⟩
    | dropping spelled value policy => exact ⟨_, _, _, .plain spelled, rfl⟩
  cases h with
  | dice spelled => exact of_dice spelled
  | marked before =>
      cases before with
      | dice spelled =>
          obtain ⟨tokens, dice, behind, ofTerm, rfl⟩ := of_dice spelled
          exact ⟨tokens, dice, behind ++ [.die], ofTerm, by simp⟩

theorem Pending.defect_of_dice {value : UInt32} {dice : DiceTerm} {awaiting : Bool}
    (h : Pending part (some value) (some dice) awaiting) (after : List Token) :
    Defect (past ++ part ++ after) .consecutiveNumbers := by
  obtain ⟨tokens, dice, behind, spelled, rfl⟩ := h.number_behind
  simpa using Defect.numberBehindDice past (behind ++ after) spelled value

theorem Pending.defect_of_number {value : UInt32} (inPast : Past past tree? operator?)
    (h : Pending part (some value) dice? false) (other : UInt32) (after : List Token) :
    Defect (past ++ part ++ .number other :: after) .consecutiveNumbers := by
  cases dice? with
  | some dice => exact h.defect_of_dice (.number other :: after)
  | none =>
      cases h with
      | number value =>
          simpa using Defect.numberTwice past after value other inPast.getLast?_ne_die

def EndsLikeDice (tokens : List Token) : Prop :=
  match tokens.reverse with
  | .percentile :: _ => True
  | .number _ :: .die :: _ => True
  | .number _ :: .percentile :: _ => True
  | .number _ :: .number _ :: _ => True
  | _ => False

theorem endsLikeDice_of_pool {dice : List Token} {pool : Pool} (front : List Token)
    (spelled : OfPool dice pool) (number? : Option UInt32) :
    EndsLikeDice (front ++ dice ++ number?.toList.map .number) := by
  have ends (front : List Token) {tokens : List Token} {die : Die} (spelled : OfDie tokens die) :
      EndsLikeDice (front ++ tokens ++ number?.toList.map .number) := by
    cases spelled with
    | marked sides => cases sides <;> cases number? <;> simp [EndsLikeDice]
    | percentile => cases number? <;> simp [EndsLikeDice]
  cases spelled with
  | single die one => exact ends front die
  | @counted _ _ count die _ =>
      rw [List.append_cons front]
      exact ends (front ++ [.number count]) die

theorem Pending.not_endsLikeDice {awaiting : Bool} (inPast : Past past tree? operator?)
    (h : Pending part number? dice? awaiting) (other : ∀ pool, dice? ≠ some { pool }) :
    ¬ EndsLikeDice (past ++ part) := by
  have dropped {tokens : List Token} {dice : DiceTerm} (spelled : OfTerm tokens (.dice dice))
      (other : ∀ pool, some dice ≠ some { pool }) :
      ∃ front policy, tokens = front ++ [.drop policy] := by
    cases spelled with
    | plain spelled => exact absurd rfl (other _)
    | @dropping tokens _ spelled policy => exact ⟨tokens ++ [.operator .sub], policy, by simp⟩
  cases h with
  | nothing => cases inPast <;> simp [EndsLikeDice]
  | number value => cases inPast <;> simp [EndsLikeDice]
  | marked before => simp [EndsLikeDice]
  | dice spelled =>
      cases spelled with
      | term spelled =>
          obtain ⟨front, policy, rfl⟩ := dropped spelled other
          simp [EndsLikeDice]
      | number spelled value =>
          obtain ⟨front, policy, rfl⟩ := dropped spelled other
          simp [EndsLikeDice]
      | dropping spelled value policy => simp [EndsLikeDice]

end

theorem Traced.not_endsLikeDice {acc : Accumulator} {read : List Token} (traced : acc.Traced read)
    (other : ∀ pool, acc.dice? ≠ some { pool }) : ¬ EndsLikeDice read := by
  obtain ⟨past, part, rfl, inPast, pending⟩ := traced
  exact pending.not_endsLikeDice inPast other

theorem accounted_finishDie {acc : Accumulator} {past part die : List Token} {sides : UInt32}
    (rest : List Token) (free : acc.dropOperator? = none)
    (inPast : Past past acc.tree? acc.operator?)
    (pending : Pending part acc.number? acc.dice? false) (spelled : OfAnyDie die sides) :
    Accounted (past ++ part ++ die) rest (acc.finishDie sides) := by
  cases dice : acc.dice? with
  | some dice =>
      have refused : acc.finishDie sides = .error .consecutiveDiceExpressions := by
        simp [finishDie, dice]
      rw [refused]
      rw [dice] at pending
      exact .defect (.diceTwice past rest pending.ofDice spelled)
  | none =>
      rw [dice] at pending
      have steps : acc.finishDie sides = Die.ofSides sides >>= fun die =>
          Pool.ofCount die (acc.number?.getD 1) >>= fun pool =>
            .ok { acc with number? := none, dice? := some { pool }, awaitingSides := false } := by
        simp [finishDie, dice]
      rw [steps]
      cases named : Die.ofSides sides with
      | error error =>
          obtain ⟨rfl, unknown⟩ := Die.ofSides_eq_error named
          cases spelled with
          | number sides =>
              exact .defect (by simpa using Defect.unknownSides (past ++ part) rest unknown)
          | marked => exact absurd (by decide) unknown
          | percentile => exact absurd (by decide) unknown
      | ok kind =>
          have ofDie := spelled.ofDie (Die.ofSides_eq_ok_iff.mp named)
          rw [Outcome.ok_bind]
          cases counted : Pool.ofCount kind (acc.number?.getD 1) with
          | error error => exact .defect (pending.defect_of_count ofDie counted rest)
          | ok pool =>
              obtain ⟨rfl, count⟩ := Pool.ofCount_eq_ok_iff.mp counted
              have ofPool := pending.ofPool ofDie count
              refine .history (.settled free ?_ ?_)
              · intro _ op _
                cases spelled <;> simp
              · exact ⟨past, part ++ die, by simp, inPast, .dice (.term (.plain ofPool))⟩

theorem accounted_number {acc : Accumulator} {read : List Token} (value : UInt32)
    (rest : List Token) (free : acc.dropOperator? = none) (traced : acc.Traced read) :
    Accounted (read ++ [.number value]) rest (acc.step (.number value) rest.head?) := by
  obtain ⟨past, part, rfl, inPast, pending⟩ := traced
  rw [step_number]
  cases awaiting : acc.awaitingSides with
  | true =>
      rw [awaiting] at pending
      obtain ⟨before, rfl, unmarked⟩ := pending.unmark
      have accounted := accounted_finishDie rest free inPast unmarked (.number value)
      simpa using accounted
  | false =>
      rw [awaiting] at pending
      cases number : acc.number? with
      | some held =>
          rw [number] at pending
          exact .of_defect (pending.defect_of_number inPast value rest)
      | none =>
          rw [number] at pending
          refine .history (History.of_traced free (fun _ => Token.noConfusion) ?_)
          exact ⟨past, part ++ [.number value], by simp, inPast, pending.append_number value⟩

theorem accounted_percentile {acc : Accumulator} {read : List Token}
    (rest : List Token) (free : acc.dropOperator? = none) (traced : acc.Traced read) :
    Accounted (read ++ [.percentile]) rest (acc.step .percentile rest.head?) := by
  obtain ⟨past, part, rfl, inPast, pending⟩ := traced
  rw [step_percentile]
  cases awaiting : acc.awaitingSides with
  | true =>
      rw [awaiting] at pending
      obtain ⟨before, rfl, unmarked⟩ := pending.unmark
      have accounted := accounted_finishDie rest free inPast unmarked .marked
      simpa using accounted
  | false =>
      rw [awaiting] at pending
      exact accounted_finishDie rest free inPast pending .percentile

theorem accounted_die {acc : Accumulator} {read : List Token}
    (rest : List Token) (free : acc.dropOperator? = none) (traced : acc.Traced read) :
    Accounted (read ++ [.die]) rest (acc.step .die rest.head?) := by
  obtain ⟨past, part, rfl, inPast, pending⟩ := traced
  rw [step_die]
  cases awaiting : acc.awaitingSides with
  | true =>
      rw [awaiting] at pending
      obtain ⟨before, rfl, _⟩ := pending.unmark
      exact .of_defect (by simpa using Defect.markerTwice (past ++ before) rest)
  | false =>
      rw [awaiting] at pending
      refine .history (History.of_traced free (fun _ => Token.noConfusion) ?_)
      exact ⟨past, part ++ [.die], by simp, inPast, pending.marked⟩

theorem markDrop_of_plain {acc : Accumulator} {pool : Pool} (policy : DropPolicy)
    (plain : acc.dice? = some { pool }) :
    acc.markDrop policy =
      if acc.dropOperator? = some .sub then
        .ok { acc with dice? := some { pool, drop? := some policy }, dropOperator? := none }
      else .error .missingMinus := by
  simp [markDrop, plain]

theorem markDrop_of_other {acc : Accumulator} (policy : DropPolicy)
    (other : ∀ pool, acc.dice? ≠ some { pool }) :
    acc.markDrop policy = .error .missingSimpleDice := by
  unfold markDrop
  split
  · next pool plain => exact absurd plain (other pool)
  · rfl

theorem accounted_drop {acc : Accumulator} {read : List Token} {policy : DropPolicy}
    (rest : List Token) (history : acc.History read (some (.drop policy))) :
    Accounted (read ++ [.drop policy]) rest (acc.step (.drop policy) rest.head?) := by
  rw [step_drop]
  by_cases dice : ∃ pool, acc.dice? = some { pool }
  · obtain ⟨pool, plain⟩ := dice
    rw [markDrop_of_plain policy plain]
    cases history with
    | settled free apart traced =>
        rw [if_neg (by simp [free])]
        exact .of_defect (.dropWithoutMinus read rest policy (apart policy .sub rfl))
    | @beforeDrop before op _ held next same closed traced =>
        subst same
        by_cases minus : op = .sub
        · subst minus
          rw [if_pos held]
          obtain ⟨past, part, rfl, inPast, pending⟩ := traced
          rw [plain, closed] at pending
          refine .history (.of_traced rfl (fun _ => Token.noConfusion) ?_)
          exact ⟨past, part ++ [.operator .sub, .drop policy], by simp, inPast,
            closed ▸ .dice (pending.ofDice.drop policy)⟩
        · rw [if_neg (by simp [held, minus])]
          exact .of_defect (.dropWithoutMinus _ rest policy (by simpa using minus))
  · rw [markDrop_of_other policy (not_exists.mp dice)]
    refine .of_defect (.dropWithoutDice read rest policy ?_)
    rintro ⟨front, tokens, pool, number?, op?, spelled, same⟩
    have ends := endsLikeDice_of_pool front spelled number?
    cases history with
    | settled free apart traced =>
        cases op? with
        | none =>
            rw [Option.toList_none, List.map_nil, List.append_nil] at same
            exact traced.not_endsLikeDice (not_exists.mp dice) (same ▸ ends)
        | some op => exact apart policy op rfl (by simp [same])
    | @beforeDrop before op _ held next closing closed traced =>
        subst closing
        cases op? with
        | none =>
            rw [Option.toList_none, List.map_nil, List.append_nil] at same
            rw [← same] at ends
            simp [EndsLikeDice] at ends
        | some other =>
            obtain ⟨same, _⟩ := List.append_inj' same rfl
            exact traced.not_endsLikeDice (not_exists.mp dice) (same ▸ ends)

theorem pendingTerm?_eq_ok_none_iff {acc : Accumulator} :
    acc.pendingTerm? = .ok none ↔ acc.number? = none ∧ acc.dice? = none := by
  unfold pendingTerm?
  cases acc.number? <;> cases acc.dice? <;> simp

theorem pendingTerm?_eq_error {acc : Accumulator} {error : NotationError}
    (refused : acc.pendingTerm? = .error error) :
    error = .consecutiveNumbers ∧
      ∃ value dice, acc.number? = some value ∧ acc.dice? = some dice := by
  unfold pendingTerm? at refused
  split at refused
  · next value dice number held =>
      cases refused
      exact ⟨rfl, value, dice, number, held⟩
  · cases refused
  · cases refused

theorem combine_eq_error {acc : Accumulator} {error : NotationError}
    (refused : acc.combine = .error error) : acc.pendingTerm? = .error error := by
  unfold combine at refused
  cases pending : acc.pendingTerm? with
  | error first =>
      split at refused
      · simpa [pending] using refused
      · cases refused
      · simpa [pending] using refused
  | ok term? =>
      split at refused
      · simp [pending] at refused
      · cases refused
      · cases term? <;> simp [pending] at refused

/-- What combining leaves behind: the tree of everything that was read, nothing if nothing was
read, or an operator that lacks an operand. -/
inductive Combined (acc : Accumulator) (past : List Token) : Accumulator → Prop
  | tree (expr : Expr) : Combined acc past
      { acc with number? := none, dice? := none, operator? := none, tree? := some expr }
  | nothing (start : past = []) (tree : acc.tree? = none) (operator : acc.operator? = none)
      (number : acc.number? = none) (dice : acc.dice? = none) : Combined acc past acc
  | unpaired {next : Accumulator} {op : Operator} (first : past = [.operator op])
      (kept : next.operator? = some op) : Combined acc past next
  | unfinished {next : Accumulator} {front : List Token} {op : Operator}
      (last : past = front ++ [.operator op]) (kept : next.operator? = some op)
      (number : acc.number? = none) (dice : acc.dice? = none) : Combined acc past next

theorem combined_of_combine {acc next : Accumulator} {past : List Token}
    (inPast : Past past acc.tree? acc.operator?) (combines : acc.combine = .ok next) :
    Combined acc past next := by
  obtain ⟨number?, dice?, operator?, dropOperator?, awaiting, tree?⟩ := acc
  unfold combine at combines
  cases inPast with
  | start =>
      obtain ⟨term?, pending, combines⟩ := Outcome.bind_eq_ok_iff.mp combines
      cases combines
      cases term? with
      | none =>
          obtain ⟨rfl, rfl⟩ := pendingTerm?_eq_ok_none_iff.mp pending
          exact .nothing rfl rfl rfl rfl rfl
      | some term => exact .tree (.leaf term)
  | lone op =>
      obtain ⟨term?, pending, combines⟩ := Outcome.bind_eq_ok_iff.mp combines
      cases combines
      exact .unpaired rfl rfl
  | operator front lhs op =>
      obtain ⟨term?, pending, combines⟩ := Outcome.bind_eq_ok_iff.mp combines
      cases term? with
      | none =>
          cases combines
          obtain ⟨rfl, rfl⟩ := pendingTerm?_eq_ok_none_iff.mp pending
          exact .unfinished rfl rfl rfl rfl
      | some rhs =>
          cases combines
          exact .tree _

theorem accounted_joining {acc : Accumulator} {past part rest : List Token} (op : Operator)
    (free : acc.dropOperator? = none) (closed : acc.awaitingSides = false)
    (inPast : Past past acc.tree? acc.operator?)
    (pending : Pending part acc.number? acc.dice? false)
    (plain : ∀ policy, rest.head? ≠ some (.drop policy)) :
    Accounted (past ++ part ++ [.operator op]) rest (acc.combine >>= fun next =>
      if next.operator?.isSome then .error .consecutiveMathOperators
      else .ok { next with operator? := some op }) := by
  have apart : ∀ policy other, rest.head? = some (.drop policy) →
      (past ++ part ++ [Token.operator op]).getLast? ≠ some (.operator other) :=
    fun policy _ next => absurd next (plain policy)
  cases combines : acc.combine with
  | error error =>
      obtain ⟨rfl, value, dice, number, held⟩ := pendingTerm?_eq_error (combine_eq_error combines)
      rw [number, held] at pending
      exact .of_defect (pending.defect_of_dice (.operator op :: rest))
  | ok next =>
      rw [Outcome.ok_bind]
      cases combined_of_combine inPast combines with
      | tree expr =>
          refine .history
            (.settled free apart ⟨past ++ part ++ [.operator op], [], by simp, ?_, ?_⟩)
          · exact .operator (past ++ part) expr op
          · exact closed ▸ .nothing
      | nothing start tree operator number dice =>
          rw [number, dice] at pending
          obtain rfl := pending.eq_nil
          subst start
          rw [if_neg (by simp [operator])]
          refine .history (.settled free apart ⟨[.operator op], [], rfl, ?_, ?_⟩)
          · exact tree ▸ .lone op
          · exact closed ▸ number ▸ dice ▸ .nothing
      | @unpaired _ first same kept =>
          rw [if_pos (by simp [kept])]
          subst same
          exact .of_defect (.operatorUnpaired first _)
      | @unfinished _ front last same kept number dice =>
          rw [if_pos (by simp [kept])]
          rw [number, dice] at pending
          obtain rfl := pending.eq_nil
          subst same
          exact .of_defect (by simpa using Defect.operatorTwice front rest last op)

theorem accounted_operator {acc : Accumulator} {read : List Token} (op : Operator)
    (rest : List Token) (free : acc.dropOperator? = none) (traced : acc.Traced read) :
    Accounted (read ++ [.operator op]) rest (acc.step (.operator op) rest.head?) := by
  have whole := traced
  obtain ⟨past, part, rfl, inPast, pending⟩ := traced
  cases awaiting : acc.awaitingSides with
  | true =>
      have refused : acc.step (.operator op) rest.head? = .error .missingDieSides := by
        simp [step, awaiting]
      rw [awaiting] at pending
      obtain ⟨before, rfl, _⟩ := pending.unmark
      rw [refused]
      exact .of_defect (by simpa using Defect.operatorForSides (past ++ before) rest op)
  | false =>
      by_cases drop : ∃ policy, rest.head? = some (.drop policy)
      · obtain ⟨policy, next⟩ := drop
        rw [next, step_operator_drop, if_neg (by simp [awaiting])]
        exact .history (.beforeDrop rfl next rfl awaiting whole)
      · have plain := not_exists.mp drop
        rw [step_operator_of_ne_drop acc op plain, if_neg (by simp [awaiting])]
        exact accounted_joining op free awaiting inPast (awaiting ▸ pending) plain

theorem accounted_step {acc : Accumulator} {read : List Token} {token : Token}
    (rest : List Token) (history : acc.History read (some token)) :
    Accounted (read ++ [token]) rest (acc.step token rest.head?) := by
  cases token with
  | number value =>
      obtain ⟨free, traced⟩ := history.traced_of_ne_drop fun _ => Token.noConfusion
      exact accounted_number value rest free traced
  | percentile =>
      obtain ⟨free, traced⟩ := history.traced_of_ne_drop fun _ => Token.noConfusion
      exact accounted_percentile rest free traced
  | die =>
      obtain ⟨free, traced⟩ := history.traced_of_ne_drop fun _ => Token.noConfusion
      exact accounted_die rest free traced
  | operator op =>
      obtain ⟨free, traced⟩ := history.traced_of_ne_drop fun _ => Token.noConfusion
      exact accounted_operator op rest free traced
  | drop policy => exact accounted_drop rest history

theorem accounted_run {acc : Accumulator} {read tokens : List Token}
    (history : acc.History read tokens.head?) :
    Accounted (read ++ tokens) [] (acc.run tokens) := by
  induction tokens generalizing acc read with
  | nil => exact .history (by simpa using history)
  | cons token rest ih =>
      have stepped := accounted_step rest history
      rw [run_cons]
      generalize acc.step token rest.head? = outcome at stepped
      cases stepped with
      | history history => simpa using ih history
      | defect defect => exact .defect (by simpa using defect)

theorem defect_of_finish {acc : Accumulator} {read : List Token} {error : NotationError}
    (traced : acc.Traced read) (refused : acc.finish = .error error) : Defect read error := by
  obtain ⟨past, part, rfl, inPast, pending⟩ := traced
  unfold finish at refused
  cases combines : acc.combine with
  | error first =>
      rw [combines] at refused
      cases refused
      obtain ⟨rfl, value, dice, number, held⟩ :=
        pendingTerm?_eq_error (combine_eq_error combines)
      rw [number, held] at pending
      have defect : Defect (past ++ part ++ []) .consecutiveNumbers := pending.defect_of_dice []
      simpa using defect
  | ok next =>
      rw [combines, Outcome.ok_bind, combine_awaitingSides combines] at refused
      cases awaiting : acc.awaitingSides with
      | true =>
          rw [awaiting] at pending refused
          cases refused
          obtain ⟨before, rfl, _⟩ := pending.unmark
          simpa using Defect.endForSides (past ++ before)
      | false =>
          rw [awaiting] at pending refused
          cases operator : next.operator? with
          | none =>
              rw [operator] at refused
              cases refused
          | some op =>
              rw [operator] at refused
              cases refused
              cases combined_of_combine inPast combines with
              | tree expr => cases operator
              | nothing _ _ kept _ _ => cases kept.symm.trans operator
              | @unpaired _ first same kept =>
                  subst same
                  exact .operatorFirst first part
              | @unfinished _ front last same kept number dice =>
                  rw [number, dice] at pending
                  obtain rfl := pending.eq_nil
                  subst same
                  simpa using Defect.operatorLast front last

end Accumulator

/-- The fault for which tokens are refused names a defect that they have. -/
theorem Expr.defect_of_ofTokens? {tokens : List Token} {error : NotationError}
    (refused : Expr.ofTokens? tokens = .error error) : Spelling.Defect tokens error := by
  have accounted := Accumulator.accounted_run (Accumulator.history_empty tokens.head?)
  unfold Expr.ofTokens? at refused
  generalize Accumulator.empty.run tokens = outcome at accounted refused
  cases accounted with
  | defect defect =>
      cases refused
      simpa using defect
  | history history =>
      cases history with
      | settled _ _ traced => exact Accumulator.defect_of_finish traced refused
      | beforeDrop _ next _ _ _ => cases next

/-- In `d6 3-L` the number between the dice and their drop marker is found when nothing is left to
read, and in `4d6 3-L d8` the second dice are. -/
theorem Expr.defect_of_ofTokens?_stray_number :
    let dropped : List Token := [.die, .number 6, .number 3, .operator .sub, .drop .lowest]
    Expr.ofTokens? dropped = .error .consecutiveNumbers ∧
      Spelling.Defect dropped .consecutiveNumbers ∧
      Expr.ofTokens? (.number 4 :: dropped ++ [.die, .number 8]) =
        .error .consecutiveDiceExpressions ∧
      Spelling.Defect (.number 4 :: dropped ++ [.die, .number 8]) .consecutiveDiceExpressions :=
  ⟨rfl, Expr.defect_of_ofTokens? rfl, rfl, Expr.defect_of_ofTokens? rfl⟩

end DiceNotation
