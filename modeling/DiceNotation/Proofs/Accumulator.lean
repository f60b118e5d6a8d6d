import DiceNotation.Notation
import DiceNotation.Proofs.Grammar
import DiceNotation.Proofs.Outcome

/-! The accumulator accepts the tokens that spell an expression and no others, and gives
the tree that they spell.  Forwards, the tokens of a term bring it from one settled
state to the next.  Backwards, what has been read is an expression with its operator
and a part of a term behind it, or the accumulator is doomed: it holds something that
no further token repairs. -/

namespace DiceNotation

theorem Die.ofSides_eq_ok_iff {sides : UInt32} {die : Die} :
    Die.ofSides sides = .ok die ↔ sides.toNat = die.sides := by
  unfold Die.ofSides
  cases found : Die.all.find? (·.sides == sides.toNat) with
  | none =>
      simp only [List.find?_eq_none, beq_iff_eq] at found
      have differs : sides.toNat ≠ die.sides := Ne.symm (found die die.mem_all)
      simp [differs]
  | some other =>
      have named : other.sides = sides.toNat := by simpa using List.find?_some found
      simp only [Except.ok.injEq]
      exact ⟨fun same => by rw [← same, named],
        fun same => Die.sides_injective (named.trans same)⟩

theorem Pool.ofCount_eq_ok_iff {die : Die} {count : UInt32} {pool : Pool} :
    Pool.ofCount die count = .ok pool ↔ pool.die = die ∧ pool.count = count.toNat := by
  obtain ⟨poolDie, poolCount, positive, bounded⟩ := pool
  unfold Pool.ofCount
  split
  · simp only [reduceCtorEq, false_iff, not_and]
    omega
  · split
    · simp only [reduceCtorEq, false_iff, not_and]
      omega
    · simp [eq_comm]

namespace Accumulator

open Spelling

theorem finishDie_eq_ok_iff {acc next : Accumulator} {sides : UInt32} :
    acc.finishDie sides = .ok next ↔
      acc.dice? = none ∧ ∃ pool : Pool, sides.toNat = pool.die.sides ∧
        pool.count = (acc.number?.getD 1).toNat ∧
        next = { acc with number? := none, dice? := some { pool }, awaitingSides := false } := by
  cases dice : acc.dice? with
  | some _ => simp [finishDie, dice]
  | none =>
      simp only [finishDie, dice, Option.isSome_none, Bool.false_eq_true, if_false,
        Outcome.pure_eq_ok, Outcome.bind_eq_ok_iff,
        Die.ofSides_eq_ok_iff, Pool.ofCount_eq_ok_iff, Except.ok.injEq, true_and]
      constructor
      · rintro ⟨die, named, pool, ⟨rfl, counted⟩, rfl⟩
        exact ⟨pool, named, counted, rfl⟩
      · rintro ⟨pool, named, counted, rfl⟩
        exact ⟨pool.die, named, pool, ⟨rfl, counted⟩, rfl⟩

theorem markDrop_eq_ok_iff {acc next : Accumulator} {policy : DropPolicy} :
    acc.markDrop policy = .ok next ↔
      acc.dropOperator? = some .sub ∧ ∃ pool : Pool, acc.dice? = some { pool } ∧
        next = { acc with
          dice? := some { pool, drop? := some policy }, dropOperator? := none } := by
  unfold markDrop
  split
  · next pool dice =>
      by_cases minus : acc.dropOperator? = some .sub
      · simp [dice, minus, eq_comm]
      · simp [minus]
  · next other =>
      simp only [reduceCtorEq, false_iff, not_and, not_exists]
      intro _ pool dice
      exact absurd dice (other pool)

theorem run_cons (acc : Accumulator) (token : Token) (rest : List Token) :
    acc.run (token :: rest) = acc.step token rest.head? >>= fun next => next.run rest := rfl

theorem step_number (acc : Accumulator) (value : UInt32) (next? : Option Token) :
    acc.step (.number value) next? =
      if acc.awaitingSides then acc.finishDie value
      else if acc.number?.isSome then .error .consecutiveNumbers
      else .ok { acc with number? := some value } := rfl

theorem step_percentile (acc : Accumulator) (next? : Option Token) :
    acc.step .percentile next? = acc.finishDie 100 := rfl

theorem step_die (acc : Accumulator) (next? : Option Token) :
    acc.step .die next? =
      if acc.awaitingSides then .error .consecutiveDiceExpressions
      else .ok { acc with awaitingSides := true } := rfl

theorem step_drop (acc : Accumulator) (policy : DropPolicy) (next? : Option Token) :
    acc.step (.drop policy) next? = acc.markDrop policy := rfl

theorem step_operator_drop (acc : Accumulator) (op : Operator) (policy : DropPolicy) :
    acc.step (.operator op) (some (.drop policy)) =
      if acc.awaitingSides then .error .missingDieSides
      else .ok { acc with dropOperator? := some op } := rfl

theorem step_operator_of_ne_drop (acc : Accumulator) (op : Operator) {next? : Option Token}
    (plain : ∀ policy, next? ≠ some (.drop policy)) :
    acc.step (.operator op) next? =
      if acc.awaitingSides then .error .missingDieSides
      else acc.combine >>= fun next =>
        if next.operator?.isSome then .error .consecutiveMathOperators
        else .ok { next with operator? := some op } := by
  match next? with
  | none => rfl
  | some (.number _) => rfl
  | some .percentile => rfl
  | some .die => rfl
  | some (.operator _) => rfl
  | some (.drop policy) => exact absurd rfl (plain policy)

/-! Forwards: the tokens of a term bring a settled accumulator to one that holds the
term. -/

/-- Nothing has been read behind the tree and its operator. -/
structure Settled (acc : Accumulator) : Prop where
  number : acc.number? = none
  dice : acc.dice? = none
  dropOperator : acc.dropOperator? = none
  awaiting : acc.awaitingSides = false
  paired : acc.tree?.isSome = acc.operator?.isSome

structure Holds (acc : Accumulator) (term : Term) : Prop where
  pending : acc.pendingTerm? = .ok (some term)
  dropOperator : acc.dropOperator? = none
  awaiting : acc.awaitingSides = false
  paired : acc.tree?.isSome = acc.operator?.isSome

def closed (acc : Accumulator) (term : Term) : Expr :=
  match acc.tree?, acc.operator? with
  | some lhs, some op => .compound lhs op (.leaf term)
  | _, _ => .leaf term

theorem settled_empty : Settled empty := ⟨rfl, rfl, rfl, rfl, rfl⟩

theorem combine_of_pending {acc : Accumulator} {term : Term}
    (pending : acc.pendingTerm? = .ok (some term))
    (paired : acc.tree?.isSome = acc.operator?.isSome) :
    acc.combine = .ok { acc with
      number? := none, dice? := none, operator? := none
      tree? := some (acc.closed term) } := by
  cases tree : acc.tree? with
  | none =>
      have operator : acc.operator? = none := by simpa [tree] using paired
      simp [combine, closed, tree, operator, pending]
  | some lhs =>
      obtain ⟨op, operator⟩ : ∃ op, acc.operator? = some op := by
        simpa [tree, Option.isSome_iff_exists] using paired.symm
      simp [combine, closed, tree, operator, pending]

theorem step_operator_of_holds {acc : Accumulator} {term : Term} (holds : acc.Holds term)
    (op : Operator) {next? : Option Token} (plain : ∀ policy, next? ≠ some (.drop policy)) :
    acc.step (.operator op) next? = .ok { acc with
      number? := none, dice? := none, operator? := some op
      tree? := some (acc.closed term) } := by
  simp [step_operator_of_ne_drop acc op plain, holds.awaiting,
    combine_of_pending holds.pending holds.paired]

theorem finish_of_holds {acc : Accumulator} {term : Term} (holds : acc.Holds term) :
    acc.finish = .ok (some (acc.closed term)) := by
  simp [finish, combine_of_pending holds.pending holds.paired, holds.awaiting]

theorem combine_awaitingSides {acc next : Accumulator} (h : acc.combine = .ok next) :
    next.awaitingSides = acc.awaitingSides := by
  unfold combine at h
  split at h
  · obtain ⟨_, _, h⟩ := Outcome.bind_eq_ok_iff.mp h
    cases h
    rfl
  · cases h
    rfl
  · obtain ⟨term?, _, h⟩ := Outcome.bind_eq_ok_iff.mp h
    cases term? <;> cases h <;> rfl

theorem finish_eq_ok_iff {acc : Accumulator} {tree? : Option Expr} :
    acc.finish = .ok tree? ↔ ∃ next, acc.combine = .ok next ∧ acc.awaitingSides = false ∧
      next.operator? = none ∧ next.tree? = tree? := by
  unfold finish
  rw [Outcome.bind_eq_ok_iff]
  refine exists_congr fun next => and_congr_right fun combines => ?_
  rw [← combine_awaitingSides combines]
  cases awaiting : next.awaitingSides with
  | true => simp
  | false =>
      cases operator : next.operator? with
      | none => simp
      | some op => simp

theorem run_ofDie (acc : Accumulator) {tokens : List Token} {pool : Pool}
    (spelled : OfDie tokens pool.die) (rest : List Token)
    (dice : acc.dice? = none) (awaiting : acc.awaitingSides = false)
    (count : pool.count = (acc.number?.getD 1).toNat) :
    acc.run (tokens ++ rest) =
      ({ acc with number? := none, dice? := some { pool } } : Accumulator).run rest := by
  have finished : ∀ (sides : UInt32) (marked : Bool), sides.toNat = pool.die.sides →
      ({ acc with awaitingSides := marked } : Accumulator).finishDie sides =
        .ok { acc with number? := none, dice? := some { pool } } := by
    intro sides marked named
    rw [finishDie_eq_ok_iff]
    exact ⟨dice, pool, named, count, by simp [awaiting]⟩
  have reads : ∀ (next? : Option Token),
      acc.step .die next? = .ok { acc with awaitingSides := true } := by
    intro next?
    rw [step_die, if_neg (by simp [awaiting])]
  generalize die : pool.die = named at spelled
  have percent : named = .d100 → (100 : UInt32).toNat = pool.die.sides := by
    rintro rfl
    rw [die]
    rfl
  cases spelled with
  | marked sides =>
      rw [List.cons_append, run_cons, reads, Outcome.ok_bind]
      cases sides with
      | number sides =>
          rw [List.cons_append, run_cons, step_number, if_pos rfl,
            finished _ true (die ▸ sides)]
          rfl
      | percentile =>
          rw [List.cons_append, run_cons, step_percentile, finished _ true (percent rfl)]
          rfl
  | percentile =>
      rw [List.cons_append, run_cons, step_percentile,
        finished 100 acc.awaitingSides (percent rfl)]
      rfl

theorem run_ofPool {acc : Accumulator} {tokens : List Token} {pool : Pool}
    (spelled : OfPool tokens pool) (rest : List Token) (settled : acc.Settled) :
    acc.run (tokens ++ rest) =
      ({ acc with dice? := some { pool } } : Accumulator).run rest := by
  cases spelled with
  | single die one =>
      rw [run_ofDie acc die rest settled.dice settled.awaiting (by simp [settled.number, one])]
      simp [settled.number]
  | @counted more _ value die count =>
      have numbered : acc.step (.number value) (more ++ rest).head? =
          .ok { acc with number? := some value } := by
        rw [step_number, if_neg (by simp [settled.awaiting]), if_neg (by simp [settled.number])]
      rw [List.cons_append, run_cons, numbered, Outcome.ok_bind,
        run_ofDie { acc with number? := some value } die rest settled.dice settled.awaiting
          (by simp [count])]
      simp [settled.number]

theorem run_ofTerm {acc : Accumulator} {tokens : List Token} {term : Term}
    (spelled : OfTerm tokens term) (rest : List Token) (settled : acc.Settled) :
    ∃ next : Accumulator, acc.run (tokens ++ rest) = next.run rest ∧ next.Holds term ∧
      next.tree? = acc.tree? ∧ next.operator? = acc.operator? := by
  cases spelled with
  | number value =>
      refine ⟨{ acc with number? := some value }, ?_, ⟨?_, settled.dropOperator,
        settled.awaiting, settled.paired⟩, rfl, rfl⟩
      · simp [run_cons, step_number, settled.awaiting, settled.number]
      · simp [pendingTerm?, settled.dice]
  | plain spelled =>
      refine ⟨_, run_ofPool spelled rest settled, ⟨?_, settled.dropOperator,
        settled.awaiting, settled.paired⟩, rfl, rfl⟩
      simp [pendingTerm?, settled.number]
  | @dropping tokens pool spelled policy =>
      refine ⟨{ acc with dice? := some { pool, drop? := some policy } }, ?_,
        ⟨?_, settled.dropOperator, settled.awaiting, settled.paired⟩, rfl, rfl⟩
      · have marked : ({ acc with
            dice? := some { pool }, dropOperator? := some .sub } : Accumulator).markDrop
            policy = .ok { acc with dice? := some { pool, drop? := some policy } } := by
          rw [markDrop_eq_ok_iff]
          exact ⟨rfl, pool, rfl, by simp [settled.dropOperator]⟩
        rw [List.append_assoc, run_ofPool spelled _ settled, List.cons_append, run_cons,
          List.cons_append, List.head?_cons, step_operator_drop,
          if_neg (by simp [settled.awaiting]), Outcome.ok_bind, run_cons, step_drop, marked]
        rfl
      · simp [pendingTerm?, settled.number]

theorem run_ofRest {acc : Accumulator} {term : Term} {tokens : List Token}
    {rest : List (Operator × Term)} (spelled : OfRest tokens rest) (holds : acc.Holds term) :
    acc.run tokens >>= finish = .ok (some ((acc.closed term).chain rest)) := by
  induction spelled generalizing acc term with
  | nil => exact finish_of_holds holds
  | @cons tokens more rhs rest op head _ ih =>
      -- A term begins with no drop marker, so the operator in front of it moves the tree.
      obtain ⟨token, tail, begins, differs⟩ := head.head_ne_drop
      have plain : ∀ policy, (tokens ++ more).head? ≠ some (.drop policy) := by
        simpa [begins] using differs
      have settled : Settled { acc with
          number? := none, dice? := none, operator? := some op
          tree? := some (acc.closed term) } :=
        ⟨rfl, rfl, holds.dropOperator, holds.awaiting, rfl⟩
      obtain ⟨next, reads, holdsNext, tree, operator⟩ := run_ofTerm head more settled
      have closedNext : next.closed rhs = .compound (acc.closed term) op (.leaf rhs) := by
        simp [closed, tree, operator]
      rw [List.cons_append, run_cons, step_operator_of_holds holds op plain,
        Outcome.ok_bind, reads, ih holdsNext, closedNext, Expr.chain_cons]

theorem ofTokens?_of_spelled {tokens : List Token} {expr : Expr}
    (spelled : OfExpr tokens expr) : Expr.ofTokens? tokens = .ok (some expr) := by
  cases spelled with
  | @chain tokens more first rest head tail =>
      obtain ⟨next, reads, holds, tree, _⟩ := run_ofTerm head more settled_empty
      have closedFirst : next.closed first = .leaf first := by simp [closed, tree, empty]
      rw [Expr.ofTokens?, reads, ← closedFirst]
      exact run_ofRest tail holds

/-! Backwards: every accepted token belongs to an expression. -/

/-- What was read in front of a term, with the tree and the operator that it left. -/
inductive Front : List Token → Option Expr → Option Operator → Prop
  | start : Front [] none none
  | operator {tokens : List Token} {lhs : Expr} (spelled : OfExpr tokens lhs)
      (op : Operator) : Front (tokens ++ [.operator op]) (some lhs) (some op)

inductive Part : List Token → Option UInt32 → Option DiceTerm → Bool → Prop
  | nothing : Part [] none none false
  | number (value : UInt32) : Part [.number value] (some value) none false
  | marker : Part [.die] none none true
  | counted (value : UInt32) : Part [.number value, .die] (some value) none true
  | dice {tokens : List Token} {dice : DiceTerm} (spelled : OfTerm tokens (.dice dice)) :
      Part tokens none (some dice) false

/-- What was read is an expression with its operator, and a part of a term. -/
def Live (acc : Accumulator) (read : List Token) : Prop :=
  ∃ front part, read = front ++ part ∧ Front front acc.tree? acc.operator? ∧
    Part part acc.number? acc.dice? acc.awaitingSides

inductive Sound (acc : Accumulator) (read : List Token) (next? : Option Token) : Prop
  | settled (free : acc.dropOperator? = none) (live : acc.Live read)
  | beforeDrop {before : List Token} {op : Operator} {policy : DropPolicy}
      (held : acc.dropOperator? = some op) (next : next? = some (.drop policy))
      (same : read = before ++ [.operator op]) (live : acc.Live before)

/-- An operator without a left operand, or dice next to a number or to another die. -/
def Doomed (acc : Accumulator) : Prop :=
  (acc.tree? = none ∧ acc.operator?.isSome) ∨
    (acc.tree?.isSome → acc.operator?.isSome) ∧ acc.dice?.isSome ∧
      (acc.number?.isSome ∨ acc.awaitingSides = true)

theorem Front.paired {front : List Token} {tree? : Option Expr} {operator? : Option Operator}
    (h : Front front tree? operator?) : tree?.isSome = operator?.isSome := by
  cases h <;> rfl

theorem sound_empty (next? : Option Token) : empty.Sound [] next? :=
  .settled rfl ⟨[], [], rfl, .start, .nothing⟩

theorem closed_of_front {acc : Accumulator} {front part : List Token} {term : Term}
    (h : Front front acc.tree? acc.operator?) (spelled : OfTerm part term) :
    OfExpr (front ++ part) (acc.closed term) := by
  unfold closed
  generalize acc.tree? = tree?, acc.operator? = operator? at h
  cases h with
  | start => exact OfExpr.leaf spelled
  | operator left op => simpa using OfExpr.compound left op spelled

theorem pendingTerm?_of_part {acc : Accumulator} {part : List Token}
    (h : Part part acc.number? acc.dice? acc.awaitingSides)
    (closed : acc.awaitingSides = false) :
    (part = [] ∧ acc.number? = none ∧ acc.dice? = none) ∨
      ∃ term, OfTerm part term ∧ acc.pendingTerm? = .ok (some term) := by
  unfold pendingTerm?
  generalize acc.number? = number?, acc.dice? = dice?, acc.awaitingSides = awaiting
    at h closed
  cases h with
  | nothing => exact .inl ⟨rfl, rfl, rfl⟩
  | number value => exact .inr ⟨_, .number value, rfl⟩
  | marker => cases closed
  | counted value => cases closed
  | dice spelled => exact .inr ⟨_, spelled, rfl⟩

theorem combine_of_live {acc next : Accumulator} {read : List Token}
    (live : acc.Live read) (closed : acc.awaitingSides = false)
    (h : acc.combine = .ok next) :
    (∃ expr, OfExpr read expr ∧ next = { acc with
      number? := none, dice? := none, operator? := none, tree? := some expr }) ∨
    (Front read acc.tree? acc.operator? ∧ next = acc) := by
  obtain ⟨front, part, rfl, inFront, ofPart⟩ := live
  rcases pendingTerm?_of_part ofPart closed with ⟨rfl, number, dice⟩ | ⟨term, spelled, pending⟩
  · right
    refine ⟨by simpa using inFront, ?_⟩
    have nothing : acc.pendingTerm? = .ok none := by simp [pendingTerm?, number, dice]
    obtain ⟨number?, dice?, operator?, dropOperator?, awaiting, tree?⟩ := acc
    subst number dice
    cases tree? with
    | none => simpa [combine, nothing] using h.symm
    | some lhs =>
        cases operator? with
        | none => simpa [combine] using h.symm
        | some op => simpa [combine, nothing] using h.symm
  · left
    refine ⟨acc.closed term, closed_of_front inFront spelled, ?_⟩
    rw [combine_of_pending pending inFront.paired] at h
    exact (Except.ok.inj h).symm

theorem sound_of_finishDie {acc next : Accumulator} {read : List Token} {token : Token}
    {sides : UInt32} {next? : Option Token} (free : acc.dropOperator? = none)
    (live : acc.Live read) (h : acc.finishDie sides = .ok next)
    (spelled : ∀ die : Die, sides.toNat = die.sides →
      OfDie ((if acc.awaitingSides then [.die] else []) ++ [token]) die) :
    next.Sound (read ++ [token]) next? := by
  obtain ⟨noDice, pool, named, count, rfl⟩ := finishDie_eq_ok_iff.mp h
  obtain ⟨front, part, rfl, inFront, ofPart⟩ := live
  have ofDie := spelled pool.die named
  refine .settled free ⟨front, part ++ [token], by simp, inFront, .dice (.plain ?_)⟩
  generalize acc.number? = number?, acc.dice? = dice?, acc.awaitingSides = awaiting
    at ofPart noDice count ofDie
  cases ofPart with
  | nothing => exact .single ofDie count
  | number value => exact .counted ofDie count.symm
  | marker => exact .single ofDie count
  | counted value => exact .counted ofDie count.symm
  | dice spelled => cases noDice

theorem Sound.live {acc : Accumulator} {read : List Token} {token : Token}
    (sound : acc.Sound read (some token)) (plain : ∀ policy, token ≠ .drop policy) :
    acc.dropOperator? = none ∧ acc.Live read := by
  cases sound with
  | settled free live => exact ⟨free, live⟩
  | beforeDrop held next same live => exact absurd (Option.some.inj next) (plain _)

theorem step_number_sound {acc next : Accumulator} {read : List Token} {value : UInt32}
    {next? : Option Token} (sound : acc.Sound read (some (.number value)))
    (h : acc.step (.number value) next? = .ok next) :
    next.Sound (read ++ [.number value]) next? ∨ next.Doomed := by
  obtain ⟨free, live⟩ := sound.live fun _ => Token.noConfusion
  rw [step_number] at h
  by_cases awaiting : acc.awaitingSides = true
  · rw [if_pos awaiting] at h
    left
    apply sound_of_finishDie free live h
    intro die named
    rw [if_pos awaiting]
    exact .marked (.number named)
  · rw [if_neg awaiting] at h
    split at h
    · cases h
    · next number =>
        cases h
        obtain ⟨front, part, rfl, inFront, ofPart⟩ := live
        have paired := inFront.paired
        generalize acc.number? = number?, acc.dice? = dice?,
          acc.awaitingSides = isMarked at ofPart number awaiting
        cases ofPart with
        | nothing =>
            exact .inl (.settled free ⟨front, _, by simp, inFront, .number value⟩)
        | number _ => exact absurd rfl number
        | marker => exact absurd rfl awaiting
        | counted _ => exact absurd rfl number
        -- A number behind dice is kept, and neither of them can leave any more.
        | dice _ => exact .inr (.inr ⟨fun h => paired ▸ h, rfl, .inl rfl⟩)

theorem step_percentile_sound {acc next : Accumulator} {read : List Token}
    {next? : Option Token} (sound : acc.Sound read (some .percentile))
    (h : acc.step .percentile next? = .ok next) :
    next.Sound (read ++ [.percentile]) next? := by
  obtain ⟨free, live⟩ := sound.live fun _ => Token.noConfusion
  apply sound_of_finishDie free live h
  intro die named
  have hundred : die = .d100 := Die.sides_injective (named.symm.trans rfl)
  subst hundred
  split
  · exact .marked .percentile
  · exact .percentile

theorem step_die_sound {acc next : Accumulator} {read : List Token}
    {next? : Option Token} (sound : acc.Sound read (some .die))
    (h : acc.step .die next? = .ok next) :
    next.Sound (read ++ [.die]) next? ∨ next.Doomed := by
  obtain ⟨free, front, part, rfl, inFront, ofPart⟩ := sound.live fun _ => Token.noConfusion
  rw [step_die] at h
  split at h
  · cases h
  · next awaiting =>
      cases h
      have paired := inFront.paired
      generalize acc.number? = number?, acc.dice? = dice?,
        acc.awaitingSides = isMarked at ofPart awaiting
      cases ofPart with
      | nothing => exact .inl (.settled free ⟨front, _, by simp, inFront, .marker⟩)
      | number value =>
          exact .inl (.settled free ⟨front, _, by simp, inFront, .counted value⟩)
      | marker => exact absurd rfl awaiting
      | counted _ => exact absurd rfl awaiting
      | dice _ => exact .inr (.inr ⟨fun h => paired ▸ h, rfl, .inr rfl⟩)

theorem step_drop_sound {acc next : Accumulator} {read : List Token} {policy : DropPolicy}
    {next? : Option Token} (sound : acc.Sound read (some (.drop policy)))
    (h : acc.step (.drop policy) next? = .ok next) :
    next.Sound (read ++ [.drop policy]) next? := by
  rw [step_drop, markDrop_eq_ok_iff] at h
  obtain ⟨minus, pool, plain, rfl⟩ := h
  cases sound with
  | settled free live => cases free.symm.trans minus
  | @beforeDrop before op _ held _ same live =>
      obtain ⟨front, part, rfl, inFront, ofPart⟩ := live
      cases held.symm.trans minus
      generalize acc.number? = number?, acc.dice? = dice?,
        acc.awaitingSides = isMarked at ofPart plain
      cases ofPart with
      | @dice part dice spelled =>
          cases plain
          have ofPool : OfPool part pool := by
            cases spelled with
            | plain spelled => exact spelled
          exact .settled rfl
            ⟨front, _, by simp [same], inFront, .dice (.dropping ofPool policy)⟩
      | _ => cases plain

theorem step_operator_sound {acc next : Accumulator} {read : List Token} {op : Operator}
    {next? : Option Token} (sound : acc.Sound read (some (.operator op)))
    (h : acc.step (.operator op) next? = .ok next) :
    next.Sound (read ++ [.operator op]) next? ∨ next.Doomed := by
  obtain ⟨free, live⟩ := sound.live fun _ => Token.noConfusion
  by_cases drop : ∃ policy, next? = some (.drop policy)
  · obtain ⟨policy, rfl⟩ := drop
    rw [step_operator_drop] at h
    split at h
    · cases h
    · cases h
      exact .inl (.beforeDrop rfl rfl rfl live)
  · rw [step_operator_of_ne_drop acc op (fun policy same => drop ⟨policy, same⟩)] at h
    split at h
    · cases h
    · next awaiting =>
        obtain ⟨combined, combines, h⟩ := Outcome.bind_eq_ok_iff.mp h
        split at h
        · cases h
        · next noOperator =>
            cases h
            have closed : acc.awaitingSides = false := by simpa using awaiting
            rcases combine_of_live live closed combines with ⟨expr, spelled, rfl⟩ | ⟨inFront, rfl⟩
            · refine .inl (.settled free ⟨_, [], by simp, .operator spelled op, ?_⟩)
              simpa [closed] using Part.nothing
            -- Nothing was pending, and the operator came through: it is the first token.
            · have noTree : combined.tree? = none := by
                simpa [noOperator] using inFront.paired
              exact .inr (.inl ⟨noTree, rfl⟩)

theorem step_sound {acc next : Accumulator} {read : List Token} {token : Token}
    {next? : Option Token} (sound : acc.Sound read (some token))
    (h : acc.step token next? = .ok next) :
    next.Sound (read ++ [token]) next? ∨ next.Doomed := by
  cases token with
  | number value => exact step_number_sound sound h
  | percentile => exact .inl (step_percentile_sound sound h)
  | die => exact step_die_sound sound h
  | operator op => exact step_operator_sound sound h
  | drop policy => exact .inl (step_drop_sound sound h)

theorem Doomed.finishDie {acc next : Accumulator} {sides : UInt32} (doomed : acc.Doomed)
    (h : acc.finishDie sides = .ok next) : next.Doomed := by
  obtain ⟨noDice, _, _, _, rfl⟩ := finishDie_eq_ok_iff.mp h
  rcases doomed with lone | ⟨_, dice, _⟩
  · exact .inl lone
  · simp [noDice] at dice

theorem Doomed.combine {acc next : Accumulator} (doomed : acc.Doomed)
    (awaiting : acc.awaitingSides = false) (h : acc.combine = .ok next) :
    next.operator?.isSome := by
  unfold Accumulator.combine at h
  rcases doomed with ⟨noTree, operator⟩ | ⟨paired, dice, number⟩
  · simp only [noTree, Outcome.bind_eq_ok_iff] at h
    obtain ⟨term?, _, h⟩ := h
    cases h
    exact operator
  · obtain ⟨dice, held⟩ := Option.isSome_iff_exists.mp dice
    obtain ⟨value, counted⟩ : ∃ value, acc.number? = some value := by
      simpa [awaiting, Option.isSome_iff_exists] using number
    have refused : acc.pendingTerm? = .error .consecutiveNumbers := by
      simp [pendingTerm?, held, counted]
    cases tree : acc.tree? with
    | none => simp [tree, refused] at h
    | some lhs =>
        obtain ⟨op, operator⟩ := Option.isSome_iff_exists.mp (paired (by simp [tree]))
        simp [tree, operator, refused] at h

theorem Doomed.step {acc next : Accumulator} {token : Token} {next? : Option Token}
    (doomed : acc.Doomed) (h : acc.step token next? = .ok next) : next.Doomed := by
  cases token with
  | number value =>
      rw [step_number] at h
      split at h
      · exact doomed.finishDie h
      · split at h
        · cases h
        · cases h
          exact doomed.imp_right fun ⟨paired, dice, _⟩ => ⟨paired, dice, .inl rfl⟩
  | percentile => exact doomed.finishDie h
  | die =>
      rw [step_die] at h
      split at h
      · cases h
      · cases h
        exact doomed.imp_right fun ⟨paired, dice, _⟩ => ⟨paired, dice, .inr rfl⟩
  | drop policy =>
      rw [step_drop, markDrop_eq_ok_iff] at h
      obtain ⟨_, pool, _, rfl⟩ := h
      exact doomed.imp_right fun ⟨paired, _, number⟩ => ⟨paired, rfl, number⟩
  | operator op =>
      by_cases drop : ∃ policy, next? = some (.drop policy)
      · obtain ⟨policy, rfl⟩ := drop
        rw [step_operator_drop] at h
        split at h
        · cases h
        · cases h
          exact doomed
      · rw [step_operator_of_ne_drop acc op (fun policy same => drop ⟨policy, same⟩)] at h
        split at h
        · cases h
        · next awaiting =>
            obtain ⟨combined, combines, h⟩ := Outcome.bind_eq_ok_iff.mp h
            rw [if_pos (doomed.combine (by simpa using awaiting) combines)] at h
            cases h

theorem finish_of_doomed {acc : Accumulator} {tree? : Option Expr} (doomed : acc.Doomed) :
    acc.finish ≠ .ok tree? := by
  intro h
  obtain ⟨next, combines, awaiting, noOperator, _⟩ := finish_eq_ok_iff.mp h
  have operator := doomed.combine awaiting combines
  simp [noOperator] at operator

theorem finish_of_sound {acc : Accumulator} {read : List Token} {tree? : Option Expr}
    (sound : acc.Sound read none) (h : acc.finish = .ok tree?) :
    (read = [] ∧ tree? = none) ∨ ∃ expr, OfExpr read expr ∧ tree? = some expr := by
  obtain ⟨next, combines, awaiting, noOperator, rfl⟩ := finish_eq_ok_iff.mp h
  cases sound with
  | settled free live =>
      rcases combine_of_live live awaiting combines with ⟨expr, spelled, rfl⟩ | ⟨inFront, rfl⟩
      · exact .inr ⟨expr, spelled, rfl⟩
      · rw [noOperator] at inFront
        generalize next.tree? = tree? at inFront
        cases inFront with
        | start => exact .inl ⟨rfl, rfl⟩
  | beforeDrop _ next _ _ => cases next

theorem run_sound {acc final : Accumulator} {read tokens : List Token}
    (sound : acc.Sound read tokens.head? ∨ acc.Doomed) (h : acc.run tokens = .ok final) :
    final.Sound (read ++ tokens) none ∨ final.Doomed := by
  induction tokens generalizing acc read with
  | nil =>
      cases h
      simpa using sound
  | cons token rest ih =>
      obtain ⟨next, stepped, h⟩ := Outcome.bind_eq_ok_iff.mp (run_cons acc token rest ▸ h)
      have reached : next.Sound (read ++ [token]) rest.head? ∨ next.Doomed := by
        rcases sound with sound | doomed
        · exact step_sound sound stepped
        · exact .inr (doomed.step stepped)
      simpa using ih reached h

theorem ofTokens?_sound {tokens : List Token} {tree? : Option Expr}
    (h : Expr.ofTokens? tokens = .ok tree?) :
    (tokens = [] ∧ tree? = none) ∨ ∃ expr, OfExpr tokens expr ∧ tree? = some expr := by
  obtain ⟨final, runs, finishes⟩ := Outcome.bind_eq_ok_iff.mp h
  rcases run_sound (.inl (sound_empty tokens.head?)) runs with sound | doomed
  · exact finish_of_sound sound finishes
  · exact absurd finishes (finish_of_doomed doomed)

end Accumulator

/-- Reading gives nothing for no tokens, the tree for the tokens that spell an
expression, and a fault for all others. -/
theorem Expr.ofTokens?_exact (tokens : List Token) :
    (Expr.ofTokens? tokens = .ok none ↔ tokens = []) ∧
      (∀ expr, Expr.ofTokens? tokens = .ok (some expr) ↔ Spelling.OfExpr tokens expr) ∧
      ((∃ error, Expr.ofTokens? tokens = .error error) ↔
        tokens ≠ [] ∧ ¬ ∃ expr, Spelling.OfExpr tokens expr) := by
  have nothing : Expr.ofTokens? [] = .ok none := rfl
  refine ⟨⟨fun h => ?_, ?_⟩, fun expr => ⟨fun h => ?_, Accumulator.ofTokens?_of_spelled⟩,
    ⟨?_, ?_⟩⟩
  · rcases Accumulator.ofTokens?_sound h with ⟨empty, _⟩ | ⟨_, _, impossible⟩
    · exact empty
    · cases impossible
  · rintro rfl
    exact nothing
  · rcases Accumulator.ofTokens?_sound h with ⟨_, impossible⟩ | ⟨_, spelled, same⟩
    · cases impossible
    · cases same
      exact spelled
  · rintro ⟨error, refused⟩
    refine ⟨?_, ?_⟩
    · rintro rfl
      cases nothing.symm.trans refused
    · rintro ⟨expr, spelled⟩
      cases (Accumulator.ofTokens?_of_spelled spelled).symm.trans refused
  · rintro ⟨nonempty, unspelled⟩
    cases outcome : Expr.ofTokens? tokens with
    | error error => exact ⟨error, rfl⟩
    | ok tree? =>
        rcases Accumulator.ofTokens?_sound outcome with ⟨empty, _⟩ | ⟨expr, spelled, _⟩
        · exact absurd empty nonempty
        · exact absurd ⟨expr, spelled⟩ unspelled

end DiceNotation
