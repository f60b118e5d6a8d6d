import DiceNotation.Proofs.Accumulator.Defect
import DiceNotation.Proofs.Reread

/-! After any number of tokens the flags of the accumulator say which token was read last, and a
tree never stands without its operator.  So combining always moves the pending term into the
tree: there is no run in which it is left behind. -/

namespace DiceNotation

namespace Accumulator

open Spelling

/-- Reads so many tokens, each of them with all tokens behind it in sight. -/
def runFirst (acc : Accumulator) : (count : Nat) → List Token → Except NotationError Accumulator
  | 0, _ => .ok acc
  | _ + 1, [] => .ok acc
  | count + 1, token :: rest => do (← acc.step token rest.head?).runFirst count rest

theorem run_eq_runFirst (acc : Accumulator) (count : Nat) (tokens : List Token) :
    acc.run tokens = acc.runFirst count tokens >>= fun next => next.run (tokens.drop count) := by
  induction count generalizing acc tokens with
  | zero => rfl
  | succ count ih =>
      cases tokens with
      | nil => rfl
      | cons token rest =>
          rw [run_cons, runFirst, List.drop_succ_cons]
          cases acc.step token rest.head? with
          | error error => rfl
          | ok next => exact ih next rest

/-- A tree never stands without the operator behind it. -/
def Paired (acc : Accumulator) : Prop :=
  ∀ lhs, acc.tree? = some lhs → acc.operator?.isSome = true

section

variable {past part tokens : List Token} {tree? : Option Expr} {operator? : Option Operator}
  {number? : Option UInt32} {dice? : Option DiceTerm}

theorem Past.isSome_operator {lhs : Expr} (h : Past past (some lhs) operator?) :
    operator?.isSome = true := by
  cases h with
  | operator front lhs op => rfl

theorem EndsLikeDice.getLast?_ne_die (h : EndsLikeDice tokens) :
    tokens.getLast? ≠ some .die := by
  intro last
  obtain ⟨before, rfl⟩ := List.getLast?_eq_some_iff.mp last
  simp [EndsLikeDice] at h

theorem getLast?_ofDice_ne_die {dice : DiceTerm} (front : List Token)
    (spelled : OfDice tokens dice number?) : (front ++ tokens).getLast? ≠ some .die := by
  cases spelled with
  | term spelled =>
      cases spelled with
      | plain spelled =>
          have ends := (endsLikeDice_of_pool front spelled none).getLast?_ne_die
          simpa using ends
      | dropping spelled policy => simp
  | number spelled value => simp
  | dropping spelled value policy => simp

theorem Pending.awaiting_iff {awaiting : Bool} (inPast : Past past tree? operator?)
    (h : Pending part number? dice? awaiting) :
    awaiting = true ↔ (past ++ part).getLast? = some .die := by
  cases h with
  | nothing => simpa using inPast.getLast?_ne_die
  | number value => simp
  | dice spelled => simpa using getLast?_ofDice_ne_die past spelled
  | marked before => simp

end

theorem Traced.awaitingSides_iff {acc : Accumulator} {read : List Token}
    (traced : acc.Traced read) : acc.awaitingSides = true ↔ read.getLast? = some .die := by
  obtain ⟨past, part, rfl, inPast, pending⟩ := traced
  exact pending.awaiting_iff inPast

theorem Traced.paired {acc : Accumulator} {read : List Token} (traced : acc.Traced read) :
    acc.Paired := by
  obtain ⟨past, part, rfl, inPast, pending⟩ := traced
  intro lhs tree
  rw [tree] at inPast
  exact inPast.isSome_operator

namespace History

variable {acc next : Accumulator} {read rest : List Token} {token : Token} {next? : Option Token}

theorem dropOperator_iff (history : acc.History read next?) :
    acc.dropOperator?.isSome = true ↔
      (∃ op, read.getLast? = some (.operator op)) ∧ ∃ policy, next? = some (.drop policy) := by
  cases history with
  | settled free apart traced =>
      rw [free]
      constructor
      · intro held
        cases held
      · rintro ⟨⟨op, last⟩, policy, next⟩
        exact absurd last (apart policy op next)
  | beforeDrop held next same closed traced =>
      subst same
      simp [held, next]

theorem awaitingSides_iff (history : acc.History read next?) :
    acc.awaitingSides = true ↔ read.getLast? = some .die := by
  cases history with
  | settled free apart traced => exact traced.awaitingSides_iff
  | beforeDrop held next same closed traced =>
      subst same
      simp [closed]

theorem paired (history : acc.History read next?) : acc.Paired := by
  cases history with
  | settled free apart traced => exact traced.paired
  | beforeDrop held next same closed traced => exact traced.paired

theorem step (history : acc.History read (some token))
    (stepped : acc.step token rest.head? = .ok next) :
    next.History (read ++ [token]) rest.head? := by
  have accounted := accounted_step rest history
  rw [stepped] at accounted
  cases accounted with
  | history history => exact history

end History

def terms (acc : Accumulator) : List Term := acc.tree?.elim [] Expr.leaves

def joined? (acc : Accumulator) : Option Term → Option Expr
  | none => acc.tree?
  | some term => some (acc.closed term)

section

variable {acc combined : Accumulator}

theorem pendingTerm?_of_combine (paired : acc.Paired) (combines : acc.combine = .ok combined) :
    ∃ term?, acc.pendingTerm? = .ok term? ∧ combined.number? = none ∧ combined.dice? = none ∧
      combined.tree? = acc.joined? term? := by
  unfold combine at combines
  cases tree : acc.tree? with
  | none =>
      rw [tree] at combines
      obtain ⟨term?, pending, combines⟩ := Outcome.bind_eq_ok_iff.mp combines
      cases combines
      refine ⟨term?, pending, rfl, rfl, ?_⟩
      cases term? with
      | none => exact tree.symm
      | some term => simp [joined?, closed, tree]
  | some lhs =>
      obtain ⟨op, operator⟩ := Option.isSome_iff_exists.mp (paired lhs tree)
      rw [tree, operator] at combines
      obtain ⟨term?, pending, combines⟩ := Outcome.bind_eq_ok_iff.mp combines
      refine ⟨term?, pending, ?_⟩
      cases term? with
      | none =>
          cases combines
          exact ⟨rfl, rfl, tree.symm⟩
      | some term =>
          cases combines
          exact ⟨rfl, rfl, by simp [joined?, closed, tree, operator]⟩

theorem leaves_joined? (paired : acc.Paired) (term? : Option Term) :
    (acc.joined? term?).elim [] Expr.leaves = acc.terms ++ term?.toList := by
  cases term? with
  | none => simp [joined?, terms]
  | some term =>
      cases tree : acc.tree? with
      | none => simp [joined?, closed, terms, tree]
      | some lhs =>
          obtain ⟨op, operator⟩ := Option.isSome_iff_exists.mp (paired lhs tree)
          simp [joined?, closed, terms, tree, operator]

def Written (acc : Accumulator) : Prop :=
  ∀ tree, acc.tree? = some tree → tree.hasNotation = true

theorem hasNotation_of_pendingTerm? {term : Term} (h : acc.pendingTerm? = .ok (some term)) :
    term.hasNotation = true := by
  unfold pendingTerm? at h
  split at h
  · cases h
  · cases h
    exact Term.hasNotation_of_spelled (.number _)
  · obtain ⟨dice, _, rfl⟩ := Option.map_eq_some_iff.mp (Except.ok.inj h)
    rfl

theorem Written.closed {term : Term} (written : acc.Written) (last : term.hasNotation = true) :
    (acc.closed term).hasNotation = true := by
  unfold Accumulator.closed
  split
  · next lhs op tree operator => simp [written lhs tree, last]
  · exact last

theorem Written.combine (written : acc.Written) (paired : acc.Paired)
    (combines : acc.combine = .ok combined) : combined.Written := by
  obtain ⟨term?, pending, _, _, joined⟩ := pendingTerm?_of_combine paired combines
  intro tree found
  rw [joined] at found
  cases term? with
  | none => exact written tree found
  | some term =>
      cases found
      exact written.closed (hasNotation_of_pendingTerm? pending)

theorem tree?_of_step {token : Token} {next? : Option Token} {next : Accumulator}
    (stepped : acc.step token next? = .ok next) :
    next.tree? = acc.tree? ∨
      ∃ combined, acc.combine = .ok combined ∧ next.tree? = combined.tree? := by
  have tree?_of_finishDie {sides : UInt32} (finished : acc.finishDie sides = .ok next) :
      next.tree? = acc.tree? := by
    obtain ⟨_, _, _, _, rfl⟩ := finishDie_eq_ok_iff.mp finished
    rfl
  cases token with
  | number value =>
      rw [step_number] at stepped
      split at stepped
      · exact .inl (tree?_of_finishDie stepped)
      · split at stepped
        · cases stepped
        · cases stepped
          exact .inl rfl
  | percentile => exact .inl (tree?_of_finishDie stepped)
  | die =>
      rw [step_die] at stepped
      split at stepped
      · cases stepped
      · cases stepped
        exact .inl rfl
  | drop policy =>
      rw [step_drop, markDrop_eq_ok_iff] at stepped
      obtain ⟨_, _, _, rfl⟩ := stepped
      exact .inl rfl
  | operator op =>
      by_cases drop : ∃ policy, next? = some (.drop policy)
      · obtain ⟨policy, rfl⟩ := drop
        rw [step_operator_drop] at stepped
        split at stepped
        · cases stepped
        · cases stepped
          exact .inl rfl
      · rw [step_operator_of_ne_drop acc op (not_exists.mp drop)] at stepped
        split at stepped
        · cases stepped
        · obtain ⟨combined, combines, stepped⟩ := Outcome.bind_eq_ok_iff.mp stepped
          split at stepped
          · cases stepped
          · cases stepped
            exact .inr ⟨combined, combines, rfl⟩

theorem Written.step {token : Token} {next? : Option Token} {next : Accumulator}
    (written : acc.Written) (paired : acc.Paired)
    (stepped : acc.step token next? = .ok next) : next.Written := by
  intro tree found
  rcases tree?_of_step stepped with same | ⟨combined, combines, same⟩
  · exact written tree (same ▸ found)
  · exact written.combine paired combines tree (same ▸ found)

end

/-- What holds once the tokens `read` have been read and `next?` is in sight. -/
structure Invariant (acc : Accumulator) (read : List Token) (next? : Option Token) : Prop where
  dropOperator_iff : acc.dropOperator?.isSome = true ↔
    (∃ op, read.getLast? = some (.operator op)) ∧ ∃ policy, next? = some (.drop policy)
  awaitingSides_iff : acc.awaitingSides = true ↔ read.getLast? = some .die
  paired : acc.Paired
  leftNested : ∀ tree, acc.tree? = some tree → tree.LeftNested
  constants : ∀ tree value, acc.tree? = some tree → .const value ∈ tree.leaves →
    0 ≤ value.toInt ∧ value.toInt ≤ 4294967295
  counts : ∀ dice, acc.dice? = some dice ∨ .dice dice ∈ acc.terms →
    1 ≤ dice.pool.count ∧ dice.pool.count ≤ 1000

theorem invariant_of_history {acc : Accumulator} {read : List Token} {next? : Option Token}
    (history : acc.History read next?) (written : acc.Written) : acc.Invariant read next? where
  dropOperator_iff := history.dropOperator_iff
  awaitingSides_iff := history.awaitingSides_iff
  paired := history.paired
  leftNested tree found := ((Expr.hasNotation_iff tree).mp (written tree found)).1
  constants tree _ found member :=
    Term.const_bounds (((Expr.hasNotation_iff tree).mp (written tree found)).2 _ member)
  counts dice _ := ⟨dice.pool.count_pos, dice.pool.count_le⟩

theorem history_of_runFirst {acc next : Accumulator} {read tokens : List Token} {count : Nat}
    (history : acc.History read tokens.head?) (written : acc.Written)
    (reached : acc.runFirst count tokens = .ok next) :
    next.History (read ++ tokens.take count) (tokens.drop count).head? ∧ next.Written := by
  induction count generalizing acc read tokens with
  | zero =>
      cases reached
      simpa using ⟨history, written⟩
  | succ count ih =>
      cases tokens with
      | nil =>
          cases reached
          simpa using ⟨history, written⟩
      | cons token rest =>
          obtain ⟨middle, stepped, reached⟩ := Outcome.bind_eq_ok_iff.mp reached
          have later := ih (history.step stepped)
            (written.step history.paired stepped) reached
          simpa using later

/-- After any number of tokens the invariant holds, and the run goes on from there.  So
combining, there or at the end, never meets a tree without an operator: what it gives holds
no pending number or dice any more, and the terms of its tree are those of the tree before
and the term that was pending. -/
theorem invariant_of_runFirst {tokens : List Token} {count : Nat} {acc : Accumulator}
    (reached : empty.runFirst count tokens = .ok acc) :
    acc.Invariant (tokens.take count) tokens[count]? ∧
    Expr.ofTokens? tokens = acc.run (tokens.drop count) >>= finish ∧
    (¬ ∃ lhs, acc.tree? = some lhs ∧ acc.operator? = none) ∧
    ∀ combined, acc.combine = .ok combined →
      ∃ term?, acc.pendingTerm? = .ok term? ∧ combined.number? = none ∧
        combined.dice? = none ∧ combined.terms = acc.terms ++ term?.toList := by
  have start : empty.Written := fun tree found => nomatch found
  obtain ⟨history, written⟩ := history_of_runFirst (history_empty tokens.head?) start reached
  rw [List.nil_append, List.head?_drop] at history
  have paired : acc.Paired := history.paired
  refine ⟨invariant_of_history history written, ?_, ?_, ?_⟩
  · rw [Expr.ofTokens?, run_eq_runFirst empty count tokens, reached]
    rfl
  · rintro ⟨lhs, tree, operator⟩
    have held := paired lhs tree
    rw [operator] at held
    cases held
  · intro combined combines
    obtain ⟨term?, pending, number, dice, joined⟩ := pendingTerm?_of_combine paired combines
    refine ⟨term?, pending, number, dice, ?_⟩
    rw [terms, joined]
    exact leaves_joined? paired term?

theorem invariant_of_runFirst_before_marker :
    let dice : DiceTerm := ⟨⟨.d6, 4, by decide, by decide⟩, none⟩
    let tokens : List Token :=
      [.number 2, .operator .add, .number 4, .die, .number 6, .operator .sub, .drop .lowest]
    let acc : Accumulator :=
      { dice? := some dice, operator? := some .add, dropOperator? := some .sub,
        tree? := some (.const 2) }
    empty.runFirst 6 tokens = .ok acc ∧
      acc.Invariant (tokens.take 6) (some (.drop .lowest)) ∧
      Expr.ofTokens? tokens = acc.run [.drop .lowest] >>= finish ∧
      ∀ combined, acc.combine = .ok combined →
        combined.number? = none ∧ combined.dice? = none ∧
          combined.terms = [.const 2, .dice dice] := by
  intro dice tokens acc
  have reached : empty.runFirst 6 tokens = .ok acc := by decide
  obtain ⟨invariant, goesOn, _, combining⟩ := invariant_of_runFirst reached
  refine ⟨reached, invariant, goesOn, ?_⟩
  intro combined combines
  obtain ⟨term?, pending, number, dice, terms⟩ := combining combined combines
  cases pending
  exact ⟨number, dice, terms⟩

end Accumulator

end DiceNotation
