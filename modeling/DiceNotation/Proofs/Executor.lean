import DiceNotation.Executor
import DiceNotation.Proofs.KeyStream

namespace DiceNotation

namespace Request

def expr? : Request → Except NotationError (Option Expr)
  | .written text => Expr.parse? text
  | .expression expr => .ok (some expr)

/-- The reply once so many generators are taken, or the provider is lost. -/
def reply (request : Request) (key : ChaCha.Key) (lost : Bool) (taken : Nat) : Reply :=
  match request.expr? with
  | .error error => .error (.invalid error)
  | .ok none => .ok none
  | .ok (some expr) =>
      if lost then .error .stopped
      else .ok (some {
        text := expr.text
        outcome := (expr.roll (Xoshiro.ofBytes (key.seedBytes taken)).supply).1 })

end Request

namespace Event

def takesGenerator : Event → Bool
  | .request asked =>
      match asked.expr? with
      | .ok (some _) => true
      | _ => false
  | _ => false

def replyAfter (key : ChaCha.Key) (before : List Event) : Event → Option Reply
  | .request asked =>
      some (asked.reply key (decide (.providerLost ∈ before)) (before.countP takesGenerator))
  | _ => none

def replies (key : ChaCha.Key) (events : List Event) : List (Option Reply) :=
  events.mapIdx fun place event => event.replyAfter key (events.take place)

end Event

namespace Executor

theorem answer_eq (executor : Executor) (request : Request) :
    executor.answer request =
      match request.expr? with
      | .error error => (.error (.invalid error), executor)
      | .ok none => (.ok none, executor)
      | .ok (some expr) => executor.roll expr := by
  cases request with
  | written text => rfl
  | expression expr => rfl

theorem roll_of_providing {executor : Executor} (h : executor.providing = true) (expr : Expr) :
    executor.roll expr =
      (.ok (some (expr.rollOn executor.master.next.1)),
        { executor with master := executor.master.next.2 }) := if_pos h

theorem roll_of_lost {executor : Executor} (h : executor.providing = false) (expr : Expr) :
    executor.roll expr = (.error .stopped, executor) := if_neg (by simp [h])

/-- What the events before an executor have left behind. -/
structure After (key : ChaCha.Key) (before : List Event) (executor : Executor) : Prop where
  key_eq : executor.master.key = key
  providing_eq : executor.providing = !decide (.providerLost ∈ before)
  taken_eq : .providerLost ∉ before →
    executor.master.taken = before.countP Event.takesGenerator

namespace After

variable {key : ChaCha.Key} {before : List Event} {executor : Executor}

theorem providing_of_notMem (h : executor.After key before) (alive : .providerLost ∉ before) :
    executor.providing = true := by
  rw [h.providing_eq, decide_eq_false alive, Bool.not_false]

theorem lost_of_mem (h : executor.After key before) (lost : .providerLost ∈ before) :
    executor.providing = false := by
  rw [h.providing_eq, decide_eq_true lost, Bool.not_true]

theorem reply_eq (h : executor.After key before) (request : Request) :
    (executor.answer request).1 =
      request.reply key (decide (.providerLost ∈ before))
        (before.countP Event.takesGenerator) := by
  rw [answer_eq, Request.reply]
  rcases request.expr? with error | _ | expr
  · rfl
  · rfl
  · by_cases lost : .providerLost ∈ before
    · simp only [roll_of_lost (h.lost_of_mem lost), lost, decide_true, if_true]
    · simp only [roll_of_providing (h.providing_of_notMem lost), lost, decide_false,
        Bool.false_eq_true, if_false, Expr.rollOn, Master.next_fst, h.key_eq, h.taken_eq lost,
        ChaCha.Key.generator_eq_ofBytes]

theorem idle (h : executor.After key before) {event : Event} (other : event ≠ .providerLost)
    (takes : event.takesGenerator = false) : executor.After key (before ++ [event]) where
  key_eq := h.key_eq
  providing_eq := by simp [h.providing_eq, other.symm]
  taken_eq := by
    intro alive
    rw [List.countP_append, List.countP_singleton, takes]
    exact h.taken_eq fun lost => alive (List.mem_append_left _ lost)

theorem roll (h : executor.After key before) {event : Event} (other : event ≠ .providerLost)
    (takes : event.takesGenerator = true) (expr : Expr) :
    (executor.roll expr).2.After key (before ++ [event]) := by
  by_cases lost : .providerLost ∈ before
  · have still : .providerLost ∈ before ++ [event] := List.mem_append_left _ lost
    rw [roll_of_lost (h.lost_of_mem lost)]
    exact ⟨h.key_eq, by simp [h.providing_eq, lost], fun alive => absurd still alive⟩
  · rw [roll_of_providing (h.providing_of_notMem lost)]
    refine ⟨h.key_eq, by simp [h.providing_eq, lost, other.symm], fun _ => ?_⟩
    rw [List.countP_append, List.countP_singleton, takes, ← h.taken_eq lost]
    rfl

theorem handle (h : executor.After key before) (event : Event) :
    (executor.handle event).2.After key (before ++ [event]) := by
  cases event with
  | stopSignal => exact h.idle (by simp) rfl
  | signalLost => exact h.idle (by simp) rfl
  | providerLost =>
      exact ⟨h.key_eq, by simp [Executor.handle], fun alive => absurd (by simp) alive⟩
  | request request =>
      change (executor.answer request).2.After key (before ++ [.request request])
      rw [answer_eq]
      rcases asked : request.expr? with error | _ | expr
      · exact h.idle (by simp) (by rw [Event.takesGenerator, asked])
      · exact h.idle (by simp) (by rw [Event.takesGenerator, asked])
      · exact h.roll (by simp) (by rw [Event.takesGenerator, asked]) expr

theorem handle_fst (h : executor.After key before) (event : Event) :
    (executor.handle event).1 = event.replyAfter key before := by
  cases event with
  | request request => exact congrArg some (h.reply_eq request)
  | stopSignal => rfl
  | signalLost => rfl
  | providerLost => rfl

theorem run_fst (h : executor.After key before) (events : List Event) :
    (executor.run events).1 =
      events.mapIdx fun place event => event.replyAfter key (before ++ events.take place) := by
  induction events generalizing executor before with
  | nil => rfl
  | cons event rest ih =>
      simp only [run, List.mapIdx_cons, List.take_zero, List.append_nil, List.take_succ_cons,
        h.handle_fst event, ih (h.handle event), List.append_assoc, List.singleton_append]

end After

theorem after_start (settings : Settings) (seed : UInt64) (entropy : ChaCha.Key) :
    (start { settings with seed? := some seed } entropy).After (.ofSeed seed) [] :=
  ⟨rfl, by simp [start], fun _ => rfl⟩

theorem run_start (settings : Settings) (seed : UInt64) (entropy : ChaCha.Key)
    (events : List Event) :
    ((start { settings with seed? := some seed } entropy).run events).1 =
      Event.replies (.ofSeed seed) events :=
  (after_start settings seed entropy).run_fst events

end Executor

end DiceNotation
