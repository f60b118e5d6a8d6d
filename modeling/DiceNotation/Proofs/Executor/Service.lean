import DiceNotation.Proofs.Executor
import Mathlib.Logic.Relation

/-! An executor runs in parts that work side by side and exchange messages: a client that
answers the requests, the provider of generators, and a task that replaces the master
from time to time until it is told to stop.  Whatever turns the parts take, under a given
seed the replies are those of the executor. -/

namespace DiceNotation

inductive Order where
  | generator
  | replacement (key : ChaCha.Key)

inductive Client where
  | idle
  | ordering (expr : Expr)
  | waiting (expr : Expr)
  | rolling (expr : Expr) (generator : Xoshiro)

structure Service where
  client : Client := .idle
  mailbox : List Order := []
  master? : Option Master
  -- the client and the task, as long as they may order something
  senders : Nat := 2
  replacing : Bool
  watching : Bool := true
  -- the signal to stop was given, or can no longer be given
  released : Bool := false
  events : List Event
  replies : List (Option Reply) := []

def Client.receive (generator : Xoshiro) : Client → Client
  | .waiting expr => .rolling expr generator
  | client => client

namespace Service

def capacity : Nat := 32

def start (executor : Executor) (events : List Event) : Service where
  master? := some executor.master
  replacing := executor.reseeds
  events := events

def reply (service : Service) (reply : Reply) : Service :=
  { service with client := .idle, replies := service.replies ++ [some reply] }

def meet (service : Service) : Event → Service
  | .request request =>
      match request.expr? with
      | .error error => service.reply (.error (.invalid error))
      | .ok none => service.reply (.ok none)
      | .ok (some expr) => { service with client := .ordering expr }
  | .stopSignal => { service with released := true, replies := service.replies ++ [none] }
  | .signalLost => { service with released := true, replies := service.replies ++ [none] }
  | .providerLost =>
      { service with master? := none, mailbox := [], replies := service.replies ++ [none] }

/-- One part does one thing.  The next event waits for the reply to the one before. -/
inductive Step : Service → Service → Prop
  | event {service event rest} :
      service.client = .idle → service.events = event :: rest →
      Step service ({ service with events := rest }.meet event)
  | order {service expr master} :
      service.client = .ordering expr → service.master? = some master →
      service.mailbox.length < capacity →
      Step service { service with
        client := .waiting expr, mailbox := service.mailbox ++ [.generator] }
  | refuse {service expr} :
      service.client = .ordering expr → service.master? = none →
      Step service (service.reply (.error .stopped))
  | provide {service master rest} :
      service.master? = some master → service.mailbox = .generator :: rest →
      Step service { service with
        client := service.client.receive master.next.1
        master? := some master.next.2
        mailbox := rest }
  | replace {service master key rest} :
      service.master? = some master → service.mailbox = .replacement key :: rest →
      Step service { service with master? := some { key }, mailbox := rest }
  | finish {service master} :
      service.master? = some master → service.mailbox = [] → service.senders = 0 →
      Step service { service with master? := none }
  | abandon {service expr} :
      service.client = .waiting expr → service.master? = none →
      Step service (service.reply (.error .stopped))
  | answer {service expr generator} :
      service.client = .rolling expr generator →
      Step service (service.reply (.ok (some (expr.rollOn generator))))
  | tick {service master} (key : ChaCha.Key) :
      service.replacing = true → service.watching = true → service.master? = some master →
      service.mailbox.length < capacity →
      Step service { service with mailbox := service.mailbox ++ [.replacement key] }
  | release {service} :
      service.watching = true →
      service.released = true ∨ service.replacing = true ∧ service.master? = none →
      Step service { service with watching := false, senders := service.senders - 1 }

end Service

namespace Executor

def master? (executor : Executor) : Option Master :=
  if executor.providing then some executor.master else none

variable {executor : Executor}

theorem master?_eq_some_iff {master : Master} :
    executor.master? = some master ↔ executor.providing = true ∧ executor.master = master := by
  simp [master?]

theorem master?_eq_none_iff : executor.master? = none ↔ executor.providing = false := by
  simp [master?]

end Executor

namespace Client

def pending : Client → List Event
  | .idle => []
  | .ordering expr | .waiting expr | .rolling expr _ => [.request (.expression expr)]

def orders : Client → List Order
  | .waiting _ => [.generator]
  | _ => []

def master? (executor : Executor) : Client → Option Master
  | .rolling _ _ => some executor.master.next.2
  | _ => executor.master?

def Served (executor : Executor) : Client → Prop
  | .waiting _ => executor.providing = true
  | .rolling _ generator => executor.providing = true ∧ generator = executor.master.next.1
  | _ => True

/-- How many steps the request in hand needs at most. -/
def rank : Client → Nat
  | .idle => 0
  | .rolling _ _ => 1
  | .waiting _ => 2
  | .ordering _ => 3

theorem orders_eq_cons {client : Client} {order : Order} {rest : List Order}
    (h : client.orders = order :: rest) :
    ∃ expr, client = .waiting expr ∧ order = .generator ∧ rest = [] := by
  cases client with
  | waiting expr =>
      cases h
      exact ⟨expr, rfl, rfl, rfl⟩
  | idle => cases h
  | ordering expr => cases h
  | rolling expr generator => cases h

end Client

namespace Service

/-- The parts stand where the executor stands before the request in hand. -/
structure Mirrors (service : Service) (executor : Executor) : Prop where
  served : service.client.Served executor
  mailbox_eq : service.mailbox = service.client.orders
  master_eq : service.master? = service.client.master? executor
  senders_eq : service.senders = 1 + service.watching.toNat
  not_replacing : service.replacing = false

def expected (service : Service) (executor : Executor) : List (Option Reply) :=
  service.replies ++ (executor.run (service.client.pending ++ service.events)).1

def work (service : Service) : Nat :=
  4 * service.events.length + service.client.rank + service.watching.toNat

variable {service next : Service} {executor : Executor}

theorem expected_of_idle {event : Event} {rest : List Event} (idle : service.client = .idle)
    (happens : service.events = event :: rest) :
    service.expected executor =
      service.replies ++ [(executor.handle event).1] ++ ((executor.handle event).2.run rest).1 := by
  rw [expected, idle, happens, List.append_assoc]
  rfl

theorem expected_of_pending {expr : Expr}
    (h : service.client.pending = [.request (.expression expr)]) :
    service.expected executor =
      service.replies ++ [some (executor.roll expr).1] ++
        ((executor.roll expr).2.run service.events).1 := by
  rw [expected, h, List.append_assoc]
  rfl

theorem Mirrors.meet (h : service.Mirrors executor) {event : Event} {rest : List Event}
    (idle : service.client = .idle) (happens : service.events = event :: rest) :
    ∃ executor', ({ service with events := rest }.meet event).Mirrors executor' ∧
      ({ service with events := rest }.meet event).expected executor' =
        service.expected executor ∧
      ({ service with events := rest }.meet event).work < service.work := by
  rw [expected_of_idle idle happens]
  obtain ⟨client, mailbox, master?, senders, replacing, watching, released, events, replies⟩ :=
    service
  obtain ⟨-, empty, provides, counted, kept⟩ := h
  dsimp only at *
  subst idle happens empty provides counted kept
  have less {rank : Nat} (h : rank ≤ 3) : 4 * rest.length + rank + watching.toNat <
      4 * (rest.length + 1) + 0 + watching.toNat := by omega
  cases event with
  | stopSignal => exact ⟨executor, ⟨trivial, rfl, rfl, rfl, rfl⟩, rfl, less (Nat.zero_le 3)⟩
  | signalLost => exact ⟨executor, ⟨trivial, rfl, rfl, rfl, rfl⟩, rfl, less (Nat.zero_le 3)⟩
  | providerLost =>
      exact ⟨{ executor with providing := false }, ⟨trivial, rfl, rfl, rfl, rfl⟩, rfl,
        less (Nat.zero_le 3)⟩
  | request request =>
      simp only [Service.meet, Executor.handle, Executor.answer_eq]
      rcases request.expr? with error | _ | expr
      · exact ⟨executor, ⟨trivial, rfl, rfl, rfl, rfl⟩, rfl, less (Nat.zero_le 3)⟩
      · exact ⟨executor, ⟨trivial, rfl, rfl, rfl, rfl⟩, rfl, less (Nat.zero_le 3)⟩
      · exact ⟨executor, ⟨trivial, rfl, rfl, rfl, rfl⟩, expected_of_pending rfl,
          less (Nat.le_refl 3)⟩

theorem Mirrors.step (h : service.Mirrors executor) (step : Step service next) :
    ∃ executor', next.Mirrors executor' ∧
      next.expected executor' = service.expected executor ∧ next.work < service.work := by
  have meet := @h.meet
  obtain ⟨client, mailbox, master?, senders, replacing, watching, released, events, replies⟩ :=
    service
  obtain ⟨served, sent, holds, counted, kept⟩ := h
  dsimp only at *
  subst sent holds counted kept
  cases step with
  | event idle happens => exact meet idle happens
  | @order expr master ordering provides room =>
      cases ordering
      have providing := (Executor.master?_eq_some_iff.mp provides).1
      exact ⟨executor, ⟨providing, rfl, rfl, rfl, rfl⟩, rfl, by simp [work, Client.rank]⟩
  | @refuse expr ordering gone =>
      cases ordering
      have lost := Executor.master?_eq_none_iff.mp gone
      refine ⟨executor, ⟨trivial, rfl, rfl, rfl, rfl⟩, ?_,
        by simp [work, reply, Client.rank]⟩
      refine Eq.trans ?_ (expected_of_pending rfl).symm
      rw [Executor.roll_of_lost lost]
      rfl
  | @provide master rest provides order =>
      obtain ⟨expr, rfl, -, rfl⟩ := Client.orders_eq_cons order
      obtain ⟨providing, rfl⟩ := Executor.master?_eq_some_iff.mp provides
      exact ⟨executor, ⟨⟨providing, rfl⟩, rfl, rfl, rfl, rfl⟩, rfl,
        by simp [work, Client.rank, Client.receive]⟩
  | replace provides order =>
      obtain ⟨_, _, other, _⟩ := Client.orders_eq_cons order
      cases other
  | finish provides empty alone =>
      -- The client never stops to be one that may order.
      dsimp only at alone
      omega
  | @abandon expr waiting gone =>
      cases waiting
      have lost := Executor.master?_eq_none_iff.mp gone
      exact nomatch served.symm.trans lost
  | @answer expr generator rolling =>
      cases rolling
      obtain ⟨providing, rfl⟩ := served
      refine ⟨(executor.roll expr).2, ⟨trivial, rfl, ?_, rfl, rfl⟩, ?_,
        by simp [work, reply, Client.rank]⟩
      · rw [Executor.roll_of_providing providing]
        exact (if_pos providing).symm
      · refine Eq.trans ?_ (expected_of_pending rfl).symm
        rw [Executor.roll_of_providing providing]
        rfl
  | tick key replacing watching provides room => cases replacing
  | release watching reason =>
      cases watching
      exact ⟨executor, ⟨served, rfl, rfl, rfl, rfl⟩, rfl, by simp [work]⟩

theorem Mirrors.reaches (h : service.Mirrors executor)
    (run : Relation.ReflTransGen Step service next) :
    ∃ executor', next.Mirrors executor' ∧
      next.expected executor' = service.expected executor := by
  induction run with
  | refl => exact ⟨executor, h, rfl⟩
  | tail _ step ih =>
      obtain ⟨_, mirrors, same⟩ := ih
      obtain ⟨executor', mirrors', same', _⟩ := mirrors.step step
      exact ⟨executor', mirrors', same'.trans same⟩

/-- No part waits for another without end: where nothing can happen, all is answered. -/
theorem Mirrors.eq_expected_of_stuck (h : service.Mirrors executor)
    (stuck : ∀ next, ¬ Step service next) : service.replies = service.expected executor := by
  obtain ⟨served, sent, holds, _, _⟩ := h
  rcases client : service.client with _ | expr | expr | ⟨expr, generator⟩
  · rcases happens : service.events with _ | ⟨event, rest⟩
    · rw [expected, client, happens]
      exact (List.append_nil _).symm
    · exact absurd (.event client happens) (stuck _)
  · rw [client] at sent
    rcases provides : service.master? with _ | master
    · exact absurd (.refuse client provides) (stuck _)
    · exact absurd (.order client provides (by rw [sent]; exact Nat.zero_lt_succ 31)) (stuck _)
  · rw [client] at served sent holds
    exact absurd (.provide (holds.trans (if_pos served)) sent) (stuck _)
  · exact absurd (.answer client) (stuck _)

theorem Mirrors.acc (h : service.Mirrors executor) :
    Acc (fun later earlier => Step earlier later) service := by
  generalize size : service.work = work
  induction work using Nat.strong_induction_on generalizing service executor with
  | _ work ih =>
      refine ⟨_, fun next step => ?_⟩
      obtain ⟨executor', mirrors, _, less⟩ := h.step step
      exact ih next.work (size ▸ less) mirrors rfl

theorem mirrors_start (settings : Settings) (seed : UInt64) (entropy : ChaCha.Key)
    (events : List Event) :
    let executor := Executor.start { settings with seed? := some seed } entropy
    (start executor events).Mirrors executor := ⟨trivial, rfl, rfl, rfl, rfl⟩

theorem exists_stuck (h : Acc (fun later earlier => Step earlier later) service) :
    ∃ last, Relation.ReflTransGen Step service last ∧ ∀ next, ¬ Step last next := by
  induction h with
  | intro service _ ih =>
      by_cases stuck : ∃ next, Step service next
      · obtain ⟨next, step⟩ := stuck
        obtain ⟨last, run, ends⟩ := ih next step
        exact ⟨last, .head step run, ends⟩
      · exact ⟨service, .refl, not_exists.mp stuck⟩

/-- Under a given seed the parts reply to each event what the events before it settle,
whatever turns they take, and they come to an end. -/
theorem replies_of_seed (settings : Settings) (seed : UInt64) (entropy : ChaCha.Key)
    (events : List Event) :
    let executor := Executor.start { settings with seed? := some seed } entropy
    let replies := Event.replies (.ofSeed seed) events
    (executor.run events).1 = replies ∧
      Acc (fun later earlier => Step earlier later) (start executor events) ∧
      ∀ service, Relation.ReflTransGen Step (start executor events) service →
        service.replies <+: replies ∧
          ((∀ next, ¬ Step service next) → service.replies = replies) := by
  intro executor replies
  have answered : (executor.run events).1 = replies :=
    Executor.run_start settings seed entropy events
  have mirrors := mirrors_start settings seed entropy events
  refine ⟨answered, mirrors.acc, fun service run => ?_⟩
  obtain ⟨executor', mirrors', same⟩ := mirrors.reaches run
  have expected : service.expected executor' = replies := same.trans answered
  rw [← expected]
  exact ⟨List.prefix_append _ _, mirrors'.eq_expected_of_stuck⟩

theorem replies_of_seed_mixed :
    let events : List Event :=
      [.request (.written "d7"), .request (.written "1/0"), .stopSignal,
        .request (.written "d20"), .providerLost, .request (.written " "),
        .request (.expression (.const 5))]
    let seeded : Xoshiro := .ofBytes ((ChaCha.Key.ofSeed 42).seedBytes 1)
    ∃ service, Relation.ReflTransGen Step
        (start (Executor.start { seed? := some 42 } (.ofSeed 0)) events) service ∧
      (∀ next, ¬ Step service next) ∧
      service.replies =
        [some (.error (.invalid (.invalidDieSides 7))),
          some (.ok (some ⟨"1/0", .error .divisionByZero⟩)), none,
          some (.ok (some ⟨"d20",
            ((Expr.dice ⟨.d20, 1, by decide, by decide⟩).roll seeded.supply).1⟩)),
          none, some (.ok none), some (.error .stopped)] := by
  intro events seeded
  obtain ⟨_, ends, replied⟩ := replies_of_seed {} 42 (.ofSeed 0) events
  obtain ⟨service, run, stuck⟩ := exists_stuck ends
  exact ⟨service, run, stuck, (replied service run).2 stuck⟩

end Service

end DiceNotation
