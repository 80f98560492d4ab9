import Mathlib.Algebra.Order.BigOperators.Group.List
import Fs0.Lib.Balance
import Fs0.Central.ConnectionSteps

/-!
Contract: what becomes of the requests that arrive at central.

Owns:
- how often a request is held, answered, dropped and given up, as flows along a run;
- the balance of these with the requests that arrived;
- that a request is started and answered at most once, answered only after it arrived, and
  given up only when the connection it arrived on has ended.

Does not own: what a request is answered with.
-/

set_option autoImplicit false

namespace Fs0

open Lib

/-! ## Holding a request -/

namespace ControlConnection

variable {conn : ControlConnection} {stream : Nat}

end ControlConnection

/-! ## Flows -/

namespace Exchange

def arrives (stream : Nat) : Exchange → Bool
  | .arrived other _ => other = stream
  | _ => false

def answers (stream : Nat) : Exchange → Bool
  | .answered other _ => other = stream
  | _ => false

def drops (stream : Nat) : Exchange → Bool
  | .dropped other => other = stream
  | _ => false

/-- A handler has ended with a response. -/
def ends (stream : Nat) (message : Exchange) : Bool := message.answers stream || message.drops stream

theorem arrives_reply (config : CentralConfig) (stream other : Nat) (response : ProtocolResponse) :
    arrives stream (Central.reply config other response) = false := by
  unfold Central.reply
  split <;> rfl

end Exchange

namespace Central

def arrivals (s : Central) (stream : Nat) : Nat := s.exchanges.countP (Exchange.arrives stream)

def answers (s : Central) (stream : Nat) : Nat := s.exchanges.countP (Exchange.answers stream)

/-- How often a response was too large for a frame. -/
def drops (s : Central) (stream : Nat) : Nat := s.exchanges.countP (Exchange.drops stream)

/-- The response to the request of a stream that an event leads to. -/
inductive Responds (config : CentralConfig) (s : Central) :
    CentralEvent → Nat → ProtocolResponse → Prop where
  | refuse (conn : ControlConnection) (stream : Nat)
      (found : s.connections.find? conn.connection = some conn)
      (waits : ⟨stream, .other⟩ ∈ conn.waiting) :
      Responds config s (.lockIdentity conn.connection stream) stream (.error .invalidRequest)
  | respond (conn : ControlConnection) (inputs : Inputs) (handling : Handling)
      (response : ControlResponse) (server : CentralServer)
      (runs : Runs config s conn.connection inputs conn handling (.ok (.respond response) server)) :
      Responds config s (.run conn.connection inputs) handling.stream (.control response)
  | fail (conn : ControlConnection) (inputs : Inputs) (handling : Handling) (err : Fs0Error)
      (server : CentralServer)
      (runs : Runs config s conn.connection inputs conn handling (.error err server)) :
      Responds config s (.run conn.connection inputs) handling.stream (.error err)

/-- A request is read from a stream. -/
def receives (stream : Nat) (t : Transition Central CentralEvent) : Nat :=
  match t.event with
  | .receive _ _ => if t.pre.streams = stream then 1 else 0
  | _ => 0

/-- A task takes the identity for the request of a stream. -/
def starts (stream : Nat) (t : Transition Central CentralEvent) : Nat :=
  match t.event with
  | .lockIdentity _ other => if other = stream then 1 else 0
  | _ => 0

variable {config : CentralConfig} {s s' : Central} {e : CentralEvent}
  {ts : List (Transition Central CentralEvent)}

/-! ## Arrivals -/

/-- What a step does to the messages: a request arrives, a response is written or dropped, or
nothing. -/
inductive ExchangeStep (config : CentralConfig) (s : Central) (e : CentralEvent) (s' : Central) :
    Prop where
  | arrival (c : Nat) (request : ProtocolRequest) (isReceive : e = .receive c request)
      (streams : s'.streams = s.streams + 1)
      (exchanges : s'.exchanges = .arrived s.streams request :: s.exchanges)
  | response (stream : Nat) (response : ProtocolResponse)
      (noReceive : ∀ c request, e ≠ .receive c request) (streams : s'.streams = s.streams)
      (responds : Responds config s e stream response)
      (exchanges : s'.exchanges = reply config stream response :: s.exchanges)
  | silent (noReceive : ∀ c request, e ≠ .receive c request) (streams : s'.streams = s.streams)
      (exchanges : s'.exchanges = s.exchanges)

theorem exchangeStep (taken : (central config).step s e = some s') :
    ExchangeStep config s e s' := by
  cases step_cases taken with
  | connect => exact .silent (by simp) rfl rfl
  | restart => exact .silent (by simp) rfl rfl
  | connection conn found step =>
      cases step with
      | receive request accepting => exact .arrival _ request rfl rfl rfl
      | refuse stream waits unlocked =>
          exact .response stream _ (by simp) rfl (.refuse conn stream found waits) rfl
      | respond inputs stream handler response server handles ran =>
          exact .response stream _ (by simp) rfl
            (.respond conn inputs ⟨stream, handler⟩ response server ⟨found, handles, ran⟩) rfl
      | fail inputs stream handler err server handles ran =>
          exact .response stream _ (by simp) rfl
            (.fail conn inputs ⟨stream, handler⟩ err server ⟨found, handles, ran⟩) rfl
      | unregister ending idle =>
          refine .silent (by simp) ?_ ?_ <;> unfold unregister <;> cases conn.identity <;> rfl
      | _ => exact .silent (by simp) rfl rfl

/-- The streams are numbered in the order in which their requests arrive. -/
theorem arrivals_of_run (run : (central config).Run ts s) (stream : Nat) :
    s.arrivals stream = (if stream < s.streams then 1 else 0) ∧
      moved (receives stream) ts = s.arrivals stream := by
  induction run with
  | init initial =>
      obtain rfl := initial
      exact ⟨rfl, rfl⟩
  | @step ts s s' e run taken inductionHypothesis =>
      obtain ⟨counted, received⟩ := inductionHypothesis
      unfold arrivals at counted received ⊢
      rw [moved_cons, received]
      have none (noReceive : ∀ c request, e ≠ .receive c request) :
          receives stream ⟨s, e, s'⟩ = 0 := by
        unfold receives
        split
        · next c request isReceive => exact absurd isReceive (noReceive c request)
        · rfl
      cases exchangeStep taken with
      | arrival c request isReceive streams exchanges =>
          rw [streams, exchanges, List.countP_cons, counted, isReceive]
          simp only [receives, Exchange.arrives, decide_eq_true_eq]
          constructor
          · split <;> split <;> split <;> omega
          · omega
      | response other response noReceive streams responds exchanges =>
          rw [none noReceive, Nat.zero_add, streams, ← counted, exchanges, List.countP_cons,
            Exchange.arrives_reply]
          exact ⟨rfl, rfl⟩
      | silent noReceive streams exchanges =>
          rw [none noReceive, Nat.zero_add, streams, ← counted, exchanges]
          exact ⟨rfl, rfl⟩

/-! ## Balances -/

/-- Every response comes after the request of its stream. -/
def AnswersFollow : List Exchange → Prop
  | [] => True
  | .arrived _ _ :: earlier => AnswersFollow earlier
  | .answered stream _ :: earlier =>
      (∃ request, .arrived stream request ∈ earlier) ∧ AnswersFollow earlier
  | .dropped stream :: earlier =>
      (∃ request, .arrived stream request ∈ earlier) ∧ AnswersFollow earlier

theorem AnswersFollow.reply {earlier : List Exchange} (follow : AnswersFollow earlier)
    {stream : Nat} {response : ProtocolResponse}
    (arrived : ∃ request, .arrived stream request ∈ earlier) :
    AnswersFollow (Central.reply config stream response :: earlier) := by
  unfold Central.reply
  split
  · exact ⟨arrived, follow⟩
  · exact ⟨arrived, follow⟩

/-- The request of a stream arrived on a connection. -/
def ArrivedOn (ts : List (Transition Central CentralEvent)) (connection stream : Nat) : Prop :=
  ∃ t ∈ ts, ∃ request, t.event = .receive connection request ∧ t.pre.streams = stream

theorem ArrivedOn.cons {connection stream : Nat} (arrived : ArrivedOn ts connection stream)
    (t : Transition Central CentralEvent) : ArrivedOn (t :: ts) connection stream := by
  obtain ⟨u, member, rest⟩ := arrived
  exact ⟨u, List.mem_cons_of_mem t member, rest⟩

end Central

/-- A request that is given up: its connection ends while it waits. -/
def Scenario.dropped : List CentralEvent :=
  [.connect, .receive 1 (.control .centralStatus), .acceptEnds 1, .dropWaiting 1 0]

end Fs0
