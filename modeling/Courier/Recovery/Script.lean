import Courier.Recovery.Task
import Courier.Topology.LiveView

namespace Courier.Recovery

inductive Request where
  | subscriptions
  | publish (r : SubscriptionRecord)
  | readExchanges
  | readQueues
  | readBindings (exchange : String)
  | liveExchanges
  | liveQueues
  | liveBindings (exchange : String)
  | replay (e : ClusterEvent)
  | reload
  deriving DecidableEq

namespace Request

abbrev Value : Request → Type
  | subscriptions => List SubscriptionRecord
  | readExchanges | liveExchanges => List Exchange
  | readQueues | liveQueues => List Queue
  | readBindings _ | liveBindings _ => List Binding
  | publish _ | replay _ | reload => Unit

/-- How a request can fail. This node's own registry and view always have an answer. -/
abbrev Fault : Request → Type
  | publish _ | readExchanges | readQueues | readBindings _ => StoreError
  | replay _ | reload => BrokerError
  | subscriptions | liveExchanges | liveQueues | liveBindings _ => Empty

def cause : (q : Request) → q.Fault → BrokerError
  | publish _, e | readExchanges, e | readQueues, e | readBindings _, e => .store e
  | replay _, e | reload, e => e

end Request

/-- How a collaborator ends a call. A panic unwinds through the pass. -/
inductive Reply (ε α : Type) where
  | ok (a : α)
  | error (e : ε)
  | panicked

structure Answer (σ ε α : Type) where
  reply : Reply ε α
  notices : List HealthNotice
  world : σ

abbrev Call (σ ε α : Type) := RecoveryTask → σ → Answer σ ε α

abbrev Collaborators (σ : Type) := (q : Request) → Call σ q.Fault q.Value

/-- What to ask of the collaborators, and how to go on after each reply. It leaves open who answers,
so that one script can be answered by any collaborators and several be taken forward in turns. -/
inductive Script (α : Type) where
  | done (a : α)
  | gate (next : Bool → Script α)
  | ask (q : Request) (next : Reply q.Fault q.Value → Script α)

structure Ending (σ α : Type) where
  value : α
  task : RecoveryTask
  world : σ

namespace Script

variable {σ α β : Type}

def bind : Script α → (α → Script β) → Script β
  | done a, f => f a
  | gate next, f => gate fun isOpen => (next isOpen).bind f
  | ask q next, f => ask q fun reply => (next reply).bind f

/-- Goes through a script, each request answered as it comes. The notices of a call have arrived
by the time it replies. -/
def run (c : Collaborators σ) : Script α → RecoveryTask → σ → Ending σ α
  | done a, task, world => ⟨a, task, world⟩
  | gate next, task, world => (next task.operational).run c task world
  | ask q next, task, world =>
      let answer := c q task world
      (next answer.reply).run c (task.observeAll answer.notices) answer.world

theorem run_bind (c : Collaborators σ) (s : Script α) (f : α → Script β) (task : RecoveryTask)
    (world : σ) :
    (s.bind f).run c task world =
      let ending := s.run c task world
      (f ending.value).run c ending.task ending.world := by
  induction s generalizing task world with
  | done a => rfl
  | gate next ih => exact ih _ _ _
  | ask q next ih => exact ih _ _ _

end Script

end Courier.Recovery
