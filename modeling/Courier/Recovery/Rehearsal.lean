import Courier.Recovery.Pass

namespace Courier.Recovery

inductive Point where
  | exchanges
  | queues
  | bindings
  | upsert
  | exchangeEvent
  | queueEvent
  | bindingEvent
  | reload
  deriving DecidableEq

def Point.name : Point → String
  | exchanges => "exchanges"
  | queues => "queues"
  | bindings => "bindings"
  | upsert => "upsert"
  | exchangeEvent => "exchange_event"
  | queueEvent => "queue_event"
  | bindingEvent => "binding_event"
  | reload => "reload"

def Point.ofEvent : ClusterEvent → Point
  | .exchange .. => exchangeEvent
  | .queue .. => queueEvent
  | .binding .. => bindingEvent

inductive Act where
  | announce (notice : HealthNotice)
  | trigger (full : Bool)
  | inspect
  | panic
  | fail (cause : BrokerError)
  | nothing
  deriving DecidableEq

structure Cue where
  point : Point
  /-- The visit at which the cue acts, counted from one. -/
  visit : Nat
  act : Act
  deriving DecidableEq

inductive Sight where
  | readExchanges
  | readQueues
  | readBindings (exchange : String)
  | upsert (r : SubscriptionRecord)
  | event (e : ClusterEvent)
  | reload
  | triggered (full : Bool) (refusal : Option RecoveryOutcome)
  | inspected (task : RecoveryTask)
  deriving DecidableEq

structure Cluster where
  exchanges : List Exchange
  queues : List Queue
  bindings : List Binding
  subscriptions : List SubscriptionRecord
  live : LiveView
  /-- Whether the listeners keep the live view. -/
  applies : Bool
  cues : List Cue
  sights : List Sight
  health : HealthBoard
  deriving DecidableEq, Inhabited

namespace Cluster

def see (w : Cluster) (s : Sight) : Cluster := { w with sights := w.sights ++ [s] }

def visited (point : Point) (cues : List Cue) : List Cue × List Cue :=
  let counted := cues.map fun c => if c.point = point then { c with visit := c.visit - 1 } else c
  counted.partition fun c => decide (c.point = point ∧ c.visit = 0)

/-- A trigger is refused while a pass holds the guard, and a call only comes from a pass. -/
def refusal (task : RecoveryTask) : Option RecoveryOutcome :=
  if task.running then some .alreadyRunning else none

structure Scene where
  task : RecoveryTask
  notices : List HealthNotice
  cluster : Cluster
  fault : Option BrokerError

/-- Acts on the cues in their order, up to a panic. Of several faults the last one counts. -/
def play : List Cue → Scene → Bool × Scene
  | [], s => (true, s)
  | c :: rest, s =>
      match c.act with
      | .announce notice =>
          play rest { s with
            task := s.task.observe notice
            notices := s.notices ++ [notice]
            cluster := { s.cluster with health := s.cluster.health.announce notice } }
      | .trigger full =>
          play rest { s with cluster := s.cluster.see (.triggered full (refusal s.task)) }
      | .inspect => play rest { s with cluster := s.cluster.see (.inspected s.task) }
      | .panic => (false, s)
      | .fail cause => play rest { s with fault := some cause }
      | .nothing => play rest s

/-- A call notes what it was asked, lets the cues act, and then takes effect unless one made it
fail. -/
def visit {ε α : Type} (point : Point) (sight : Sight) (asError : BrokerError → ε)
    (effect : Cluster → α × Cluster) : Call Cluster ε α := fun task w =>
  let (due, waiting) := visited point w.cues
  match play due ⟨task, [], { w.see sight with cues := waiting }, none⟩ with
  | (false, s) => ⟨.panicked, s.notices, s.cluster⟩
  | (true, s) =>
      match s.fault with
      | some cause => ⟨.error (asError cause), s.notices, s.cluster⟩
      | none => let (a, w) := effect s.cluster; ⟨.ok a, s.notices, w⟩

def asStoreError : BrokerError → StoreError
  | .store cause => cause
  | other => .operation other.message

def own {ε α : Type} (f : Cluster → α) : Call Cluster ε α := fun _ w => ⟨.ok (f w), [], w⟩

def read {α : Type} (point : Point) (sight : Sight) (f : Cluster → α) : Call Cluster StoreError α :=
  visit point sight asStoreError fun w => (f w, w)

def receive (e : ClusterEvent) (w : Cluster) : Unit × Cluster :=
  ((), if w.applies then { w with live := w.live.apply e } else w)

def collaborators : Collaborators Cluster
  | .subscriptions => own subscriptions
  | .publish r => visit .upsert (.upsert r) asStoreError fun w => ((), w)
  | .readExchanges => read .exchanges .readExchanges exchanges
  | .readQueues => read .queues .readQueues queues
  | .readBindings exchange => read .bindings (.readBindings exchange) fun w =>
      w.bindings.filter fun b => b.exchange = exchange
  | .liveExchanges => own fun w => w.live.exchangeList
  | .liveQueues => own fun w => w.live.queueList
  | .liveBindings exchange => own fun w => w.live.bindingsOf exchange
  | .replay e => visit (.ofEvent e) (.event e) id (receive e)
  | .reload => visit .reload .reload id fun w => ((), w)

def takeSights (w : Cluster) : List Sight × Cluster := (w.sights, { w with sights := [] })

end Cluster

end Courier.Recovery
