import Courier.Dict
import Courier.Topology.Record

namespace Courier

inductive Change where
  | added
  | deleted
  deriving DecidableEq

def Change.display : Change → String
  | added => "ADDED"
  | deleted => "DELETED"

inductive ClusterEvent where
  | exchange (change : Change) (x : Exchange)
  | queue (change : Change) (q : Queue)
  | binding (change : Change) (b : Binding)
  deriving DecidableEq

namespace ClusterEvent

def change : ClusterEvent → Change
  | exchange c _ | queue c _ | binding c _ => c

def display : ClusterEvent → String
  | exchange _ x => x.display
  | queue _ q => q.display
  | binding _ b => b.display

end ClusterEvent

structure LiveView where
  exchanges : Dict String Exchange
  queues : Dict String Queue
  bindings : Dict BindingKey Binding
  deriving DecidableEq

namespace LiveView

def empty : LiveView := ⟨.empty, .empty, .empty⟩

instance : Inhabited LiveView := ⟨empty⟩

def addExchange (v : LiveView) (x : Exchange) : LiveView :=
  { v with exchanges := v.exchanges.insert x.name x }

def addQueue (v : LiveView) (q : Queue) : LiveView := { v with queues := v.queues.insert q.name q }

def addBinding (v : LiveView) (b : Binding) : LiveView :=
  { v with bindings := v.bindings.insert b.key b }

/-- A deleted exchange or queue takes its bindings along. -/
def apply (v : LiveView) : ClusterEvent → LiveView
  | .exchange .added x => v.addExchange x
  | .exchange .deleted x =>
      { v with
        exchanges := v.exchanges.erase x.name
        bindings := v.bindings.filterKeys fun k => k.exchange ≠ x.name }
  | .queue .added q => v.addQueue q
  | .queue .deleted q =>
      { v with
        queues := v.queues.erase q.name
        bindings := v.bindings.filterKeys fun k => k.queue ≠ q.name }
  | .binding .added b => v.addBinding b
  | .binding .deleted b => { v with bindings := v.bindings.erase b.key }

def exchangeList (v : LiveView) : List Exchange :=
  Text.sort (fun a b => Text.before a.name b.name) v.exchanges.values

def queueList (v : LiveView) : List Queue :=
  Text.sort (fun a b => Text.before a.name b.name) v.queues.values

def bindingsOf (v : LiveView) (exchange : String) : List Binding :=
  Text.sort (fun a b => a.key.before b.key)
    (v.bindings.values.filter fun b => b.exchange = exchange)

def bindingCount (v : LiveView) : Nat := v.bindings.size

end LiveView

end Courier
