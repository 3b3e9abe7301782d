import Courier.Destination
import Courier.Document
import Courier.Subscription
import Courier.Text.Order

namespace Courier

class NaturalKey (α : Type) (κ : outParam Type) where
  key : α → κ

structure Exchange where
  name : String
  type : String
  durable : Bool
  protocol : Protocol
  deriving DecidableEq

structure Queue where
  name : String
  durable : Bool
  exclusive : Bool
  owner : Option String
  protocol : Protocol
  deriving DecidableEq

structure Binding where
  exchange : String
  queue : String
  routingKey : String
  protocol : Protocol
  deriving DecidableEq

structure BindingKey where
  exchange : String
  queue : String
  routingKey : String
  deriving DecidableEq

structure SubscriptionRecord where
  id : String
  key : DestinationKey
  nodeId : String
  active : Bool
  deriving DecidableEq

namespace Exchange

def new (name type : String) : Exchange := ⟨name, type, true, .amqp⟩

instance : NaturalKey Exchange String := ⟨name⟩

def display (x : Exchange) : String :=
  "exchange " ++ x.name ++ " (" ++ x.type ++ ", " ++ x.protocol.display ++ ")"

end Exchange

namespace Queue

def new (name : String) (protocol : Protocol) : Queue := ⟨name, true, false, none, protocol⟩

instance : NaturalKey Queue String := ⟨name⟩

def display (q : Queue) : String := "queue " ++ q.name ++ " (" ++ q.protocol.display ++ ")"

end Queue

namespace BindingKey

def before (a b : BindingKey) : Bool :=
  Text.before a.exchange b.exchange || (a.exchange = b.exchange &&
    (Text.before a.queue b.queue || (a.queue = b.queue && Text.before a.routingKey b.routingKey)))

end BindingKey

namespace Binding

def new (exchange queue routingKey : String) : Binding := ⟨exchange, queue, routingKey, .amqp⟩

def key (b : Binding) : BindingKey := ⟨b.exchange, b.queue, b.routingKey⟩

instance : NaturalKey Binding BindingKey := ⟨key⟩

def display (b : Binding) : String :=
  "binding " ++ b.exchange ++ " -> " ++ b.queue ++ " [" ++ b.routingKey ++ "]"

end Binding

instance : NaturalKey SubscriptionRecord String := ⟨SubscriptionRecord.id⟩

def Subscription.record (s : Subscription) : SubscriptionRecord := ⟨s.id, s.key, s.nodeId, true⟩

end Courier
