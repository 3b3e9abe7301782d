import Courier.Destination
import Courier.Outbound

namespace Courier

structure SubscriberRef where
  index : Nat
  deriving DecidableEq

structure Subscription where
  id : SubscriberId
  key : DestinationKey
  nodeId : String
  window : UInt64
  unacked : Tally
  outbound : Outbound
  deriving DecidableEq, Inhabited

namespace Subscription

def defaultWindow : UInt64 := 100

def new (id : SubscriberId) (key : DestinationKey) (outbound : Outbound) : Subscription :=
  { id, key, nodeId := "local", window := defaultWindow, unacked := .zero, outbound }

def withWindow (s : Subscription) (window : UInt64) : Subscription :=
  { s with window := if window = 0 then 1 else window }

def withNode (s : Subscription) (nodeId : String) : Subscription := { s with nodeId }

def hasRoom (s : Subscription) : Bool := decide (s.unacked.value < s.window)

def reserve (s : Subscription) : Subscription := { s with unacked := s.unacked.raise 1 }

def release (s : Subscription) : Subscription := { s with unacked := s.unacked.lower }

def send (s : Subscription) (m : MessageRef) : SendResult × Subscription :=
  let (result, outbound) := s.outbound.send s.id m
  (result, { s with outbound })

end Subscription

end Courier
