import Courier.Destination
import Courier.Message

namespace Courier

structure TrackerRef where
  index : Nat
  deriving DecidableEq

structure Cursor where
  order : List SubscriberId
  position : Nat
  deriving DecidableEq, Inhabited

namespace Cursor

def start (active : List SubscriberId) : Cursor := ⟨active, 0⟩

def seek (active : List SubscriberId) : Nat → List SubscriberId → Option (SubscriberId × Nat)
  | _, [] => none
  | place, s :: rest => if s ∈ active then some (s, place + 1) else seek active (place + 1) rest

def upcoming (c : Cursor) : List SubscriberId := c.order.drop c.position

/-- Takes turns in the remembered order and passes over those who have left. At its end the
active subscribers become the new order and the first of them has the turn. -/
def next (c : Cursor) : List SubscriberId → Option SubscriberId × Cursor
  | [] => (none, c)
  | first :: others =>
      match seek (first :: others) c.position c.upcoming with
      | some (s, place) => (some s, { c with position := place })
      | none => (some first, ⟨first :: others, 1⟩)

end Cursor

structure Tracker where
  key : DestinationKey
  buffer : List MessageRef
  cursor : Cursor
  inFlight : Tally
  deriving DecidableEq, Inhabited

namespace Tracker

def new (key : DestinationKey) (seed : List SubscriberId) : Tracker :=
  { key, buffer := [], cursor := .start seed, inFlight := .zero }

def isTopic (t : Tracker) : Bool := decide (t.key.type = .topic)

end Tracker

end Courier
