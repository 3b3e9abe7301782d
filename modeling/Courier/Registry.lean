import Courier.Subscription

namespace Courier

structure Registration where
  key : DestinationKey
  id : SubscriberId
  handle : SubscriberRef
  deriving DecidableEq

structure Registry where
  entries : List Registration
  deriving DecidableEq

namespace Registry

def empty : Registry := ⟨[]⟩

instance : Inhabited Registry := ⟨empty⟩

def place (r : Registration) : List Registration → List Registration
  | [] => [r]
  | e :: l => if e.key = r.key ∧ e.id = r.id then r :: l else e :: place r l

/-- Registering an id again under the same destination replaces its handle in place. -/
def add (g : Registry) (r : Registration) : Registry := ⟨place r g.entries⟩

def handlesOf (g : Registry) (id : SubscriberId) : List SubscriberRef :=
  (g.entries.filter fun e => e.id = id).map Registration.handle

def remove (g : Registry) (id : SubscriberId) : Registry :=
  ⟨g.entries.filter fun e => e.id ≠ id⟩

def active (g : Registry) (key : DestinationKey) : List SubscriberRef :=
  (g.entries.filter fun e => e.key = key).map Registration.handle

def all (g : Registry) : List SubscriberRef := g.entries.map Registration.handle

def size (g : Registry) : Nat := g.entries.length

def isEmpty (g : Registry) : Bool := g.entries.isEmpty

end Registry

end Courier
