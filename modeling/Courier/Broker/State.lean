import Courier.Registry
import Courier.Table
import Courier.Tracker

namespace Courier

inductive FailurePolicy where
  /-- The attempt is forgotten and the message goes back to the buffer. -/
  | rebuffer
  /-- This subscriber's copy is tried again on a later flush. -/
  | retry
  /-- This subscriber's copy is dropped. -/
  | discard
  deriving DecidableEq

structure Job where
  subscriber : SubscriberRef
  message : MessageRef
  tracker : TrackerRef
  policy : FailurePolicy
  deriving DecidableEq

structure Dispatcher where
  jobs : List Job
  accepting : Bool
  deriving DecidableEq

instance : Inhabited Dispatcher := ⟨⟨[], true⟩⟩

inductive StoreCondition where
  | working
  | failing (cause : StoreError)
  | panicking
  deriving DecidableEq

/-- The message store, as far as expired messages go: its condition and the deletions it made. -/
structure MessageStore where
  condition : StoreCondition
  deletions : List (List UInt64)
  deriving DecidableEq

instance : Inhabited MessageStore := ⟨⟨.working, []⟩⟩

structure TrackedKey where
  type : DestinationType
  destination : String
  deriving DecidableEq

def DestinationKey.tracked (k : DestinationKey) : TrackedKey := ⟨k.type, k.destination⟩

/-- Slots, messages, subscribers and trackers are known by reference, so that a tracker that was let
go, or a subscriber that was replaced, keeps its own counters. -/
structure Broker where
  slots : Table Slot
  messages : Table Message
  subscribers : Table Subscription
  trackers : Table Tracker
  registry : Registry
  tracked : Dict TrackedKey TrackerRef
  purges : Dict String UInt64
  /-- Messages that wait to be deleted from the store. -/
  expired : List MessageRef
  store : MessageStore
  dispatcher : Dispatcher
  deriving DecidableEq, Inhabited

namespace Broker

def slot (b : Broker) (p : SlotRef) : Slot := b.slots.get p.index

def message (b : Broker) (m : MessageRef) : Message := b.messages.get m.index

def subscriber (b : Broker) (s : SubscriberRef) : Subscription := b.subscribers.get s.index

def tracker (b : Broker) (t : TrackerRef) : Tracker := b.trackers.get t.index

def modifySlot (b : Broker) (p : SlotRef) (f : Slot → Slot) : Broker :=
  { b with slots := b.slots.modify p.index f }

def modifyMessage (b : Broker) (m : MessageRef) (f : Message → Message) : Broker :=
  { b with messages := b.messages.modify m.index f }

def modifySubscriber (b : Broker) (s : SubscriberRef) (f : Subscription → Subscription) : Broker :=
  { b with subscribers := b.subscribers.modify s.index f }

def modifyTracker (b : Broker) (t : TrackerRef) (f : Tracker → Tracker) : Broker :=
  { b with trackers := b.trackers.modify t.index f }

def addSlot (b : Broker) (p : Slot) : SlotRef × Broker :=
  (⟨b.slots.size⟩, { b with slots := b.slots.push p })

def addMessage (b : Broker) (m : Message) : MessageRef × Broker :=
  (⟨b.messages.size⟩, { b with messages := b.messages.push m })

def addSubscriber (b : Broker) (s : Subscription) : SubscriberRef × Broker :=
  (⟨b.subscribers.size⟩, { b with subscribers := b.subscribers.push s })

def addTracker (b : Broker) (t : Tracker) : TrackerRef × Broker :=
  (⟨b.trackers.size⟩, { b with trackers := b.trackers.push t })

def sameSubscriber (b : Broker) (s t : SubscriberRef) : Bool :=
  decide ((b.subscriber s).id = (b.subscriber t).id)

def raiseSlot (b : Broker) (p : SlotRef) (n : UInt64) : Broker :=
  b.modifySlot p fun x => { x with pending := x.pending.raise n }

def lowerSlot (b : Broker) (p : SlotRef) : Broker :=
  b.modifySlot p fun x => { x with pending := x.pending.lower }

def attachSlot (b : Broker) (m : MessageRef) (p : SlotRef) : Broker :=
  b.modifyMessage m fun x => { x with slot := some p }

def releaseSlot (b : Broker) : Option SlotRef → Broker
  | none => b
  | some p => b.lowerSlot p

def settle (b : Broker) (m : MessageRef) : Broker :=
  if (b.message m).settled then b
  else (b.modifyMessage m fun x => { x with settled := true }).releaseSlot (b.message m).slot

def settleIfComplete (b : Broker) (m : MessageRef) : Broker :=
  if (b.message m).isComplete then b.settle m else b

def settleAll (b : Broker) (l : List MessageRef) : Broker := l.foldl settle b

def markExpired (b : Broker) (m : MessageRef) : Broker :=
  b.modifyMessage m fun x => { x with expired := true }

def markPurged (b : Broker) (m : MessageRef) : Broker :=
  b.modifyMessage m fun x => { x with purged := true }

def setStatus (b : Broker) (m : MessageRef) (s : SubscriberId) (status : RecipientStatus) :
    Broker :=
  b.modifyMessage m fun x => x.setStatus s status

def reserve (b : Broker) (s : SubscriberRef) : Broker := b.modifySubscriber s Subscription.reserve

def release (b : Broker) (s : SubscriberRef) : Broker := b.modifySubscriber s Subscription.release

def acquireInFlight (b : Broker) (t : TrackerRef) : Broker :=
  b.modifyTracker t fun x => { x with inFlight := x.inFlight.raise 1 }

def releaseInFlight (b : Broker) (t : TrackerRef) : Broker :=
  b.modifyTracker t fun x => { x with inFlight := x.inFlight.lower }

def setBuffered (b : Broker) (m : MessageRef) (flag : Bool) : Broker :=
  b.modifyMessage m fun x => { x with buffered := flag }

def append (b : Broker) (t : TrackerRef) (m : MessageRef) : Broker :=
  b.modifyTracker t fun x => { x with buffer := x.buffer ++ [m] }

def buffer (b : Broker) (t : TrackerRef) (m : MessageRef) : Broker :=
  (b.setBuffered m true).append t m

def rebuffer (b : Broker) (t : TrackerRef) (m : MessageRef) : Broker :=
  if (b.message m).buffered then b else b.buffer t m

def front (b : Broker) (t : TrackerRef) : Option MessageRef := (b.tracker t).buffer.head?

def sameId (b : Broker) (m n : MessageRef) : Bool := decide ((b.message n).id = (b.message m).id)

def isBufferedIn (b : Broker) (t : TrackerRef) (m : MessageRef) : Bool :=
  (b.tracker t).buffer.any (b.sameId m)

def unbuffer (b : Broker) (t : TrackerRef) (m : MessageRef) : Broker :=
  if b.isBufferedIn t m then
    let b := b.modifyTracker t fun x => { x with buffer := x.buffer.eraseP (b.sameId m) }
    b.setBuffered m false
  else b

def unbufferAll (b : Broker) (l : List MessageRef) : Broker :=
  l.foldl (fun b m => b.setBuffered m false) b

def drain (b : Broker) (t : TrackerRef) : Broker :=
  (b.modifyTracker t fun x => { x with buffer := [] }).unbufferAll (b.tracker t).buffer

def idsOf (b : Broker) (active : List SubscriberRef) : List SubscriberId :=
  active.map fun s => (b.subscriber s).id

def findById (b : Broker) (active : List SubscriberRef) (id : SubscriberId) :
    Option SubscriberRef :=
  active.find? fun s => (b.subscriber s).id = id

def nextSubscriber (b : Broker) (t : TrackerRef) (active : List SubscriberRef) :
    Option SubscriberRef × Broker :=
  let turn := (b.tracker t).cursor.next (b.idsOf active)
  (turn.1.bind (b.findById active), b.modifyTracker t fun x => { x with cursor := turn.2 })

def hasRoom (b : Broker) (s : SubscriberRef) : Bool := (b.subscriber s).hasRoom

def nextWithRoom (t : TrackerRef) (active : List SubscriberRef) :
    Nat → Broker → Option SubscriberRef × Broker
  | 0, b => (none, b)
  | n + 1, b =>
      match b.nextSubscriber t active with
      | (some s, b) => if b.hasRoom s then (some s, b) else nextWithRoom t active n b
      | (none, b) => nextWithRoom t active n b

end Broker

end Courier
