import Courier.Broker.Delivery

namespace Courier.Broker

variable (r : Rules) (now : UInt64)

def register (b : Broker) (s : SubscriberRef) : Broker :=
  let x := b.subscriber s
  { b with registry := b.registry.add ⟨x.key, x.id, s⟩ }

def unregister (b : Broker) (id : SubscriberId) : Broker :=
  { b with registry := b.registry.remove id }

def active (b : Broker) (t : TrackerRef) : List SubscriberRef := b.registry.active (b.tracker t).key

def find? (b : Broker) (key : TrackedKey) : Option TrackerRef := b.tracked.get? key

def isTracked (b : Broker) (t : TrackerRef) : Bool :=
  decide (b.find? (b.tracker t).key.tracked = some t)

def track (b : Broker) (key : DestinationKey) : TrackerRef × Broker :=
  match b.find? key.tracked with
  | some t => (t, b)
  | none =>
      let (t, b) := b.addTracker (.new key (b.idsOf (b.registry.active key)))
      (t, { b with tracked := b.tracked.insert key.tracked t })

def trackedCount (b : Broker) (type : DestinationType) : Nat :=
  (b.tracked.keys.filter fun k => k.type = type).length

/-- Nobody listens to an evicted topic, so its messages are consumed. Others stay in storage. -/
def evict (b : Broker) (t : TrackerRef) : Broker :=
  if b.isTracked t then
    let b := { b with tracked := b.tracked.erase (b.tracker t).key.tracked }
    if (b.tracker t).isTopic then (b.drain t).settleAll (b.tracker t).buffer else b
  else b

def accept (p : SlotRef) (t : TrackerRef) (b : Broker) (m : MessageRef) : Broker :=
  if (b.message m).destination = (b.tracker t).key.destination then (b.attachSlot m p).buffer t m
  else b.lowerSlot p

def bufferBatch (b : Broker) (batch : List MessageRef) (p : SlotRef) (t : TrackerRef) : Broker :=
  batch.foldl (accept p t) (b.raiseSlot p (.ofNat batch.length))

/-- An attempt that is withdrawn gives its reservations back, the subscriber's only if it is still
registered. -/
def giveBack (t : TrackerRef) (active : List SubscriberRef) (b : Broker) (id : SubscriberId) :
    Broker :=
  let b := b.releaseInFlight t
  match b.findById active id with
  | some s => b.release s
  | none => b

def withdraw (b : Broker) (t : TrackerRef) (m : MessageRef) : Broker :=
  (b.message m).outstanding.foldl (giveBack t (b.active t))
    (b.modifyMessage m Message.withdrawOutstanding)

/-- Puts a message back for another attempt. Except on a topic the attempt before it is withdrawn,
so that the message may go to any subscriber. -/
def returnToBuffer (t : TrackerRef) (b : Broker) (m : MessageRef) : Broker :=
  (if (b.tracker t).isTopic then b else b.withdraw t m).rebuffer t m

def rebufferTracked (b : Broker) (key : TrackedKey) (l : List MessageRef) :
    Except BrokerError Broker :=
  match b.find? key with
  | some t => .ok (l.foldl (returnToBuffer t) b)
  | none => .error (.untracked key.destination)

def requeue (b : Broker) (m : MessageRef) (type : DestinationType) : Except BrokerError Broker :=
  b.rebufferTracked ⟨type, (b.message m).destination⟩ [m]

def clear (b : Broker) (key : TrackedKey) : Nat × Broker :=
  match b.find? key with
  | some t => ((b.tracker t).buffer.length, b.drain t)
  | none => (0, b)

def consumePurged (b : Broker) (m : MessageRef) : Broker := (b.markPurged m).settle m

def purge (b : Broker) (key : TrackedKey) (storageQueue : String) : Nat × Broker :=
  let b := b.recordPurge storageQueue now
  match b.find? key with
  | some t =>
      let l := (b.tracker t).buffer
      (l.length, l.foldl consumePurged (b.drain t))
  | none => (0, b)

def strategyFor : DestinationType → DeliveryStrategy
  | .topic => .forTopics r.topics
  | .queue | .durableTopic => .queue r.ceiling

def sendBuffered (t : TrackerRef) (b : Broker) : Nat × Broker :=
  let active := b.active t
  if active.isEmpty then (0, b.evict t)
  else deliver r now t active (strategyFor r (b.tracker t).key.type) b

def flush (t : TrackerRef) (b : Broker) : Bool × Broker :=
  if (b.tracker t).buffer.isEmpty then
    (false, if (b.active t).isEmpty then b.evict t else b)
  else
    let sent := sendBuffered r now t b
    (decide (0 < sent.1), sent.2)

def findNext (t : TrackerRef) (active : List SubscriberRef) (b : Broker) :
    Option SubscriberRef × Broker :=
  if active.isEmpty then (none, b.evict t) else b.nextSubscriber t active

def releaseTracked (b : Broker) (key : TrackedKey) : Broker :=
  match b.find? key with
  | some t => b.releaseInFlight t
  | none => b

/-- Frees the subscriber's window and, except on a topic, the ceiling, unless the attempt was
withdrawn before. Except on a topic one acknowledgement settles the message. -/
def acknowledge (b : Broker) (s : SubscriberRef) (m : MessageRef) (type : DestinationType) :
    Broker :=
  let id := (b.subscriber s).id
  let outstanding := ((b.message m).status? id).any RecipientStatus.isOutstanding
  let b := if outstanding then b.release s else b
  let b := b.setStatus m id .acknowledged
  if type = .topic then b.settleIfComplete m
  else
    let b := if outstanding then b.releaseTracked ⟨type, (b.message m).destination⟩ else b
    b.settle m

end Courier.Broker
