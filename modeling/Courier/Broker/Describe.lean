import Courier.Broker.Pipeline
import Courier.Text.Shown

namespace Courier

open Text

def DestinationType.title : DestinationType → String
  | queue => "Queue"
  | topic => "Topic"
  | durableTopic => "DurableTopic"

def Protocol.title : Protocol → String
  | amqp => "Amqp"
  | mqtt => "Mqtt"

def describeId (id : SubscriberId) : String := wrapped "SubscriberId" (shown id)

def describeGuarded (part : String) : String := record "Mutex" [("data", part)]

def Slot.describe (p : Slot) : String :=
  record "Slot" [("storage_queue", shown p.storageQueue), ("pending", toString p.pending.toNat)]

def Message.describeContent (m : Message) : String :=
  record "MessageMetadata" [
    ("id", toString m.id.toNat), ("destination", shown m.destination),
    ("storage_queue", shown m.storageQueue), ("payload", shownOctets m.payload),
    ("arrival_time", toString m.arrival.toNat),
    ("expires_at", optional (m.expiresAt.map fun n => toString n.toNat))]

def Cursor.describe (c : Cursor) : String :=
  record "SubscriberCursor" [
    ("order", listed (c.order.map describeId)), ("position", toString c.position)]

def Rules.describe (r : Rules) : String :=
  record "FilterPipeline" [("stages", listed (r.stages.map Stage.describe))]

namespace Broker

def describeMessage (b : Broker) (m : MessageRef) : String :=
  let x := b.message m
  let recipients := x.recipients.entries.map fun e => (describeId e.1, e.2.name)
  wrapped "MessageHandle" (record "DeliverableMessage" [
    ("meta", x.describeContent), ("buffered", truth x.buffered), ("expired", truth x.expired),
    ("purged", truth x.purged), ("settled", truth x.settled),
    ("state", describeGuarded (record "DeliveryState" [
      ("recipients", mapped recipients),
      ("slot", optional (x.slot.map fun p => (b.slot p).describe))]))])

def describeTracker (b : Broker) (t : TrackerRef) : String :=
  let x := b.tracker t
  record "DeliveryTracker" [
    ("destination", shown x.key.destination), ("protocol", x.key.protocol.title),
    ("destination_type", x.key.type.title),
    ("inner", describeGuarded (record "TrackerInner" [
      ("buffer", listed (x.buffer.map b.describeMessage)), ("cursor", x.cursor.describe)])),
    ("in_flight", toString x.inFlight.toNat)]

def describeTracked (b : Broker) (type : DestinationType) : String :=
  mapped ((b.tracked.entries.filter fun e => e.1.type = type).map fun e =>
    (shown e.1.destination, b.describeTracker e.2))

def describeFlusher (b : Broker) (r : Rules) : String :=
  record "MessageFlusher" [
    ("trackers", record "TrackerMaps"
      (DestinationType.all.map fun type => (type.name, b.describeTracked type))),
    ("queue_strategy", (DeliveryStrategy.queue r.ceiling).describe),
    ("topic_strategy", (DeliveryStrategy.forTopics r.topics).describe)]

def describeExpiry (b : Broker) : String :=
  record "ExpiryDeletionTask" [("pending", toString b.expired.length)]

end Broker

end Courier
