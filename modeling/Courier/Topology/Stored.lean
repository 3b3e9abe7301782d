import Courier.Topology.Record

namespace Courier

abbrev Fields := List (String × Document)

namespace Fields

def text? (f : Fields) (name : String) : Option String :=
  (Document.entry? f name).bind Document.text?

def bool? (f : Fields) (name : String) : Option Bool :=
  (Document.entry? f name).bind Document.bool?

def protocol? (f : Fields) : Option Protocol := do
  Protocol.ofName? (← (← Document.entry? f "protocol").choice?)

def destinationType? (f : Fields) : Option DestinationType := do
  DestinationType.ofName? (← (← Document.entry? f "destination_type").choice?)

def optionalText? (f : Fields) (name : String) : Option (Option String) :=
  match Document.entry? f name with
  | none | some .null => some none
  | some d => d.text?.map some

end Fields

namespace Exchange

def ofDocument? : Document → Option Exchange
  | .table f => do
      return ⟨← Fields.text? f "name", ← Fields.text? f "exchange_type", ← Fields.bool? f "durable",
        ← Fields.protocol? f⟩
  | _ => none

def toDocument (x : Exchange) : Document :=
  .table [("name", .text x.name), ("exchange_type", .text x.type), ("durable", .bool x.durable),
    ("protocol", .text x.protocol.name)]

end Exchange

namespace Queue

def ofDocument? : Document → Option Queue
  | .table f => do
      return ⟨← Fields.text? f "name", ← Fields.bool? f "durable", ← Fields.bool? f "exclusive",
        ← Fields.optionalText? f "owner", ← Fields.protocol? f⟩
  | _ => none

def toDocument (q : Queue) : Document :=
  .table [("name", .text q.name), ("durable", .bool q.durable), ("exclusive", .bool q.exclusive),
    ("owner", match q.owner with | some owner => .text owner | none => .null),
    ("protocol", .text q.protocol.name)]

end Queue

namespace Binding

def ofDocument? : Document → Option Binding
  | .table f => do
      return ⟨← Fields.text? f "exchange", ← Fields.text? f "queue", ← Fields.text? f "routing_key",
        ← Fields.protocol? f⟩
  | _ => none

def toDocument (b : Binding) : Document :=
  .table [("exchange", .text b.exchange), ("queue", .text b.queue),
    ("routing_key", .text b.routingKey), ("protocol", .text b.protocol.name)]

end Binding

namespace SubscriptionRecord

def ofDocument? : Document → Option SubscriptionRecord
  | .table f => do
      return ⟨← Fields.text? f "subscription_id",
        ⟨← Fields.text? f "destination", ← Fields.protocol? f, ← Fields.destinationType? f⟩,
        ← Fields.text? f "node_id", ← Fields.bool? f "active"⟩
  | _ => none

def toDocument (s : SubscriptionRecord) : Document :=
  .table [("subscription_id", .text s.id), ("destination", .text s.key.destination),
    ("destination_type", .text s.key.type.name), ("protocol", .text s.key.protocol.name),
    ("node_id", .text s.nodeId), ("active", .bool s.active)]

end SubscriptionRecord

end Courier
