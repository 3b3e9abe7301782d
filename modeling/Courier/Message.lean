import Courier.Dict
import Courier.Tally

namespace Courier

abbrev SubscriberId := String

structure SlotRef where
  index : Nat
  deriving DecidableEq

structure MessageRef where
  index : Nat
  deriving DecidableEq

structure Slot where
  storageQueue : String
  pending : Tally
  deriving DecidableEq, Inhabited

inductive RecipientStatus where
  /-- Handed to the dispatcher and not yet written. -/
  | scheduled
  | delivered
  /-- The last attempt failed: another one may follow. -/
  | failed
  | acknowledged
  /-- Dropped for this subscriber alone. -/
  | discarded
  deriving DecidableEq

namespace RecipientStatus

def name : RecipientStatus → String
  | scheduled => "Scheduled"
  | delivered => "Delivered"
  | failed => "Failed"
  | acknowledged => "Acknowledged"
  | discarded => "Discarded"

def isHandedOff : RecipientStatus → Bool
  | failed => false
  | _ => true

def isOutstanding : RecipientStatus → Bool
  | scheduled | delivered => true
  | _ => false

def isFinal : RecipientStatus → Bool
  | acknowledged | discarded => true
  | _ => false

end RecipientStatus

structure Message where
  id : UInt64
  destination : String
  storageQueue : String
  payload : String
  /-- Milliseconds since the epoch, as is every time here. -/
  arrival : UInt64
  expiresAt : Option UInt64
  buffered : Bool
  expired : Bool
  purged : Bool
  settled : Bool
  recipients : Dict SubscriberId RecipientStatus
  slot : Option SlotRef
  deriving DecidableEq, Inhabited

namespace Message

def new (id : UInt64) (destination storageQueue payload : String) (arrival : UInt64) : Message :=
  { id, destination, storageQueue, payload, arrival, expiresAt := none, buffered := false,
    expired := false, purged := false, settled := false, recipients := .empty, slot := none }

/-- Expires `ttl` milliseconds after its arrival; a time of zero means never. Nothing is made if the
two do not add up to a 64-bit number. -/
def withTtl (m : Message) (ttl : UInt64) : Option Message :=
  if ttl = 0 then some { m with expiresAt := none }
  else if m.arrival.toNat + ttl.toNat < UInt64.size then
    some { m with expiresAt := some (m.arrival + ttl) }
  else none

def hasExpired (m : Message) (now : UInt64) : Bool :=
  match m.expiresAt with
  | none => false
  | some time => decide (time ≤ now)

def status? (m : Message) (s : SubscriberId) : Option RecipientStatus := m.recipients.get? s

def setStatus (m : Message) (s : SubscriberId) (status : RecipientStatus) : Message :=
  { m with recipients := m.recipients.insert s status }

def forget (m : Message) (s : SubscriberId) : Message :=
  { m with recipients := m.recipients.erase s }

def awaits (m : Message) (s : SubscriberId) : Bool :=
  match m.status? s with
  | none | some .failed => true
  | _ => false

def outstanding (m : Message) : List SubscriberId :=
  (m.recipients.entries.filter fun e => e.2.isOutstanding).map Prod.fst

def withdrawOutstanding (m : Message) : Message :=
  m.outstanding.foldl forget m

def isHandedOffTo (m : Message) (ids : List SubscriberId) : Bool :=
  ids.all fun s => (m.status? s).any RecipientStatus.isHandedOff

def isComplete (m : Message) : Bool :=
  !m.buffered && !m.recipients.entries.isEmpty &&
    m.recipients.values.all RecipientStatus.isFinal

end Message

end Courier
