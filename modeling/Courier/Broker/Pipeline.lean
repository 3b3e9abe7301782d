import Courier.Broker.Dispatch
import Courier.Strategy

namespace Courier

structure Veto where
  name : String
  rejects : Subscription → Message → Bool

structure Rules where
  ceiling : UInt64
  topics : TopicStrategy
  vetoes : List Veto

inductive Stage where
  | purge
  | expiry
  | veto (v : Veto)
  | dispatch

def Stage.describe : Stage → String
  | purge => "Purge"
  | expiry => "Expiry"
  | veto v => Text.wrapped "Veto" v.name
  | dispatch => "Dispatch"

def Rules.stages (r : Rules) : List Stage :=
  [.purge, .expiry] ++ r.vetoes.map .veto ++ [.dispatch]

inductive FilterOutcome where
  | purged
  | expired
  | vetoed
  | alreadyInFlight
  | dispatched
  /-- The dispatcher refused the job and its failure policy has been applied. -/
  | failed
  deriving DecidableEq

def FilterOutcome.name : FilterOutcome → String
  | purged => "Purged"
  | expired => "Expired"
  | vetoed => "Vetoed"
  | alreadyInFlight => "AlreadyInFlight"
  | dispatched => "Dispatched"
  | failed => "Failed"

namespace Broker

def lastPurge (b : Broker) (storageQueue : String) : Option UInt64 := b.purges.get? storageQueue

def recordPurge (b : Broker) (storageQueue : String) (time : UInt64) : Broker :=
  let latest := match b.lastPurge storageQueue with
    | none => time
    | some earlier => if earlier ≤ time then time else earlier
  { b with purges := b.purges.insert storageQueue latest }

def isPurged (b : Broker) (m : MessageRef) : Bool :=
  (b.message m).purged ||
    (b.lastPurge (b.message m).storageQueue).any fun time => decide ((b.message m).arrival ≤ time)

def addExpired (b : Broker) (m : MessageRef) : Broker := { b with expired := b.expired ++ [m] }

def purgeStage (b : Broker) (m : MessageRef) : Option FilterOutcome × Broker :=
  if b.isPurged m then (some .purged, (b.markPurged m).settle m) else (none, b)

def expiryStage (b : Broker) (now : UInt64) (m : MessageRef) : Option FilterOutcome × Broker :=
  if (b.message m).expired then (some .expired, b)
  else if (b.message m).hasExpired now then (some .expired, (b.markExpired m).addExpired m)
  else (none, b)

def vetoStage (b : Broker) (v : Veto) (s : SubscriberRef) (m : MessageRef) : Option FilterOutcome :=
  if v.rejects (b.subscriber s) (b.message m) then some .vetoed else none

def trySchedule (b : Broker) (m : MessageRef) (id : SubscriberId) : Bool × Broker :=
  if (b.message m).awaits id then (true, b.setStatus m id .scheduled) else (false, b)

/-- Reservations are made before the job is submitted. -/
def dispatchStage (b : Broker) (s : SubscriberRef) (m : MessageRef) (t : TrackerRef)
    (policy : FailurePolicy) : FilterOutcome × Broker :=
  match b.trySchedule m (b.subscriber s).id with
  | (false, b) => (.alreadyInFlight, b)
  | (true, b) =>
      let b := b.reserve s
      let b := if policy = .rebuffer then b.acquireInFlight t else b
      match b.submit ⟨s, m, t, policy⟩ with
      | (true, b) => (.dispatched, b)
      | (false, b) => (.failed, b)

def runStages (now : UInt64) (s : SubscriberRef) (m : MessageRef) (t : TrackerRef)
    (policy : FailurePolicy) : List Stage → Broker → FilterOutcome × Broker
  | [], b => (.failed, b)
  | .purge :: rest, b =>
      match b.purgeStage m with
      | (some outcome, b) => (outcome, b)
      | (none, b) => runStages now s m t policy rest b
  | .expiry :: rest, b =>
      match b.expiryStage now m with
      | (some outcome, b) => (outcome, b)
      | (none, b) => runStages now s m t policy rest b
  | .veto v :: rest, b =>
      match b.vetoStage v s m with
      | some outcome => (outcome, b)
      | none => runStages now s m t policy rest b
  | .dispatch :: _, b => b.dispatchStage s m t policy

def handle (b : Broker) (r : Rules) (now : UInt64) (s : SubscriberRef) (m : MessageRef)
    (t : TrackerRef) (policy : FailurePolicy) : FilterOutcome × Broker :=
  b.runStages now s m t policy r.stages

end Broker

end Courier
