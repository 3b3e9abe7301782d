import Courier.Health
import Courier.Topology.LiveView

namespace Courier

structure RecoveryTask where
  running : Bool
  operational : Bool
  deriving DecidableEq

namespace RecoveryTask

/-- The store counts as healthy until it reports itself. -/
instance : Inhabited RecoveryTask := ⟨⟨false, true⟩⟩

def observe (t : RecoveryTask) : HealthNotice → RecoveryTask
  | .down .context _ => { t with operational := false }
  | .up .context => { t with operational := true }
  | _ => t

def observeAll (t : RecoveryTask) (l : List HealthNotice) : RecoveryTask := l.foldl observe t

def stateName (t : RecoveryTask) : String := if t.running then "Running" else "Idle"

def describe (t : RecoveryTask) : String :=
  Text.record "RecoveryTask" [
    ("state", t.stateName), ("store_operational", Text.truth t.operational)]

end RecoveryTask

inductive RecoveryStep where
  | broadcastSubscriptions
  | exchanges
  | queues
  | bindings
  | subscriptions
  deriving DecidableEq

def RecoveryStep.name : RecoveryStep → String
  | broadcastSubscriptions => "BroadcastSubscriptions"
  | exchanges => "Exchanges"
  | queues => "Queues"
  | bindings => "Bindings"
  | subscriptions => "Subscriptions"

structure RecoveryReport where
  subscriptionsBroadcast : Nat
  exchangesAdded : Nat
  exchangesRemoved : Nat
  queuesAdded : Nat
  queuesRemoved : Nat
  queuesSkipped : Nat
  bindingsAdded : Nat
  bindingsRemoved : Nat
  subscriptionsReloaded : Bool
  deriving DecidableEq

namespace RecoveryReport

def empty : RecoveryReport := ⟨0, 0, 0, 0, 0, 0, 0, 0, false⟩

instance : Inhabited RecoveryReport := ⟨empty⟩

def count (r : RecoveryReport) : ClusterEvent → RecoveryReport
  | .exchange .added _ => { r with exchangesAdded := r.exchangesAdded + 1 }
  | .exchange .deleted _ => { r with exchangesRemoved := r.exchangesRemoved + 1 }
  | .queue .added _ => { r with queuesAdded := r.queuesAdded + 1 }
  | .queue .deleted _ => { r with queuesRemoved := r.queuesRemoved + 1 }
  | .binding .added _ => { r with bindingsAdded := r.bindingsAdded + 1 }
  | .binding .deleted _ => { r with bindingsRemoved := r.bindingsRemoved + 1 }

end RecoveryReport

inductive RecoveryOutcome where
  | alreadyRunning
  /-- The context store was down at the start. -/
  | paused
  | completed (report : RecoveryReport)
  /-- The context store went down during the pass. -/
  | halted (step : RecoveryStep) (report : RecoveryReport)
  | aborted (step : RecoveryStep) (cause : BrokerError) (report : RecoveryReport)
  deriving DecidableEq

namespace RecoveryOutcome

def name : RecoveryOutcome → String
  | alreadyRunning => "AlreadyRunning"
  | paused => "Paused"
  | completed _ => "Completed"
  | halted .. => "Halted"
  | aborted .. => "Aborted"

def step? : RecoveryOutcome → Option RecoveryStep
  | halted step _ | aborted step .. => some step
  | _ => none

def cause? : RecoveryOutcome → Option BrokerError
  | aborted _ cause _ => some cause
  | _ => none

def report? : RecoveryOutcome → Option RecoveryReport
  | completed report | halted _ report | aborted _ _ report => some report
  | _ => none

end RecoveryOutcome

end Courier
