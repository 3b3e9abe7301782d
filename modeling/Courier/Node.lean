import Courier.Broker.Expiry
import Courier.Broker.Flush
import Courier.Recovery.Rehearsal
import Courier.Schedule
import Courier.Settings.Basic

namespace Courier

inductive Errand where
  | recovery
  | expiry
  deriving DecidableEq

def Errand.name : Errand → String
  | recovery => "cluster-recovery"
  | expiry => "expiry-deletion"

structure Node where
  settings : Settings
  vetoes : List Veto
  broker : Broker
  cluster : Recovery.Cluster
  task : RecoveryTask
  /-- In seconds. -/
  clock : Nat
  /-- The jobs under the names of their owners. Those without a name are the node's own. -/
  schedules : List (Option String × Scheduled Errand)

namespace Node

def assemble (settings : Settings) (vetoes : List Veto) (applies : Bool) : Node where
  settings
  vetoes
  broker := default
  cluster := { (default : Recovery.Cluster) with applies, health := (HealthBoard.join default).2 }
  task := default
  clock := 0
  schedules := []

def rules (n : Node) : Rules := ⟨n.settings.maxUndelivered, n.settings.topics, n.vetoes⟩

def subscription (n : Node) (id : SubscriberId) (key : DestinationKey) (outbound : Outbound) :
    Subscription :=
  (Subscription.new id key outbound).withWindow n.settings.window

def recover (n : Node) (full : Bool) : Option RecoveryOutcome × Node :=
  let subscriptions := n.broker.registry.all.map fun u => (n.broker.subscriber u).record
  let cluster := { n.cluster with subscriptions }
  let r := Recovery.trigger Recovery.Cluster.collaborators full n.task cluster
  (r.value, { n with task := r.task, cluster := r.world })

def announce (n : Node) (direct : Bool) (notice : HealthNotice) : Node :=
  let health := if direct then n.cluster.health else n.cluster.health.announce notice
  { n with task := n.task.observe notice, cluster := { n.cluster with health } }

def schedule (n : Node) (owner : Option String) (errand : Errand) (secs : Nat) : Node :=
  { n with schedules := n.schedules ++ [(owner, ⟨errand, secs, n.clock⟩)] }

def unschedule (n : Node) (owner : Option String) : Node :=
  { n with schedules := n.schedules.filter fun e => e.1 ≠ owner }

def perform (n : Node) : Errand → Node
  | .recovery => (n.recover false).2
  | .expiry => { n with broker := n.broker.deleteExpired.2 }

def advance (n : Node) (secs : Nat) : Node :=
  let due := dueJobs (n.schedules.map Prod.snd) n.clock (n.clock + secs)
  { due.foldl perform n with clock := n.clock + secs }

def start (settings : Settings) (vetoes : List Veto) (applies : Bool) : Node :=
  (assemble settings vetoes applies).schedule none .expiry settings.expirySecs.toNat

def scheduleRecovery (n : Node) : Node := n.schedule none .recovery n.settings.recoverySecs.toNat

def shutdown (n : Node) : Node :=
  let n := n.unschedule none
  { n with broker := n.broker.shutdown }

end Node

end Courier
