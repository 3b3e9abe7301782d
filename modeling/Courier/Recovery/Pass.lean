import Courier.Recovery.Script
import Courier.Topology.Delta

namespace Courier.Recovery

inductive Stop where
  | gateClosed
  | failed (cause : BrokerError)
  | panicked
  deriving DecidableEq

/-- Goes on from the report so far. What was replayed stays reported when the step ends early. -/
abbrev Step := RecoveryReport → Script (Option Stop × RecoveryReport)

def counting (f : RecoveryReport → RecoveryReport) : Step := fun report => .done (none, f report)

def asking (q : Request) (next : q.Value → Step) : Step := fun report =>
  .ask q fun
    | .ok a => next a report
    | .error e => .done (some (.failed (q.cause e)), report)
    | .panicked => .done (some .panicked, report)

def gated (step : Step) : Step := fun report =>
  .gate fun isOpen => if isOpen then step report else .done (some .gateClosed, report)

def andThen (first second : Step) : Step := fun report =>
  (first report).bind fun
    | (none, report) => second report
    | stopped => .done stopped

def forEach {α : Type} (act : α → Step) : List α → Step
  | [] => counting id
  | x :: l => andThen (act x) (forEach act l)

def publish (r : SubscriptionRecord) : Step :=
  asking (.publish r) fun _ =>
    counting fun t => { t with subscriptionsBroadcast := t.subscriptionsBroadcast + 1 }

def replay (e : ClusterEvent) : Step := asking (.replay e) fun _ => counting fun t => t.count e

/-- A queue of this protocol is in its own store already and is never replayed as added. -/
def isSkipped (q : Queue) : Bool := decide (q.protocol = .mqtt)

def replayAddedQueue (q : Queue) : Step :=
  if isSkipped q then counting fun t => { t with queuesSkipped := t.queuesSkipped + 1 }
  else replay (.queue .added q)

def replayDelta {α : Type} (add remove : α → Step) (d : Delta α) : Step :=
  andThen (forEach add d.toAdd) (forEach remove d.toRemove)

def broadcastSubscriptions : Step := asking .subscriptions fun l => forEach publish l

def reloadExchanges : Step :=
  asking .readExchanges fun persisted =>
    asking .liveExchanges fun live =>
      replayDelta (fun x => replay (.exchange .added x)) (fun x => replay (.exchange .deleted x))
        (.between persisted live)

def reloadQueues : Step :=
  asking .readQueues fun persisted =>
    asking .liveQueues fun live =>
      replayDelta replayAddedQueue (fun q => replay (.queue .deleted q)) (.between persisted live)

def reloadBindingsOf (x : Exchange) : Step :=
  asking (.readBindings x.name) fun persisted =>
    asking (.liveBindings x.name) fun live =>
      replayDelta (fun b => replay (.binding .added b)) (fun b => replay (.binding .deleted b))
        (.between persisted live)

/-- The persisted exchanges are read anew: their bindings are compared one exchange at a time. -/
def reloadBindings : Step :=
  asking .readExchanges fun exchanges => forEach (fun x => gated (reloadBindingsOf x)) exchanges

def reloadSubscriptions : Step :=
  asking .reload fun _ => counting fun t => { t with subscriptionsReloaded := true }

def stepOf : RecoveryStep → Step
  | .broadcastSubscriptions => broadcastSubscriptions
  | .exchanges => reloadExchanges
  | .queues => reloadQueues
  | .bindings => reloadBindings
  | .subscriptions => reloadSubscriptions

def steps (full : Bool) : List RecoveryStep :=
  (if full then [.broadcastSubscriptions] else []) ++
    [.exchanges, .queues, .bindings, .subscriptions]

/-- The steps up to the first that ends early. No outcome means that a panic unwound. -/
def runSteps : List RecoveryStep → RecoveryReport → Script (Option RecoveryOutcome)
  | [], report => .done (some (.completed report))
  | step :: rest, report =>
      (gated (stepOf step) report).bind fun
        | (none, report) => runSteps rest report
        | (some .gateClosed, report) => .done (some (.halted step report))
        | (some (.failed cause), report) => .done (some (.aborted step cause report))
        | (some .panicked, _) => .done none

def pass (full : Bool) : Script (Option RecoveryOutcome) :=
  .gate fun isOpen => if isOpen then runSteps (steps full) .empty else .done (some .paused)

/-- A pass runs only if no other holds the guard. The guard is given back when the pass returns;
a panic that unwinds out of the pass leaves it taken. -/
def trigger {σ : Type} (c : Collaborators σ) (full : Bool) (task : RecoveryTask) (world : σ) :
    Ending σ (Option RecoveryOutcome) :=
  if task.running then ⟨some .alreadyRunning, task, world⟩
  else
    let ending := (pass full).run c { task with running := true } world
    { ending with task := { ending.task with running := ending.value.isNone } }

end Courier.Recovery
