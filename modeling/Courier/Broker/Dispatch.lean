import Courier.Broker.State

namespace Courier.Broker

/-- Applies the job's failure policy. Under `rebuffer` an attempt that was withdrawn or forgotten
in the meantime has given its reservations back already. -/
def fail (b : Broker) (j : Job) : Broker :=
  let id := (b.subscriber j.subscriber).id
  match j.policy with
  | .rebuffer =>
      let recorded := ((b.message j.message).status? id).isSome
      let b := b.modifyMessage j.message fun x => x.forget id
      let b := if recorded then (b.release j.subscriber).releaseInFlight j.tracker else b
      b.rebuffer j.tracker j.message
  | .retry =>
      ((b.release j.subscriber).setStatus j.message id .failed).rebuffer j.tracker j.message
  | .discard =>
      ((b.release j.subscriber).setStatus j.message id .discarded).settleIfComplete j.message

def submit (b : Broker) (j : Job) : Bool × Broker :=
  if b.dispatcher.accepting then
    (true, { b with dispatcher := { b.dispatcher with jobs := b.dispatcher.jobs ++ [j] } })
  else (false, b.fail j)

def send (b : Broker) (s : SubscriberRef) (m : MessageRef) : SendResult × Broker :=
  ((b.subscriber s).send m |>.1, b.modifySubscriber s fun x => (x.send m).2)

def receive (b : Broker) (s : SubscriberRef) (limit : Option Nat) : List MessageRef × Broker :=
  ((b.subscriber s).outbound.take limit |>.1,
    b.modifySubscriber s fun x => { x with outbound := (x.outbound.take limit).2 })

def hangUp (b : Broker) (s : SubscriberRef) : Broker :=
  b.modifySubscriber s fun x => { x with outbound := x.outbound.hangUp }

/-- A copy that is acknowledged or withdrawn before its write ends keeps that status. -/
def markDelivered (b : Broker) (m : MessageRef) (id : SubscriberId) : Broker :=
  if (b.message m).status? id = some .scheduled then b.setStatus m id .delivered else b

def execute (b : Broker) (j : Job) : Broker :=
  match b.send j.subscriber j.message with
  | (.sent, b) => b.markDelivered j.message (b.subscriber j.subscriber).id
  | (.failed _, b) => b.fail j
  | (.panicked, b) => b.fail j

def runNext (b : Broker) : Option Broker :=
  match b.dispatcher.jobs with
  | [] => none
  | j :: rest => some ({ b with dispatcher := { b.dispatcher with jobs := rest } }.execute j)

def run : Nat → Broker → Nat × Broker
  | 0, b => (0, b)
  | n + 1, b =>
      match b.runNext with
      | none => (0, b)
      | some b => let r := run n b; (r.1 + 1, r.2)

def pendingJobs (b : Broker) : Nat := b.dispatcher.jobs.length

def runAll (b : Broker) : Nat × Broker := b.run b.pendingJobs

def shutdown (b : Broker) : Broker :=
  let b := b.runAll.2
  { b with dispatcher := { b.dispatcher with accepting := false } }

end Courier.Broker
