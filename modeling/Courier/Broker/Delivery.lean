import Courier.Broker.Pipeline

namespace Courier.Broker

variable (r : Rules) (now : UInt64) (t : TrackerRef) (active : List SubscriberRef)

/-- The message has left the buffer. Whatever is not dispatched or dropped goes back to it, and
that ends the pass. -/
def offer (s : SubscriberRef) (m : MessageRef) (b : Broker) : FilterOutcome × Broker :=
  match b.handle r now s m t .rebuffer with
  | (.vetoed, b) => (.vetoed, b.settle m)
  | (.alreadyInFlight, b) => (.alreadyInFlight, b.rebuffer t m)
  | other => other

def endsPass : FilterOutcome → Bool
  | .alreadyInFlight | .failed => true
  | _ => false

def queuePass (ceiling : UInt64) : List MessageRef → Broker → Nat × Broker
  | [], b => (0, b)
  | m :: rest, b =>
      if ceiling ≤ (b.tracker t).inFlight.value then (0, b)
      else
        match b.nextWithRoom t active active.length with
        | (none, b) => (0, b)
        | (some s, b) =>
            match (b.unbuffer t m).offer r now t s m with
            | (.dispatched, b) => let p := queuePass ceiling rest b; (p.1 + 1, p.2)
            | (outcome, b) => if endsPass outcome then (0, b) else queuePass ceiling rest b

def awaiting (b : Broker) (active : List SubscriberRef) (m : MessageRef) : List SubscriberRef :=
  active.filter fun s => (b.message m).awaits (b.subscriber s).id

/-- Sends one message to each recipient. False if the message itself was dropped on the way. -/
def broadcast (m : MessageRef) (policy : FailurePolicy) :
    List SubscriberRef → Broker → Bool × Broker
  | [], b => (true, b)
  | s :: rest, b =>
      match b.handle r now s m t policy with
      | (.purged, b) => (false, b.unbuffer t m)
      | (.expired, b) => (false, b.unbuffer t m)
      | (.vetoed, b) => broadcast m policy rest (b.setStatus m (b.subscriber s).id .discarded)
      | (_, b) => broadcast m policy rest b

def retireIfHandedOff (b : Broker) (ids : List SubscriberId) (m : MessageRef) : Bool × Broker :=
  if (b.message m).isHandedOffTo ids && b.isBufferedIn t m then
    (true, (b.unbuffer t m).settleIfComplete m)
  else (false, b)

def discardFor (m : MessageRef) (saturated : List SubscriberRef) (b : Broker) : Broker :=
  saturated.foldl (fun b s => b.setStatus m (b.subscriber s).id .discarded) b

def failurePolicy : DiscardPolicy → FailurePolicy
  | .discardNone => .retry
  | .discardAllowed => .discard

/-- Offers each message to the subscribers with room. Those without lose it or hold the topic. -/
def burstPass (discard : DiscardPolicy) (ids : List SubscriberId) :
    List MessageRef → Broker → Nat × Broker
  | [], b => (0, b)
  | m :: rest, b =>
      let waiting := b.awaiting active m
      let ready := waiting.filter b.hasRoom
      let saturated := waiting.filter fun s => !b.hasRoom s
      let b := if discard = .discardAllowed then discardFor m saturated b else b
      match broadcast r now t m (failurePolicy discard) ready b with
      | (false, b) => burstPass discard ids rest b
      | (true, b) =>
          match b.retireIfHandedOff t ids m with
          | (true, b) => let p := burstPass discard ids rest b; (p.1 + 1, p.2)
          | (false, b) =>
              if discard = .discardNone && !saturated.isEmpty then (0, b)
              else burstPass discard ids rest b

def pacedPass (ids : List SubscriberId) : List MessageRef → Broker → Nat × Broker
  | [], b => (0, b)
  | m :: rest, b =>
      let recipients := b.awaiting active m
      if recipients.all b.hasRoom then
        match broadcast r now t m .retry recipients b with
        | (false, b) => pacedPass ids rest b
        | (true, b) =>
            match b.retireIfHandedOff t ids m with
            | (true, b) => let p := pacedPass ids rest b; (p.1 + 1, p.2)
            | (false, b) => pacedPass ids rest b
      else (0, b)

def deliver (strategy : DeliveryStrategy) (b : Broker) : Nat × Broker :=
  let buffered := (b.tracker t).buffer
  match strategy with
  | .queue ceiling => queuePass r now t active ceiling buffered b
  | .burst discard => burstPass r now t active discard (b.idsOf active) buffered b
  | .paced => pacedPass r now t active (b.idsOf active) buffered b

end Courier.Broker
