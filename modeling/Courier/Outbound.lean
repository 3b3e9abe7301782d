import Courier.Failure
import Courier.Message

namespace Courier

/-- How one write ends. A writer may also panic: the dispatcher survives that. -/
inductive SendResult where
  | sent
  | failed (cause : BrokerError)
  | panicked
  deriving DecidableEq

inductive Sink where
  /-- A channel to a reader. It holds at most `capacity` messages, any number if there is none,
  until the reader takes them or goes away. -/
  | channel (capacity : Option Nat) (connected : Bool) (contents : List MessageRef)
  | record (written : List MessageRef)
  deriving DecidableEq

namespace Sink

def isFull : Option Nat → List MessageRef → Bool
  | none, _ => false
  | some capacity, contents => decide (capacity ≤ contents.length)

def send (owner : SubscriberId) (m : MessageRef) : Sink → SendResult × Sink
  | channel capacity connected contents =>
      if !connected then (.failed (.disconnected owner), channel capacity connected contents)
      else if isFull capacity contents then
        (.failed (.saturated owner), channel capacity connected contents)
      else (.sent, channel capacity connected (contents ++ [m]))
  | record written => (.sent, record (written ++ [m]))

def held : Sink → List MessageRef
  | channel _ _ contents => contents
  | record written => written

def take (limit : Option Nat) : Sink → List MessageRef × Sink
  | channel capacity connected contents =>
      let n := limit.getD contents.length
      (contents.take n, channel capacity connected (contents.drop n))
  | record written => (written, record written)

def hangUp : Sink → Sink
  | channel capacity _ _ => channel capacity false []
  | record written => record written

end Sink

/-- A connection that answers each write as foretold. Where `sent` is foretold, and when no answer
is left, the sink decides. -/
structure Outbound where
  answers : List SendResult
  sink : Sink
  deriving DecidableEq

namespace Outbound

instance : Inhabited Outbound := ⟨[], .record []⟩

def send (owner : SubscriberId) (m : MessageRef) (o : Outbound) : SendResult × Outbound :=
  match o.answers with
  | .failed cause :: rest => (.failed cause, { o with answers := rest })
  | .panicked :: rest => (.panicked, { o with answers := rest })
  | answers =>
      let (result, sink) := o.sink.send owner m
      (result, ⟨answers.tail, sink⟩)

def held (o : Outbound) : List MessageRef := o.sink.held

def take (limit : Option Nat) (o : Outbound) : List MessageRef × Outbound :=
  let (taken, sink) := o.sink.take limit
  (taken, { o with sink })

def hangUp (o : Outbound) : Outbound := { o with sink := o.sink.hangUp }

end Outbound

end Courier
