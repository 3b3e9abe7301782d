import Courier.Text.Shown

namespace Courier

inductive TopicStrategy where
  | discardAllowed
  | discardNone
  | slowestSubRate
  deriving DecidableEq

namespace TopicStrategy

def all : List TopicStrategy := [discardAllowed, discardNone, slowestSubRate]

def name : TopicStrategy → String
  | discardAllowed => "discard_allowed"
  | discardNone => "discard_none"
  | slowestSubRate => "slowest_sub_rate"

def ofName? (s : String) : Option TopicStrategy := all.find? fun t => t.name = s

theorem ofName?_name (t : TopicStrategy) : ofName? t.name = some t := by
  cases t <;> decide

end TopicStrategy

inductive DiscardPolicy where
  /-- A saturated subscriber holds the topic until it catches up. -/
  | discardNone
  /-- A saturated subscriber loses the copies it cannot take right now. -/
  | discardAllowed
  deriving DecidableEq

def DiscardPolicy.describe : DiscardPolicy → String
  | discardNone => "DiscardNone"
  | discardAllowed => "DiscardAllowed"

inductive DeliveryStrategy where
  | queue (ceiling : UInt64)
  | burst (discard : DiscardPolicy)
  | paced
  deriving DecidableEq

namespace DeliveryStrategy

def forTopics : TopicStrategy → DeliveryStrategy
  | .discardAllowed => burst .discardAllowed
  | .discardNone => burst .discardNone
  | .slowestSubRate => paced

def describe : DeliveryStrategy → String
  | queue ceiling => Text.record "Queue" [("max_read_but_undelivered", toString ceiling.toNat)]
  | burst discard => Text.record "TopicBurst" [("discard", discard.describe)]
  | paced => "TopicPaced"

end DeliveryStrategy

end Courier
