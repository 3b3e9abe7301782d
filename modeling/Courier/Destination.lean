namespace Courier

inductive DestinationType where
  | queue
  | topic
  | durableTopic
  deriving DecidableEq

namespace DestinationType

instance : Inhabited DestinationType := ⟨queue⟩

def all : List DestinationType := [queue, topic, durableTopic]

def name : DestinationType → String
  | queue => "queue"
  | topic => "topic"
  | durableTopic => "durable_topic"

def display : DestinationType → String
  | queue => "QUEUE"
  | topic => "TOPIC"
  | durableTopic => "DURABLE_TOPIC"

def ofName? (s : String) : Option DestinationType := all.find? fun t => t.name = s

theorem ofName?_name (t : DestinationType) : ofName? t.name = some t := by
  cases t <;> decide

end DestinationType

inductive Protocol where
  | amqp
  | mqtt
  deriving DecidableEq

namespace Protocol

instance : Inhabited Protocol := ⟨amqp⟩

def all : List Protocol := [amqp, mqtt]

def name : Protocol → String
  | amqp => "amqp"
  | mqtt => "mqtt"

def display : Protocol → String
  | amqp => "AMQP"
  | mqtt => "MQTT"

def ofName? (s : String) : Option Protocol := all.find? fun p => p.name = s

theorem ofName?_name (p : Protocol) : ofName? p.name = some p := by
  cases p <;> decide

end Protocol

structure DestinationKey where
  destination : String
  protocol : Protocol
  type : DestinationType
  deriving DecidableEq, Inhabited

end Courier
