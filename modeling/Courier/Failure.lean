namespace Courier

inductive StoreError where
  /-- The store cannot be reached: callers wait for a health notice before they try again. -/
  | unavailable (reason : String)
  | operation (reason : String)
  deriving DecidableEq

namespace StoreError

def kind : StoreError → String
  | unavailable _ => "Unavailable"
  | operation _ => "Operation"

def message : StoreError → String
  | unavailable reason => "store unavailable: " ++ reason
  | operation reason => "store operation failed: " ++ reason

end StoreError

inductive BrokerError where
  | disconnected (subscriber : String)
  | saturated (subscriber : String)
  | dispatcherClosed
  | untracked (destination : String)
  | rejected (reason : String)
  | store (cause : StoreError)
  | internal (reason : String)
  deriving DecidableEq

namespace BrokerError

def kind : BrokerError → String
  | disconnected _ => "Disconnected"
  | saturated _ => "SubscriberSaturated"
  | dispatcherClosed => "DispatcherClosed"
  | untracked _ => "MissingDeliveryInfo"
  | rejected _ => "Listener"
  | store _ => "Store"
  | internal _ => "Internal"

def message : BrokerError → String
  | disconnected subscriber => "subscriber " ++ subscriber ++ " is disconnected"
  | saturated subscriber => "subscriber " ++ subscriber ++ " cannot accept more messages"
  | dispatcherClosed => "delivery dispatcher is shut down"
  | untracked destination => "no delivery info tracked for destination '" ++ destination ++ "'"
  | rejected reason => "cluster listener rejected event: " ++ reason
  | store cause => cause.message
  | internal reason => "internal error: " ++ reason

def isStoreUnavailable : BrokerError → Bool
  | store (.unavailable _) => true
  | _ => false

end BrokerError

end Courier
