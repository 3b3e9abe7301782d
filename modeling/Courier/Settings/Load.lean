import Courier.Settings.Basic

namespace Courier.Settings

abbrev Environment := String → Option String

def readNumber (name text : String) : Except SettingsError UInt64 :=
  match Text.readWord (Text.trim text.toList) with
  | .ok n => .ok n
  | .error cause => .error (.number name cause)

def overrideNumber (env : Environment) (name : String) (value : UInt64) :
    Except SettingsError UInt64 :=
  match env name with
  | some text => readNumber name text
  | none => .ok value

def overrideStrategy (env : Environment) (name : String) (value : TopicStrategy) :
    Except SettingsError TopicStrategy :=
  match env name with
  | some text => TopicStrategy.read text
  | none => .ok value

def ofFile (f : FileSettings) : Settings where
  maxUndelivered := f.maxUndelivered.getD standard.maxUndelivered
  topics := f.topics.getD standard.topics
  expirySecs := f.expirySecs.getD standard.expirySecs
  recoverySecs := f.recoverySecs.getD standard.recoverySecs
  workers := f.workers.getD standard.workers
  queueCapacity := f.queueCapacity.getD standard.queueCapacity
  window := f.window.getD standard.window

def override (env : Environment) (s : Settings) : Except SettingsError Settings := do
  let maxUndelivered ← overrideNumber env "BLIPMQ_MAX_READ_BUT_UNDELIVERED" s.maxUndelivered
  let topics ← overrideStrategy env "BLIPMQ_TOPIC_DELIVERY_STRATEGY" s.topics
  let expirySecs ← overrideNumber env "BLIPMQ_EXPIRY_DELETION_INTERVAL_SECS" s.expirySecs
  let recoverySecs ← overrideNumber env "BLIPMQ_RECOVERY_INTERVAL_SECS" s.recoverySecs
  let workers ← overrideNumber env "BLIPMQ_DISPATCHER_WORKERS" s.workers
  let queueCapacity ← overrideNumber env "BLIPMQ_DISPATCHER_QUEUE_CAPACITY" s.queueCapacity
  let window ← overrideNumber env "BLIPMQ_SUBSCRIBER_MAX_UNACKED" s.window
  return ⟨maxUndelivered, topics, expirySecs, recoverySecs, workers, queueCapacity, window⟩

def aboveZero (setting : String) (value : UInt64) : Except SettingsError Unit :=
  if value = 0 then .error (.zero setting) else .ok ()

def check (s : Settings) : Except SettingsError Settings := do
  aboveZero "max_read_but_undelivered_messages" s.maxUndelivered
  aboveZero "expiry_deletion_interval_secs" s.expirySecs
  aboveZero "recovery_interval_secs" s.recoverySecs
  aboveZero "dispatcher_workers" s.workers
  aboveZero "dispatcher_queue_capacity" s.queueCapacity
  aboveZero "subscriber_max_unacked" s.window
  return s

def fileVariable : String := "BLIPMQ_CONFIG"

def fileSettings (read : String → Except SettingsError FileSettings) (path : Option String)
    (env : Environment) : Except SettingsError FileSettings :=
  match path.or (env fileVariable) with
  | some p => read p
  | none => .ok .empty

def load (read : String → Except SettingsError FileSettings) (path : Option String)
    (env : Environment) : Except SettingsError Settings := do
  check (← override env (ofFile (← fileSettings read path env)))

end Courier.Settings
