import Courier.Settings.Load
import Courier.Toml
import Courier.Yaml.Collection

namespace Courier

structure FileEntry where
  isNull : Bool
  number? : Option UInt64
  choice? : Option String

namespace FileEntry

def isNothing : Document → Bool
  | .list [] | .table [] => true
  | _ => false

/-- A choice in TOML is a text, or a table whose only key names it and holds nothing. -/
def ofDocument (d : Document) : FileEntry where
  isNull := false
  number? := match d with
    | .integer n => if 0 ≤ n then Text.word? n.toNat else none
    | _ => none
  choice? := match d with
    | .text name => some name
    | .table [(name, inner)] => if isNothing inner then some name else none
    | _ => none

def ofScalar (s : Yaml.Scalar) : FileEntry := ⟨s.isNull, s.number?, s.choice?⟩

end FileEntry

namespace FileSettings

def strategyName : String := "topic_delivery_strategy"

def names : List String :=
  ["max_read_but_undelivered_messages", strategyName, "expiry_deletion_interval_secs",
    "recovery_interval_secs", "dispatcher_workers", "dispatcher_queue_capacity",
    "subscriber_max_unacked"]

def given {α : Type} (read : FileEntry → Option α) (entries : List (String × FileEntry))
    (name : String) : Option (Option α) :=
  match entries.lookup name with
  | none => some none
  | some e => if e.isNull then some none else (read e).map some

def ofEntries? (entries : List (String × FileEntry)) : Option FileSettings := do
  let present := entries.map Prod.fst
  guard (present.Nodup ∧ ∀ name ∈ present, name ∈ names)
  let number := given FileEntry.number? entries
  return {
    maxUndelivered := ← number "max_read_but_undelivered_messages"
    topics := ← given (fun e => e.choice?.bind TopicStrategy.ofName?) entries strategyName
    expirySecs := ← number "expiry_deletion_interval_secs"
    recoverySecs := ← number "recovery_interval_secs"
    workers := ← number "dispatcher_workers"
    queueCapacity := ← number "dispatcher_queue_capacity"
    window := ← number "subscriber_max_unacked" }

end FileSettings

namespace FileFormat

def parts : List Char → List (List Char)
  | [] => [[]]
  | '/' :: rest => [] :: parts rest
  | c :: rest =>
      match parts rest with
      | part :: more => (c :: part) :: more
      | [] => [[c]]

/-- The last part of a path. Empty parts and single dots at its end do not count. -/
def fileName? (path : List Char) : Option (List Char) :=
  match ((parts path).filter fun part => part ≠ [] ∧ part ≠ ['.']).getLast? with
  | some ['.', '.'] | none => none
  | some name => some name

def suffix? (path : List Char) : Option (List Char) := do
  let name ← fileName? path
  let reversed := name.reverse.takeWhile (· ≠ '.')
  guard (reversed.length + 1 < name.length)
  return reversed.reverse

def ofPath (path : String) : FileFormat :=
  match suffix? path.toList with
  | some l => if l.map Text.lowerAscii ∈ ["yaml".toList, "yml".toList] then .yaml else .toml
  | none => .toml

def named? : Yaml.Collection → Option (List (String × Yaml.Scalar))
  | .mapping entries => some entries
  | .sequence items =>
      if items.length = FileSettings.names.length then some (FileSettings.names.zip items) else none

def entries? (text : List Char) : FileFormat → Option (List (String × FileEntry))
  | .toml => do return (← Toml.read text).map fun e => (e.1, .ofDocument e.2)
  | .yaml => do return (← named? (← Yaml.read text)).map fun e => (e.1, .ofScalar e.2)

def read (format : FileFormat) (text : List Char) : Except SettingsError FileSettings :=
  match (format.entries? text).bind FileSettings.ofEntries? with
  | some settings => .ok settings
  | none => .error (.malformed format)

end FileFormat

namespace Settings

abbrev Files := String → Option ByteArray

def fromFiles (files : Files) (path : String) : Except SettingsError FileSettings :=
  match (files path).bind String.fromUTF8? with
  | some text => (FileFormat.ofPath path).read text.toList
  | none => .error .unreadable

end Settings

end Courier
