import Courier.Strategy
import Courier.Text.Blank
import Courier.Text.Number

namespace Courier

structure Settings where
  maxUndelivered : UInt64
  topics : TopicStrategy
  expirySecs : UInt64
  recoverySecs : UInt64
  workers : UInt64
  queueCapacity : UInt64
  window : UInt64
  deriving DecidableEq

namespace Settings

def standard : Settings := ⟨5000, .discardNone, 900, 60, 4, 4096, 100⟩

instance : Inhabited Settings := ⟨standard⟩

end Settings

structure FileSettings where
  maxUndelivered : Option UInt64
  topics : Option TopicStrategy
  expirySecs : Option UInt64
  recoverySecs : Option UInt64
  workers : Option UInt64
  queueCapacity : Option UInt64
  window : Option UInt64
  deriving DecidableEq

namespace FileSettings

def empty : FileSettings := ⟨none, none, none, none, none, none, none⟩

instance : Inhabited FileSettings := ⟨empty⟩

end FileSettings

inductive FileFormat where
  | toml
  | yaml
  deriving DecidableEq

inductive SettingsError where
  | unreadable
  | malformed (format : FileFormat)
  | number (name : String) (cause : Text.NumberError)
  /-- The text as it was looked up: trimmed and in lower case. -/
  | strategy (text : String)
  | zero (setting : String)
  deriving DecidableEq

namespace SettingsError

def message? : SettingsError → Option String
  | unreadable | malformed _ => none
  | number name cause => some ("config parse error: " ++ name ++ ": " ++ cause.message)
  | strategy text => some ("config parse error: unknown topic delivery strategy '" ++ text ++ "'")
  | zero setting => some ("config parse error: " ++ setting ++ " must be greater than zero")

def kind : SettingsError → String
  | unreadable => "Io"
  | malformed .toml => "Toml"
  | malformed .yaml => "Yaml"
  | _ => "Parse"

end SettingsError

def TopicStrategy.read (s : String) : Except SettingsError TopicStrategy :=
  let text := String.ofList ((Text.trim s.toList).map Text.lowerAscii)
  match ofName? text with
  | some t => .ok t
  | none => .error (.strategy text)

end Courier
