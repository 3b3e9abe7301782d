import Courier.Text.Code
import Courier.Yaml.Written

namespace Courier.Yaml

def anchorName : Reader String := do
  pass
  let name ← takeWhile isNameChar
  let r ← get
  guard (!name.isEmpty && (r.gapAhead 0 || r.next?.any "?:,]\x7d%@\x60".toList.contains))
  modify fun r => { r with fresh := false }
  return String.ofList name

def isTagChar (c : Char) : Bool := isNameChar c || ";/?:@&=+$.!~*'()".toList.contains c

def octet : Reader UInt8 := do
  guard ((← get).starts '%')
  pass
  let digits := (← get).rest.take 2
  guard (digits.length = 2)
  modify fun r => r.steps 2
  return .ofNat (← Text.natural? 16 digits)

def width? (first : UInt8) : Option Nat :=
  if first < 0x80 then some 1
  else if 0xC0 ≤ first ∧ first < 0xE0 then some 2
  else if 0xE0 ≤ first ∧ first < 0xF0 then some 3
  else if 0xF0 ≤ first ∧ first < 0xF8 then some 4
  else none

def trailingOctets : Nat → Reader (List UInt8)
  | 0 => return []
  | n + 1 => do
      let next ← octet
      guard (0x80 ≤ next ∧ next < 0xC0)
      return next :: (← trailingOctets n)

/-- As many octets as the first announces. Whether they make up a character is not looked at. -/
def octets : Reader (List UInt8) := do
  let first ← octet
  return first :: (← trailingOctets ((← width? first) - 1))

def tagText (allowed : Char → Bool) : Nat → Reader (List UInt8)
  | 0 => failure
  | n + 1 => do
      let r ← get
      match r.next? with
      | some '%' => return (← octets) ++ (← tagText allowed n)
      | some c =>
          if allowed c then
            pass
            return c.toUInt8 :: (← tagText allowed n)
          else return []
      | none => return []

def untilZero (l : List UInt8) : List UInt8 := l.takeWhile (· ≠ 0)

def isVerbatimChar (c : Char) : Bool := isTagChar c || ",[]".toList.contains c

def handle : Reader (List Char) := do
  guard ((← get).starts '!')
  pass
  let name ← takeWhile isNameChar
  if (← get).starts '!' then
    pass
    return '!' :: (name ++ ['!'])
  else return '!' :: name

def resolve (handle : String) : Reader (List UInt8) := do
  let own := (← get).handles.lookup handle
  let known := [("!", Tag.sign), ("!!", Tag.ofString "tag:yaml.org,2002:")].lookup handle
  (own.or (known.map Tag.octets) : Option (List UInt8))

/-- The tag in full. A sign alone stands for itself, whatever its handle stands for. -/
def tag : Reader Tag := do
  let r ← get
  let fuel := r.rest.length + 1
  let full ← if r.rest[1]? = some '<' then do
      set (r.steps 2)
      let text ← tagText isVerbatimChar fuel
      guard (!text.isEmpty && (← get).starts '>')
      pass
      pure (untilZero text)
    else do
      let h ← handle
      let text ← tagText isTagChar fuel
      if h.length > 1 ∧ h.getLast? = some '!' then
        guard !text.isEmpty
        pure ((← resolve (String.ofList h)) ++ untilZero text)
      else
        let name := untilZero (h.tail.map Char.toUInt8 ++ text)
        if name.isEmpty then pure Tag.sign.octets else pure ((← resolve "!") ++ name)
  let r ← get
  guard (r.gapAhead 0 || (r.flow && r.starts ','))
  set { r with fresh := false }
  return ⟨full⟩

structure Properties where
  anchor : Option String := none
  tag : Option Tag := none

namespace Properties

def extend (p : Properties) : Reader Properties := do
  let r ← get
  if r.starts '&' && p.anchor.isNone then return { p with anchor := ← anchorName }
  else if r.starts '!' && p.tag.isNone then return { p with tag := ← Yaml.tag }
  else failure

end Properties

def versionPart : Reader Nat := do
  let digits ← takeWhile fun c => (Text.digit? 10 c).isSome
  guard (digits.length < 10)
  Text.natural? 10 digits

def version : Reader Unit := do
  let major ← versionPart
  guard ((← get).starts '.')
  pass
  let minor ← versionPart
  guard (major = 1 ∧ (minor = 1 ∨ minor = 2))

def handleDefinition : Reader Unit := do
  let h ← handle
  guard (h = ['!'] ∨ (h.length > 1 ∧ h.getLast? = some '!'))
  guard ((← get).next?.any isSpace)
  let _ ← takeWhile isSpace
  let text ← tagText isVerbatimChar ((← get).rest.length + 1)
  guard !text.isEmpty
  let r ← get
  guard (r.gapAhead 0)
  guard (r.handles.lookup (String.ofList h)).isNone
  set { r with handles := (String.ofList h, untilZero text) :: r.handles }

def directive : Reader Bool := do
  pass
  let name ← takeWhile isNameChar
  guard ((← get).gapAhead 0)
  let _ ← takeWhile isSpace
  let versioned ←
    if name = "YAML".toList then do version; pure true
    else if name = "TAG".toList then do handleDefinition; pure false
    else failure
  endLine
  modify fun r => { r with fresh := false }
  return versioned

/-- The directives before a document, and the marker that has to follow them. Tells whether there is
such a marker. -/
def directives : Nat → Bool → Bool → Reader Bool
  | 0, _, _ => failure
  | n + 1, any, versioned => do
      skip
      let r ← get
      if r.column = 0 && r.starts '%' then
        let v ← directive
        guard !(v && versioned)
        directives n true (v || versioned)
      else if r.atMarker '-' then
        set { r.steps 3 with fresh := false }
        return true
      else
        guard !any
        return false

end Courier.Yaml
