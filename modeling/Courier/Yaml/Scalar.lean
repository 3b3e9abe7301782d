import Courier.Text.Number

namespace Courier.Yaml

inductive Style where
  | plain
  | quoted
  | literal
  | folded
  deriving DecidableEq

/-- A tag by its octets, which need not make up a text. -/
structure Tag where
  octets : List UInt8
  deriving DecidableEq

namespace Tag

def ofString (s : String) : Tag := ⟨s.toUTF8.data.toList⟩

def sign : Tag := ofString "!"

def null : Tag := ofString "tag:yaml.org,2002:null"

def integer : Tag := ofString "tag:yaml.org,2002:int"

/-- The name in a tag of the document's own: what follows the sign, or the sign if nothing does. -/
def localName? (t : Tag) : Option String :=
  match t.octets with
  | [] => none
  | sign :: name =>
      if sign ≠ '!'.toUInt8 then none
      else if name.isEmpty then some "!"
      else String.fromUTF8? ⟨name.toArray⟩

end Tag

structure Scalar where
  style : Style
  tag : Option Tag
  text : String
  deriving DecidableEq

namespace Scalar

def isNullWord (s : String) : Bool := s ∈ ["null", "Null", "NULL", "~"]

def claimsNull (s : Scalar) : Bool := s.style = .plain && s.tag = some .null

def isNull (s : Scalar) : Bool :=
  match s.tag with
  | none => s.style = .plain && (s.text = "" || isNullWord s.text)
  | some _ => s.claimsNull && isNullWord s.text

def based? : List Char → Option Nat
  | '0' :: 'x' :: rest => Text.natural? 16 rest
  | '0' :: 'o' :: rest => Text.natural? 8 rest
  | '0' :: 'b' :: rest => Text.natural? 2 rest
  | _ => none

/-- A number of several digits that starts with a zero is a text. -/
def decimal? : List Char → Option Nat
  | '0' :: _ :: _ => none
  | l => Text.natural? 10 l

def unsigned? (l : List Char) : Option UInt64 := do
  let digits := match l with
    | '+' :: rest => rest
    | l => l
  Text.word? (← (based? digits).or (decimal? digits))

def number? (s : Scalar) : Option UInt64 :=
  if s.claimsNull then none
  else if s.style = .plain ∨ (s.style = .literal ∧ s.tag = some .integer) then
    unsigned? s.text.toList
  else none

def choice? (s : Scalar) : Option String :=
  if s.claimsNull then none
  else
    match s.tag.bind Tag.localName? with
    | some name => if isNull { s with tag := none } then some name else none
    | none => some s.text

end Scalar

end Courier.Yaml
