import Courier.Dict
import Courier.Yaml.Scalar

namespace Courier.Yaml

inductive Node where
  | scalar (s : Scalar)
  | reference (number : Nat)

/-- Each definition is numbered by how many names there were before it. One that gives an old name
a new meaning has the number that the next new name will get: from then on both names, and the
references already made by that number, mean the later part. -/
structure Anchors where
  numbers : Dict String Nat
  /-- What the numbers stand for, the latest first. A collection is no scalar. -/
  parts : List (Nat × Option Scalar)

namespace Anchors

def empty : Anchors := ⟨.empty, []⟩

instance : Inhabited Anchors := ⟨empty⟩

def define (a : Anchors) (name : String) (part : Option Scalar) : Anchors :=
  ⟨a.numbers.insert name a.numbers.size, (a.numbers.size, part) :: a.parts⟩

def number? (a : Anchors) (name : String) : Option Nat := a.numbers.get? name

def resolve? (a : Anchors) : Node → Option Scalar
  | .scalar s => some s
  | .reference number => (a.parts.lookup number).join

end Anchors

end Courier.Yaml
