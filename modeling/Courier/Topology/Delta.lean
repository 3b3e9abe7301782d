import Courier.Topology.Record

namespace Courier

structure Delta (α : Type) where
  toAdd : List α
  toRemove : List α
  deriving DecidableEq

namespace Delta

variable {α κ : Type} [NaturalKey α κ] [DecidableEq κ]

def isEmpty (d : Delta α) : Bool := d.toAdd.isEmpty && d.toRemove.isEmpty

def missingFrom (l other : List α) : List α :=
  l.filter fun x => NaturalKey.key x ∉ other.map NaturalKey.key

def between (persisted live : List α) : Delta α :=
  ⟨missingFrom persisted live, missingFrom live persisted⟩

theorem mem_missingFrom {l other : List α} {x : α} :
    x ∈ missingFrom l other ↔
      x ∈ l ∧ ∀ y ∈ other, NaturalKey.key y ≠ (NaturalKey.key x : κ) := by
  simp [missingFrom]

end Delta

end Courier
