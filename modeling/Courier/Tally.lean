namespace Courier

/-- A 64-bit counter: raising it wraps around, lowering it stops at zero. -/
structure Tally where
  value : UInt64
  deriving DecidableEq

namespace Tally

instance : Inhabited Tally := ⟨⟨0⟩⟩

def zero : Tally := ⟨0⟩

def raise (t : Tally) (n : UInt64) : Tally := ⟨t.value + n⟩

def lower (t : Tally) : Tally := if t.value = 0 then t else ⟨t.value - 1⟩

def toNat (t : Tally) : Nat := t.value.toNat

theorem toNat_raise (t : Tally) (n : UInt64) (h : t.toNat + n.toNat < UInt64.size) :
    (t.raise n).toNat = t.toNat + n.toNat := by
  simp only [toNat, raise, UInt64.toNat_add] at h ⊢
  exact Nat.mod_eq_of_lt h

theorem toNat_lower (t : Tally) : t.lower.toNat = t.toNat - 1 := by
  unfold lower toNat
  split
  · next h => simp [h]
  · next h =>
      have hp : t.value.toNat ≠ 0 := fun hz => h (UInt64.toNat_inj.1 hz)
      have hle : (1 : UInt64) ≤ t.value := UInt64.le_iff_toNat_le.2 (Nat.one_le_iff_ne_zero.2 hp)
      exact UInt64.toNat_sub_of_le _ _ hle

end Tally

end Courier
