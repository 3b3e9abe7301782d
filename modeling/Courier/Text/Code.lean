import Courier.Text.Number

namespace Courier.Text

/-- A surrogate is no character. -/
def character? (code : Nat) : Option Char :=
  if code < 0xD800 ∨ (0xE000 ≤ code ∧ code ≤ 0x10FFFF) then some (Char.ofNat code) else none

def coded (width : Nat) (l : List Char) : Option (Char × List Char) := do
  let digits := l.take width
  guard (digits.length = width)
  return (← character? (← natural? 16 digits), l.drop width)

end Courier.Text
