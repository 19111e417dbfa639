import SipTestbed.Text.Basic

/-! Hexadecimal digits. -/
namespace SipTestbed.Hex

def value? (c : Char) : Option Nat :=
  if c.isDigit then some (c.toNat - '0'.toNat)
  else if 'a' ≤ c && c ≤ 'f' then some (c.toNat - 'a'.toNat + 10)
  else if 'A' ≤ c && c ≤ 'F' then some (c.toNat - 'A'.toNat + 10)
  else none

def isLowerDigit (c : Char) : Bool := c.isDigit || ('a' ≤ c && c ≤ 'f')

theorem isLowerDigit_digitChar {d : Nat} (h : d < 16) : isLowerDigit (Nat.digitChar d) = true := by
  have all : ∀ d : Fin 16, isLowerDigit (Nat.digitChar d.val) = true := by decide
  exact all ⟨d, h⟩

theorem value?_digitChar {d : Nat} (h : d < 16) : value? (Nat.digitChar d) = some d := by
  have all : ∀ d : Fin 16, value? (Nat.digitChar d.val) = some d.val := by decide
  exact all ⟨d, h⟩

end SipTestbed.Hex
