import SipTestbed.Text.Hex

/-! Random values in their written form. -/
namespace SipTestbed

/-- A value of `n` lower-case hexadecimal digits. -/
structure Token (n : Nat) where
  digits : Text
  length_eq : digits.length = n
  isHex : digits.all Hex.isLowerDigit = true

namespace Token

theorem isLowerDigit_of_mem {n : Nat} {t : Token n} {c : Char} (h : c ∈ t.digits) :
    Hex.isLowerDigit c = true := List.all_eq_true.1 t.isHex c h

theorem not_mem_digits {n : Nat} {c : Char} (hc : Hex.isLowerDigit c = false) (t : Token n) :
    c ∉ t.digits := by
  intro hm
  rw [isLowerDigit_of_mem hm] at hc
  cases hc

def zero (n : Nat) : Token n :=
  ⟨List.replicate n '0', List.length_replicate, by simp [List.all_replicate, Hex.isLowerDigit]⟩

def lastDigits : Nat → Nat → Text
  | 0, _ => []
  | n + 1, k => lastDigits n (k / 16) ++ [Nat.digitChar (k % 16)]

theorem length_lastDigits (n k : Nat) : (lastDigits n k).length = n := by
  induction n generalizing k with
  | zero => rfl
  | succ n ih => simp [lastDigits, ih]

theorem all_lastDigits (n k : Nat) : (lastDigits n k).all Hex.isLowerDigit = true := by
  induction n generalizing k with
  | zero => rfl
  | succ n ih => simp [lastDigits, ih, Hex.isLowerDigit_digitChar (Nat.mod_lt k (by decide))]

def ofNat (n k : Nat) : Token n := ⟨lastDigits n k, length_lastDigits n k, all_lastDigits n k⟩

end Token

structure Fresh where
  tag : Token 16
  nonce : Token 32
  echo : Token 32

def Fresh.zero : Fresh := ⟨.zero 16, .zero 32, .zero 32⟩

end SipTestbed
