import TenantVault.Curve.Modular

/-! # The field of `2 ^ 255 - 19` elements

Elements are the numbers below the prime. Two curves stand over this field, and a secret scalar of either
is clamped: a multiple of 8 whose highest bit is bit 254.
-/

namespace TenantVault.Field25519

def prime : Nat := 2 ^ 255 - 19

def mul (a b : Nat) : Nat := a * b % prime

def add (a b : Nat) : Nat := (a + b) % prime

def sub (a b : Nat) : Nat := Modular.sub prime a b

def inverse (a : Nat) : Nat := Modular.inverse prime a

def clamp (n : Nat) : Nat := n % 2 ^ 254 / 8 * 8 + 2 ^ 254

theorem clamp_mod (n : Nat) : clamp n % 8 = 0 := by
  simp only [clamp]; omega

theorem le_clamp (n : Nat) : 2 ^ 254 ≤ clamp n := by
  simp only [clamp]; omega

theorem clamp_lt (n : Nat) : clamp n < 2 ^ 255 := by
  simp only [clamp]; omega

end TenantVault.Field25519
