import TenantVault.Power

/-! # Arithmetic modulo a number

Powers by repeated squaring, the inverse in a field of prime order as a power, and square roots modulo an
odd prime.
-/

namespace TenantVault.Modular

def pow (m b e : Nat) : Nat :=
  if _ : e = 0 then 1 % m
  else
    let half := pow m (b * b % m) (e / 2)
    if e % 2 = 1 then half * b % m else half
termination_by e
decreasing_by omega

theorem pow_eq (m b e : Nat) : pow m b e = b ^ e % m := by
  induction e using Nat.strongRecOn generalizing b with
  | ind e ih =>
    rw [pow]
    split
    · next h => simp [h]
    · next h =>
      have square : pow m (b * b % m) (e / 2) = b ^ (2 * (e / 2)) % m := by
        rw [ih (e / 2) (by omega), ← Nat.pow_mod, ← Nat.pow_two, ← Nat.pow_mul]
      simp only [square]
      split
      · next odd =>
        rw [Nat.mod_mul_mod, ← Nat.pow_succ, show (2 * (e / 2)).succ = e by omega]
      · next even =>
        rw [show 2 * (e / 2) = e by omega]

/-- The inverse of a number modulo a prime; zero for a multiple of the prime. -/
def inverse (p a : Nat) : Nat := pow p a (p - 2)

/-- The number of times that an even number can be halved, and what is left. -/
def halvings (n : Nat) : Nat × Nat :=
  if _ : 0 < n ∧ n % 2 = 0 then
    let (count, rest) := halvings (n / 2)
    (count + 1, rest)
  else (0, n)
termination_by n
decreasing_by omega

/-- The least number from `start` on that has no square root. -/
def nonResidue (p : Nat) : Nat → Nat → Nat
  | 0, start => start
  | fuel + 1, start => if pow p start ((p - 1) / 2) = p - 1 then start else nonResidue p fuel (start + 1)

/-- The number of squarings, at most `fuel`, that lead from `t` to one. -/
def squarings (p : Nat) : Nat → Nat → Nat
  | 0, _ => 0
  | fuel + 1, t => if t = 1 then 0 else squarings p fuel (t * t % p) + 1

/-- Corrects a root `r` whose square is off by the factor `t`, with `c` of order `2 ^ bound`. -/
def correctRoot (p : Nat) : Nat → Nat → Nat → Nat → Nat → Nat
  | 0, _, _, _, r => r
  | fuel + 1, bound, c, t, r =>
    let count := squarings p bound t
    if count = 0 ∨ bound ≤ count then r
    else
      let b := pow p c (2 ^ (bound - count - 1))
      correctRoot p fuel count (b * b % p) (t * (b * b % p) % p) (r * b % p)

/-- A square root modulo an odd prime of a number that has one. -/
def sqrt (p a : Nat) : Nat :=
  let (count, odd) := halvings (p - 1)
  let c := pow p (nonResidue p 1000 2) odd
  correctRoot p count count c (pow p a odd) (pow p a ((odd + 1) / 2))

def sub (p a b : Nat) : Nat := (a + (p - b % p)) % p

end TenantVault.Modular
