import TenantVault.Bytes
import TenantVault.Curve.Field25519

/-! # X25519

Diffie-Hellman on the Montgomery curve over the field of `2 ^ 255 - 19` elements. Scalars are clamped and
the top bit of a public key is ignored. A shared secret of zeros comes from a point of low order.
-/

namespace TenantVault.X25519

open Field25519

def keyLength : Nat := 32

/-- The two points of the ladder in projective form. -/
structure Ladder where
  x2 : Nat
  z2 : Nat
  x3 : Nat
  z3 : Nat

def Ladder.swap (s : Ladder) (flip : Bool) : Ladder :=
  if flip then ⟨s.x3, s.z3, s.x2, s.z2⟩ else s

def Ladder.step (u : Nat) (s : Ladder) : Ladder :=
  let a := add s.x2 s.z2
  let aa := mul a a
  let b := sub s.x2 s.z2
  let bb := mul b b
  let e := sub aa bb
  let da := mul (sub s.x3 s.z3) a
  let cb := mul (add s.x3 s.z3) b
  { x3 := mul (add da cb) (add da cb)
    z3 := mul u (mul (sub da cb) (sub da cb))
    x2 := mul aa bb
    z2 := mul e (add aa (mul 121665 e)) }

def ladder (scalar u : Nat) : Nat → Ladder → Ladder
  | 0, s => s
  | bit + 1, s =>
    let flip := scalar.testBit bit
    ladder scalar u bit (((s.swap flip).step u).swap flip)

def multiply (scalar point : Bytes) : Bytes :=
  let u := Bytes.toNatLE point % 2 ^ 255 % prime
  let s := ladder (clamp (Bytes.toNatLE scalar)) u 255 ⟨1, 0, u, 1⟩
  Bytes.ofNatLE keyLength (mul s.x2 (inverse s.z2))

@[simp] theorem length_multiply (scalar point : Bytes) : (multiply scalar point).length = keyLength :=
  Bytes.length_ofNatLE _ _

def basePoint : Bytes := 9 :: List.replicate 31 0

def publicKey (scalar : Bytes) : Bytes := multiply scalar basePoint

/-- The shared secret, unless the other side's point has low order. -/
def exchange? (scalar point : Bytes) : Option Bytes :=
  let shared := multiply scalar point
  if shared.all (· = 0) then none else some shared

end TenantVault.X25519
