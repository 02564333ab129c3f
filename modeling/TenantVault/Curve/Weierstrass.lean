import TenantVault.Bytes
import TenantVault.Curve.Modular
import TenantVault.Hash.Sha256

/-! # Prime curves in short Weierstrass form

Points in affine form, the encodings of points, and verification of ECDSA with SHA-256 where a curve has a
generator.
-/

namespace TenantVault.Weierstrass

structure Curve where
  prime : Nat
  a : Nat
  b : Nat
  /-- Octets of a coordinate. -/
  fieldLength : Nat

/-- A curve with a generator of the given order. -/
structure Group extends Curve where
  generatorX : Nat
  generatorY : Nat
  order : Nat

/-- An affine point; the neutral element has none. -/
abbrev Point := Option (Nat × Nat)

namespace Curve

variable (c : Curve)

def mul (x y : Nat) : Nat := x * y % c.prime

def sub (x y : Nat) : Nat := Modular.sub c.prime x y

def rightHandSide (x : Nat) : Nat := (x * x * x + c.a * x + c.b) % c.prime

def contains (x y : Nat) : Bool := x < c.prime && y < c.prime && c.mul y y == c.rightHandSide x

/-- The third point on the line of the given slope, reflected in the axis. -/
def chord (slope x1 y1 x2 : Nat) : Point :=
  let x := c.sub (c.sub (c.mul slope slope) x1) x2
  some (x, c.sub (c.mul slope (c.sub x1 x)) y1)

def add : Point → Point → Point
  | none, q => q
  | p, none => p
  | some (x1, y1), some (x2, y2) =>
    if x1 = x2 then
      if (y1 + y2) % c.prime = 0 then none
      else
        let slope := c.mul (3 * x1 * x1 + c.a) (Modular.inverse c.prime (2 * y1))
        c.chord slope x1 y1 x2
    else
      let slope := c.mul (c.sub y2 y1) (Modular.inverse c.prime (c.sub x2 x1))
      c.chord slope x1 y1 x2

def multiplyFrom (p : Point) (n : Nat) : Nat → Point → Point
  | 0, acc => acc
  | bit + 1, acc =>
    let twice := c.add acc acc
    multiplyFrom p n bit (if n.testBit bit then c.add twice p else twice)

def multiply (p : Point) (n : Nat) : Point := c.multiplyFrom p n (n.log2 + 1) none

/-- The point with the given abscissa and parity of the ordinate. -/
def lift? (x : Nat) (odd : Bool) : Option (Nat × Nat) :=
  let root := Modular.sqrt c.prime (c.rightHandSide x)
  let y := if (root % 2 == 1) = odd then root else c.sub 0 root
  if c.contains x y then some (x, y) else none

/-- A point given by the abscissa behind `02` or `03`, or by both coordinates behind `04`, or behind `06` or
`07`. The last bit of the mark is the parity of the ordinate, except that `04` does not show it. -/
def decodePoint? : Bytes → Option (Nat × Nat)
  | [] => none
  | mark :: rest =>
    let x := Bytes.foldBE (rest.take c.fieldLength)
    let y := Bytes.foldBE (rest.drop c.fieldLength)
    let odd := mark.toNat % 2 == 1
    if mark = 0x02 ∨ mark = 0x03 then
      if rest.length = c.fieldLength then c.lift? x odd else none
    else if mark = 0x04 ∨ ((mark = 0x06 ∨ mark = 0x07) ∧ (y % 2 == 1) = odd) then
      if rest.length = 2 * c.fieldLength ∧ c.contains x y then some (x, y) else none
    else none

end Curve

/-- ECDSA over a 256-bit order with SHA-256. -/
def Group.verify (g : Group) (key : Nat × Nat) (message : Bytes) (r s : Nat) : Bool :=
  if 0 < r ∧ r < g.order ∧ 0 < s ∧ s < g.order then
    let digest := Bytes.foldBE (Sha256.sha256 message)
    let inverse := Modular.inverse g.order s
    let u1 := digest * inverse % g.order
    let u2 := r * inverse % g.order
    match g.add (g.multiply (some (g.generatorX, g.generatorY)) u1) (g.multiply (some key) u2) with
    | some (x, _) => x % g.order == r
    | none => false
  else false

end TenantVault.Weierstrass
