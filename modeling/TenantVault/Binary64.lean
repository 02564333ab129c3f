import TenantVault.Power

/-! # IEEE 754 double precision numbers

A double is kept as its 64 bits. A finite one is exactly `± significand · 2 ^ scale`, so truncation and
comparison are integer arithmetic. `nearest` rounds a fraction to the closest double, ties going to the
even significand; the narrower formats are read through it without loss.
-/

namespace TenantVault

structure Binary64 where
  bits : UInt64
  deriving DecidableEq, Repr, Inhabited

namespace Binary64

def isNegative (x : Binary64) : Bool := x.bits.toNat / 2 ^ 63 = 1

def exponentField (x : Binary64) : Nat := x.bits.toNat / 2 ^ 52 % 2 ^ 11

def fractionField (x : Binary64) : Nat := x.bits.toNat % 2 ^ 52

def isFinite (x : Binary64) : Bool := x.exponentField != 2047

def isNaN (x : Binary64) : Bool := x.exponentField == 2047 && x.fractionField != 0

def isInfinite (x : Binary64) : Bool := x.exponentField == 2047 && x.fractionField == 0

def significand (x : Binary64) : Nat :=
  if x.exponentField = 0 then x.fractionField else 2 ^ 52 + x.fractionField

def scale (x : Binary64) : Int :=
  if x.exponentField = 0 then -1074 else (x.exponentField : Int) - 1075

/-- The absolute value of a finite double as a fraction. -/
def magnitude (x : Binary64) : Nat × Nat :=
  if 0 ≤ x.scale then (x.significand * 2 ^ x.scale.toNat, 1)
  else (x.significand, 2 ^ (-x.scale).toNat)

/-- A finite double as a numerator and a positive denominator. -/
def ratio (x : Binary64) : Int × Int :=
  let (num, den) := x.magnitude
  (if x.isNegative then -(num : Int) else num, den)

/-- The integer next to a finite double in the direction of zero. -/
def truncate (x : Binary64) : Int :=
  let size := x.magnitude.1 / x.magnitude.2
  if x.isNegative then -size else size

def isIntegral (x : Binary64) : Bool := x.isFinite && x.magnitude.1 % x.magnitude.2 == 0

def signed (negative : Bool) (size : Nat) : Binary64 :=
  ⟨UInt64.ofNat (if negative then 2 ^ 63 + size else size)⟩

def infinity (negative : Bool) : Binary64 := signed negative (2047 * 2 ^ 52)

def notANumber : Binary64 := signed false (2047 * 2 ^ 52 + 2 ^ 51)

/-- The exponent of the leading binary digit of a positive fraction. -/
def leadingExponent (num den : Nat) : Int :=
  let guess : Int := (num.log2 : Int) - den.log2
  let reaches := if 0 ≤ guess then den * 2 ^ guess.toNat ≤ num else den ≤ num * 2 ^ (-guess).toNat
  if reaches then guess else guess - 1

/-- A quotient rounded to the nearest integer, a half going to the even neighbour. -/
def divideToEven (num den : Nat) : Nat :=
  let q := num / den
  let twice := 2 * (num % den)
  if den < twice ∨ (twice = den ∧ q % 2 = 1) then q + 1 else q

/-- The double nearest to a fraction of positive denominator. -/
def nearest (negative : Bool) (num den : Nat) : Binary64 :=
  if num = 0 then signed negative 0
  else
    let scale : Int := max (leadingExponent num den - 52) (-1074)
    let digits := if 0 ≤ scale then divideToEven num (den * 2 ^ scale.toNat)
      else divideToEven (num * 2 ^ (-scale).toNat) den
    let size := digits + (scale + 1074).toNat * 2 ^ 52
    if 2047 * 2 ^ 52 ≤ size then infinity negative else signed negative size

def ofInt (n : Int) : Binary64 := nearest (n < 0) n.natAbs 1

/-- The double nearest to the sum of two finite doubles; a sum of zero is positive. -/
def add (x y : Binary64) : Binary64 :=
  let (a, b) := x.ratio
  let (c, d) := y.ratio
  let sum := a * d + c * b
  nearest (sum < 0) sum.natAbs (b * d).toNat

/-- A number of the form `± coefficient · 10 ^ exponent`. Beyond the range of a double the answer is
zero or infinity, which is decided before a power of ten is formed. -/
def ofDecimal (negative : Bool) (coefficient : Nat) (exponent : Int) : Binary64 :=
  if coefficient = 0 then signed negative 0
  else
    let digits : Int := coefficient.log2
    if exponent < -400 - digits then signed negative 0
    else if 400 < exponent then infinity negative
    else if 0 ≤ exponent then nearest negative (coefficient * 10 ^ exponent.toNat) 1
    else nearest negative coefficient (10 ^ (-exponent).toNat)

/-- A narrower binary format with the given field widths. -/
def ofNarrow (exponentBits fractionBits n : Nat) : Binary64 :=
  let negative := n / 2 ^ (exponentBits + fractionBits) % 2 = 1
  let exponent := n / 2 ^ fractionBits % 2 ^ exponentBits
  let fraction := n % 2 ^ fractionBits
  let bias := 2 ^ (exponentBits - 1) - 1
  if exponent = 2 ^ exponentBits - 1 then (if fraction = 0 then infinity negative else notANumber)
  else if exponent = 0 then nearest negative fraction (2 ^ (bias + fractionBits - 1))
  else nearest negative ((2 ^ fractionBits + fraction) * 2 ^ exponent) (2 ^ (bias + fractionBits))

def ofHalf (n : Nat) : Binary64 := ofNarrow 5 10 n

def ofSingle (n : Nat) : Binary64 := ofNarrow 8 23 n

def toBytes (x : Binary64) : List UInt8 :=
  (List.range 8).map fun i => UInt8.ofNat (x.bits.toNat / 2 ^ (8 * (7 - i)))

end Binary64

end TenantVault
