import TenantVault.Binary64

/-! # Exact rational values

`Number` is a decimal number with a written exponent, so that `1.0` and `1.00` differ as decimals and agree
in value. `Exact` is the value of any finite number in a normal form in which powers of two and of five
are kept apart; two numbers are equal in value exactly if their normal forms are equal, and no large
power is ever formed.
-/

namespace TenantVault.Decimal

/-- `± coefficient · 10 ^ exponent`. -/
structure Number where
  negative : Bool
  coefficient : Nat
  exponent : Int
  deriving DecidableEq, Repr

/-- `± top / bottom · 2 ^ twos · 5 ^ fives`. In a normal form `top` and `bottom` have no common divisor and
neither is a multiple of two or five; zero has the top zero. -/
structure Exact where
  negative : Bool
  top : Nat
  bottom : Nat
  twos : Int
  fives : Int
  deriving DecidableEq, Repr

/-- The number of times that `p` divides a number, and what is left. -/
def strip (p n : Nat) : Nat × Nat :=
  if _ : 2 ≤ p ∧ 0 < n ∧ n % p = 0 then
    let (count, rest) := strip p (n / p)
    (count + 1, rest)
  else (0, n)
termination_by n
decreasing_by exact Nat.div_lt_self (by omega) (by omega)

def Exact.zero : Exact := ⟨false, 0, 1, 0, 0⟩

/-- The normal form of `± num / den · 2 ^ twos · 10 ^ tens`. -/
def Exact.normal (negative : Bool) (num den : Nat) (twos tens : Int) : Exact :=
  if num = 0 then zero
  else
    let common := Nat.gcd num den
    let (numTwos, num) := strip 2 (num / common)
    let (numFives, num) := strip 5 num
    let (denTwos, den) := strip 2 (den / common)
    let (denFives, den) := strip 5 den
    ⟨negative, num, den, twos + tens + numTwos - denTwos, tens + numFives - denFives⟩

def Exact.ofInt (n : Int) : Exact := normal (n < 0) n.natAbs 1 0 0

def Exact.ofFraction (num : Int) (den : Nat) : Exact := normal (num < 0) num.natAbs den 0 0

def Exact.ofNumber (d : Number) : Exact := normal d.negative d.coefficient 1 0 d.exponent

/-- The value of a finite double. -/
def Exact.ofFloat (x : Binary64) : Exact := normal x.isNegative x.significand 1 x.scale 0

/-- The least number from `count` on of decimal digits that `n` fits into. -/
def countFrom (n count : Nat) : Nat := if n < 10 ^ count then count else countFrom n (count + 1)
termination_by n - count
decreasing_by
  have := @Nat.lt_pow_self count 10 (by decide)
  omega

/-- The number of decimal digits, at least one. The search begins at a bound from below by the binary
digits, with `0.30102999566` a little less than the decimal logarithm of two. -/
def digitCount (n : Nat) : Nat := countFrom n (n.log2 * 30102999566 / 100000000000 + 1)

namespace Number

/-- The exponent of the leading digit. -/
def leading (d : Number) : Int := d.exponent + digitCount d.coefficient - 1

/-- The digits kept by `round?`, and the range of the exponent of the leading one. -/
def precision : Nat := 28

def maxLeading : Int := 999999

def minExponent : Int := -999999 - 27

/-- The number rounded to the precision, a half going to the even neighbour; none if it is too large. -/
def round? (d : Number) : Option Number :=
  let digits : Int := digitCount d.coefficient
  let place := max (d.exponent + digits - precision) minExponent
  let rounded := if place ≤ d.exponent then d
    else { d with
      coefficient := Binary64.divideToEven d.coefficient (10 ^ (place - d.exponent).toNat)
      exponent := place }
  let rounded := if digitCount rounded.coefficient ≤ precision then rounded
    else { rounded with coefficient := rounded.coefficient / 10, exponent := rounded.exponent + 1 }
  if rounded.coefficient ≠ 0 ∧ maxLeading < rounded.leading then none else some rounded

/-- The value as a numerator and a denominator. -/
def ratio (d : Number) : Int × Int :=
  let size : Nat := d.coefficient * 10 ^ d.exponent.toNat
  (if d.negative then -(size : Int) else size, (10 ^ (-d.exponent).toNat : Nat))

/-- `2 ^ exponent` to the precision. -/
def powerOfTwo? (exponent : Int) : Option Number :=
  if 3321929 < exponent then none
  else if exponent < -3400000 then some ⟨false, 0, minExponent⟩
  else if 0 ≤ exponent then round? ⟨false, 2 ^ exponent.toNat, 0⟩
  else round? ⟨false, 5 ^ (-exponent).toNat, exponent⟩

def ofInt (n : Int) : Number := ⟨n < 0, n.natAbs, 0⟩

/-- `significand · 2 ^ exponent` to the precision. -/
def ofBinary? (significand exponent : Int) : Option Number := do
  let power ← powerOfTwo? exponent
  round? ⟨significand < 0, significand.natAbs * power.coefficient, power.exponent⟩

/-- The largest exponent of a leading digit, and the smallest exponent, of a decimal that is written out. -/
def writtenLimit : Int := 999999999999999999

/-- `significand · 10 ^ exponent` as written. -/
def ofDecimal? (significand exponent : Int) : Option Number :=
  let d : Number := ⟨significand < 0, significand.natAbs, exponent⟩
  if writtenLimit < d.leading ∨ exponent < -(2 * writtenLimit - 1) then none else some d

/-- Positional unless the exponent is positive or more than six zeros would follow the point. -/
def chars (d : Number) : List Char :=
  let sign := if d.negative then ['-'] else []
  let digits := Nat.toDigits 10 d.coefficient
  let point : Int := d.exponent + digits.length
  if d.exponent ≤ 0 ∧ -6 < point then
    if d.exponent = 0 then sign ++ digits
    else if point ≤ 0 then sign ++ '0' :: '.' :: List.replicate (-point).toNat '0' ++ digits
    else sign ++ digits.take point.toNat ++ '.' :: digits.drop point.toNat
  else
    let body := match digits with
      | d :: e :: rest => d :: '.' :: e :: rest
      | other => other
    let shown := point - 1
    sign ++ body ++ 'E' :: (if shown < 0 then '-' else '+') :: Nat.toDigits 10 shown.natAbs

end Number

end TenantVault.Decimal
