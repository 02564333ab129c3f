import TenantVault.Binary64

/-! # Shortest decimal text of a double

Among the decimals that round to a double, `digits?` chooses one with the fewest digits, of those the
nearest to the double, and on a tie the even one. Where positional notation ends and how an exponent is
spelled is a `Layout`.
-/

namespace TenantVault.Decimal

/-- A positive decimal `coefficient · 10 ^ exponent`. -/
structure Digits where
  coefficient : Nat
  exponent : Int
  deriving DecidableEq, Repr

/-- The exponent of the leading decimal digit of a positive fraction below one: the number of steps by
which it has to be shifted. -/
def leadingZeros (den : Nat) : Nat → Nat → Nat
  | 0, _ => 0
  | fuel + 1, num => if den ≤ num then 0 else leadingZeros den fuel (10 * num) + 1

def leadingExponent (num den : Nat) : Int :=
  if den ≤ num then ((Nat.toDigits 10 (num / den)).length : Int) - 1
  else -(leadingZeros den 400 num : Int)

/-- The interval of reals that round to `significand · 2 ^ scale`, all over one denominator: the lower
end, the number itself, the upper end and the denominator. Below a power of two the gap is half as wide. -/
def interval (significand : Nat) (scale : Int) : Nat × Nat × Nat × Nat :=
  let below := if significand = 2 ^ 52 ∧ -1074 < scale then 1 else 2
  let up := if 0 ≤ scale then 2 ^ scale.toNat else 1
  let den := if 0 ≤ scale then 4 else 4 * 2 ^ (-scale).toNat
  ((4 * significand - below) * up, 4 * significand * up, (4 * significand + 2) * up, den)

/-- The hit on the grid of `10 ^ place`, if one of the two grid neighbours of the number rounds to it. -/
def onGrid? (significand : Nat) (scale place : Int) : Option Digits :=
  let (low, mid, high, den) := interval significand scale
  let grow := if 0 ≤ place then 1 else 10 ^ (-place).toNat
  let step := if 0 ≤ place then den * 10 ^ place.toNat else den
  let floor := mid * grow / step
  let within (d : Nat) : Bool :=
    if significand % 2 = 0 then low * grow ≤ d * step && d * step ≤ high * grow
    else low * grow < d * step && d * step < high * grow
  let lowGap := mid * grow - floor * step
  let highGap := (floor + 1) * step - mid * grow
  let preferUpper := highGap < lowGap || (highGap == lowGap && floor % 2 == 1)
  if within floor && floor != 0 then
    if within (floor + 1) && preferUpper then some ⟨floor + 1, place⟩ else some ⟨floor, place⟩
  else if within (floor + 1) then some ⟨floor + 1, place⟩ else none

def digitsFrom (significand : Nat) (scale top : Int) : Nat → Nat → Digits
  | 0, count => ⟨4 * significand, top - count⟩
  | fuel + 1, count =>
    match onGrid? significand scale (top - count) with
    | some hit => hit
    | none => digitsFrom significand scale top fuel (count + 1)

/-- The shortest digits of a positive double; seventeen of them always suffice. -/
def digits (x : Binary64) : Digits :=
  let (num, den) := x.magnitude
  digitsFrom x.significand x.scale (leadingExponent num den) 18 0

/-- Where a printed number changes from positional notation to an exponent, and how it spells both. -/
structure Layout where
  positionalFrom : Int
  positionalBelow : Int
  plusSign : Bool
  exponentWidth : Nat

def zeros (n : Nat) : List Char := List.replicate n '0'

def positional (ds : List Char) (point : Int) : List Char :=
  if point ≤ 0 then '0' :: '.' :: zeros (-point).toNat ++ ds
  else
    let p := point.toNat
    if ds.length ≤ p then ds ++ zeros (p - ds.length) ++ ['.', '0']
    else ds.take p ++ '.' :: ds.drop p

def scientific (layout : Layout) (ds : List Char) (lead : Int) : List Char :=
  let body := match ds with
    | d :: e :: rest => d :: '.' :: e :: rest
    | other => other
  let sign := if lead < 0 then ['-'] else if layout.plusSign then ['+'] else []
  let exponent := Nat.toDigits 10 lead.natAbs
  body ++ 'e' :: sign ++ zeros (layout.exponentWidth - exponent.length) ++ exponent

def trimZeros (ds : List Char) : List Char :=
  (ds.reverse.dropWhile (· = '0')).reverse

/-- A finite double in the given layout. -/
def render (layout : Layout) (x : Binary64) : List Char :=
  let sign := if x.isNegative then ['-'] else []
  if x.significand = 0 then sign ++ ['0', '.', '0']
  else
    let d := digits x
    let all := Nat.toDigits 10 d.coefficient
    let lead : Int := d.exponent + all.length - 1
    let ds := trimZeros all
    if layout.positionalFrom ≤ lead ∧ lead < layout.positionalBelow then sign ++ positional ds (lead + 1)
    else sign ++ scientific layout ds lead

end TenantVault.Decimal
