import TenantVault.Hash.Sha512
import TenantVault.Curve.Field25519

/-! # Ed25519

Deterministic signatures on the twisted Edwards curve over the field of `2 ^ 255 - 19` elements, points in
extended coordinates. Verification recomputes the commitment and compares its encoding; the second half
of the signature has to be a reduced scalar.
-/

namespace TenantVault.Ed25519

open Field25519

def keyLength : Nat := 32

def signatureLength : Nat := 64

def order : Nat := 2 ^ 252 + 27742317777372353535851937790883648493

def d : Nat := mul (sub 0 121665) (inverse 121666)

/-- `x = X / Z`, `y = Y / Z` and `x · y = T / Z`. -/
structure Point where
  x : Nat
  y : Nat
  z : Nat
  t : Nat

def neutral : Point := ⟨0, 1, 1, 0⟩

def Point.neg (p : Point) : Point := ⟨sub 0 p.x, p.y, p.z, sub 0 p.t⟩

def Point.add (p q : Point) : Point :=
  let a := mul (sub p.y p.x) (sub q.y q.x)
  let b := mul (Field25519.add p.y p.x) (Field25519.add q.y q.x)
  let c := mul (mul 2 d) (mul p.t q.t)
  let e := mul 2 (mul p.z q.z)
  let f := sub b a
  let g := sub e c
  let h := Field25519.add e c
  let i := Field25519.add b a
  ⟨mul f g, mul h i, mul g h, mul f i⟩

/-- Multiples by the low `bits` bits of a scalar, the most significant first. -/
def Point.multiplyFrom (p : Point) (n : Nat) : Nat → Point → Point
  | 0, acc => acc
  | bit + 1, acc =>
    let twice := acc.add acc
    p.multiplyFrom n bit (if n.testBit bit then twice.add p else twice)

def Point.multiply (p : Point) (n : Nat) : Point := p.multiplyFrom n 256 neutral

def squareRootOfMinusOne : Nat := Modular.pow prime 2 ((prime - 1) / 4)

/-- The square root of `u / v`, if there is one. -/
def squareRoot? (u v : Nat) : Option Nat :=
  let v3 := mul (mul v v) v
  let v7 := mul (mul v3 v3) v
  let r := mul (mul u v3) (Modular.pow prime (mul u v7) ((prime - 5) / 8))
  let check := mul v (mul r r)
  if check = u % prime then some r
  else if check = sub 0 u then some (mul r squareRootOfMinusOne)
  else none

def Point.decode? (bs : Bytes) : Option Point := do
  let n := Bytes.toNatLE bs
  let y := n % 2 ^ 255 % prime
  let yy := mul y y
  let x ← squareRoot? (sub yy 1) (Field25519.add (mul d yy) 1)
  let x := if x % 2 = n / 2 ^ 255 % 2 then x else sub 0 x
  return ⟨x, y, 1, mul x y⟩

def Point.encode (p : Point) : Bytes :=
  let zInverse := inverse p.z
  let x := mul p.x zInverse
  let y := mul p.y zInverse
  Bytes.ofNatLE keyLength (y + x % 2 * 2 ^ 255)

@[simp] theorem length_encode (p : Point) : p.encode.length = keyLength := Bytes.length_ofNatLE _ _

def baseY : Nat := mul 4 (inverse 5)

def basePoint : Point := (Point.decode? (Bytes.ofNatLE keyLength baseY)).getD neutral

def secretScalar (seed : Bytes) : Nat := clamp (Bytes.toNatLE ((Sha512.sha512 seed).take 32))

def publicKey (seed : Bytes) : Bytes := (basePoint.multiply (secretScalar seed)).encode

@[simp] theorem length_publicKey (seed : Bytes) : (publicKey seed).length = keyLength := length_encode _

def challenge (commitment key message : Bytes) : Nat :=
  Bytes.toNatLE (Sha512.sha512 (commitment ++ key ++ message)) % order

def sign (seed message : Bytes) : Bytes :=
  let a := secretScalar seed
  let r := Bytes.toNatLE (Sha512.sha512 ((Sha512.sha512 seed).drop 32 ++ message)) % order
  let commitment := (basePoint.multiply r).encode
  let s := (r + challenge commitment (publicKey seed) message * a) % order
  commitment ++ Bytes.ofNatLE 32 s

@[simp] theorem length_sign (seed message : Bytes) : (sign seed message).length = signatureLength := by
  simp [sign, keyLength, signatureLength]

def verify (key message signature : Bytes) : Bool :=
  let commitment := signature.take 32
  let s := Bytes.toNatLE (signature.drop 32)
  match Point.decode? key with
  | none => false
  | some a =>
    signature.length == signatureLength && decide (s < order) &&
      ((basePoint.multiply s).add (a.neg.multiply (challenge commitment key message))).encode == commitment

end TenantVault.Ed25519
