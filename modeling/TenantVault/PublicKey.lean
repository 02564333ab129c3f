import TenantVault.Curve.Ed25519
import TenantVault.Curve.Named
import TenantVault.Curve.X25519
import TenantVault.Encoding.Der
import TenantVault.Failure

/-! # Public keys

Subject public keys in strict DER. Keys of many kinds are read, so that a key that cannot be used is told
from one that is no key; Ed25519, P-256 and secp256k1 verify signatures. On the curves a signature is its
two numbers side by side in 32 octets each.
-/

namespace TenantVault

inductive PublicKey where
  | ed25519 (key : Bytes)
  | point (g : Weierstrass.Group) (p : Nat × Nat)
  /-- A key of a kind that verifies nothing here. -/
  | unused

namespace PublicKey

/-- The whole of a string as the content of one element. -/
def only? (tag : UInt8) (bs : Bytes) : Option Bytes :=
  match Der.expect? tag bs with
  | some (content, []) => some content
  | _ => none

/-- Whether some octets are the content of a number that is not negative, in its shortest form. -/
def isNumber : Bytes → Bool
  | [] => false
  | [b] => b < 0x80
  | b :: c :: _ => b < 0x80 && (b != 0 || 0x80 ≤ c)

/-- Whether a string is one number. -/
def isOneNumber (bs : Bytes) : Bool := ((only? 0x02 bs).map isNumber).getD false

/-- What follows a given count of numbers. -/
def numbers? : Nat → Bytes → Option Bytes
  | 0, bs => some bs
  | count + 1, bs => do
    let (content, rest) ← Der.expect? 0x02 bs
    if isNumber content then numbers? count rest else none

/-- Whether a string is one list of a given count of numbers. -/
def isNumbers (count : Nat) (bs : Bytes) : Bool := ((only? 0x30 bs).bind (numbers? count)) == some []

def curveKeyId : Bytes := [0x2A, 0x86, 0x48, 0xCE, 0x3D, 0x02, 0x01]

/-- The curves that verify signatures. -/
def groups : List (Bytes × Weierstrass.Group) :=
  [([0x2A, 0x86, 0x48, 0xCE, 0x3D, 0x03, 0x01, 0x07], Weierstrass.p256),
   ([0x2B, 0x81, 0x04, 0x00, 0x0A], Weierstrass.secp256k1)]

/-- The curves of which only the points are known. -/
def curves : List (Bytes × Weierstrass.Curve) :=
  [([0x2A, 0x86, 0x48, 0xCE, 0x3D, 0x03, 0x01, 0x01], Weierstrass.p192),
   ([0x2B, 0x81, 0x04, 0x00, 0x21], Weierstrass.p224),
   ([0x2B, 0x81, 0x04, 0x00, 0x22], Weierstrass.p384),
   ([0x2B, 0x81, 0x04, 0x00, 0x23], Weierstrass.p521),
   ([0x2B, 0x24, 0x03, 0x03, 0x02, 0x08, 0x01, 0x01, 0x07], Weierstrass.brainpool256),
   ([0x2B, 0x24, 0x03, 0x03, 0x02, 0x08, 0x01, 0x01, 0x0B], Weierstrass.brainpool384),
   ([0x2B, 0x24, 0x03, 0x03, 0x02, 0x08, 0x01, 0x01, 0x0D], Weierstrass.brainpool512)]

/-- A point of the curve that the parameters name. -/
def pointKey? (parameters key : Bytes) : Option PublicKey := do
  let id ← only? 0x06 parameters
  match groups.lookup id with
  | some g => return point g (← g.decodePoint? key)
  | none =>
    let c ← curves.lookup id
    let _ ← c.decodePoint? key
    return unused

def ed25519Id : Bytes := [0x2B, 0x65, 0x70]

/-- The kinds of keys that are a plain string without parameters, with the length of the string: X25519,
X448 and Ed448. -/
def plainKinds : List (Bytes × Nat) :=
  [([0x2B, 0x65, 0x6E], X25519.keyLength), ([0x2B, 0x65, 0x6F], 56), ([0x2B, 0x65, 0x71], 57)]

def rsaId : Bytes := [0x2A, 0x86, 0x48, 0x86, 0xF7, 0x0D, 0x01, 0x01, 0x01]

def rsaPssId : Bytes := [0x2A, 0x86, 0x48, 0x86, 0xF7, 0x0D, 0x01, 0x01, 0x0A]

def dsaId : Bytes := [0x2A, 0x86, 0x48, 0xCE, 0x38, 0x04, 0x01]

def dhId : Bytes := [0x2A, 0x86, 0x48, 0x86, 0xF7, 0x0D, 0x01, 0x03, 0x01]

/-- Whether a key made of numbers is in order: two numbers for RSA, one for DSA and Diffie-Hellman, whose
parameters are numbers too. -/
def isNumericKey (algorithm parameters key : Bytes) : Bool :=
  if algorithm = rsaId then (parameters.isEmpty || parameters == [0x05, 0x00]) && isNumbers 2 key
  else if algorithm = rsaPssId then
    (parameters.isEmpty || (only? 0x30 parameters).isSome) && isNumbers 2 key
  else if algorithm = dsaId then isNumbers 3 parameters && isOneNumber key
  else if algorithm = dhId then (isNumbers 2 parameters || isNumbers 3 parameters) && isOneNumber key
  else false

/-- The key for an algorithm, whose parameters come behind its identifier. -/
def ofParts? (algorithm parameters key : Bytes) : Option PublicKey :=
  if algorithm = ed25519Id then
    if parameters.isEmpty && key.length == Ed25519.keyLength then some (ed25519 key) else none
  else if algorithm = curveKeyId then pointKey? parameters key
  else match plainKinds.lookup algorithm with
    | some size => if parameters.isEmpty && key.length == size then some unused else none
    | none => if isNumericKey algorithm parameters key then some unused else none

def ofDer? (der : Bytes) : Option PublicKey := do
  let body ← only? 0x30 der
  let (algorithm, rest) ← Der.expect? 0x30 body
  let (id, parameters) ← Der.expect? 0x06 algorithm
  match ← only? 0x03 rest with
  | 0x00 :: key => ofParts? id parameters key
  | _ => none

def signatureLength : Nat := 64

def verifyOnCurve (g : Weierstrass.Group) (p : Nat × Nat) (message signature : Bytes) : Result Unit :=
  if signature.length ≠ signatureLength then .error (.denied .challengeLength)
  else
    let r := Bytes.foldBE (signature.take 32)
    let s := Bytes.foldBE (signature.drop 32)
    if g.verify p message r s then .ok () else .error (.denied .challenge)

def verify (der message signature : Bytes) : Result Unit :=
  match ofDer? der with
  | none => .error (.argument .publicKey)
  | some (ed25519 key) =>
    if Ed25519.verify key message signature then .ok () else .error (.denied .challenge)
  | some (point g p) => verifyOnCurve g p message signature
  | some unused => .error (.argument .publicKeyAlgorithm)

end PublicKey

end TenantVault
