import TenantVault.Cose.Encrypted

/-! # Claims of identity tokens

The claims of a token as a map with numbered labels, and the window of time in which it is valid, with
five minutes of tolerance on both sides.
-/

namespace TenantVault.Cose

structure Claims where
  issuer : String
  subject : String
  audience : String
  issuedAt : Int
  lifetime : Int
  id : Bytes
  scope : String

namespace Claims

def issuerLabel : Int := 1

def subjectLabel : Int := 2

def audienceLabel : Int := 3

def expiryLabel : Int := 4

def notBeforeLabel : Int := 5

def issuedAtLabel : Int := 6

def idLabel : Int := 7

def scopeLabel : Int := 9

/-- Tolerance between clocks, in seconds. -/
def tolerance : Int := 300

def entries (c : Claims) : Cbor.Entries :=
  [(.int issuerLabel, .text c.issuer), (.int subjectLabel, .text c.subject),
   (.int audienceLabel, .text c.audience), (.int expiryLabel, .int (c.issuedAt + c.lifetime)),
   (.int notBeforeLabel, .int c.issuedAt), (.int issuedAtLabel, .int c.issuedAt),
   (.int idLabel, .bytes c.id), (.int scopeLabel, .text c.scope)]

def encode (c : Claims) : Bytes := Cbor.encode (.map false c.entries)

/-- A timestamp in whole seconds, fractions cut off. -/
def seconds (v : Cbor.Value) : Result Int :=
  match v with
  | .float x =>
    if x.isNaN then .error (.breakdown .timestampNotANumber)
    else if x.isInfinite then .error (.breakdown .timestampInfinite)
    else .ok x.truncate
  | _ => match v.integer? with
    | some n => .ok n
    | none => .error (refused .timestamp v v.inspect)

/-- The timestamp under a label; a null counts as absent. -/
def timestamp? (label : Int) (claims : Cbor.Entries) : Result (Option Int) :=
  match Cbor.Value.lookup (.int label) claims with
  | none | some .null => .ok none
  | some v => do return some (← seconds v)

/-- The claims of a token that is valid at the given second. -/
def decode (bs : Bytes) (now : Int) : Result Cbor.Entries := do
  match ← decodeFirst .claims bs with
  | .map false claims =>
    if let some expiry ← timestamp? expiryLabel claims then
      if expiry < now - tolerance then throw (.denied .tokenExpired)
    if let some start ← timestamp? notBeforeLabel claims then
      if now + tolerance < start then throw (.denied .tokenNotYetValid)
    return claims
  | _ => throw (.malformed .claimsNotMap)

def scopeOf (claims : Cbor.Entries) : Result String :=
  match Cbor.Value.lookup (.int scopeLabel) claims with
  | none | some .null => .error (.malformed .missingScope)
  | some (.text scope) => .ok scope
  | some _ => .error (.malformed .scope)

end Claims

end TenantVault.Cose
