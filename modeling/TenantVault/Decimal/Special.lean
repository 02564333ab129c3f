import TenantVault.Binary64

/-! # Decimals without a value

The infinities and what is not a number, which may carry a payload of digits. A signalling one can be held and
shown, but it cannot be compared with a number.
-/

namespace TenantVault.Decimal

inductive Special where
  | infinity (negative : Bool)
  | notANumber (signalling negative : Bool) (payload : Nat)
  deriving DecidableEq, Repr

namespace Special

def signals : Special → Bool
  | infinity _ => false
  | notANumber signalling _ _ => signalling

/-- Infinities are the same if their signs are; what is not a number is the same as nothing. -/
def same : Special → Special → Bool
  | infinity a, infinity b => a == b
  | _, _ => false

def sameFloat (d : Special) (x : Binary64) : Bool :=
  match d with
  | infinity negative => x.isInfinite && x.isNegative == negative
  | notANumber .. => false

def chars (d : Special) : List Char :=
  let sign (negative : Bool) := if negative then ['-'] else []
  match d with
  | infinity negative => sign negative ++ "Infinity".toList
  | notANumber signalling negative payload =>
    sign negative ++ (if signalling then ['s'] else []) ++ "NaN".toList ++
      (if payload = 0 then [] else Nat.toDigits 10 payload)

end Special

end TenantVault.Decimal
