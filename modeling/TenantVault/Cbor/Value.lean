import TenantVault.Bytes
import TenantVault.Cbor.Moment
import TenantVault.Decimal.Number
import TenantVault.Decimal.Special

/-! # CBOR data items

A decoded item. A few tags have a meaning of their own and become numbers, moments, identifiers or sets;
all others stay tags. `fixed` marks a list, map or set that stands where it must not change: as a map key
or inside a tag. It takes no part in comparison, but a fixed list is not a list for the message formats.

`same` is the equality under which map keys and labels are compared: numbers by value across all kinds,
`true` as one and `false` as zero, a number that is not a number equal to nothing. Where a signalling decimal
is compared with a number there is no answer at all, which whoever compares has to see to.
-/

namespace TenantVault.Cbor

inductive Value where
  | null
  | undefined
  | bool (b : Bool)
  | int (n : Int)
  | float (x : Binary64)
  | bytes (bs : Bytes)
  | text (s : String)
  | list (fixed : Bool) (items : List Value)
  | map (fixed : Bool) (entries : List (Value × Value))
  | tagged (tag : Nat) (content : Value)
  | simple (code : Nat)
  | set (fixed : Bool) (items : List Value)
  | decimal (d : Decimal.Number)
  | special (d : Decimal.Special)
  | fraction (num : Int) (den : Nat)
  | moment (m : Moment)
  | identifier (octets : Bytes)
  deriving Inhabited

namespace Value

/-- The integer that a value counts as. -/
def integer? : Value → Option Int
  | bool b => some (if b then 1 else 0)
  | int n => some n
  | _ => none

/-- The numerator and the denominator of an integer or a fraction. -/
def rational? : Value → Option (Int × Int)
  | fraction num den => some (num, den)
  | v => v.integer?.map fun n => (n, 1)

/-- A quotient in lowest terms. -/
def quotient? (num den : Int) : Option Value :=
  if den = 0 then none
  else
    let num := if den < 0 then -num else num
    let common := Nat.gcd num.natAbs den.natAbs
    some (fraction (num / common) (den.natAbs / common))

/-- The value of a finite number. -/
def exactValue? : Value → Option Decimal.Exact
  | bool b => some (.ofInt (if b then 1 else 0))
  | int n => some (.ofInt n)
  | float x => if x.isFinite then some (.ofFloat x) else none
  | decimal d => some (.ofNumber d)
  | fraction num den => some (.ofFraction num den)
  | _ => none

/-- Comparison of numbers: integers directly, infinities by sign, all others through their exact values. -/
def sameNumber (v w : Value) : Bool :=
  match v.integer?, w.integer? with
  | some m, some n => m == n
  | _, _ =>
    let sameValue := v.exactValue?.isSome && v.exactValue? == w.exactValue?
    match v, w with
    | float x, float y => (x.isInfinite && x == y) || sameValue
    | special d, special e => d.same e
    | special d, float x | float x, special d => d.sameFloat x
    | _, _ => sameValue

mutual

def same : Value → Value → Bool
  | null, null => true
  | undefined, undefined => true
  | bytes xs, bytes ys => xs == ys
  | text s, text t => s == t
  | list _ xs, list _ ys => sameItems xs ys
  | map _ xs, map _ ys => xs.length == ys.length && sameEntries xs ys
  | set _ xs, set _ ys => xs.length == ys.length && sameMembers xs ys
  | tagged m v, tagged n w => m == n && same v w
  | simple m, simple n => m == n
  | simple m, w => w.integer? == some (m : Int)
  | moment m, moment n => m.instant == n.instant
  | identifier xs, identifier ys => xs == ys
  | v, simple n => v.integer? == some (n : Int)
  | v, w => v.sameNumber w

def sameItems : List Value → List Value → Bool
  | [], [] => true
  | v :: vs, w :: ws => same v w && sameItems vs ws
  | _, _ => false

def sameEntries : List (Value × Value) → List (Value × Value) → Bool
  | [], _ => true
  | (k, v) :: rest, ys =>
    (match ys.find? fun entry => same k entry.1 with
      | some entry => same v entry.2
      | none => false) && sameEntries rest ys

def sameMembers : List Value → List Value → Bool
  | [], _ => true
  | v :: rest, ys => ys.any (same v) && sameMembers rest ys

end

/-- The value under a key, the entries in order. -/
def lookup (key : Value) : List (Value × Value) → Option Value
  | [] => none
  | entry :: rest => if same entry.1 key then some entry.2 else lookup key rest

/-- A later value for a key replaces the earlier one; place and spelling of the key stay. -/
def putEntry (key value : Value) : List (Value × Value) → List (Value × Value)
  | [] => [(key, value)]
  | entry :: rest =>
    if same entry.1 key then (entry.1, value) :: rest else entry :: putEntry key value rest

def isNull : Value → Bool
  | null => true
  | _ => false

/-- Whether a value is a decimal that cannot be compared with a number. -/
def signals : Value → Bool
  | special d => d.signals
  | _ => false

/-- Equality with an integer. -/
def isInt (v : Value) (n : Int) : Bool := same v (int n)

end Value

end TenantVault.Cbor
