import TenantVault.Text.Numeral

/-! # Fractions written in text

`readRatio?` takes a quotient of two whole numbers, such as `3/2`, or a decimal number that may have an
exponent, such as `-1.5e3`. One sign and blanks around the whole are allowed, digits may be those of every
script and may have single underscores between them.
-/

namespace TenantVault.Text

/-- Digits and single underscores in front of digits, and what follows. -/
def digitsAndRest : List Char → List Nat × List Char
  | [] => ([], [])
  | '_' :: c :: rest =>
    match digitValue? c with
    | some d => let (ds, tail) := digitsAndRest rest; (d :: ds, tail)
    | none => ([], '_' :: c :: rest)
  | c :: rest =>
    match digitValue? c with
    | some d => let (ds, tail) := digitsAndRest rest; (d :: ds, tail)
    | none => ([], c :: rest)

/-- A run of digits that does not begin with an underscore; it may be empty. -/
def spanDigits (cs : List Char) : List Nat × List Char :=
  if cs.head? = some '_' then ([], cs) else digitsAndRest cs

/-- The number with the given digits, unless they are too many. -/
def number? (ds : List Nat) : Option Nat := if maxDigits < ds.length then none else some (ofDigits ds)

/-- The number that makes up the whole of some characters. -/
def whole? (cs : List Char) : Option Nat :=
  match spanDigits cs with
  | ([], _) => none
  | (ds, []) => number? ds
  | _ => none

def exponent? : List Char → Option Int
  | [] => some 0
  | mark :: rest => if mark = 'e' ∨ mark = 'E' then signed? whole? rest else none

/-- The numerator and the denominator of an unsigned number. -/
def magnitude? (cs : List Char) : Option (Nat × Nat) :=
  let (whole, rest) := spanDigits cs
  match whole, rest with
  | [], '.' :: rest | _ :: _, '.' :: rest => do
    let (decimals, rest) := spanDigits rest
    if whole.isEmpty && decimals.isEmpty then none
    let exponent ← exponent? rest
    let top ← number? whole
    let bottom ← number? decimals
    return ((top * 10 ^ decimals.length + bottom) * 10 ^ exponent.toNat,
      10 ^ decimals.length * 10 ^ (-exponent).toNat)
  | [], _ => none
  | _ :: _, '/' :: rest => do return (← number? whole, ← whole? rest)
  | _ :: _, rest => do
    let exponent ← exponent? rest
    return ((← number? whole) * 10 ^ exponent.toNat, 10 ^ (-exponent).toNat)

def readRatio? (s : String) : Option (Int × Int) :=
  match trim s.toList with
  | '-' :: cs => (magnitude? cs).map fun r => (-(r.1 : Int), (r.2 : Int))
  | '+' :: cs | cs => (magnitude? cs).map fun r => ((r.1 : Int), (r.2 : Int))

end TenantVault.Text
