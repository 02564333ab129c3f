import TenantVault.Power
import TenantVault.Text.Blank

/-! # Integers written in text

`readInteger?` takes the decimal digits of every script, single underscores between digits, one sign and
spaces around the whole, and at most `maxDigits` digits. `readCount?` is the reader for request fields. It
takes a number in plain form, and otherwise first brings it into this form: zeros in front, a fraction of
zeros and underscores are dropped.
-/

namespace TenantVault.Text

/-- The zeros of the runs of ten decimal digits. -/
def decimalZeros : List Nat :=
  [0x30, 0x660, 0x6F0, 0x7C0, 0x966, 0x9E6, 0xA66, 0xAE6, 0xB66, 0xBE6, 0xC66, 0xCE6, 0xD66, 0xDE6, 0xE50,
   0xED0, 0xF20, 0x1040, 0x1090, 0x17E0, 0x1810, 0x1946, 0x19D0, 0x1A80, 0x1A90, 0x1B50, 0x1BB0, 0x1C40,
   0x1C50, 0xA620, 0xA8D0, 0xA900, 0xA9D0, 0xA9F0, 0xAA50, 0xABF0, 0xFF10, 0x104A0, 0x10D30, 0x11066,
   0x110F0, 0x11136, 0x111D0, 0x112F0, 0x11450, 0x114D0, 0x11650, 0x116C0, 0x11730, 0x118E0, 0x11950,
   0x11C50, 0x11D50, 0x11DA0, 0x16A60, 0x16AC0, 0x16B50, 0x1D7CE, 0x1D7D8, 0x1D7E2, 0x1D7EC, 0x1D7F6,
   0x1E140, 0x1E2F0, 0x1E950, 0x1FBF0]

def digitValue? (c : Char) : Option Nat :=
  (decimalZeros.find? fun base => base ≤ c.toNat && c.toNat ≤ base + 9).map (c.toNat - ·)

def asciiDigit? (c : Char) : Option Nat :=
  if '0' ≤ c ∧ c ≤ '9' then some (c.toNat - 48) else none

/-- Digits separated by nothing or by one underscore. -/
def digitRun? (value? : Char → Option Nat) : List Char → Option (List Nat)
  | [] => none
  | [c] => (value? c).map ([·])
  | c :: '_' :: rest => do
    let d ← value? c
    let ds ← digitRun? value? rest
    return d :: ds
  | c :: rest => do
    let d ← value? c
    let ds ← digitRun? value? rest
    return d :: ds

def ofDigits (ds : List Nat) : Nat := ds.foldl (fun acc d => 10 * acc + d) 0

def signed? (value? : List Char → Option Nat) : List Char → Option Int
  | '-' :: rest => (value? rest).map fun n => -(n : Int)
  | '+' :: rest => (value? rest).map Int.ofNat
  | rest => (value? rest).map Int.ofNat

def maxDigits : Nat := 4300

def readInteger? (s : String) : Option Int :=
  signed? (fun cs => do
    let ds ← digitRun? digitValue? cs
    if maxDigits < ds.length then none else return ofDigits ds) (trimWhile isSpace s.toList)

/-- A number in its plain form: zero, or digits with no zero in front, behind at most one minus sign. -/
def plain? (cs : List Char) : Option Int :=
  let digits? : List Char → Option Nat
    | ['0'] => some 0
    | '0' :: _ => none
    | [] => none
    | ds => (ds.mapM asciiDigit?).map ofDigits
  match cs with
  | '-' :: ds => (digits? ds).map fun n => -(n : Int)
  | ds => (digits? ds).map Int.ofNat

/-- What stands behind zeros and underscores: another digit or a sign with all that follows. The last zero
stays in front of a point and at the end. -/
def skipZeros? (last : Char) : List Char → Option (List Char)
  | [] => some [last]
  | c :: rest =>
    if c = '0' ∨ c = '_' then skipZeros? c rest
    else if ('1' ≤ c ∧ c ≤ '9') ∨ c = '-' then some (c :: rest)
    else if c = '.' then some (last :: c :: rest)
    else none

/-- A number without the zeros in front of it. -/
def withoutZeros? : List Char → Option (List Char)
  | [] => none
  | c :: rest =>
    if c = '0' then skipZeros? c rest
    else if ('1' ≤ c ∧ c ≤ '9') ∨ c = '-' then some (c :: rest)
    else none

/-- The digits in front of a fraction of one or more zeros. -/
def withoutZeroFraction (cs : List Char) : List Char :=
  match cs.span (· ≠ '.') with
  | (whole, _ :: fraction) => if !fraction.isEmpty && fraction.all (· = '0') then whole else cs
  | _ => cs

def hasDoubleUnderscore : List Char → Bool
  | '_' :: '_' :: _ => true
  | _ :: rest => hasDoubleUnderscore rest
  | [] => false

/-- A number without its underscores, which may only stand alone and inside. -/
def withoutUnderscores? (cs : List Char) : Option (List Char) :=
  if cs.head? = some '_' ∨ cs.getLast? = some '_' ∨ hasDoubleUnderscore cs then none
  else some (cs.filter (· ≠ '_'))

/-- The plain form of an unsigned number. -/
def cleaned? (cs : List Char) : Option (List Char) := do
  withoutUnderscores? (withoutZeroFraction (← withoutZeros? cs))

def readCount? (s : String) : Option Int :=
  let cs := trimWhile isSpace s.toList
  (plain? cs).or (match cs with
    | '+' :: '-' :: _ => none
    | '+' :: rest => (cleaned? rest).bind plain?
    | '-' :: rest => (cleaned? rest).bind fun ds => plain? ('-' :: ds)
    | rest => (cleaned? rest).bind plain?)

/-- Whether the plain form of a number has more than `maxDigits` characters. -/
def isTooWide (n : Int) : Bool := 10 ^ maxDigits ≤ n || n ≤ -(10 ^ (maxDigits - 1))

end TenantVault.Text
