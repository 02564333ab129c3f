import TenantVault.Json.Value

/-! # Reading JSON documents

Strict JSON: no comments, no trailing commas, no bare control characters, no unpaired surrogates. An
integer outside the signed and unsigned 64-bit ranges is read as a double, and a number too large for a
double is refused. Of two members with one name the later one counts, in the place of the earlier.
-/

namespace TenantVault.Json

/-- The deepest nesting of lists and objects that is read. -/
def maxNesting : Nat := 1024

def isSpace (c : Char) : Bool := c = ' ' || c = '\t' || c = '\n' || c = '\r'

def skipSpace (cs : List Char) : List Char := cs.dropWhile isSpace

def isDigit (c : Char) : Bool := '0' ≤ c && c ≤ '9'

def digitsValue (cs : List Char) : Nat := cs.foldl (fun acc c => 10 * acc + (c.toNat - 48)) 0

/-- The exponent part of a number, if there is one. -/
def exponent? : List Char → Option (Option Int × List Char)
  | c :: rest =>
    if c = 'e' || c = 'E' then
      let (negative, rest) := match rest with
        | '-' :: more => (true, more)
        | '+' :: more => (false, more)
        | other => (false, other)
      let (ds, rest) := rest.span isDigit
      if ds.isEmpty then none
      else some (some (if negative then -(digitsValue ds : Int) else digitsValue ds), rest)
    else some (none, c :: rest)
  | [] => some (none, [])

def fraction? : List Char → Option (Option (List Char) × List Char)
  | '.' :: rest =>
    let (ds, rest) := rest.span isDigit
    if ds.isEmpty then none else some (some ds, rest)
  | rest => some (none, rest)

def finite? (x : Binary64) : Option Json := if x.isFinite then some (.float x) else none

def integer? (n : Int) : Option Json :=
  if -(2 ^ 63) ≤ n ∧ n < 2 ^ 64 then some (.int n) else finite? (Binary64.ofInt n)

def unsigned? (negative : Bool) (cs : List Char) : Option (Json × List Char) := do
  let (whole, rest) := cs.span isDigit
  match whole with
  | [] => none
  | '0' :: _ :: _ => none
  | _ =>
    let (fraction, rest) ← fraction? rest
    let (exponent, rest) ← exponent? rest
    match fraction, exponent with
    | none, none =>
      let n := digitsValue whole
      return (← integer? (if negative then -(n : Int) else n), rest)
    | _, _ =>
      let tail := fraction.getD []
      let x := Binary64.ofDecimal negative (digitsValue (whole ++ tail)) (exponent.getD 0 - tail.length)
      return (← finite? x, rest)

def number? : List Char → Option (Json × List Char)
  | '-' :: rest => unsigned? true rest
  | rest => unsigned? false rest

/-- Four hexadecimal digits. -/
def unit? : List Char → Option (Nat × List Char)
  | a :: b :: c :: d :: rest => do
    let digit (c : Char) : Option Nat :=
      if isDigit c then some (c.toNat - 48)
      else if 'a' ≤ c ∧ c ≤ 'f' then some (c.toNat - 87)
      else if 'A' ≤ c ∧ c ≤ 'F' then some (c.toNat - 55)
      else none
    return (((← digit a) * 16 + (← digit b)) * 256 + (← digit c) * 16 + (← digit d), rest)
  | _ => none

/-- A character given by one or two UTF-16 code units. -/
def escapedUnit? (cs : List Char) : Option (Char × List Char) := do
  let (unit, rest) ← unit? cs
  if 0xD800 ≤ unit ∧ unit < 0xDC00 then
    match rest with
    | '\\' :: 'u' :: more =>
      let (low, rest) ← unit? more
      if 0xDC00 ≤ low ∧ low < 0xE000 then
        return (Char.ofNat (0x10000 + (unit - 0xD800) * 0x400 + (low - 0xDC00)), rest)
      else none
    | _ => none
  else if 0xDC00 ≤ unit ∧ unit < 0xE000 then none
  else return (Char.ofNat unit, rest)

def escaped? : List Char → Option (Char × List Char)
  | 'u' :: rest => escapedUnit? rest
  | c :: rest =>
    if c = Text.doubleQuote || c = '\\' || c = '/' then some (c, rest)
    else if c = 'b' then some (Char.ofNat 8, rest)
    else if c = 'f' then some (Char.ofNat 12, rest)
    else if c = 'n' then some ('\n', rest)
    else if c = 'r' then some ('\r', rest)
    else if c = 't' then some ('\t', rest)
    else none
  | [] => none

/-- The rest of a text up to its closing quote; `acc` holds what is read, backwards. -/
def textTail? : Nat → List Char → List Char → Option (String × List Char)
  | 0, _, _ => none
  | _ + 1, _, [] => none
  | fuel + 1, acc, c :: rest =>
    if c = Text.doubleQuote then some (String.ofList acc.reverse, rest)
    else if c = '\\' then do
      let (d, rest) ← escaped? rest
      textTail? fuel (d :: acc) rest
    else if c.toNat < 0x20 then none
    else textTail? fuel (c :: acc) rest

def text? (cs : List Char) : Option (String × List Char) :=
  match cs with
  | c :: rest => if c = Text.doubleQuote then textTail? (rest.length + 1) [] rest else none
  | [] => none

abbrev Reader := List Char → Option (Json × List Char)

/-- The rest of a list after an item; `acc` holds the items, the last one first. -/
def listTail? (item : Reader) : Nat → List Json → List Char → Option (Json × List Char)
  | 0, _, _ => none
  | fuel + 1, acc, cs =>
    match skipSpace cs with
    | ']' :: rest => some (.list acc.reverse, rest)
    | ',' :: rest => do
      let (v, rest) ← item (skipSpace rest)
      listTail? item fuel (v :: acc) rest
    | _ => none

def list? (item : Reader) (cs : List Char) : Option (Json × List Char) :=
  match skipSpace cs with
  | ']' :: rest => some (.list [], rest)
  | rest => do
    let (v, rest) ← item rest
    listTail? item (rest.length + 1) [v] rest

def member1? (item : Reader) (cs : List Char) : Option ((String × Json) × List Char) := do
  let (name, rest) ← text? cs
  match skipSpace rest with
  | ':' :: rest =>
    let (v, rest) ← item (skipSpace rest)
    return ((name, v), rest)
  | _ => none

def objectTail? (item : Reader) : Nat → List (String × Json) → List Char → Option (Json × List Char)
  | 0, _, _ => none
  | fuel + 1, acc, cs =>
    match skipSpace cs with
    | c :: rest =>
      if c.toNat = 0x7D then
        some (.object (acc.reverse.foldl (fun members m => Table.putRow m.1 m.2 members) []), rest)
      else if c = ',' then do
        let (m, rest) ← member1? item (skipSpace rest)
        objectTail? item fuel (m :: acc) rest
      else none
    | [] => none

def object? (item : Reader) (cs : List Char) : Option (Json × List Char) :=
  match skipSpace cs with
  | c :: rest =>
    if c.toNat = 0x7D then some (.object [], rest)
    else do
      let (m, rest) ← member1? item (c :: rest)
      objectTail? item (rest.length + 1) [m] rest
  | [] => none

/-- A document that holds no others. -/
def plain? : Reader
  | 'n' :: 'u' :: 'l' :: 'l' :: rest => some (.null, rest)
  | 't' :: 'r' :: 'u' :: 'e' :: rest => some (.bool true, rest)
  | 'f' :: 'a' :: 'l' :: 's' :: 'e' :: rest => some (.bool false, rest)
  | c :: rest =>
    if c = Text.doubleQuote then do
      let (s, rest) ← text? (c :: rest)
      return (.text s, rest)
    else number? (c :: rest)
  | [] => none

/-- One document with at most so many lists and objects inside each other. -/
def documentWithin? : Nat → Reader
  | 0 => plain?
  | depth + 1 => fun cs =>
    match cs with
    | '[' :: rest => list? (documentWithin? depth) rest
    | c :: rest => if c.toNat = 0x7B then object? (documentWithin? depth) rest else plain? (c :: rest)
    | [] => none

/-- The document that makes up the whole of a text. -/
def parse? (s : String) : Option Json := do
  let (v, rest) ← documentWithin? maxNesting (skipSpace s.toList)
  if (skipSpace rest).isEmpty then some v else none

end TenantVault.Json
