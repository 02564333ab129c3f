import TenantVault.Text.Table.Unprintable

/-! # Quoted text and octets

A text is shown between apostrophes, or between double quotes if it holds an apostrophe and no double
quote. A character without a glyph is written with two, four or eight hexadecimal digits. Octets are
shown the same way behind a `b`, with everything outside printable ASCII in hexadecimal.
-/

namespace TenantVault.Text

def inRanges (ranges : List (Nat × Nat)) (n : Nat) : Bool :=
  ranges.any fun r => r.1 ≤ n && n ≤ r.2

def isPrintable (c : Char) : Bool :=
  let n := c.toNat
  if n < 0x7F then 0x20 ≤ n else !inRanges Table.unprintable n

/-- A number in hexadecimal, in at least `width` lowercase digits. -/
def hex (width n : Nat) : List Char :=
  let ds := Nat.toDigits 16 n
  List.replicate (width - ds.length) '0' ++ ds

def apostrophe : Char := Char.ofNat 0x27

def doubleQuote : Char := Char.ofNat 0x22

def chooseQuote (hasApostrophe hasQuote : Bool) : Char :=
  if hasApostrophe && !hasQuote then doubleQuote else apostrophe

def escape (quote c : Char) : List Char :=
  if c = quote || c = '\\' then ['\\', c]
  else if c = '\n' then ['\\', 'n']
  else if c = '\r' then ['\\', 'r']
  else if c = '\t' then ['\\', 't']
  else if isPrintable c then [c]
  else if c.toNat < 0x100 then '\\' :: 'x' :: hex 2 c.toNat
  else if c.toNat < 0x10000 then '\\' :: 'u' :: hex 4 c.toNat
  else '\\' :: 'U' :: hex 8 c.toNat

def quoteChars (cs : List Char) : List Char :=
  let quote := chooseQuote (cs.contains apostrophe) (cs.contains doubleQuote)
  quote :: cs.flatMap (escape quote) ++ [quote]

def quote (s : String) : String := String.ofList (quoteChars s.toList)

def escapeOctet (quote : Char) (b : UInt8) : List Char :=
  if b < 0x7F then escape quote (Char.ofNat b.toNat) else '\\' :: 'x' :: hex 2 b.toNat

def quoteOctets (bs : List UInt8) : List Char :=
  let quote := chooseQuote (bs.contains 0x27) (bs.contains 0x22)
  'b' :: quote :: bs.flatMap (escapeOctet quote) ++ [quote]

end TenantVault.Text
