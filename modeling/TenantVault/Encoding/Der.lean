import TenantVault.Bytes

/-! # DER elements

An element is a one-octet tag, a length and the content. Lengths below 128 take one octet; a longer one is
written in the fewest octets, most significant first, behind an octet that counts them. `read?` accepts
that form only.
-/

namespace TenantVault.Der

/-- The fewest octets that hold a number, most significant first; none for zero. -/
def minimal (n : Nat) : Bytes :=
  if _ : n = 0 then [] else minimal (n / 256) ++ [UInt8.ofNat n]
termination_by n
decreasing_by omega

def lengthOctets (size : Nat) : Bytes :=
  if size < 128 then [UInt8.ofNat size]
  else
    let octets := minimal size
    UInt8.ofNat (128 + octets.length) :: octets

def element (tag : UInt8) (content : Bytes) : Bytes :=
  tag :: lengthOctets content.length ++ content

def readLength? : Bytes → Option (Nat × Bytes)
  | [] => none
  | b :: rest =>
    if b.toNat < 128 then some (b.toNat, rest)
    else
      let count := b.toNat - 128
      let octets := rest.take count
      let size := Bytes.toNatBE octets
      if octets.length = count ∧ 128 ≤ size ∧ octets.head? ≠ some 0 then some (size, rest.drop count)
      else none

/-- The first element: its tag, its content and what follows. -/
def read? : Bytes → Option (UInt8 × Bytes × Bytes)
  | [] => none
  | tag :: rest =>
    match readLength? rest with
    | none => none
    | some (size, rest) =>
      if rest.length < size then none else some (tag, rest.take size, rest.drop size)

/-- The content of an element with the expected tag, and what follows. -/
def expect? (tag : UInt8) (bs : Bytes) : Option (Bytes × Bytes) :=
  match read? bs with
  | some (found, content, rest) => if found = tag then some (content, rest) else none
  | none => none

end TenantVault.Der
