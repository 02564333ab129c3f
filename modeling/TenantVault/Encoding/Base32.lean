import TenantVault.Bytes

/-! # Base 32

Five bits to a digit, `A` to `Z` and `2` to `7`, in groups of eight digits for five octets. The encoder
leaves out the padding; the decoder adds it, so that a text is accepted exactly if its length padded to
whole groups leaves one of the paddings that whole octets can have.
-/

namespace TenantVault.Base32

def digit (n : Nat) : Char :=
  if n < 26 then Char.ofNat (65 + n) else Char.ofNat (24 + n)

def value? (c : Char) : Option Nat :=
  if 'A' ≤ c ∧ c ≤ 'Z' then some (c.toNat - 65)
  else if '2' ≤ c ∧ c ≤ '7' then some (c.toNat - 24)
  else none

theorem value?_digit (n : Nat) (h : n < 32) : value? (digit n) = some n := by
  have all : ∀ n < 32, value? (digit n) = some n := by decide
  exact all n h

/-- The low `count` base 32 digits of a number, the most significant first. -/
def digits : Nat → Nat → List Nat
  | 0, _ => []
  | count + 1, n => digits count (n / 32) ++ [n % 32]

def encodeGroup (bs : Bytes) : List Char :=
  let n := Bytes.toNatBE (bs ++ List.replicate (5 - bs.length) 0)
  ((digits 8 n).take ((8 * bs.length + 4) / 5)).map digit

def encode (bs : Bytes) : List Char := (Bytes.chunks 5 bs).flatMap encodeGroup

def ofDigits (ds : List Nat) : Nat := ds.foldl (fun acc d => 32 * acc + d) 0

def decodeGroups (ds : List Nat) : Bytes :=
  if _ : 8 < ds.length then
    Bytes.ofNatBE 5 (ofDigits (ds.take 8)) ++ decodeGroups (ds.drop 8)
  else
    (Bytes.ofNatBE 5 (ofDigits ds * 32 ^ (8 - ds.length))).take (5 * ds.length / 8)
termination_by ds.length
decreasing_by simp only [List.length_drop]; omega

def dropPadding (cs : List Char) : List Char := (cs.reverse.dropWhile (· = '=')).reverse

def decode? (cs : List Char) : Option Bytes := do
  let whole := (cs.length + 7) / 8 * 8
  let body := dropPadding cs
  let padding := whole - body.length
  if padding ∈ [0, 1, 3, 4, 6] then
    let ds ← body.mapM value?
    return decodeGroups ds
  else none

end TenantVault.Base32
