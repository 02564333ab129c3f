import TenantVault.Bytes

/-! # Base 64

Four digits for three octets, `A` to `Z`, `a` to `z`, `0` to `9`, `+` and `/`, padded with `=`. The
decoder passes over every character that is no digit. A padding that completes a group ends the text,
and whatever follows it is not looked at; digits that do not complete a group are an error.
-/

namespace TenantVault.Base64

inductive Fault where
  | notAscii
  | unfinished
  deriving DecidableEq, Repr

def digit (n : Nat) : Char :=
  if n < 26 then Char.ofNat (65 + n)
  else if n < 52 then Char.ofNat (71 + n)
  else if n < 62 then Char.ofNat (n - 4)
  else if n = 62 then '+' else '/'

def value? (c : Char) : Option Nat :=
  if 'A' ≤ c ∧ c ≤ 'Z' then some (c.toNat - 65)
  else if 'a' ≤ c ∧ c ≤ 'z' then some (c.toNat - 71)
  else if '0' ≤ c ∧ c ≤ '9' then some (c.toNat + 4)
  else if c = '+' then some 62
  else if c = '/' then some 63
  else none

theorem value?_digit (n : Nat) (h : n < 64) : value? (digit n) = some n := by
  have all : ∀ n < 64, value? (digit n) = some n := by decide
  exact all n h

def encode : Bytes → List Char
  | [] => []
  | [a] => [digit (a.toNat / 4), digit (a.toNat % 4 * 16), '=', '=']
  | [a, b] =>
    [digit (a.toNat / 4), digit (a.toNat % 4 * 16 + b.toNat / 16), digit (b.toNat % 16 * 4), '=']
  | a :: b :: c :: rest =>
    digit (a.toNat / 4) :: digit (a.toNat % 4 * 16 + b.toNat / 16) ::
      digit (b.toNat % 16 * 4 + c.toNat / 64) :: digit (c.toNat % 64) :: encode rest

def render (bs : Bytes) : String := String.ofList (encode bs)

/-- Where the reader stands: the digits of the group so far, the low bits that are not yet part of an
octet, and the padding characters seen since the last digit. -/
structure State where
  position : Nat
  pending : Nat
  padding : Nat

def start : State := ⟨0, 0, 0⟩

/-- A digit, with the octet that it completes. -/
def State.digit (s : State) (v : Nat) : State × Bytes :=
  match s.position with
  | 0 => (⟨1, v, 0⟩, [])
  | 1 => (⟨2, v % 16, 0⟩, [UInt8.ofNat (s.pending * 4 + v / 16)])
  | 2 => (⟨3, v % 4, 0⟩, [UInt8.ofNat (s.pending * 16 + v / 4)])
  | _ => (⟨0, 0, 0⟩, [UInt8.ofNat (s.pending * 64 + v)])

/-- The octets of the rest of a text, behind those read so far, which `acc` holds backwards. -/
def decodeFrom (s : State) (acc : Bytes) : List Char → Except Fault Bytes
  | [] => if s.position = 0 then .ok acc.reverse else .error .unfinished
  | c :: rest =>
    if c = '=' then
      if s.position < 2 then decodeFrom s acc rest
      else if 4 ≤ s.position + s.padding + 1 then .ok acc.reverse
      else decodeFrom { s with padding := s.padding + 1 } acc rest
    else match value? c with
      | none => decodeFrom s acc rest
      | some v => decodeFrom (s.digit v).1 ((s.digit v).2 ++ acc) rest

def decode (text : String) : Except Fault Bytes :=
  if text.toList.all (·.toNat < 0x80) then decodeFrom start [] text.toList else .error .notAscii

end TenantVault.Base64
