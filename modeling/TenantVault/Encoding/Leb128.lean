import TenantVault.Bytes

/-! # Unsigned LEB128

Seven bits to an octet, the least significant first, with the top bit set on all but the last.
`decode_encode` reads a number back in front of any further octets.
-/

namespace TenantVault.Leb128

def encode (n : Nat) : Bytes :=
  if _ : n < 128 then [UInt8.ofNat n]
  else UInt8.ofNat (128 + n % 128) :: encode (n / 128)
termination_by n
decreasing_by omega

def decode? : Bytes → Option (Nat × Bytes)
  | [] => none
  | b :: rest =>
    if b.toNat < 128 then some (b.toNat, rest)
    else (decode? rest).map fun (n, rest) => (b.toNat - 128 + 128 * n, rest)

theorem encode_small {n : Nat} (h : n < 128) : encode n = [UInt8.ofNat n] := by
  rw [encode, dif_pos h]

theorem encode_large {n : Nat} (h : 128 ≤ n) :
    encode n = UInt8.ofNat (128 + n % 128) :: encode (n / 128) := by
  rw [encode, dif_neg (by omega)]

theorem decode_encode (n : Nat) (rest : Bytes) : decode? (encode n ++ rest) = some (n, rest) := by
  induction n using Nat.strongRecOn with
  | ind n ih =>
    by_cases h : n < 128
    · have digit : (UInt8.ofNat n).toNat = n := by simp; omega
      rw [encode_small h]
      simp only [List.cons_append, List.nil_append, decode?, digit, if_pos h]
    · have digit : (UInt8.ofNat (128 + n % 128)).toNat = 128 + n % 128 := by simp; omega
      rw [encode_large (by omega)]
      simp only [List.cons_append, decode?, digit, if_neg (show ¬ 128 + n % 128 < 128 by omega),
        ih (n / 128) (by omega), Option.map_some, Option.some.injEq, Prod.mk.injEq, and_true]
      omega

end TenantVault.Leb128
