import TenantVault.Bytes

/-! # Cyclic redundancy check

The 32-bit check of IEEE 802.3: reflected polynomial `EDB88320`, all ones at the start and at the end.
-/

namespace TenantVault.Crc32

def shift (crc : UInt32) : UInt32 :=
  if crc &&& 1 = 1 then (crc >>> 1) ^^^ 0xEDB88320 else crc >>> 1

def step (crc : UInt32) (b : UInt8) : UInt32 :=
  Nat.repeat shift 8 (crc ^^^ b.toUInt32)

def checksum (bs : Bytes) : UInt32 := bs.foldl step 0xFFFFFFFF ^^^ 0xFFFFFFFF

/-- The check as four octets, most significant first. -/
def octets (bs : Bytes) : Bytes := Bytes.ofNatBE 4 (checksum bs).toNat

@[simp] theorem length_octets (bs : Bytes) : (octets bs).length = 4 := Bytes.length_ofNatBE 4 _

end TenantVault.Crc32
