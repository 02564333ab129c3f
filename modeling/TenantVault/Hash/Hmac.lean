import TenantVault.Hash.Sha256
import TenantVault.Hash.Sha3

/-! # Keyed hashing and key derivation

HMAC over a hash function given with its block size and digest size, and the extract and expand steps of
HKDF on top of it.
-/

namespace TenantVault

structure HashFunction where
  digest : Bytes → Bytes
  blockSize : Nat
  size : Nat
  length_digest : ∀ m, (digest m).length = size

namespace HashFunction

def sha256 : HashFunction := ⟨Sha256.sha256, 64, 32, Sha256.length_sha256⟩

def sha3_256 : HashFunction := ⟨Sha3.sha3_256, 136, 32, Sha3.length_sha3_256⟩

/-- The key as one block: hashed first if it is longer than a block. -/
def keyBlock (H : HashFunction) (key : Bytes) : Bytes :=
  let key := if H.blockSize < key.length then H.digest key else key
  key ++ List.replicate (H.blockSize - key.length) 0

def hmac (H : HashFunction) (key message : Bytes) : Bytes :=
  let block := H.keyBlock key
  H.digest (block.map (· ^^^ 0x5C) ++ H.digest (block.map (· ^^^ 0x36) ++ message))

@[simp] theorem length_hmac (H : HashFunction) (key message : Bytes) :
    (H.hmac key message).length = H.size := H.length_digest _

/-- The blocks of HKDF's expansion, numbered from `index`. -/
def expandBlocks (H : HashFunction) (key info : Bytes) : Nat → Nat → Bytes → Bytes
  | 0, _, _ => []
  | count + 1, index, previous =>
    let block := H.hmac key (previous ++ info ++ [UInt8.ofNat index])
    block ++ expandBlocks H key info count (index + 1) block

theorem length_expandBlocks (H : HashFunction) (key info : Bytes) (count index : Nat) (previous : Bytes) :
    (H.expandBlocks key info count index previous).length = count * H.size := by
  induction count generalizing index previous with
  | zero => simp [expandBlocks]
  | succ count ih => simp [expandBlocks, ih, Nat.succ_mul, Nat.add_comm]

def hkdf (H : HashFunction) (secret info salt : Bytes) (length : Nat) : Bytes :=
  let salt := if salt.isEmpty then List.replicate H.size 0 else salt
  let count := (length + H.size - 1) / H.size
  (H.expandBlocks (H.hmac salt secret) info count 1 []).take length

/-- The longest output: the block counter has one octet. -/
def maxExpansion (H : HashFunction) : Nat := 255 * H.size

end HashFunction

end TenantVault
