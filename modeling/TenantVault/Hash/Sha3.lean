import TenantVault.Bytes

/-! # SHA3-256

The permutation on twenty-five 64-bit lanes, lane `x + 5 · y` standing in column `x` and row `y`, and a
sponge that absorbs 136 octets at a time.
-/

namespace TenantVault.Sha3

abbrev State := Vector UInt64 25

def rotate (x : UInt64) (n : UInt64) : UInt64 :=
  if n = 0 then x else (x <<< n) ||| (x >>> (64 - n))

def roundConstants : List UInt64 :=
  [0x0000000000000001, 0x0000000000008082, 0x800000000000808A, 0x8000000080008000,
   0x000000000000808B, 0x0000000080000001, 0x8000000080008081, 0x8000000000008009,
   0x000000000000008A, 0x0000000000000088, 0x0000000080008009, 0x000000008000000A,
   0x000000008000808B, 0x800000000000008B, 0x8000000000008089, 0x8000000000008003,
   0x8000000000008002, 0x8000000000000080, 0x000000000000800A, 0x800000008000000A,
   0x8000000080008081, 0x8000000000008080, 0x0000000080000001, 0x8000000080008008]

def offsets : Vector UInt64 25 :=
  #v[0, 1, 62, 28, 27, 36, 44, 6, 55, 20, 3, 10, 43, 25, 39, 41, 45, 15, 21, 8, 18, 2, 61, 56, 14]

def lane (s : State) (x y : Nat) : UInt64 :=
  s[x % 5 + 5 * (y % 5)]

def ofLanes (f : Nat → Nat → UInt64) : State := Vector.ofFn fun i => f (i.val % 5) (i.val / 5)

def columnParity (s : State) (x : Nat) : UInt64 :=
  lane s x 0 ^^^ lane s x 1 ^^^ lane s x 2 ^^^ lane s x 3 ^^^ lane s x 4

/-- Each lane meets the parities of the column before it and, rotated, of the column after it. -/
def theta (s : State) : State :=
  let parity : Vector UInt64 5 := Vector.ofFn fun x => columnParity s x.val
  let effect (x : Nat) : UInt64 := parity[(x + 4) % 5] ^^^ rotate parity[(x + 1) % 5] 1
  ofLanes fun x y => lane s x y ^^^ effect x

/-- Every lane is rotated by its offset and moved to column `y`, row `2 · x + 3 · y`. -/
def rhoPi (s : State) : State :=
  ofLanes fun x y => rotate (lane s (x + 3 * y) x) (lane offsets (x + 3 * y) x)

def chi (s : State) : State :=
  ofLanes fun x y => lane s x y ^^^ (~~~(lane s (x + 1) y) &&& lane s (x + 2) y)

def round (s : State) (constant : UInt64) : State :=
  let s := chi (rhoPi (theta s))
  s.set 0 (s[0] ^^^ constant)

def permute (s : State) : State := roundConstants.foldl round s

def absorb (s : State) (block : Bytes) : State :=
  let words := ((Bytes.chunks 8 block).map fun w => UInt64.ofNat (Bytes.toNatLE w)).toArray
  permute (ofLanes fun x y => lane s x y ^^^ words.getD (x + 5 * y) 0)

def rate : Nat := 136

/-- The suffix `01`, a one bit, zeros, and a one bit at the end of the last block. -/
def pad (message : Bytes) : Bytes :=
  let free := rate - message.length % rate
  if free = 1 then message ++ [0x86] else message ++ 0x06 :: List.replicate (free - 2) 0 ++ [0x80]

def zero : State := Vector.replicate 25 0

def sha3_256 (message : Bytes) : Bytes :=
  let s := (Bytes.chunks rate (pad message)).foldl absorb zero
  [s[0], s[1], s[2], s[3]].flatMap fun w => Bytes.ofNatLE 8 w.toNat

@[simp] theorem length_sha3_256 (message : Bytes) : (sha3_256 message).length = 32 := by
  simp [sha3_256]

end TenantVault.Sha3
