import TenantVault.Cbor.Value
import TenantVault.Encoding.Der

/-! # Writing CBOR

Every head is in its shortest form and every length is definite. Integers beyond 64 bits are written as
tagged byte strings, and doubles in eight octets. Special decimals become half-precision numbers.
-/

namespace TenantVault.Cbor

/-- The head of an item: its major type and an argument below `2 ^ 64`. -/
def head (major n : Nat) : Bytes :=
  if n < 24 then [UInt8.ofNat (32 * major + n)]
  else if n < 2 ^ 8 then UInt8.ofNat (32 * major + 24) :: Bytes.ofNatBE 1 n
  else if n < 2 ^ 16 then UInt8.ofNat (32 * major + 25) :: Bytes.ofNatBE 2 n
  else if n < 2 ^ 32 then UInt8.ofNat (32 * major + 26) :: Bytes.ofNatBE 4 n
  else UInt8.ofNat (32 * major + 27) :: Bytes.ofNatBE 8 n

def encodeBytes (bs : Bytes) : Bytes := head 2 bs.length ++ bs

def encodeText (s : String) : Bytes :=
  let octets := Bytes.ofText s
  head 3 octets.length ++ octets

/-- A number of the given major type, or a tagged byte string with the same meaning. -/
def encodeNat (major n : Nat) : Bytes :=
  if n < 2 ^ 64 then head major n else head 6 (2 + major) ++ encodeBytes (Der.minimal n)

def encodeInt : Int → Bytes
  | .ofNat n => encodeNat 0 n
  | .negSucc n => encodeNat 1 n

def encodeSimple (code : Nat) : Bytes :=
  if code < 24 then [UInt8.ofNat (224 + code)] else [0xF8, UInt8.ofNat code]

mutual

def encode : Value → Bytes
  | .null => [0xF6]
  | .undefined => [0xF7]
  | .bool b => [if b then 0xF5 else 0xF4]
  | .int n => encodeInt n
  | .float x => 0xFB :: x.toBytes
  | .bytes bs => encodeBytes bs
  | .text s => encodeText s
  | .list _ vs => head 4 vs.length ++ encodeItems vs
  | .map _ entries => head 5 entries.length ++ encodeEntries entries
  | .tagged tag v => head 6 tag ++ encode v
  | .simple code => encodeSimple code
  | .set _ vs => head 6 258 ++ head 4 vs.length ++ encodeItems vs
  | .decimal d =>
    let significand : Int := if d.negative then -d.coefficient else d.coefficient
    head 6 4 ++ head 4 2 ++ encodeInt d.exponent ++ encodeInt significand
  | .special (.infinity negative) => [0xF9, if negative then 0xFC else 0x7C, 0x00]
  | .special (.notANumber ..) => [0xF9, 0x7E, 0x00]
  | .fraction num den => head 6 30 ++ head 4 2 ++ encodeInt num ++ encodeInt den
  | .moment m => head 6 0 ++ encodeText (String.ofList (m.chars.map fun c => if c = ' ' then 'T' else c))
  | .identifier octets => head 6 37 ++ encodeBytes octets

def encodeItems : List Value → Bytes
  | [] => []
  | v :: vs => encode v ++ encodeItems vs

def encodeEntries : List (Value × Value) → Bytes
  | [] => []
  | (k, v) :: entries => encode k ++ encode v ++ encodeEntries entries

end

theorem encode_int (n : Int) : encode (.int n) = encodeInt n := rfl

theorem encode_bytes (bs : Bytes) : encode (.bytes bs) = head 2 bs.length ++ bs := rfl

theorem encode_text (s : String) : encode (.text s) = head 3 (Bytes.ofText s).length ++ Bytes.ofText s := rfl

theorem encode_list (fixed : Bool) (vs : List Value) :
    encode (.list fixed vs) = head 4 vs.length ++ encodeItems vs := rfl

theorem encode_map (fixed : Bool) (entries : List (Value × Value)) :
    encode (.map fixed entries) = head 5 entries.length ++ encodeEntries entries := rfl

theorem encodeItems_nil : encodeItems [] = [] := rfl

theorem encodeItems_cons (v : Value) (vs : List Value) : encodeItems (v :: vs) = encode v ++ encodeItems vs := rfl

theorem encodeEntries_nil : encodeEntries [] = [] := rfl

theorem encodeEntries_cons (entry : Value × Value) (entries : List (Value × Value)) :
    encodeEntries (entry :: entries) = encode entry.1 ++ encode entry.2 ++ encodeEntries entries := rfl

end TenantVault.Cbor
