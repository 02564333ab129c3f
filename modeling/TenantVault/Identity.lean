import TenantVault.Cbor.Encode
import TenantVault.Encoding.Leb128
import TenantVault.Failure
import TenantVault.Text.LowerCase

/-! # Fixed identities and what they sign

A namespace gives names to identities of its own. Such an identity is the principal of a key that holds the
service and a seed made from namespace and name. What it signs is a hash of a record that does not
depend on the order of the fields: each field is hashed, name and value apart, and the hashes are
sorted.
-/

namespace TenantVault.Identity

/-- The algorithm identifier of keys that stand for a service and a seed. -/
def signatureId : Bytes := [0x2B, 0x06, 0x01, 0x04, 0x01, 0x83, 0xB8, 0x43, 0x01, 0x02]

def seed (ns name : String) : Bytes :=
  Cbor.encode (.list false [.text ns, .text (Text.lower name)])

def publicKey (service : Principal) (seed : Bytes) : Bytes :=
  let algorithm := Der.element 0x30 (Der.element 0x06 signatureId)
  let raw := UInt8.ofNat service.raw.length :: service.raw ++ seed
  Der.element 0x30 (algorithm ++ Der.element 0x03 (0x00 :: raw))

def principal (service : Principal) (ns name : String) : Principal :=
  .selfAuthenticating (publicKey service (seed ns name))

/-- The value of a field. Nulls and doubles can be given but have no hash. -/
inductive FieldValue where
  | null
  | real
  | int (n : Int)
  | text (s : String)
  | bytes (bs : Bytes)
  | list (items : List FieldValue)

instance : Inhabited FieldValue := ⟨.null⟩

mutual

def FieldValue.hash : FieldValue → Result Bytes
  | .null => .error (.unhashable "NoneType")
  | .real => .error (.unhashable "float")
  | .int n => if n < 0 then .error (.breakdown .endlessInteger) else .ok (Sha256.sha256 (Leb128.encode n.toNat))
  | .text s => .ok (Sha256.sha256 (Bytes.ofText s))
  | .bytes bs => .ok (Sha256.sha256 bs)
  | .list items => do return Sha256.sha256 (← FieldValue.hashes items)

def FieldValue.hashes : List FieldValue → Result Bytes
  | [] => .ok []
  | v :: vs => do
    let first ← v.hash
    return first ++ (← FieldValue.hashes vs)

end

def fieldHash (field : String × FieldValue) : Result Bytes := do
  return Sha256.sha256 (Bytes.ofText field.1) ++ (← field.2.hash)

def recordHash (fields : List (String × FieldValue)) : Result Bytes := do
  let hashes ← fields.mapM fieldHash
  return Sha256.sha256 (hashes.mergeSort fun a b => decide (a ≤ b)).flatten

def delegationDomain : Bytes := Bytes.ofText "ic-request-auth-delegation"

/-- What is signed to let a session key act for an identity until `expiration`. -/
def delegationMessage (sessionKey : Bytes) (expiration : Int) (targets : Option (List Bytes)) : Result Bytes := do
  let targetField := match targets with
    | some targets => [("targets", FieldValue.list (targets.map .bytes))]
    | none => []
  let digest ← recordHash ([("pubkey", .bytes sessionKey), ("expiration", .int expiration)] ++ targetField)
  return Sha256.sha256 (UInt8.ofNat delegationDomain.length :: delegationDomain ++ digest)

end TenantVault.Identity
