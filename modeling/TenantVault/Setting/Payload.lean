import TenantVault.Cose.Encrypted
import TenantVault.Store.Quantity

/-! # Payloads of settings

A plain payload is exactly one CBOR item, of the declared major type if one is declared. An encrypted one
is an encrypted message. Both are held to the size limit of their namespace, which zero or less switches
off.
-/

namespace TenantVault.Payload

def checkSize (limit : Json) (payload : Bytes) : Result Unit := do
  if (← limit.more 0) && (← limit.less payload.length) then
    throw (.payloadTooLarge payload.length limit.display)

theorem checkSize_int (limit : Int) (payload : Bytes) : checkSize (.int limit) payload =
    if 0 < limit ∧ limit < payload.length then
      .error (.payloadTooLarge payload.length (Json.int limit).display) else .ok () := by
  unfold checkSize
  simp only [Json.more_int, Json.less_int]
  by_cases hLimit : 0 < limit
  · by_cases hLong : limit < payload.length
    · simp [hLimit, hLong]
      rfl
    · simp [hLimit, hLong]
      rfl
  · simp [hLimit]
    rfl

theorem checkSize_eq_ok_iff {limit : Int} {payload : Bytes} (h : 0 < limit) :
    checkSize (.int limit) payload = .ok () ↔ payload.length ≤ limit := by
  rw [checkSize_int]
  split
  · exact ⟨nofun, by omega⟩
  · exact ⟨fun _ => by omega, fun _ => rfl⟩

/-- The major types that can be declared. -/
def contentTypes : List Int := [2, 3, 4, 5, 6]

/-- The major type that is declared, if one is; lists and objects cannot be looked up. -/
def declaredType (contentType : Json) : Result (Option Int) :=
  match contentType with
  | .null => .ok none
  | .list _ | .object _ => .error (.breakdown .wrongType)
  | v => match contentTypes.find? v.isInt with
    | some major => .ok (some major)
    | none => .error (.showing v (.argument (.contentType v.display)))

/-- The first octet of a payload shows its major type. -/
def majorType (payload : Bytes) : Int :=
  match payload with
  | b :: _ => b.toNat / 32
  | [] => 0

def decodePlain (limit : Json) (payload : Bytes) (contentType : Json) : Result Cbor.Value := do
  checkSize limit payload
  let declared ← declaredType contentType
  if payload.isEmpty then throw (.malformed .emptyPayload)
  let v ← Cose.decodeWhole .payload payload
  if let some major := declared then
    if majorType payload ≠ major then throw (.malformed (.payloadType major))
  return v

def checkEncrypted (limit : Json) (payload : Bytes) : Result Unit := do
  checkSize limit payload
  let _ ← Cose.Encrypted.parse payload

end TenantVault.Payload
