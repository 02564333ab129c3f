import TenantVault.Cose.SecretKey
import TenantVault.KeyExchange
import TenantVault.Service.Outcome
import TenantVault.Setting.Operations
import TenantVault.Signer

/-! # Handing out keys and secrets

Keys of settings leave the service only under a secret agreed on with the caller. Rights are checked before
the first request and again when the last reply has come, so that what is handed out is still the
caller's.
-/

namespace TenantVault.Keys

open Access Outcome

def tenantOf (key : SettingKey) : Result (List Bytes) :=
  match key.tenant? with
  | some tenant => .ok tenant
  | none => .error (.breakdown .scopeOutOfRange)

/-- The key under which a setting is encrypted, derived from a signature. -/
def settingKey {α : Type} (key : SettingKey) (keyId : Bytes) (w : World)
    (next : World → Bytes → Outcome α) : Outcome α :=
  .after w (tenantOf key) fun tenant =>
    .after w (TenantKey.namespacePart tenant) fun ns =>
      .request (.sign Signer.settingLabel tenant (TenantKey.challenge ns keyId)) fun w signature =>
        next w (TenantKey.ofSignature ns signature)

/-- The exchange that a request asks for. -/
def exchange {α : Type} (input : ExchangeRequest) (w : World)
    (next : World → KeyExchange.Agreement → Outcome α) : Outcome α :=
  .after w (KeyExchange.checkRequest input.publicKey input.nonce) fun _ =>
    .draw KeyExchange.randomLength fun w random =>
      .after w (KeyExchange.respond random input.publicKey input.nonce) (next w)

/-- Something encrypted for the caller, and the server's side of the exchange. -/
structure Handover (α : Type) where
  content : α
  publicKey : Bytes

/-- The key of a setting as a secret key, encrypted for the caller. -/
def encryptedKey (caller : Principal) (path : SettingPath) (input : ExchangeRequest) :
    Call (Handover Bytes) := fun w =>
  let key := path.toKey caller
  .after w (allowed w.tables caller "ecdh_cose_encrypted_key") fun _ =>
    .after w (keyHolder w.tables caller key) fun _ =>
      settingKey key key.key w fun w secret =>
        exchange input w fun w agreement =>
          .after w (do
            let _ ← keyHolder w.tables caller key
            let wrapped ← Cose.SecretKey.wrap secret (some key.key)
            Cose.Encrypted.encode wrapped agreement.shared key.subject.raw input.nonce none)
          fun sealed => .finish w ⟨sealed, agreement.publicKey⟩

/-- The plain payload of a setting: an encrypted one is decrypted by its own key, which the setting's key
decrypts. -/
def plainPayload {α : Type} (caller : Principal) (key : SettingKey) (payload : Bytes)
    (dataKey : Option Bytes) (w : World) (next : World → Bytes → Outcome α)
    (read : Cbor.Decoder := Cbor.decode) : Outcome α :=
  match dataKey with
  | none => next w payload
  | some dataKey =>
    .after w (keyHolder w.tables caller key) fun _ =>
      settingKey key key.key w fun w secret =>
        .after w (do
          let _ ← keyHolder w.tables caller key
          let wrapped ← Cose.Encrypted.decode dataKey secret key.subject.raw read
          let unwrapped ← Cose.SecretKey.unwrap wrapped read
          Cose.Encrypted.decode payload unwrapped key.subject.raw read)
        (next w)

/-- A setting with its plain payload encrypted for the caller. The live record must not have got a new
version in the meantime. -/
def encryptedSetting (caller : Principal) (path : SettingPath) (input : ExchangeRequest) (w : World)
    (read : Cbor.Decoder := Cbor.decode) : Outcome (Handover SettingInfo) :=
  let key := path.toKey caller
  .after w (allowed w.tables caller "ecdh_setting_get") fun _ =>
    .after w (w.tables.readSetting caller key) fun info =>
      match info.payload with
      | none => .fail w (.naming key (.missing (.payload key)))
      | some payload =>
        let next (w : World) (plain : Bytes) : Outcome (Handover SettingInfo) :=
          exchange input w fun w agreement =>
            .after w (do
              let current ← w.tables.getSettingInfo caller key
              demand (current.version.content? = info.version.content? || key.version ≠ 0)
                (.naming key (.showing current.version (.conflict (.changed key current.version.display))))
              Cose.Encrypted.encode plain agreement.shared key.subject.raw input.nonce none)
            fun sealed => .finish w ⟨{ info with payload := some sealed }, agreement.publicKey⟩
        plainPayload caller key payload info.dataKey w next read

/-- What a key service binds its keys to. -/
def context (key : SettingKey) : Result (List Bytes) := do
  return Signer.settingLabel :: (← tenantOf key)

def servicePublicKey (caller : Principal) (path : SettingPath) : Call Bytes := fun w =>
  let key := path.toKey caller
  .after w (readable w.tables caller key.ns) fun _ =>
    .after w (context key) fun context => .request (.servicePublicKey context) .finish

def serviceKey (caller : Principal) (path : SettingPath) (transportKey : Bytes) : Call Bytes := fun w =>
  let key := path.toKey caller
  .after w (allowed w.tables caller "vetkd_encrypted_key") fun _ =>
    .after w (keyHolder w.tables caller key) fun _ =>
      .after w (context key) fun context =>
        .request (.serviceKey context key.key transportKey) fun w bs =>
          .after w (keyHolder w.tables caller key) fun _ => .finish w bs

end TenantVault.Keys
