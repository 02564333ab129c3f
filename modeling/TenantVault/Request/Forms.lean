import TenantVault.Name
import TenantVault.Request.Entry
import TenantVault.Setting.Key
import TenantVault.Text.LowerCase

/-! # Requests

The records that the operations of the service take, and how each is read from its fields. A record that
was read satisfies the conditions of its kind: names are names, sets that grant something are in order,
numbers are in range.
-/

namespace TenantVault

/-- The largest payload that a namespace can allow. -/
def maxPayloadSize : Nat := 2000000

/-- The longest key of a setting. -/
def maxKeyLength : Nat := 64

namespace Form

open Entry

def nameFault? (s : String) : Option FieldFault := (Name.fault? s).map .argument

def readName : Reader String := fun v => (readText v).refine nameFault?

/-- A name in any case; it is kept in lowercase. -/
def readFoldedName : Reader String := fun v => ((readText v).map Text.lower).refine nameFault?

def readPrincipals : Reader Principals := readSet readPrincipal

/-- A set that grants something. -/
def readGrantees : Reader Principals := fun v =>
  (readPrincipals v).refine fun ps => (Principals.fault? ps).map .argument

def payloadSizeFault? (n : Int) : Option FieldFault :=
  if n ≤ 0 then some .payloadSizeNotPositive
  else if maxPayloadSize < n then some (.payloadSizeTooLarge maxPayloadSize)
  else none

def readPayloadSize : Reader (Option Int) := fun v => (optional readInteger v).refine (onSome payloadSizeFault?)

def visibilityFault? (n : Int) : Option FieldFault := if n = 0 ∨ n = 1 then none else some .visibility

/-- Tags under names, the first bad name in the order of the table being the reason of a refusal. -/
def readTags : Reader (Option (Table String String)) := fun v =>
  (optional (readTable readText) v).refine (onSome fun tags => tags.keys.findSome? nameFault?)

def readOptionalInteger (fault? : Int → Option FieldFault) : Reader (Option Int) := fun v =>
  (optional readInteger v).refine (onSome fault?)

def lengthFault? (size : Nat) (fault : Nat → FieldFault) (bs : Bytes) : Option FieldFault :=
  if bs.length = size then none else some (fault bs.length)

end Form

/-- The address of a setting as a caller gives it. -/
structure SettingPath where
  ns : String
  userOwned : Bool
  /-- The caller where it is left out. -/
  subject : Option Principal
  key : Bytes
  version : Int

structure NewNamespace where
  name : String
  visibility : Int
  desc : Option String
  maxPayloadSize : Option Int
  managers : Principals
  auditors : Principals
  users : Principals
  sessionLifetime : Option Int

structure NamespaceChange where
  name : String
  desc : Option String
  maxPayloadSize : Option Int
  status : Option Int
  visibility : Option Int
  sessionLifetime : Option Int

structure DelegatorChange where
  ns : String
  name : String
  delegators : Principals

structure NewSetting where
  payload : Option Bytes
  desc : Option String
  status : Option Int
  tags : Option (Table String String)
  contentType : Option Int
  dataKey : Option Bytes

structure SettingChange where
  desc : Option String
  status : Option Int
  tags : Option (Table String String)

structure PayloadChange where
  /-- The version that the change is meant to follow. -/
  version : Int
  payload : Bytes
  dataKey : Option Bytes
  status : Option Int
  deprecateCurrent : Bool

structure ExchangeRequest where
  nonce : Bytes
  publicKey : Bytes

structure DelegationRequest where
  ns : String
  name : String
  sessionKey : Bytes
  signature : Bytes

open Entry Form

def SettingPath.ofFields (fields : Fields) : Checked SettingPath :=
  SettingPath.mk
    <$> required fields "ns" readName
    <*> withDefault fields "user_owned" false readFlag
    <*> withDefault fields "subject" none (optional readPrincipal)
    <*> required fields "key" (fun v => (readBytes v).refine fun key =>
      if maxKeyLength < key.length then some (.keyTooLong maxKeyLength) else none)
    <*> withDefault fields "version" 0 (fun v => (readInteger v).refine (atLeast 0))

def SettingPath.toKey (path : SettingPath) (caller : Principal) : SettingKey where
  ns := path.ns
  scope := if path.userOwned then SettingKey.userScope else SettingKey.serverScope
  subject := path.subject.getD caller
  key := path.key
  version := path.version

def NewNamespace.ofFields (fields : Fields) : Checked NewNamespace :=
  NewNamespace.mk
    <$> required fields "name" readName
    <*> withDefault fields "visibility" 0 (fun v => (readInteger v).refine visibilityFault?)
    <*> withDefault fields "desc" none (optional readText)
    <*> withDefault fields "max_payload_size" none readPayloadSize
    <*> required fields "managers" readGrantees
    <*> withDefault fields "auditors" .empty readPrincipals
    <*> withDefault fields "users" .empty readPrincipals
    <*> withDefault fields "session_expires_in_ms" none (readOptionalInteger (atLeast 0))

def NamespaceChange.ofFields (fields : Fields) : Checked NamespaceChange :=
  NamespaceChange.mk
    <$> required fields "name" readText
    <*> withDefault fields "desc" none (optional readText)
    <*> withDefault fields "max_payload_size" none readPayloadSize
    <*> withDefault fields "status" none (readOptionalInteger (between (-1) 1))
    <*> withDefault fields "visibility" none (readOptionalInteger visibilityFault?)
    <*> withDefault fields "session_expires_in_ms" none (readOptionalInteger (atLeast 0))

def DelegatorChange.ofFields (fields : Fields) : Checked DelegatorChange :=
  DelegatorChange.mk
    <$> required fields "ns" readName
    <*> required fields "name" readFoldedName
    <*> required fields "delegators" readGrantees

def NewSetting.ofFields (fields : Fields) : Checked NewSetting :=
  Checked.refine (fun s =>
      if s.status = some 1 ∧ s.payload = none then some .readOnlyWithoutPayload else none) <|
    NewSetting.mk
      <$> withDefault fields "payload" none (optional readBytes)
      <*> withDefault fields "desc" none (optional readText)
      <*> withDefault fields "status" none (readOptionalInteger (between 0 1))
      <*> withDefault fields "tags" none readTags
      <*> withDefault fields "ctype" none (readOptionalInteger (between 2 6))
      <*> withDefault fields "dek" none (optional readBytes)

def SettingChange.ofFields (fields : Fields) : Checked SettingChange :=
  SettingChange.mk
    <$> withDefault fields "desc" none (optional readText)
    <*> withDefault fields "status" none (readOptionalInteger (between (-1) 1))
    <*> withDefault fields "tags" none readTags

def PayloadChange.ofFields (fields : Fields) : Checked PayloadChange :=
  PayloadChange.mk
    <$> required fields "version" (fun v => (readInteger v).refine (atLeast 1))
    <*> required fields "payload" readBytes
    <*> withDefault fields "dek" none (optional readBytes)
    <*> withDefault fields "status" none (readOptionalInteger (between (-1) 1))
    <*> withDefault fields "deprecate_current" false readFlag

def ExchangeRequest.ofFields (fields : Fields) : Checked ExchangeRequest :=
  ExchangeRequest.mk
    <$> required fields "nonce" (fun v => (readBytes v).refine (lengthFault? 12 .nonceLength))
    <*> required fields "public_key" (fun v => (readBytes v).refine (lengthFault? 32 .exchangeKeyLength))

def DelegationRequest.ofFields (fields : Fields) : Checked DelegationRequest :=
  DelegationRequest.mk
    <$> required fields "ns" readName
    <*> required fields "name" readFoldedName
    <*> required fields "pubkey" readBytes
    <*> required fields "sig" readBytes

end TenantVault
