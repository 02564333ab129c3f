import TenantVault.Request.Forms
import TenantVault.Service.Access
import TenantVault.Setting.Payload

/-! # Operations on settings

A setting begins at version 1. Each new payload archives the one before it, together with its key, under
the version that it had. A read-only setting keeps its payload and status for good; one that is put away
takes no payload until its status changes.

Creating, changing and deleting a setting end by bringing the byte count of its namespace up to date. They
either are refused, or give new tables; only then they may still fail, if that count is not a number.
-/

namespace TenantVault.Tables

open Access

/-- With a key given the payload has to be an encrypted message, otherwise a data item of the declared type. -/
def checkPayload (limit : Json) (payload : Bytes) (encrypted : Bool) (contentType : Json) : Result Unit :=
  if encrypted then Payload.checkEncrypted limit payload
  else do
    let _ ← Payload.decodePlain limit payload contentType

def checkDataKey (dataKey : Option Bytes) : Result Unit :=
  match dataKey with
  | some bs => do
    let _ ← Cose.Encrypted.parse bs
  | none => .ok ()

/-- The failure of a change that was meant for another version than the current one. -/
def mismatch (s : Setting) (given : Int) : Failure :=
  .showing s.version (.showing (.int given) (.conflict (.expected s.version.display given)))

/-- A version that is given has to be the current one. -/
def atVersion (key : SettingKey) (s : Setting) : Result Unit :=
  demand (key.version = 0 || s.version.isInt key.version) (mismatch s key.version)

/-- The tables with a new byte count of a namespace, and an answer if there is such a count. -/
def settle {α : Type} (t : Tables) (name : String) (ns : Namespace) (payloadBytes : Result Json) (a : α) :
    Tables × Result α :=
  match payloadBytes with
  | .ok payloadBytes => (t.putNamespace name { ns with payloadBytes }, .ok a)
  | .error why => (t, .error why)

@[simp] theorem settle_ok {α : Type} (t : Tables) (name : String) (ns : Namespace) (payloadBytes : Json)
    (a : α) : t.settle name ns (.ok payloadBytes) a = (t.putNamespace name { ns with payloadBytes }, .ok a) := rfl

def createSetting (t : Tables) (caller : Principal) (key : SettingKey) (input : NewSetting) (now : Int) :
    Result (Tables × Result SettingStamp) := do
  let ns ← settingNamespace t caller key
  demand (key.version = 0 && (t.getSetting? key).isNone) (.naming key (.conflict (.alreadySet key)))
  checkDataKey input.dataKey
  let contentType := (input.contentType.map Json.int).getD .null
  if let some payload := input.payload then
    checkPayload ns.maxPayloadSize payload input.dataKey.isSome contentType
  let s : Setting := {
    desc := .text (input.desc.getD "")
    createdAt := .int now
    updatedAt := .int now
    status := .int (input.status.getD Setting.readWrite)
    version := .int 1
    readers := .empty
    tags := tagObject (input.tags.getD .empty)
    contentType
    payload := input.payload
    dataKey := input.dataKey }
  return (t.putSetting key s).settle key.ns ns (ns.payloadBytes.plus s.size) s.stamp

/-- The key of a version of a setting, the number spelled as the setting has it. -/
def versionKey (key : SettingKey) (version : Json) : StoredKey :=
  key.stored.withVersion (version.scalar?.getD (.int key.version))

@[simp] theorem versionKey_int (key : SettingKey) (version : Int) :
    versionKey key (.int version) = (key.withVersion version).stored := rfl

/-- The tables with the payload of a setting archived, if it has one. -/
def archivePayload (t : Tables) (key : SettingKey) (s : Setting) (deprecated : Bool) (now : Int) : Tables :=
  if s.payload.isSome then
    let row : ArchivedPayload := ⟨.int now, .bool deprecated, s.payload, s.dataKey⟩
    { t with archived := t.archived.put (versionKey key s.version) row }
  else t

def updatePayload (t : Tables) (caller : Principal) (key : SettingKey) (input : PayloadChange) (now : Int) :
    Result (Tables × Result SettingStamp) := do
  let (ns, s) ← writableSetting t caller key
  demand s.isReadWrite (.disabled .notReadWriteUpdate)
  demand (s.version.isInt input.version) (mismatch s input.version)
  checkDataKey input.dataKey
  let dataKey := input.dataKey.or s.dataKey
  checkPayload ns.maxPayloadSize input.payload dataKey.isSome s.contentType
  let version ← s.version.plus 1
  let t := t.archivePayload key s input.deprecateCurrent now
  let updated := { s with
    status := (input.status.map .int).getD s.status
    payload := some input.payload
    dataKey
    version
    updatedAt := .int now }
  let written := input.payload.length + (input.dataKey.getD []).length
  return (t.putSetting key updated).settle key.ns ns (ns.payloadBytes.plus written) updated.stamp

def updateSetting (t : Tables) (caller : Principal) (key : SettingKey) (input : SettingChange) (now : Int) :
    Result (Tables × SettingStamp) := do
  let (_, s) ← writableSetting t caller key
  atVersion key s
  demand (!s.isReadOnly || input.status.all s.status.isInt) (.disabled .readOnlyStatus)
  let updated := { s with
    status := (input.status.map .int).getD s.status
    desc := (input.desc.map .text).getD s.desc
    tags := (input.tags.map tagObject).getD s.tags
    updatedAt := .int now }
  return (t.putSetting key updated, updated.stamp)

/-- The set is looked at before the setting. -/
def changeReaders (t : Tables) (caller : Principal) (key : SettingKey) (d : Direction) (readers : Principals)
    (now : Int) : Result (Tables × Unit) := do
  readers.check
  let (_, s) ← writableSetting t caller key
  atVersion key s
  demand (!s.isReadOnly) (.disabled .readOnlyUpdate)
  return (t.putSetting key { s with readers := d.apply s.readers readers, updatedAt := .int now }, ())

/-- The version of the key plays no part. -/
def deleteSetting (t : Tables) (caller : Principal) (key : SettingKey) : Result (Tables × Result Unit) := do
  let (ns, s) ← writableSetting t caller key
  demand (!s.isReadOnly) (.disabled .readOnlyDelete)
  return (t.removeSetting key).settle key.ns ns (do return (← ns.payloadBytes.plus (-s.size)).atLeastZero) ()

def getSettingInfo (t : Tables) (caller : Principal) (key : SettingKey) : Result SettingInfo := do
  (← readableSetting t caller key).info key

def archivedPayload (t : Tables) (key : SettingKey) : Result ArchivedPayload :=
  match t.archived.get? key.stored with
  | some a => .ok a
  | none => .error (.naming key (.missing (.storedPayload key)))

/-- A setting with its payload: the live record for version 0 and the current version, else the archive. -/
def readSetting (t : Tables) (caller : Principal) (key : SettingKey) : Result SettingInfo := do
  let s ← readableSetting t caller key
  if key.version = 0 ∨ s.version.isInt key.version then return (← s.fullInfo key)
  let a ← archivedPayload t key
  return { ← s.info key with
    version := .int key.version
    updatedAt := a.archivedAt
    payload := a.payload
    dataKey := a.dataKey }

def readArchived (t : Tables) (caller : Principal) (key : SettingKey) : Result ArchivedInfo := do
  let s ← readableSetting t caller key
  demand (key.version ≠ 0 && (← s.version.more key.version)) (.naming key (.missing (.archivedVersion key)))
  let a ← archivedPayload t key
  return ⟨key.version, a.archivedAt, a.deprecated, a.payload, a.dataKey⟩

/-- Whether a user may list settings, those of a subject if it is given. -/
def listsOwn (ns : Namespace) (caller : Principal) (subject : Option Principal) : Result Bool := do
  if !ns.isUser caller then return false
  return !(← ns.isArchived) && subject.all (caller = ·)

/-- Subjects and keys of live settings. Who cannot read everything gets his own as a user. -/
def listSettings (t : Tables) (caller : Principal) (nsName : String) (userOwned : Bool)
    (subject : Option Principal) : Result (List (Principal × Option Bytes)) := do
  let ns ← lookup t nsName
  let full := ns.hasFullRead caller
  if !full then demand (← listsOwn ns caller subject) (.denied .noPermission)
  let subject := if full then subject else some caller
  let scope := if userOwned then SettingKey.userScope else SettingKey.serverScope
  return (← t.scan nsName (some scope) subject).map fun row => (row.1.subject, row.1.key)

end TenantVault.Tables
