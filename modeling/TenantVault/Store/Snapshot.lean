import TenantVault.Config
import TenantVault.Encoding.Base64
import TenantVault.Json.Reader
import TenantVault.Store.Tables

/-! # Snapshots

The tables as a JSON document and back. Octet strings are in base 64, principals in their text form, the
gas balance as text because it may exceed 64 bits. Rows of settings are in the order of their keys,
members of sets in ascending order, namespaces in the order of the table.

A field that is neither octets nor principals nor a balance is read as it stands and written as it was read.
Names and version numbers serve as keys, for which they have to be scalars.
-/

namespace TenantVault

namespace Snapshot

def formatVersion : Int := 1

def octets (bs : Option Bytes) : Json :=
  match bs with
  | some bs => .text (Base64.render bs)
  | none => .null

def principals (ps : Principals) : Json := .list (ps.texts.map .text)

def ofKey (key : StoredKey) : Json :=
  .object [("ns", .ofScalar key.ns), ("scope", .ofScalar key.scope), ("subject", .text key.subject.toText),
    ("key", octets key.key), ("version", .ofScalar key.version)]

def ofGovernance (g : Governance) : Result Json := do
  let apis ← ordered (sort? Scalar.compare Scalar.isComparable g.allowedApis.keys)
  return .object [("name", g.name), ("schnorr_key_name", g.signingKeyName),
    ("vetkd_key_name", g.derivationKeyName), ("controllers", principals g.controllers),
    ("managers", principals g.managers), ("auditors", principals g.auditors),
    ("allowed_apis", .list (apis.map .ofScalar))]

/-- A balance as text; a number of more than 4300 digits has none. -/
def ofBalance (n : Int) : Result Json :=
  if n.natAbs < Cbor.Value.unprintable then .ok (.text (SettingKey.intText n))
  else .error (.breakdown .numberTooLong)

def ofNamespace (ns : Namespace) : Result Json := do
  let balance ← ofBalance ns.gasBalance
  return .object [("name", ns.name), ("desc", ns.desc), ("created_at", ns.createdAt),
    ("updated_at", ns.updatedAt), ("max_payload_size", ns.maxPayloadSize),
    ("payload_bytes_total", ns.payloadBytes), ("status", ns.status), ("visibility", ns.visibility),
    ("managers", principals ns.managers), ("auditors", principals ns.auditors),
    ("users", principals ns.users),
    ("fixed_id_names", .object (ns.delegators.rows.map fun row => (row.1, principals row.2))),
    ("session_expires_in_ms", ns.sessionLifetime), ("gas_balance", balance)]

def ofSetting (s : Setting) : Json :=
  .object [("desc", s.desc), ("created_at", s.createdAt), ("updated_at", s.updatedAt), ("status", s.status),
    ("version", s.version), ("readers", principals s.readers), ("tags", s.tags), ("ctype", s.contentType),
    ("payload", octets s.payload), ("dek", octets s.dataKey)]

def ofArchived (a : ArchivedPayload) : Json :=
  .object [("archived_at", a.archivedAt), ("deprecated", a.deprecated), ("payload", octets a.payload),
    ("dek", octets a.dataKey)]

/-- Rows in the order of their keys, each with its key. -/
def ofRows {α : Type} (name : String) (ofRow : α → Json) (t : Table StoredKey α) : Result Json := do
  let rows ← ordered (StoredKey.sort? t.rows)
  return .list (rows.map fun row => .object [("path", ofKey row.1), (name, ofRow row.2)])

def ofTables (t : Tables) : Result Json := do
  let state ← ofGovernance t.governance
  let namespaces ← t.namespaces.values.mapM ofNamespace
  let settings ← ofRows "setting" ofSetting t.settings
  let archived ← ofRows "archived" ofArchived t.archived
  return .object [("version", .int formatVersion), ("state", state), ("namespaces", .list namespaces),
    ("settings", settings), ("archived", archived)]

mutual

/-- Whether every integer fits into 64 bits, signed or not. -/
def fits : Json → Bool
  | .int n => -(2 ^ 63) ≤ n && n < 2 ^ 64
  | .list vs => allFit vs
  | .object members => allMembersFit members
  | _ => true

def allFit : List Json → Bool
  | [] => true
  | v :: vs => fits v && allFit vs

def allMembersFit : List (String × Json) → Bool
  | [] => true
  | (_, v) :: members => fits v && allMembersFit members

end

/-- The deepest nesting of lists and objects that is written. -/
def maxNesting : Nat := 254

mutual

/-- How deep lists and objects are nested; an empty list is as shallow as a number. -/
def nesting : Json → Nat
  | .list [] => 0
  | .list (v :: vs) => 1 + max (nesting v) (deepest vs)
  | .object members => 1 + deepestMember members
  | _ => 0

def deepest : List Json → Nat
  | [] => 0
  | v :: vs => max (nesting v) (deepest vs)

def deepestMember : List (String × Json) → Nat
  | [] => 0
  | (_, v) :: members => max (nesting v) (deepestMember members)

end

/-- The snapshot of the tables as text. -/
def render (t : Tables) : Result String := do
  let document ← ofTables t
  if fits document && nesting document ≤ maxNesting then return document.render
  throw (.breakdown .unwritable)

/-! Reading. A member that is absent has a default or is an error; one of another type is an error. -/

abbrev Reader (α : Type) := Json → Result α

def wrongType {α : Type} : Result α := .error (.breakdown .wrongType)

def notRecord {α : Type} : Result α := .error (.breakdown .notRecord)

def readOctets : Reader Bytes
  | .text s => match Base64.decode s with
    | .ok bs => .ok bs
    | .error fault => .error (.breakdown (.base64 fault))
  | _ => wrongType

def readOptional {α : Type} (reader : Reader α) : Reader (Option α)
  | .null => .ok none
  | v => do return some (← reader v)

def readPrincipal : Reader Principal
  | .text s => Config.principalOf s
  | _ => notRecord

def elements : Reader (List Json) := fun v =>
  match v.elements? with
  | some vs => .ok vs
  | none => wrongType

/-- What can be a key. -/
def readScalar : Reader Scalar := fun v =>
  match v.scalar? with
  | some s => .ok s
  | none => wrongType

def readList {α : Type} (reader : Reader α) : Reader (List α) := fun v => do
  (← elements v).mapM reader

def readPrincipals : Reader Principals := fun v => do return .ofList (← readList readPrincipal v)

/-- A table with every value read in turn. -/
def readRows {α : Type} (reader : Reader α) : Reader (Table String α)
  | .object members => do
    let rows ← members.mapM fun m => do return (m.1, ← reader m.2)
    return .ofRows rows
  | _ => notRecord

def required {α : Type} (v : Json) (name : String) (reader : Reader α) : Result α :=
  match v with
  | .object members => match Table.lookup name members with
    | some m => reader m
    | none => .error (.breakdown (.missingField name))
  | _ => wrongType

def withDefault {α : Type} (v : Json) (name : String) (default : α) (reader : Reader α) : Result α :=
  match v with
  | .object members => match Table.lookup name members with
    | some m => reader m
    | none => .ok default
  | _ => notRecord

/-- A balance given as a number, fractions cut off, or as text. -/
def readBalance : Reader Int
  | .int n => .ok n
  | .bool b => .ok (if b then 1 else 0)
  | .float x => if x.isFinite then .ok x.truncate else .error (.breakdown .infiniteNumber)
  | .text s => match Text.readInteger? s with
    | some n => .ok n
    | none => .error (.breakdown .unreadableNumber)
  | _ => wrongType

/-- The key of a row as it is given. -/
structure Path where
  ns : Json
  scope : Json
  subject : Principal
  key : Option Bytes
  version : Json

def readPath (v : Json) : Result Path := do
  let ns ← required v "ns" .ok
  let scope ← required v "scope" .ok
  let subject ← required v "subject" readPrincipal
  let key ← required v "key" (readOptional readOctets)
  let version ← required v "version" .ok
  return { ns, scope, subject, key, version }

/-- The key of a row at a version. -/
def Path.keyAt (path : Path) (version : Json) : Result StoredKey := do
  let ns ← readScalar path.ns
  let scope ← readScalar path.scope
  let version ← readScalar version
  return { ns, scope, subject := path.subject, key := path.key, version }

def readGovernance (v : Json) : Result Governance := do
  let name ← withDefault v "name" (.text Config.defaultName) .ok
  let signingKeyName ← withDefault v "schnorr_key_name" (.text Config.defaultKeyName) .ok
  let derivationKeyName ← withDefault v "vetkd_key_name" (.text Config.defaultKeyName) .ok
  let controllers ← withDefault v "controllers" .empty readPrincipals
  let managers ← withDefault v "managers" .empty readPrincipals
  let auditors ← withDefault v "auditors" .empty readPrincipals
  let apis ← withDefault v "allowed_apis" [] (readList readScalar)
  return { name, signingKeyName, derivationKeyName, controllers, managers, auditors,
           allowedApis := .ofRows (apis.map fun api => (api, ())) }

def readNamespace (v : Json) : Result Namespace := do
  let name ← required v "name" .ok
  let desc ← withDefault v "desc" (.text "") .ok
  let createdAt ← withDefault v "created_at" (.int 0) .ok
  let updatedAt ← withDefault v "updated_at" (.int 0) .ok
  let maxPayloadSize ← withDefault v "max_payload_size" (.int maxPayloadSize) .ok
  let payloadBytes ← withDefault v "payload_bytes_total" (.int 0) .ok
  let status ← withDefault v "status" (.int 0) .ok
  let visibility ← withDefault v "visibility" (.int 0) .ok
  let managers ← withDefault v "managers" .empty readPrincipals
  let auditors ← withDefault v "auditors" .empty readPrincipals
  let users ← withDefault v "users" .empty readPrincipals
  let delegators ← withDefault v "fixed_id_names" .empty (readRows readPrincipals)
  let sessionLifetime ← withDefault v "session_expires_in_ms" (.int Namespace.defaultSessionLifetime) .ok
  let gasBalance ← withDefault v "gas_balance" 0 readBalance
  return { name, desc, createdAt, updatedAt, maxPayloadSize, payloadBytes, status, visibility, managers,
           auditors, users, delegators, sessionLifetime, gasBalance }

def readSetting (v : Json) : Result Setting := do
  let desc ← withDefault v "desc" (.text "") .ok
  let createdAt ← withDefault v "created_at" (.int 0) .ok
  let updatedAt ← withDefault v "updated_at" (.int 0) .ok
  let status ← withDefault v "status" (.int 0) .ok
  let version ← withDefault v "version" (.int 1) .ok
  let readers ← withDefault v "readers" .empty readPrincipals
  let tags ← withDefault v "tags" (.object []) .ok
  let contentType ← withDefault v "ctype" .null .ok
  let payload ← withDefault v "payload" none (readOptional readOctets)
  let dataKey ← withDefault v "dek" none (readOptional readOctets)
  return { desc, createdAt, updatedAt, status, version, readers, tags, contentType, payload, dataKey }

def readArchived (v : Json) : Result ArchivedPayload := do
  let archivedAt ← required v "archived_at" .ok
  let deprecated ← withDefault v "deprecated" (.bool false) .ok
  let payload ← required v "payload" (readOptional readOctets)
  let dataKey ← withDefault v "dek" none (readOptional readOctets)
  return { archivedAt, deprecated, payload, dataKey }

/-- A row under its name. -/
def readNamespaceRow (v : Json) : Result (Scalar × Namespace) := do
  let ns ← readNamespace v
  return (← readScalar ns.name, ns)

/-- A live row; whatever its key says, it is at version 0. -/
def readSettingRow (v : Json) : Result (StoredKey × Setting) := do
  let path ← required v "path" readPath
  let s ← required v "setting" readSetting
  return (← path.keyAt (.int 0), s)

def readArchivedRow (v : Json) : Result (StoredKey × ArchivedPayload) := do
  let path ← required v "path" readPath
  let a ← required v "archived" readArchived
  return (← path.keyAt path.version, a)

/-- Whether a version number is the one that is supported, whatever kind of number it is. -/
def isSupported (version : Json) : Bool := version.isInt formatVersion

def readTables (v : Json) : Result Tables := do
  let version ← withDefault v "version" .null .ok
  if !isSupported version then throw (.value (.snapshotVersion version.inspect))
  let governance ← readGovernance (← withDefault v "state" (.object []) .ok)
  let namespaces ← withDefault v "namespaces" [] (readList readNamespaceRow)
  let settings ← withDefault v "settings" [] (readList readSettingRow)
  let archived ← withDefault v "archived" [] (readList readArchivedRow)
  return {
    governance
    namespaces := .ofRows namespaces
    settings := .ofRows settings
    archived := .ofRows archived }

/-- The tables that a text is a snapshot of. -/
def parse (text : String) : Result Tables :=
  match Json.parse? text with
  | none => .error (.breakdown .notJson)
  | some v => readTables v

end Snapshot

end TenantVault
