import TenantVault.Namespace.Record
import TenantVault.Setting.Record

/-! # The tables of the store

Namespaces by name, live settings by their keys at version 0, superseded payloads by their keys at the
superseded version, and the record that governs the whole. Listings are in the order of names and keys; where
these cannot be compared there is no listing.
-/

namespace TenantVault

structure Governance where
  name : Json
  signingKeyName : Json
  derivationKeyName : Json
  controllers : Principals
  /-- Who may create namespaces. -/
  managers : Principals
  /-- Who may list namespaces. -/
  auditors : Principals
  /-- The operations that may be called; the empty set allows all. -/
  allowedApis : Table Scalar Unit

structure Tables where
  governance : Governance
  namespaces : Table Scalar Namespace
  settings : Table StoredKey Setting
  archived : Table StoredKey ArchivedPayload

/-- What has no order is of a wrong type. -/
def ordered {α : Type} (sorted : Option α) : Result α :=
  match sorted with
  | some a => .ok a
  | none => .error (.breakdown .wrongType)

/-- A set of texts among the sets of scalars. -/
def apiSet (apis : SortedSet String) : Table Scalar Unit :=
  .ofRows (apis.toList.map fun api => (.text api, ()))

namespace Tables

def ofGovernance (governance : Governance) : Tables := ⟨governance, .empty, .empty, .empty⟩

/-- The names in descending order. -/
def names (t : Tables) : Result (List Scalar) :=
  ordered (sort? (fun a b => b.compare a) Scalar.isComparable t.namespaces.keys)

/-- The first `count` items; a negative number leaves as many out at the end. -/
def firstItems {α : Type} (count : Int) (items : List α) : List α :=
  if 0 ≤ count then items.take count.toNat else items.take (items.length - count.natAbs)

/-- The names that come before another one. -/
def namesBefore (last : String) (names : List Scalar) : Result (List Scalar) :=
  if names.all (·.isComparable (.text last)) then .ok (names.filter (·.compare (.text last) = .lt))
  else .error (.breakdown .wrongType)

/-- Namespaces in descending order of their names, those before `before` if it is given. -/
def listNamespaces (t : Tables) (before : Option String) (count : Int) : Result (List Namespace) := do
  let names ← t.names
  let names ← match before with
    | some last => namesBefore last names
    | none => pure names
  return (firstItems count names).filterMap t.namespaces.get?

def getSetting? (t : Tables) (key : SettingKey) : Option Setting := t.settings.get? key.current.stored

/-- The live settings of a namespace in the order of their keys, of one scope or one subject if wanted. -/
def scan (t : Tables) (ns : String) (scope : Option Int) (subject : Option Principal) :
    Result (List (StoredKey × Setting)) := do
  let rows ← ordered (StoredKey.sort? (t.settings.rows.filter fun row => row.1.ns == .text ns))
  return rows.filter fun row => scope.all (row.1.scope == .int ·) && subject.all (row.1.subject = ·)

/-- How many live settings a namespace has, of one scope if wanted. -/
def countSettings (t : Tables) (ns : Json) (scope : Option Int) : Nat :=
  t.settings.keys.countP fun key => decide (ns.content? = some key.ns.content) && scope.all (key.scope == .int ·)

/-- The tables without a setting and all its archived versions. -/
def removeSetting (t : Tables) (key : SettingKey) : Tables :=
  { t with
    settings := t.settings.erase key.current.stored
    archived := t.archived.filterKeys fun k => k.current != key.current.stored }

def putNamespace (t : Tables) (name : String) (ns : Namespace) : Tables :=
  { t with namespaces := t.namespaces.put (.text name) ns }

def putSetting (t : Tables) (key : SettingKey) (s : Setting) : Tables :=
  { t with settings := t.settings.put key.current.stored s }

end Tables

end TenantVault
