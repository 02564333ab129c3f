import TenantVault.Bytes
import TenantVault.Principals
import TenantVault.Store.Quantity

/-! # Settings

The live record of a setting, what is kept of its earlier versions, and the views of both that callers
get. Fields that no rule of this program fixes may hold any document, since a snapshot may.
-/

namespace TenantVault

structure Setting where
  desc : Json
  createdAt : Json
  updatedAt : Json
  status : Json
  version : Json
  /-- Who may read it besides those whose role allows it. -/
  readers : Principals
  tags : Json
  contentType : Json
  payload : Option Bytes
  /-- The encrypted key under which the payload is encrypted. -/
  dataKey : Option Bytes

/-- Named texts as a document. -/
def tagObject (t : Table String String) : Json := .object (t.rows.map fun row => (row.1, .text row.2))

/-- A tag that is given as a name and a value. -/
def tagPair (v : Json) : Result (Scalar × Json) :=
  match v.elements? with
  | some [name, value] => match name.scalar? with
    | some name => .ok (name, value)
    | none => .error (.breakdown .wrongType)
  | some _ => .error (.breakdown .notPair)
  | none => .error (.breakdown .wrongType)

/-- Tags as a table, from an object or from names and values one after the other. -/
def tagTable (v : Json) : Result (Table Scalar Json) :=
  match v with
  | .object members => .ok (.ofRows (members.map fun m => (.text m.1, m.2)))
  | _ => match v.elements? with
    | some pairs => do return .ofRows (← pairs.mapM tagPair)
    | none => .error (.breakdown .wrongType)

namespace Setting

def readWrite : Int := 0

def readOnly : Int := 1

def size (s : Setting) : Nat := (s.payload.getD []).length + (s.dataKey.getD []).length

def isReadWrite (s : Setting) : Bool := s.status.isInt readWrite

def isReadOnly (s : Setting) : Bool := s.status.isInt readOnly

end Setting

structure ArchivedPayload where
  archivedAt : Json
  deprecated : Json
  payload : Option Bytes
  dataKey : Option Bytes

structure SettingInfo where
  key : Bytes
  subject : Principal
  desc : Json
  createdAt : Json
  updatedAt : Json
  status : Json
  version : Json
  readers : Principals
  tags : Table Scalar Json
  contentType : Json
  dataKey : Option Bytes
  payload : Option Bytes

/-- A setting as it is shown under a key, without its payload. -/
def Setting.info (s : Setting) (key : SettingKey) : Result SettingInfo := do
  let tags ← tagTable s.tags
  return {
    key := key.key
    subject := key.subject
    desc := s.desc
    createdAt := s.createdAt
    updatedAt := s.updatedAt
    status := s.status
    version := s.version
    readers := s.readers
    tags
    contentType := s.contentType
    dataKey := none
    payload := none }

def Setting.fullInfo (s : Setting) (key : SettingKey) : Result SettingInfo := do
  return { ← s.info key with dataKey := s.dataKey, payload := s.payload }

/-- One earlier version. -/
structure ArchivedInfo where
  version : Int
  archivedAt : Json
  deprecated : Json
  payload : Option Bytes
  dataKey : Option Bytes

/-- What a write of a setting reports. -/
structure SettingStamp where
  createdAt : Json
  updatedAt : Json
  version : Json

def Setting.stamp (s : Setting) : SettingStamp := ⟨s.createdAt, s.updatedAt, s.version⟩

end TenantVault
