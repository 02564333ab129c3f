import TenantVault.Name
import TenantVault.Store.Tables

/-! # Access checks

The conditions under which an operation goes on, each with the failure that it ends in otherwise. The
governing record decides who may call what, the record of a namespace everything inside it.
-/

namespace TenantVault.Access

def deny {α : Type} (why : Denial) : Result α := .error (.denied why)

/-- Continues only if a condition holds. -/
def demand (condition : Bool) (otherwise : Failure) : Result Unit :=
  if condition then .ok () else .error otherwise

@[simp] theorem demand_eq_ok_iff (condition : Bool) (otherwise : Failure) :
    demand condition otherwise = .ok () ↔ condition = true := by
  cases condition <;> simp [demand]

def authenticated (caller : Principal) : Result Unit :=
  demand (!caller.isAnonymous) (.denied .anonymous)

/-- Whether the allow-list lets an operation be called. -/
def allows (t : Tables) (api : String) : Bool :=
  t.governance.allowedApis.isEmpty || t.governance.allowedApis.contains (.text api)

def allowed (t : Tables) (caller : Principal) (api : String) : Result Unit := do
  authenticated caller
  demand (allows t api) (.denied (.apiNotAllowed api))

def controller (t : Tables) (caller : Principal) : Result Unit :=
  demand (caller ∈ t.governance.controllers) (.denied .notController)

/-- The record of a namespace. -/
def lookup (t : Tables) (name : String) : Result Namespace :=
  match t.namespaces.get? (.text name) with
  | some ns => .ok ns
  | none => .error (.missing (.namespaceRow name))

/-- The record of a namespace of which a condition holds. -/
def namespaceWhere (t : Tables) (name : String) (condition : Namespace → Result Bool) :
    Result Namespace := do
  let ns ← lookup t name
  demand (← condition ns) (.denied .noPermission)
  return ns

def readable (t : Tables) (caller : Principal) (name : String) : Result Namespace :=
  namespaceWhere t name (·.canRead caller)

def writable (t : Tables) (caller : Principal) (name : String) : Result Namespace :=
  namespaceWhere t name (·.canWrite caller)

def keyHolder (t : Tables) (caller : Principal) (key : SettingKey) : Result Namespace :=
  namespaceWhere t key.ns (·.canHaveKey caller key)

def signing (t : Tables) (caller : Principal) (name : String) : Result Namespace :=
  namespaceWhere t name (·.canSign caller)

/-- The scope that a token for a caller states. -/
def tokenScope (t : Tables) (caller : Principal) (name : String) : Result String := do
  match (← lookup t name).tokenScope? caller name with
  | some scope => return scope
  | none => deny .noPermission

def getSetting (t : Tables) (key : SettingKey) : Result Setting :=
  match t.getSetting? key with
  | some s => .ok s
  | none => .error (.naming key (.missing (.setting key)))

/-- A setting that the caller may read, at a version that it has reached. -/
def readableSetting (t : Tables) (caller : Principal) (key : SettingKey) : Result Setting := do
  let ns ← lookup t key.ns
  let access ← ns.readAccess caller key
  demand (access != .refused) (.denied .noPermission)
  let s ← getSetting t key
  demand (access == .granted || decide (caller ∈ s.readers)) (.denied .noPermission)
  demand (!(← s.version.less key.version)) (.naming key (.missing (.version key)))
  return s

/-- The namespace of a setting that the caller may write. -/
def settingNamespace (t : Tables) (caller : Principal) (key : SettingKey) : Result Namespace :=
  namespaceWhere t key.ns fun ns => .ok (ns.canWriteSetting caller key)

def writableSetting (t : Tables) (caller : Principal) (key : SettingKey) : Result (Namespace × Setting) := do
  let ns ← settingNamespace t caller key
  let s ← getSetting t key
  return (ns, s)

end TenantVault.Access
