import TenantVault.Identity
import TenantVault.Request.Forms
import TenantVault.Service.Access

/-! # Operations on namespaces

Creating, changing and deleting namespaces, their members and the delegators of their named identities. An
operation takes the tables and gives new tables with its answer, or a failure and then no tables.
-/

namespace TenantVault

structure NamespaceInfo where
  record : Namespace
  /-- Settings that belong to the namespace. -/
  settingsTotal : Nat
  /-- Settings that belong to their subjects. -/
  userSettingsTotal : Nat

/-- The three groups of a namespace. -/
inductive MemberKind where
  | manager
  | auditor
  | user
  deriving DecidableEq, Repr

def MemberKind.ofText? (s : String) : Option MemberKind :=
  if s = "manager" then some .manager
  else if s = "auditor" then some .auditor
  else if s = "user" then some .user
  else none

def Namespace.members (ns : Namespace) : MemberKind → Principals
  | .manager => ns.managers
  | .auditor => ns.auditors
  | .user => ns.users

def Namespace.withMembers (ns : Namespace) (kind : MemberKind) (ps : Principals) : Namespace :=
  match kind with
  | .manager => { ns with managers := ps }
  | .auditor => { ns with auditors := ps }
  | .user => { ns with users := ps }

namespace Tables

open Access

def namespaceInfo (t : Tables) (ns : Namespace) : NamespaceInfo where
  record := ns
  settingsTotal := t.countSettings ns.name (some SettingKey.serverScope)
  userSettingsTotal := t.countSettings ns.name (some SettingKey.userScope)

def createNamespace (t : Tables) (creator : Principal) (input : NewNamespace) (now : Int) :
    Result (Tables × NamespaceInfo) := do
  demand (creator ∈ t.governance.managers) (.denied .noPermission)
  demand (!t.namespaces.contains (.text input.name)) (.namespaceExists input.name)
  let ns : Namespace := {
    name := .text input.name
    desc := .text (input.desc.getD "")
    createdAt := .int now
    updatedAt := .int now
    maxPayloadSize := .int (input.maxPayloadSize.getD maxPayloadSize)
    payloadBytes := .int 0
    status := .int 0
    visibility := .int input.visibility
    managers := input.managers
    auditors := input.auditors
    users := input.users
    delegators := .empty
    sessionLifetime := .int (input.sessionLifetime.getD Namespace.defaultSessionLifetime)
    gasBalance := 0 }
  let t := t.putNamespace input.name ns
  return (t, t.namespaceInfo ns)

def defaultPage : Int := 10

def maxPage : Int := 100

def namespacePage (t : Tables) (caller : Principal) (before : Option String) (count : Option Int) :
    Result (List NamespaceInfo) := do
  demand (caller ∈ t.governance.managers || caller ∈ t.governance.auditors) (.denied .noPermission)
  let count := min (count.getD defaultPage) maxPage
  if count ≤ 0 then return []
  return (← t.listNamespaces before count).map t.namespaceInfo

def getNamespaceInfo (t : Tables) (caller : Principal) (name : String) : Result NamespaceInfo := do
  return t.namespaceInfo (← readable t caller name)

def updateNamespace (t : Tables) (caller : Principal) (input : NamespaceChange) (now : Int) :
    Result (Tables × Unit) := do
  let ns ← writable t caller input.name
  return (t.putNamespace input.name { ns with
    desc := (input.desc.map .text).getD ns.desc
    maxPayloadSize := (input.maxPayloadSize.map .int).getD ns.maxPayloadSize
    status := (input.status.map .int).getD ns.status
    visibility := (input.visibility.map .int).getD ns.visibility
    sessionLifetime := (input.sessionLifetime.map .int).getD ns.sessionLifetime
    updatedAt := .int now }, ())

def deleteNamespace (t : Tables) (caller : Principal) (name : String) : Result (Tables × Unit) := do
  let _ ← writable t caller name
  let total := t.countSettings (.text name) none
  demand (total == 0) (.namespaceNotEmpty name total)
  return ({ t with namespaces := t.namespaces.erase (.text name) }, ())

/-- The set is looked at before the namespace. -/
def changeMembers (t : Tables) (caller : Principal) (name : String) (kind : MemberKind) (d : Direction)
    (ps : Principals) (now : Int) : Result (Tables × Unit) := do
  ps.check
  let ns ← writable t caller name
  return (t.putNamespace name { ns.withMembers kind (d.apply (ns.members kind) ps) with updatedAt := .int now }, ())

def isMember (t : Tables) (caller : Principal) (name kind : String) (user : Principal) : Result Bool := do
  let ns ← readable t caller name
  match MemberKind.ofText? kind with
  | some kind => return decide (user ∈ ns.members kind)
  | none => throw (.argument (.memberKind kind))

/-- Anybody may add to the balance of a namespace. -/
def topUp (t : Tables) (name : String) (amount now : Int) : Result (Tables × Int) := do
  demand (0 < amount) (.argument .topUpAmount)
  let ns ← lookup t name
  return (t.putNamespace name { ns with gasBalance := ns.gasBalance + amount, updatedAt := .int now }, amount)

/-- Who may sign in as a named identity; the name may be spelled in any case. -/
def delegatorsOf (ns : Namespace) (name : String) : Result Principals :=
  match ns.delegators.get? (Text.lower name) with
  | some ps => .ok ps
  | none => .error (.missing (.delegatedName name))

def getDelegators (t : Tables) (caller : Principal) (nsName name : String) : Result Principals := do
  delegatorsOf (← readable t caller nsName) name

def addDelegators (t : Tables) (caller : Principal) (input : DelegatorChange) (now : Int) :
    Result (Tables × Principals) := do
  let ns ← writable t caller input.ns
  let all := ((ns.delegators.get? input.name).getD .empty).union input.delegators
  return (t.putNamespace input.ns { ns with delegators := ns.delegators.put input.name all, updatedAt := .int now }, all)

/-- A name that nobody is left under is dropped. -/
def removeDelegators (t : Tables) (caller : Principal) (input : DelegatorChange) (now : Int) :
    Result (Tables × Unit) := do
  let ns ← writable t caller input.ns
  let delegators := match ns.delegators.get? input.name with
    | none => ns.delegators
    | some ps =>
      let left := ps.diff input.delegators
      if left.isEmpty then ns.delegators.erase input.name else ns.delegators.put input.name left
  return (t.putNamespace input.ns { ns with delegators, updatedAt := .int now }, ())

/-- How long a session lasts that a delegator signs in for. -/
def sessionLifetime (t : Tables) (caller : Principal) (nsName name : String) : Result Json := do
  let ns ← lookup t nsName
  let ps ← delegatorsOf ns name
  demand (caller ∈ ps) (.denied .notDelegator)
  return ns.sessionLifetime

end Tables

/-- The principal of a named identity; the namespace need not exist. -/
def fixedIdentity (service : Principal) (ns name : String) : Result Principal := do
  Name.check ns
  return Identity.principal service ns (Text.lower name)

end TenantVault
