import TenantVault.Service.Keys
import TenantVault.Service.Signatures

/-! # The operations of the service

Everything that can be asked of the service, the guard that each operation passes first, and what it
answers. `perform` is the whole of the service: an operation with the time at which it is called gives
a call, which may wait.
-/

namespace TenantVault

/-- The groups that govern the service. -/
inductive GovernorKind where
  | manager
  | auditor
  deriving DecidableEq, Repr

inductive Operation where
  | changeGovernors (caller : Principal) (kind : GovernorKind) (d : Direction) (ps : Principals)
  | setAllowedApis (caller : Principal) (apis : SortedSet String)
  | createNamespace (caller : Principal) (input : NewNamespace)
  | listNamespaces (caller : Principal) (before : Option String) (count : Option Int)
  | getGovernance (caller : Principal)
  | getNamespace (caller : Principal) (ns : String)
  | updateNamespace (caller : Principal) (input : NamespaceChange)
  | deleteNamespace (caller : Principal) (ns : String)
  | changeMembers (caller : Principal) (ns : String) (kind : MemberKind) (d : Direction) (ps : Principals)
  | isMember (caller : Principal) (ns kind : String) (user : Principal)
  | topUp (caller : Principal) (ns : String) (amount : Int)
  | listSettings (caller : Principal) (ns : String) (userOwned : Bool) (subject : Option Principal)
  | getDelegators (caller : Principal) (ns name : String)
  | changeDelegators (caller : Principal) (d : Direction) (input : DelegatorChange)
  | fixedIdentity (ns name : String)
  | signDelegation (caller : Principal) (input : DelegationRequest)
  | getDelegation (seed sessionKey : Bytes) (expiration : Int)
  | namespacePublicKey (caller : Principal) (ns : String) (path : List Bytes)
  | namespaceSign (caller : Principal) (ns : String) (path : List Bytes) (message : Bytes)
  | identityPublicKey
  | signIdentity (caller : Principal) (ns audience : String)
  | createSetting (caller : Principal) (path : SettingPath) (input : NewSetting)
  | updatePayload (caller : Principal) (path : SettingPath) (input : PayloadChange)
  | updateSetting (caller : Principal) (path : SettingPath) (input : SettingChange)
  | getSetting (caller : Principal) (path : SettingPath)
  | getSettingInfo (caller : Principal) (path : SettingPath)
  | getArchived (caller : Principal) (path : SettingPath)
  | changeReaders (caller : Principal) (path : SettingPath) (d : Direction) (readers : Principals)
  | deleteSetting (caller : Principal) (path : SettingPath)
  | encryptedKey (caller : Principal) (path : SettingPath) (input : ExchangeRequest)
  | encryptedSetting (caller : Principal) (path : SettingPath) (input : ExchangeRequest)
  | servicePublicKey (caller : Principal) (path : SettingPath)
  | serviceKey (caller : Principal) (path : SettingPath) (transportKey : Bytes)

structure GovernanceInfo where
  record : Governance
  namespaceTotal : Nat

inductive Answer where
  | nothing
  | flag (b : Bool)
  | number (n : Int)
  | bytes (bs : Bytes)
  | principal (p : Principal)
  | principals (ps : Principals)
  | governance (info : GovernanceInfo)
  | namespaceInfo (info : NamespaceInfo)
  | namespaceInfos (infos : List NamespaceInfo)
  | keys (keys : List (Principal × Option Bytes))
  | stamp (stamp : SettingStamp)
  | setting (info : SettingInfo)
  | archived (info : ArchivedInfo)
  | sealedKey (handover : Keys.Handover Bytes)
  | sealedSetting (handover : Keys.Handover SettingInfo)
  | signIn (signIn : Signatures.SignIn)
  | delegation (delegation : Signatures.SignedDelegation)

namespace Operation

open Access

/-- The group of governors after a change. -/
def changeGovernorsOf (t : Tables) (caller : Principal) (kind : GovernorKind) (d : Direction)
    (ps : Principals) : Result (Tables × Unit) := do
  controller t caller
  ps.check
  let g := t.governance
  let g := match kind with
    | .manager => { g with managers := d.apply g.managers ps }
    | .auditor => { g with auditors := d.apply g.auditors ps }
  return ({ t with governance := g }, ())

def setAllowedApisOf (t : Tables) (caller : Principal) (apis : SortedSet String) : Result (Tables × Unit) := do
  controller t caller
  return ({ t with governance := { t.governance with allowedApis := apiSet apis } }, ())

def memberApi (kind : MemberKind) (d : Direction) : String :=
  let verb := match d with
    | .add => "add"
    | .remove => "remove"
  let group := match kind with
    | .manager => "managers"
    | .auditor => "auditors"
    | .user => "users"
  "namespace_" ++ verb ++ "_" ++ group

/-- Something done with the tables that the allow-list guards. -/
def guarded {α : Type} (caller : Principal) (api : String) (f : Tables → Result α) (t : Tables) :
    Result α := do
  allowed t caller api
  f t

def change {α : Type} (caller : Principal) (api : String) (f : Tables → Result (Tables × α)) : Call α :=
  .update (guarded caller api f)

/-- A change that ends with bringing a byte count up to date. -/
def write {α : Type} (caller : Principal) (api : String) (f : Tables → Result (Tables × Result α)) : Call α :=
  .settle (guarded caller api f)

def changeDelegatorsCall (caller : Principal) (d : Direction) (input : DelegatorChange) (now : Int) :
    Call Answer := fun w =>
  match d with
  | .add => (change caller "namespace_add_delegator" (·.addDelegators caller input now) w).map .principals
  | .remove =>
    (change caller "namespace_remove_delegator" (·.removeDelegators caller input now) w).map fun _ => .nothing

def readerApi : Direction → String
  | .add => "setting_add_readers"
  | .remove => "setting_remove_readers"

def perform (service : Principal) (now : Int) (operation : Operation) : Call Answer := fun w =>
  match operation with
  | changeGovernors caller kind d ps =>
    (Call.update (changeGovernorsOf · caller kind d ps) w).map fun _ => .nothing
  | setAllowedApis caller apis => (Call.update (setAllowedApisOf · caller apis) w).map fun _ => .nothing
  | createNamespace caller input =>
    (Call.update (fun t => do
      authenticated caller
      t.createNamespace caller input now) w).map .namespaceInfo
  | listNamespaces caller before count => (Call.query (·.namespacePage caller before count) w).map .namespaceInfos
  | getGovernance _ => .finish w (.governance ⟨w.tables.governance, w.tables.namespaces.size⟩)
  | getNamespace caller ns => (Call.query (·.getNamespaceInfo caller ns) w).map .namespaceInfo
  | updateNamespace caller input =>
    (change caller "namespace_update_info" (·.updateNamespace caller input now) w).map fun _ => .nothing
  | deleteNamespace caller ns =>
    (change caller "namespace_delete" (·.deleteNamespace caller ns) w).map fun _ => .nothing
  | changeMembers caller ns kind d ps =>
    (change caller (memberApi kind d) (·.changeMembers caller ns kind d ps now) w).map fun _ => .nothing
  | isMember caller ns kind user =>
    (Call.query (fun t => do
      authenticated caller
      t.isMember caller ns kind user) w).map .flag
  | topUp caller ns amount => (change caller "namespace_top_up" (·.topUp ns amount now) w).map .number
  | listSettings caller ns userOwned subject =>
    (Call.query (·.listSettings caller ns userOwned subject) w).map .keys
  | getDelegators caller ns name => (Call.query (·.getDelegators caller ns name) w).map .principals
  | changeDelegators caller d input => changeDelegatorsCall caller d input now w
  | fixedIdentity ns name => (Call.query (fun _ => TenantVault.fixedIdentity service ns name) w).map .principal
  | signDelegation caller input => (Signatures.signDelegation service caller input now w).map .signIn
  | getDelegation seed sessionKey expiration =>
    (Signatures.getDelegation seed sessionKey expiration w).map .delegation
  | namespacePublicKey caller ns path => (Signatures.namespacePublicKey caller ns path w).map .bytes
  | namespaceSign caller ns path message => (Signatures.namespaceSign caller ns path message w).map .bytes
  | identityPublicKey => (Signatures.identityPublicKey w).map .bytes
  | signIdentity caller ns audience => (Signatures.signIdentity service caller ns audience now w).map .bytes
  | createSetting caller path input =>
    (write caller "setting_create" (·.createSetting caller (path.toKey caller) input now) w).map .stamp
  | updatePayload caller path input =>
    (write caller "setting_update_payload" (·.updatePayload caller (path.toKey caller) input now) w).map .stamp
  | updateSetting caller path input =>
    (change caller "setting_update_info" (·.updateSetting caller (path.toKey caller) input now) w).map .stamp
  | getSetting caller path => (Call.query (·.readSetting caller (path.toKey caller)) w).map .setting
  | getSettingInfo caller path => (Call.query (·.getSettingInfo caller (path.toKey caller)) w).map .setting
  | getArchived caller path => (Call.query (·.readArchived caller (path.toKey caller)) w).map .archived
  | changeReaders caller path d readers =>
    (change caller (readerApi d)
      (·.changeReaders caller (path.toKey caller) d readers now) w).map fun _ => .nothing
  | deleteSetting caller path =>
    (write caller "setting_delete" (·.deleteSetting caller (path.toKey caller)) w).map fun _ => .nothing
  | encryptedKey caller path input => (Keys.encryptedKey caller path input w).map .sealedKey
  | encryptedSetting caller path input => (Keys.encryptedSetting caller path input w).map .sealedSetting
  | servicePublicKey caller path => (Keys.servicePublicKey caller path w).map .bytes
  | serviceKey caller path transportKey => (Keys.serviceKey caller path transportKey w).map .bytes

end Operation

end TenantVault
