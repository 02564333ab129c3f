import TenantVault.Principals
import TenantVault.Store.Quantity

/-! # Namespaces

The record of a namespace and who may do what in it. Managers govern it, auditors read it, users keep
settings of their own in it. A status below zero means that it is put away, one above zero that it is
frozen; a public namespace is readable by everybody.

Fields that no rule of this program fixes may hold any document, since a snapshot may. A status that is not a
number therefore leaves some questions without an answer.
-/

namespace TenantVault

structure Namespace where
  name : Json
  desc : Json
  createdAt : Json
  updatedAt : Json
  maxPayloadSize : Json
  /-- The octets of all payloads and keys written so far, less those of deleted settings. -/
  payloadBytes : Json
  status : Json
  visibility : Json
  managers : Principals
  auditors : Principals
  users : Principals
  /-- Who may sign in as which named identity. -/
  delegators : Table String Principals
  sessionLifetime : Json
  gasBalance : Int

/-- What a role decides about reading a setting. -/
inductive ReadAccess where
  | refused
  | readersOnly
  | granted
  deriving DecidableEq, Repr

namespace Namespace

def defaultSessionLifetime : Int := 24 * 3600 * 1000

def isPublic (ns : Namespace) : Bool := ns.visibility.isInt 1

def isManager (ns : Namespace) (p : Principal) : Bool := p ∈ ns.managers

def isAuditor (ns : Namespace) (p : Principal) : Bool := p ∈ ns.auditors

def isUser (ns : Namespace) (p : Principal) : Bool := p ∈ ns.users

/-- Whether the namespace is put away. -/
def isArchived (ns : Namespace) : Result Bool := ns.status.less 0

def canRead (ns : Namespace) (caller : Principal) : Result Bool := do
  if ns.isPublic then return true
  let archived ← ns.isArchived
  return ns.isManager caller || ns.isAuditor caller || (!archived && ns.isUser caller)

def canWrite (ns : Namespace) (caller : Principal) : Result Bool := do
  return (← ns.status.less 1) && ns.isManager caller

/-- Managers write the settings of the namespace for any subject, users their own. -/
def canWriteSetting (ns : Namespace) (caller : Principal) (key : SettingKey) : Bool :=
  ns.status.isInt 0 &&
    if key.scope = SettingKey.serverScope then ns.isManager caller
    else ns.isUser caller && caller = key.subject

def readAccess (ns : Namespace) (caller : Principal) (key : SettingKey) : Result ReadAccess := do
  if ns.isPublic then return .granted
  let archived ← ns.isArchived
  if ns.isManager caller || ns.isAuditor caller then return .granted
  else if archived then return .refused
  else if caller = key.subject then return .granted
  else return .readersOnly

/-- Who may have the key under which a setting is encrypted. -/
def canHaveKey (ns : Namespace) (caller : Principal) (key : SettingKey) : Result Bool := do
  let archived ← ns.isArchived
  return (!archived || ns.isManager caller) &&
    (caller = key.subject || ns.isAuditor caller ||
      (decide (key.scope = SettingKey.serverScope) && ns.isManager caller))

def canSign (ns : Namespace) (caller : Principal) : Result Bool := do
  let archived ← ns.isArchived
  return ns.isManager caller || (!archived && ns.isUser caller)

def hasFullRead (ns : Namespace) (caller : Principal) : Bool :=
  ns.isPublic || ns.isManager caller || ns.isAuditor caller

/-- The scope that an identity token of a caller states; none for a caller without a role. -/
def tokenScope? (ns : Namespace) (caller : Principal) (name : String) : Option String :=
  if ns.isManager caller then some ("Namespace.*:" ++ name)
  else if ns.isUser caller then
    if ns.isAuditor caller then some ("Namespace.Read:" ++ name ++ " Namespace.*.SubjectedSetting:" ++ name)
    else some ("Namespace.Read.Info:" ++ name ++ " Namespace.*.SubjectedSetting:" ++ name)
  else if ns.isAuditor caller then some ("Namespace.Read:" ++ name)
  else none

end Namespace

end TenantVault
