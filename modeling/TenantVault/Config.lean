import TenantVault.Encoding.Base64
import TenantVault.Request.Forms

/-! # Configuration of a service

What a service starts from: its names, its own principal, the seed of its signer and the groups that govern
it. A configuration is read from fields, or from environment variables, which are turned into fields
first.
-/

namespace TenantVault

structure Config where
  name : String
  serviceId : Principal
  signerSeed : Bytes
  signingKeyName : String
  derivationKeyName : String
  controllers : Principals
  managers : Principals
  auditors : Principals
  /-- The operations that may be called; the empty set allows all. -/
  allowedApis : SortedSet String
  snapshotPath : Option String

namespace Config

open Entry

def defaultName : String := "navigator-cose"

def defaultKeyName : String := "dfx_test_key"

def seedSize : Nat := 32

def readLabel : Reader String := fun v =>
  (readText v).refine fun s => if s.isEmpty then some .textTooShort else none

/-- Members of a governing group; nobody is fine, the anonymous principal is not. -/
def readMembers : Reader Principals := fun v =>
  (Form.readPrincipals v).refine fun ps =>
    if ps.isEmpty then none else (Principals.fault? ps).map .argument

def ofFields (fields : Fields) : Checked Config :=
  Checked.refine (fun c => if c.serviceId.isAnonymous then some .anonymousService else none) <|
    Config.mk
      <$> withDefault fields "name" defaultName readLabel
      <*> required fields "service_id" readPrincipal
      <*> required fields "signer_seed" (fun v =>
        (readBytes v).refine (Form.lengthFault? seedSize (.seedLength seedSize)))
      <*> withDefault fields "schnorr_key_name" defaultKeyName readLabel
      <*> withDefault fields "vetkd_key_name" defaultKeyName readLabel
      <*> withDefault fields "controllers" .empty readMembers
      <*> withDefault fields "managers" .empty readMembers
      <*> withDefault fields "auditors" .empty readMembers
      <*> withDefault fields "allowed_apis" .empty (readSet readText)
      <*> withDefault fields "snapshot_path" none (optional readText)

/-- The variables of an environment. -/
abbrev Environment := List (String × String)

def setting? (env : Environment) (name : String) : Option String := Table.lookup name env

/-- The value of a variable, nothing standing for a value that is empty. -/
def nonEmpty? (env : Environment) (name : String) : Option String :=
  (setting? env name).filter fun s => !s.isEmpty

/-- The parts between separators; there is always one. -/
def splitAt (separator : Char) : List Char → List (List Char)
  | [] => [[]]
  | c :: rest =>
    match splitAt separator rest with
    | [] => [[c]]
    | part :: parts => if c = separator then [] :: part :: parts else (c :: part) :: parts

/-- The trimmed parts of a variable that are not blank. -/
def parts (env : Environment) (name : String) : List String :=
  let text := ((setting? env name).getD "").toList
  (((splitAt ',' text).map Text.trim).filter (!·.isEmpty)).map String.ofList

def principalOf (text : String) : Result Principal :=
  match Principal.ofText text with
  | .ok p => .ok p
  | .error fault => .error (.value (.principal fault))

def seedOf (env : Environment) : Result Bytes :=
  match nonEmpty? env "COSE_SIGNER_SEED" with
  | none => .error (.unconfigured .seed)
  | some encoded =>
    match Base64.decode encoded with
    | .error fault => .error (.breakdown (.base64 fault))
    | .ok seed => if seed.length = seedSize then .ok seed else .error (.value (.seedLength seed.length))

def members (env : Environment) (name : String) : Result Entry := do
  let ps ← (parts env name).mapM principalOf
  return .list (ps.map .principal)

def ofEnvironment (env : Environment) : Result Config := do
  let some idText := nonEmpty? env "COSE_SERVICE_ID" | throw (.unconfigured .service)
  let serviceId ← principalOf idText
  let seed ← seedOf env
  let controllers ← members env "COSE_CONTROLLERS"
  let managers ← members env "COSE_MANAGERS"
  let auditors ← members env "COSE_AUDITORS"
  let apis := (parts env "COSE_ALLOWED_APIS").map Entry.text
  (ofFields [
    ("name", .text ((setting? env "COSE_NAME").getD defaultName)),
    ("service_id", .principal serviceId),
    ("signer_seed", .bytes seed),
    ("controllers", controllers),
    ("managers", managers),
    ("auditors", auditors),
    ("allowed_apis", .list apis),
    ("snapshot_path", ((nonEmpty? env "COSE_SNAPSHOT_PATH").map Entry.text).getD .null)]).toResult

end Config

end TenantVault
