import TenantVault.Cose.Claims
import TenantVault.Cose.Signed
import TenantVault.Namespace.Operations
import TenantVault.PublicKey
import TenantVault.Service.Outcome
import TenantVault.Signer

/-! # Signing

Signatures under the keys of namespaces, identity tokens, and delegations by which a session key acts for a
named identity.
-/

namespace TenantVault.Signatures

open Access Outcome

/-- The key of a namespace for a path of the caller's choice. -/
def namespacePath (ns : String) (path : List Bytes) : List Bytes := Bytes.ofText ns :: path

def namespacePublicKey (caller : Principal) (ns : String) (path : List Bytes) : Call Bytes := fun w =>
  .after w (readable w.tables caller ns) fun _ =>
    .request (.publicKey Signer.namespaceLabel (namespacePath ns path)) .finish

def namespaceSign (caller : Principal) (ns : String) (path : List Bytes) (message : Bytes) : Call Bytes :=
  fun w =>
    .after w (do authenticated caller; signing w.tables caller ns) fun _ =>
      .request (.sign Signer.namespaceLabel (namespacePath ns path) message) fun w signature =>
        .after w (signing w.tables caller ns) fun _ => .finish w signature

def identityPublicKey : Call Bytes := fun _ => .request (.publicKey Signer.identityLabel []) .finish

/-- Seconds for which an identity token is valid. -/
def tokenLifetime : Int := 3600

def tokenIdLength : Nat := 16

/-- A token that states what the caller may do in a namespace. It is bound to the caller, and refused if the
scope has changed while it was signed. -/
def signIdentity (service caller : Principal) (ns audience : String) (now : Int) : Call Bytes := fun w =>
  .after w (do authenticated caller; Name.check ns; tokenScope w.tables caller ns) fun scope =>
    .draw tokenIdLength fun _ id =>
      let claims : Cose.Claims := {
        issuer := service.toText
        subject := caller.toText
        audience
        issuedAt := now.fdiv 1000
        lifetime := tokenLifetime
        id
        scope }
      let token := Cose.Signed.unsigned claims.encode Cose.edDsa none
      .request (.sign Signer.identityLabel [] (token.signedPart caller.raw)) fun w signature =>
        .after w (do
          let current ← tokenScope w.tables caller ns
          demand (current = scope) (.denied .membershipChanged))
        fun _ => .finish w { token with signature }.toBytes

/-- What a delegator signs with the session key. -/
def challenge (input : DelegationRequest) (caller : Principal) : Bytes :=
  Cbor.encode (.list false [.text input.ns, .text input.name, .bytes caller.raw])

/-- The lifetime of a session; zero switches delegations off. -/
def activeLifetime (t : Tables) (caller : Principal) (ns name : String) : Result Json := do
  let lifetime ← t.sessionLifetime caller ns name
  demand (!lifetime.isInt 0) (.disabled .delegation)
  return lifetime

def nanosPerMilli : Int := 1000000

/-- The end of a session that begins now, in nanoseconds; it has to be an integer. -/
def expirationOf (now : Int) (lifetime : Json) : Result Int := do
  match ← lifetime.plus now with
  | .int millis => return millis * nanosPerMilli
  | _ => throw (.unhashable "float")

structure SignIn where
  /-- In nanoseconds. -/
  expiration : Int
  userKey : Bytes
  seed : Bytes

/-- The signatures that have not expired, and a new one. -/
def record (signatures : Signatures) (now : Int) (key : Bytes × Bytes) (signature : Bytes)
    (expiration : Int) : Signatures :=
  (signatures.filterRows fun row => decide (now ≤ row.2.2)).put key (signature, expiration)

def signDelegation (service caller : Principal) (input : DelegationRequest) (now : Int) : Call SignIn :=
  fun w =>
    .after w (do
      allowed w.tables caller "namespace_sign_delegation"
      PublicKey.verify input.sessionKey (challenge input caller) input.signature
      let lifetime ← activeLifetime w.tables caller input.ns input.name
      let expiration ← expirationOf now lifetime
      let message ← Identity.delegationMessage input.sessionKey expiration none
      return (expiration, message))
    fun (expiration, message) =>
      let seed := Identity.seed input.ns input.name
      let generation := w.generation
      .request (.sign Signer.delegationLabel [seed] message) fun w signature =>
        .after w (activeLifetime (w.tablesOf generation) caller input.ns input.name) fun _ =>
          let signIn : SignIn := ⟨expiration, Identity.publicKey service seed, seed⟩
          if w.generation = generation then
            let key := (Sha256.sha256 seed, message)
            .finish { w with signatures := record w.signatures (now * nanosPerMilli) key signature expiration }
              signIn
          else .finish w signIn

structure SignedDelegation where
  sessionKey : Bytes
  expiration : Int
  signature : Bytes

def getDelegation (seed sessionKey : Bytes) (expiration : Int) : Call SignedDelegation := fun w =>
  .after w (do
    let message ← Identity.delegationMessage sessionKey expiration none
    match w.signatures.get? (Sha256.sha256 seed, message) with
    | some (signature, _) => return ⟨sessionKey, expiration, signature⟩
    | none => throw (.missing .delegation))
  (.finish w)

def delegationPublicKey (seed : Bytes) : Call Bytes := fun _ =>
  .request (.publicKey Signer.delegationLabel [seed]) .finish

end TenantVault.Signatures
