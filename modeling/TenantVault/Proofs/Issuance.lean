import TenantVault.Proofs.Accepted
import TenantVault.Proofs.Fingerprint
import TenantVault.Proofs.Membership
import TenantVault.Proofs.Replies
import TenantVault.Proofs.Revalidation

/-! # What calls for delegations issue

A call for a delegation waits for the signer once. If no snapshot is loaded in the meantime it then either
changes nothing or issues what it was asked for: a delegation that lasts longer than the moment in which the
call began, put among the signatures that can be fetched in place of those that have expired.
-/

namespace TenantVault

open Outcome

/-! ## Lifetimes -/

/-- Every session can last for some time. -/
def Tables.Lasting (t : Tables) : Prop :=
  ∀ name ns, t.namespaces.get? name = some ns → IsLifetime ns.sessionLifetime

theorem NamespaceWrite.lifetime {now : Int} {t : Tables} {name : Scalar} {o : Operation}
    {ns : Namespace} (h : NamespaceWrite now t name o ns) (hAccepted : o.Accepted)
    (hLasting : t.Lasting) : IsLifetime ns.sessionLifetime := by
  cases h with
  | created =>
    obtain ⟨fields, hRead⟩ := hAccepted
    exact (NewNamespace.fit_of_fields hRead).lifetime_row now
  | changed found =>
    obtain ⟨fields, hRead⟩ := hAccepted
    exact (NamespaceChange.fit_of_fields hRead).lifetime_row (hLasting name _ found) now
  | @regrouped _ _ kind _ _ _ _ found =>
    have hBefore := hLasting name _ found
    cases kind <;> exact hBefore
  | toppedUp _ found | joined found | left found | counted _ found =>
    have hBefore := hLasting name _ found
    exact hBefore

theorem Server.Lived.lasting {service : Principal} {begun : Config → Prop}
    {asked : Int → Operation → Prop} {s : Server} (hAccepted : ∀ now o, asked now o → o.Accepted)
    (h : Lived service begun asked s) : s.world.tables.Lasting := by
  refine h.holds (I := Tables.Lasting) ?_ ?_ ?_
  · intro c _ name ns hFound
    cases hFound
  · intro now o t t' r hAsked _ commit hLasting name ns hFound
    rcases commit.namespace_cases hFound with hBefore | hWrite
    · exact hLasting name ns hBefore
    · exact hWrite.lifetime (hAccepted now o hAsked) hLasting
  · intro t t' hSame hLasting name ns hFound
    rw [hSame.namespaces] at hFound
    exact hLasting name ns hFound

/-! ## What a call issues -/

/-- A signer gives the same signature whenever it gives one. -/
def SignedBy (sign : Bytes → List Bytes → Bytes → Bytes) : Request → Reply → Prop
  | .sign label path message, .ok signature => signature = sign label path message
  | _, _ => True

/-- A delegation that a call has issued: when the call began, for which session key, and the answer. -/
structure Issue where
  now : Int
  sessionKey : Bytes
  signIn : Signatures.SignIn

namespace Issue

def seed (i : Issue) : Bytes := i.signIn.seed

def expiration (i : Issue) : Int := i.signIn.expiration

/-- What is signed. -/
def message (i : Issue) : Bytes :=
  Sha256.sha256 (Identity.delegationStatement i.sessionKey i.expiration)

/-- Where the signature is kept. -/
def key (i : Issue) : Bytes × Bytes := (Sha256.sha256 i.seed, i.message)

/-- The time that counts for expiry. -/
def nanos (i : Issue) : Int := i.now * Signatures.nanosPerMilli

def hashed (i : Issue) : List Bytes := Identity.hashed i.seed i.sessionKey i.expiration

def signature (sign : Bytes → List Bytes → Bytes → Bytes) (i : Issue) : Bytes :=
  sign Signer.delegationLabel [i.seed] i.message

theorem delegationMessage_eq (i : Issue) (hCounted : 0 ≤ i.expiration) :
    Identity.delegationMessage i.sessionKey i.expiration none = .ok i.message :=
  (Identity.delegationMessage_eq_ok_iff ..).mpr ⟨hCounted, rfl⟩

end Issue

/-- What a call has done to the signatures that can be fetched when it has issued a delegation. -/
structure Issued (sign : Bytes → List Bytes → Bytes → Bytes) (i : Issue) (w w' : World) : Prop where
  counted : 0 ≤ i.expiration
  lasting : i.nanos ≤ i.expiration
  recorded : w'.signatures =
    Signatures.record w.signatures i.nanos i.key (i.signature sign) i.expiration

/-- A call for a delegation issues it if it returns; `generation` is the one of all its tables. -/
def Task.Issues (sign : Bytes → List Bytes → Bytes → Bytes) (generation : Nat) :
    Task → World → World → Result Answer → Prop
  | .operation now (.signDelegation _ input), w, w', r =>
    w.generation = generation → ∀ a, r = .ok a →
      ∃ signIn, a = .signIn signIn ∧ Issued sign ⟨now, input.sessionKey, signIn⟩ w w'
  | _, _, _, _ => True

theorem Task.issues_error {sign : Bytes → List Bytes → Bytes → Bytes} {generation : Nat} (task : Task)
    (w w' : World) (why : Failure) : task.Issues sign generation w w' (.error why) := by
  unfold Issues
  split
  · intro _ a hAnswer
    cases hAnswer
  · trivial

namespace Signatures

open Access

variable {sign : Bytes → List Bytes → Bytes → Bytes} {w : World}

theorem isLifetime_of_active {t : Tables} {caller : Principal} {name identity : String} {lifetime : Json}
    (hLasting : t.Lasting) (h : activeLifetime t caller name identity = .ok lifetime) :
    IsLifetime lifetime := by
  simp only [activeLifetime, Tables.sessionLifetime, bind_eq_ok_iff, exists_unit_iff,
    lookup_eq_ok_iff, pure_eq_ok_iff] at h
  obtain ⟨_, ⟨ns, hFound, ps, -, -, rfl⟩, -, rfl⟩ := h
  exact hLasting _ ns hFound

/-- A session does not end before it begins. -/
theorem le_expirationOf {now expiration : Int} {lifetime : Json} (hLifetime : IsLifetime lifetime)
    (h : expirationOf now lifetime = .ok expiration) : now * nanosPerMilli ≤ expiration := by
  obtain ⟨n, rfl, hFirst⟩ := hLifetime
  cases h
  rw [nanosPerMilli]
  omega

theorem issues_signDelegation (service caller : Principal) (input : DelegationRequest) (now : Int)
    (hLasting : w.tables.Lasting) :
    ((signDelegation service caller input now w).map Answer.signIn).EachGiven (SignedBy sign)
      ((Task.operation now (.signDelegation caller input)).Issues sign w.generation) w := by
  rw [eachGiven_map_iff]
  apply eachGiven_after
  · intro why _
    exact Task.issues_error _ w w why
  rintro ⟨expiration, message⟩ hStart
  simp only [bind_eq_ok_iff, exists_unit_iff, pure_eq_ok_iff, Prod.mk.injEq] at hStart
  obtain ⟨-, -, lifetime, hActive, expiration, hExpiration, message, hMessage, rfl, rfl⟩ := hStart
  obtain ⟨hCounted, rfl⟩ := (Identity.delegationMessage_eq_ok_iff ..).mp hMessage
  have hLater := le_expirationOf (isLifetime_of_active hLasting hActive) hExpiration
  apply eachGiven_request
  · intro w₁ refusal
    exact Task.issues_error _ w₁ w₁ _
  intro w₁ signature hSigned
  apply eachGiven_after
  · intro why _
    exact Task.issues_error _ w₁ w₁ why
  intro _ _
  dsimp only
  split
  · intro _ a hAnswer
    cases hAnswer
    cases hSigned
    exact ⟨_, rfl, hCounted, hLater, rfl⟩
  · next hOther =>
    intro hSame
    exact (hOther hSame).elim

/-- A call that passes its checks asks the signer, and what has been signed can be fetched if the caller may
still sign in then. -/
theorem exists_signDelegation (service : Principal) {caller : Principal} {input : DelegationRequest}
    {now expiration : Int} {lifetime : Json} {message : Bytes}
    (hAllowed : allowed w.tables caller "namespace_sign_delegation" = .ok ())
    (hVerified : PublicKey.verify input.sessionKey (challenge input caller) input.signature = .ok ())
    (hActive : activeLifetime w.tables caller input.ns input.name = .ok lifetime)
    (hExpiration : expirationOf now lifetime = .ok expiration)
    (hMessage : Identity.delegationMessage input.sessionKey expiration none = .ok message) :
    ∃ resume, signDelegation service caller input now w =
        .ask (.sign Signer.delegationLabel [Identity.seed input.ns input.name] message) resume ∧
      ∀ w' signature current, w'.generation = w.generation →
        activeLifetime w'.tables caller input.ns input.name = .ok current →
          resume w' (.ok signature) = .finish
            { w' with
              signatures := record w'.signatures (now * nanosPerMilli)
                (Sha256.sha256 (Identity.seed input.ns input.name), message) signature expiration }
            ⟨expiration, Identity.publicKey service (Identity.seed input.ns input.name),
              Identity.seed input.ns input.name⟩ := by
  unfold signDelegation
  rw [hAllowed, hVerified, hActive]
  dsimp only [bind, Except.bind]
  rw [hExpiration]
  dsimp only
  rw [hMessage]
  refine ⟨_, rfl, ?_⟩
  intro w' signature current hSame hStill
  dsimp only
  rw [← hSame, World.tablesOf_generation, hStill]
  exact if_pos rfl

end Signatures

theorem Task.issues_start {sign : Bytes → List Bytes → Bytes → Bytes} (service : Principal)
    (task : Task) {w : World} (hLasting : w.tables.Lasting) :
    (task.start service w).EachGiven (SignedBy sign) (task.Issues sign w.generation) w := by
  cases task with
  | load snapshot => exact eachGiven_of_forall (fun _ _ _ => trivial) _ w
  | operation now o =>
    cases o with
    | signDelegation caller input =>
      exact Signatures.issues_signDelegation service caller input now hLasting
    | _ => exact eachGiven_of_forall (fun _ _ _ => trivial) _ w

/-! ## Calls that have issued a delegation -/

namespace Completion

/-- The delegation that a call has issued. -/
def issued? (c : Completion) : Option Issue :=
  match c.task, c.result with
  | .operation now (.signDelegation _ input), .ok (.signIn signIn) =>
    some ⟨now, input.sessionKey, signIn⟩
  | _, _ => none

/-- The strings that have been hashed for the delegation that a call has issued. -/
def hashed (c : Completion) : List Bytes := (c.issued?.map Issue.hashed).getD []

variable {sign : Bytes → List Bytes → Bytes → Bytes} {generation : Nat} {w w' : World}
  {c : Completion} {i : Issue}

theorem hashed_of_issued (h : c.issued? = some i) : c.hashed = i.hashed := by
  rw [hashed, h]
  rfl

theorem issued_of_issues (h : c.task.Issues sign generation w w' c.result)
    (hGeneration : w.generation = generation) (hIssued : c.issued? = some i) :
    Issued sign i w w' := by
  obtain ⟨id, task, result⟩ := c
  unfold issued? at hIssued
  split at hIssued
  · next hTask hResult =>
    dsimp only at hTask hResult h
    subst hTask hResult
    cases hIssued
    obtain ⟨signIn, hSame, hIssued⟩ := h hGeneration _ rfl
    cases hSame
    exact hIssued
  · cases hIssued

theorem signatures_of_not_issued (h : c.task.Segment w w' c.result) (hTask : c.task.isLoad = false)
    (hNone : c.issued? = none) : w'.signatures = w.signatures := by
  obtain ⟨id, task, result⟩ := c
  cases h with
  | loaded => cases hTask
  | notLoaded => rfl
  | operation segment =>
    cases segment with
    | recorded asked =>
      subst asked
      cases hNone
    | _ => rfl

end Completion

end TenantVault
