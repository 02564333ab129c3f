import TenantVault.Proofs.Delegations

/-! # How long a delegation lasts

The expiry of a delegation is part of what is signed, so it is worked out before the signer is asked. When the
signature comes, the namespace is looked at again: the caller still has to be a delegator and delegations must
not have been switched off. What else has become of the lifetime of sessions in the meantime plays no part, so
a delegation outlives the limit that is in force when it is stored exactly if that limit has been lowered.
-/

namespace TenantVault

/-- How long the sessions of a namespace can last, in milliseconds. -/
def Tables.SessionsLast (t : Tables) (name : String) (millis : Int) : Prop :=
  ∃ ns, t.namespaces.get? (.text name) = some ns ∧ ns.sessionLifetime = .int millis

theorem Tables.SessionsLast.eq {t : Tables} {name : String} {m n : Int} (h : t.SessionsLast name m)
    (h' : t.SessionsLast name n) : m = n := by
  obtain ⟨ns, hFound, hLifetime⟩ := h
  obtain ⟨ns', hFound', hLifetime'⟩ := h'
  cases hFound.symm.trans hFound'
  exact Json.int.inj (hLifetime.symm.trans hLifetime')

namespace Signatures

open Access

theorem activeLifetime_int {t : Tables} {caller : Principal} {name identity : String} {lifetime : Json} {n : Int}
    (h : activeLifetime t caller name identity = .ok lifetime) (hLast : t.SessionsLast name n) :
    lifetime = .int n ∧ n ≠ 0 := by
  simp only [activeLifetime, Tables.sessionLifetime, bind_eq_ok_iff, exists_unit_iff, lookup_eq_ok_iff,
    demand_eq_ok_iff, pure_eq_ok_iff, Bool.not_eq_true'] at h
  obtain ⟨_, ⟨ns, hFound, ps, -, -, rfl⟩, hActive, rfl⟩ := h
  obtain ⟨ns', hFound', hLifetime⟩ := hLast
  cases hFound.symm.trans hFound'
  rw [hLifetime, Json.isInt_int, decide_eq_false_iff_not] at hActive
  exact ⟨hLifetime, hActive⟩

theorem expirationOf_int (now n : Int) : expirationOf now (.int n) = .ok ((now + n) * nanosPerMilli) := by
  rw [Int.add_comm now n]
  rfl

end Signatures

namespace Server

open Signatures

/-- A delegation that a call returns is stored with the expiry that it states, which is the end of a session
that begins with the call and lasts as long as sessions could last then. It is within the limit that is in
force when it is stored if and only if the limit has not been lowered since the call began. -/
theorem delegation_lasts_as_begun {service : Principal} {s before after : Server} {id : Nat} {now : Int}
    {caller : Principal} {input : DelegationRequest} {events : List Event} {last : Event} {a : Answer}
    (hReachable : Reachable service s) (hCalls : Calls (fun task => task.isLoad = false) events)
    (hReturns : Returns service s id (.operation now (.signDelegation caller input)) events last before
      after a) :
    ∃ signIn signature, a = .signIn signIn ∧ Holds after.world.signatures input signIn signature ∧
      after.world.tables = before.world.tables ∧
      ∀ first current, s.world.tables.SessionsLast input.ns first →
        after.world.tables.SessionsLast input.ns current →
          first ≠ 0 ∧ current ≠ 0 ∧ signIn.expiration = (now + first) * nanosPerMilli ∧
          (signIn.expiration ≤ (now + current) * nanosPerMilli ↔ first ≤ current) := by
  have hGeneration : before.world.generation = s.world.generation := by
    obtain ⟨earlier, hEvents, hBefore, -⟩ := hReturns.course
    have hEarlier : Calls (fun task => task.isLoad = false) earlier :=
      calls_of_course hEvents rfl hCalls
    rw [← hBefore]
    exact congrArg List.length (retired_run hReachable.sound service hEarlier)
  have hCall : ((signDelegation service caller input now s.world).map Answer.signIn).Concludes
      (Told id events) (fun w x w' a => ∃ signIn, a = .signIn signIn ∧
        (w.generation = s.world.generation → Delegates caller input now s.world w x w' signIn))
      s.world none := by
    rw [Outcome.concludes_map_iff]
    refine .mono ?_ (concludes_signDelegation service caller input now)
    exact fun w x w' signIn h => ⟨signIn, rfl, h⟩
  obtain ⟨signIn, rfl, hDelegates⟩ := hReturns.concludes hCall
  obtain ⟨lifetime, later, signature, hBegun, hExpiration, hEnded, -, hHolds, hSame⟩ :=
    hDelegates hGeneration
  refine ⟨signIn, signature, rfl, hHolds, by rw [hSame], ?_⟩
  intro first current hFirst hCurrent
  obtain ⟨rfl, hNonzero⟩ := activeLifetime_int hBegun hFirst
  obtain ⟨-, hNonzero'⟩ := activeLifetime_int hEnded hCurrent
  rw [expirationOf_int, Except.ok.injEq] at hExpiration
  refine ⟨hNonzero, hNonzero', hExpiration.symm, ?_⟩
  rw [← hExpiration, nanosPerMilli]
  omega

namespace Sample

def lowering : NamespaceChange := ⟨"vault", none, none, none, none, some 1000⟩

/-- The limit is lowered while the signer is at work. -/
def lowered : Event := .call 3 (.operation 40 (.updateNamespace owner lowering))

def whileLowering : List Event := [lowered, .reply 2 (signatureReply 30)]

def beginning : Server := (admitted.step owner (.call 2 (signing 30))).1

def shortened : Server := (beginning.step owner lowered).1

def outlived : Server := (shortened.step owner (.reply 2 (signatureReply 30))).1

theorem admitted_lasts : admitted.world.tables.SessionsLast "vault" Namespace.defaultSessionLifetime :=
  ⟨_, rfl, rfl⟩

theorem shortened_spec :
    shortened.world.tables.SessionsLast "vault" 1000 ∧
      shortened.step owner (.reply 2 (signatureReply 30)) =
        (outlived, some ⟨2, signing 30, .ok (.signIn (issue 30).signIn)⟩) := by
  obtain ⟨resume, hStart, hResume⟩ := exists_start_signing 30 admitted_admits (by decide)
  have hBeginning : beginning = admitted.hold 2 (some ⟨signing 30, .ask (.sign Signer.delegationLabel
      [(issue 30).seed] (issue 30).message) resume⟩) := by
    rw [beginning, step_call_of_ask hStart]
  obtain ⟨w, hUpdate, hGeneration, hLast, hActive⟩ : ∃ w : World,
      (Task.operation 40 (.updateNamespace owner lowering)).start owner admitted.world =
        .done w (.ok .nothing) ∧ w.generation = 0 ∧ w.tables.SessionsLast "vault" 1000 ∧
      Signatures.activeLifetime w.tables owner request.ns request.name = .ok (.int 1000) :=
    ⟨_, rfl, rfl, ⟨_, rfl, rfl⟩, rfl⟩
  have hBegun : beginning.world = admitted.world := by
    rw [hBeginning]
    rfl
  have hShortened : shortened = { beginning with world := w }.hold 3 none := by
    rw [← hBegun] at hUpdate
    rw [shortened, lowered, step_call_of_done hUpdate]
  have hWaits : shortened.waiting 2 = some ⟨signing 30, .ask (.sign Signer.delegationLabel
      [(issue 30).seed] (issue 30).message) resume⟩ := by
    rw [hShortened, hBeginning]
    rfl
  have hWorld : shortened.world = w := by
    rw [hShortened]
    rfl
  rw [← hWorld] at hGeneration hLast hActive
  refine ⟨hLast, ?_⟩
  rw [outlived, step_reply_of_done hWaits (hResume shortened.world _ hGeneration hActive)]

/-- A delegation for a day is stored in a state in which sessions last for a second. -/
theorem delegation_outlives_limit :
    Reachable owner admitted ∧ Calls (fun task => task.isLoad = false) whileLowering ∧
      Returns owner admitted 2 (signing 30) whileLowering (.reply 2 (signatureReply 30)) shortened outlived
        (.signIn (issue 30).signIn) ∧
      admitted.world.tables.SessionsLast "vault" Namespace.defaultSessionLifetime ∧
      outlived.world.tables.SessionsLast "vault" 1000 ∧
      (∃ signature, Holds outlived.world.signatures request (issue 30).signIn signature) ∧
      (30 + 1000) * nanosPerMilli < (issue 30).signIn.expiration := by
  obtain ⟨hLast, hEnds⟩ := shortened_spec
  have hReachable : Reachable owner admitted := ⟨_, _, rfl⟩
  have hCalls : Calls (fun task => task.isLoad = false) whileLowering := by
    intro id task hMem
    simp only [whileLowering, lowered, List.mem_cons, List.not_mem_nil, Event.call.injEq, or_false,
      reduceCtorEq] at hMem
    obtain ⟨-, rfl⟩ := hMem
    rfl
  have hReturns : Returns owner admitted 2 (signing 30) whileLowering (.reply 2 (signatureReply 30))
      shortened outlived (.signIn (issue 30).signIn) := by
    refine ⟨?_, [.call 2 (signing 30), lowered], rfl, ?_, hEnds⟩
    · intro task hMem
      simp [whileLowering, lowered] at hMem
    · simp only [run, shortened, beginning]
  obtain ⟨signIn, signature, hSame, hHolds, hTables, hLimit⟩ :=
    delegation_lasts_as_begun hReachable hCalls hReturns
  cases hSame
  rw [← hTables] at hLast
  have hBeyond := (hLimit _ _ admitted_lasts hLast).2.2.2.not.mpr (by decide)
  exact ⟨hReachable, hCalls, hReturns, admitted_lasts, hLast, ⟨signature, hHolds⟩, Int.not_le.mp hBeyond⟩

end Sample

end Server

end TenantVault
