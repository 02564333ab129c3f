import TenantVault.Proofs.Return

/-! # Rights that are looked at again

Five operations give out keys, signatures, tokens or delegations after they have waited, and others
may have taken the right to these away in the meantime. Each of them returns only in a state in which
that right is still there, as it was when the call began.
-/

namespace TenantVault

namespace Signatures

open Access Outcome

/-! ## The rights -/

def MaySign (t : Tables) (caller : Principal) (name : String) : Prop :=
  ∃ ns, t.namespaces.get? (.text name) = some ns ∧ ns.canSign caller = .ok true

theorem signing_iff (t : Tables) (caller : Principal) (name : String) :
    (∃ ns, signing t caller name = .ok ns) ↔ MaySign t caller name :=
  exists_congr fun ns => namespaceWhere_eq_ok_iff t name _ ns

/-- The caller may sign in under a name, and sessions under it last for some time. -/
def MayDelegate (t : Tables) (caller : Principal) (name identity : String) : Prop :=
  ∃ ns ps, t.namespaces.get? (.text name) = some ns ∧
    ns.delegators.get? (Text.lower identity) = some ps ∧ caller ∈ ps ∧
    ns.sessionLifetime.isInt 0 = false

theorem delegatorsOf_eq_ok_iff (ns : Namespace) (identity : String) (ps : Principals) :
    Tables.delegatorsOf ns identity = .ok ps ↔
      ns.delegators.get? (Text.lower identity) = some ps := by
  unfold Tables.delegatorsOf
  cases ns.delegators.get? (Text.lower identity) <;> simp

theorem activeLifetime_iff (t : Tables) (caller : Principal) (name identity : String) :
    (∃ lifetime, activeLifetime t caller name identity = .ok lifetime) ↔
      MayDelegate t caller name identity := by
  simp only [activeLifetime, Tables.sessionLifetime, bind_eq_ok_iff, exists_unit_iff,
    lookup_eq_ok_iff, delegatorsOf_eq_ok_iff, demand_eq_ok_iff, pure_eq_ok_iff, Bool.not_eq_true',
    decide_eq_true_eq]
  constructor
  · rintro ⟨_, lifetime, ⟨ns, hFound, ps, hDelegators, hMember, rfl⟩, hActive, rfl⟩
    exact ⟨ns, ps, hFound, hDelegators, hMember, hActive⟩
  · rintro ⟨ns, ps, hFound, hDelegators, hMember, hActive⟩
    exact ⟨_, ns.sessionLifetime, ⟨ns, hFound, ps, hDelegators, hMember, rfl⟩, hActive, rfl⟩

/-- A token that states what its holder may do in a namespace. -/
def IsToken (token : Bytes) (scope : String) : Prop :=
  ∃ (claims : Cose.Claims) (signature : Bytes), claims.scope = scope ∧
    token = { Cose.Signed.unsigned claims.encode Cose.edDsa none with signature }.toBytes

/-- The signature of a delegation is among those that can be fetched. -/
def Holds (signatures : TenantVault.Signatures) (input : DelegationRequest) (signIn : SignIn)
    (signature : Bytes) : Prop :=
  ∃ message, Identity.delegationMessage input.sessionKey signIn.expiration none = .ok message ∧
    signatures.get? (Sha256.sha256 signIn.seed, message) = some (signature, signIn.expiration)

theorem holds_record (signatures : TenantVault.Signatures) (now : Int) {input : DelegationRequest}
    (signIn : SignIn) {message : Bytes} (signature : Bytes)
    (hMessage : Identity.delegationMessage input.sessionKey signIn.expiration none = .ok message) :
    Holds (record signatures now (Sha256.sha256 signIn.seed, message) signature signIn.expiration)
      input signIn signature := by
  refine ⟨message, hMessage, ?_⟩
  unfold record
  rw [Table.get?_put, BEq.rfl, if_pos rfl]

end Signatures

/-- A delegation lasts for the lifetime that was there when the call began; when its signature comes and is
stored, there is a lifetime too. -/
def Signatures.Delegates (caller : Principal) (input : DelegationRequest) (now : Int) (begun w : World)
    (x : Option Reaction) (w' : World) (signIn : SignIn) : Prop :=
  ∃ lifetime current signature,
    activeLifetime begun.tables caller input.ns input.name = .ok lifetime ∧
    expirationOf now lifetime = .ok signIn.expiration ∧
    activeLifetime w'.tables caller input.ns input.name = .ok current ∧
    x = some (.reply (.ok signature)) ∧ Holds w'.signatures input signIn signature ∧
    w' = { w with signatures := w'.signatures }

/-! ## What the calls conclude -/

open Keys Signatures in
/-- An answer that depends on a right is given in a world in which the right is there, and the right
was there in the world in which the call began. The call leaves that world as it is, except for the
signature of a delegation. -/
def Operation.Revalidated (begun w : World) (x : Option Reaction) (w' : World) (a : Answer) :
    Operation → Prop
  | encryptedKey caller path _ | serviceKey caller path _ =>
    HoldsKey begun.tables caller (path.toKey caller) ∧
      HoldsKey w'.tables caller (path.toKey caller) ∧ w' = w
  | namespaceSign caller ns _ _ =>
    MaySign begun.tables caller ns ∧ MaySign w'.tables caller ns ∧ w' = w
  | signIdentity caller ns _ =>
    ∃ token scope, a = .bytes token ∧ IsToken token scope ∧
      Access.tokenScope begun.tables caller ns = .ok scope ∧
      Access.tokenScope w'.tables caller ns = .ok scope ∧ w' = w
  | signDelegation caller input =>
    MayDelegate begun.tables caller input.ns input.name ∧
      MayDelegate w'.tables caller input.ns input.name ∧
      ∃ signIn signature, a = .signIn signIn ∧ x = some (.reply (.ok signature)) ∧
        Holds w'.signatures input signIn signature ∧
        w' = { w with signatures := w'.signatures }
  | _ => True

section Calls

open Access Outcome Keys Signatures

variable {begun : World} {told : Reaction → Prop}

/-- What is proved of a call on its own, it concludes as an operation. -/
theorem concludes_of_call {α : Type} {o : Operation} {call : Outcome α} (answer : α → Answer)
    (h : call.Concludes told (fun w x w' a => w.generation = begun.generation →
      o.Revalidated begun w x w' (answer a)) begun none) :
    (call.map answer).Concludes told (fun w x w' a => w.generation = begun.generation →
      o.Revalidated begun w x w' a) begun none :=
  (concludes_map_iff answer _ call begun none).mpr h

theorem concludes_namespaceSign (caller : Principal) (ns : String) (path : List Bytes)
    (message : Bytes) :
    (namespaceSign caller ns path message begun).Concludes told (fun w _ w' _ =>
      MaySign begun.tables caller ns ∧ MaySign w'.tables caller ns ∧ w' = w) begun none := by
  refine concludes_after fun row hBegun => concludes_request fun w signature _ => ?_
  refine concludes_after fun row' hEnded => concludes_finish ?_
  simp only [bind_eq_ok_iff, exists_unit_iff] at hBegun
  obtain ⟨-, hBegun⟩ := hBegun
  exact ⟨(signing_iff ..).mp ⟨row, hBegun⟩, (signing_iff ..).mp ⟨row', hEnded⟩, rfl⟩

theorem concludes_signIdentity (service caller : Principal) (ns audience : String) (now : Int) :
    (signIdentity service caller ns audience now begun).Concludes told (fun w _ w' token =>
      ∃ scope, IsToken token scope ∧ tokenScope begun.tables caller ns = .ok scope ∧
        tokenScope w'.tables caller ns = .ok scope ∧ w' = w) begun none := by
  refine concludes_after fun scope hBegun => concludes_draw fun _ id _ => ?_
  refine concludes_request fun w signature _ => concludes_after ?_
  rintro ⟨⟩ hEnded
  apply concludes_finish
  simp only [bind_eq_ok_iff, exists_unit_iff] at hBegun
  obtain ⟨-, -, hBegun⟩ := hBegun
  simp only [bind_eq_ok_iff, demand_eq_ok_iff, decide_eq_true_eq] at hEnded
  obtain ⟨current, hCurrent, rfl⟩ := hEnded
  exact ⟨current, ⟨_, signature, rfl, rfl⟩, hBegun, hCurrent, rfl⟩

theorem concludes_encryptedKey (caller : Principal) (path : SettingPath)
    (input : ExchangeRequest) :
    (encryptedKey caller path input begun).Concludes told (fun w _ w' _ =>
      HoldsKey begun.tables caller (path.toKey caller) ∧
        HoldsKey w'.tables caller (path.toKey caller) ∧ w' = w) begun none := by
  refine concludes_after fun _ _ => concludes_after fun row hBegun => ?_
  refine concludes_after fun _ _ => concludes_after fun _ _ => concludes_request fun _ _ _ => ?_
  refine concludes_after fun _ _ => concludes_draw fun w octets _ => concludes_after fun _ _ => ?_
  refine concludes_after fun _ hEnded => concludes_finish ?_
  simp only [bind_eq_ok_iff] at hEnded
  obtain ⟨row', hEnded, -⟩ := hEnded
  exact ⟨(keyHolder_iff ..).mp ⟨row, hBegun⟩, (keyHolder_iff ..).mp ⟨row', hEnded⟩, rfl⟩

theorem concludes_serviceKey (caller : Principal) (path : SettingPath) (transportKey : Bytes) :
    (serviceKey caller path transportKey begun).Concludes told (fun w _ w' _ =>
      HoldsKey begun.tables caller (path.toKey caller) ∧
        HoldsKey w'.tables caller (path.toKey caller) ∧ w' = w) begun none := by
  refine concludes_after fun _ _ => concludes_after fun row hBegun => concludes_after fun _ _ => ?_
  refine concludes_request fun w octets _ => concludes_after fun row' hEnded => concludes_finish ?_
  exact ⟨(keyHolder_iff ..).mp ⟨row, hBegun⟩, (keyHolder_iff ..).mp ⟨row', hEnded⟩, rfl⟩

theorem concludes_signDelegation (service caller : Principal) (input : DelegationRequest)
    (now : Int) :
    (Signatures.signDelegation service caller input now begun).Concludes told (fun w x w' signIn =>
      w.generation = begun.generation → Delegates caller input now begun w x w' signIn) begun none := by
  refine concludes_after ?_
  rintro ⟨expiration, message⟩ hBegun
  simp only [bind_eq_ok_iff, exists_unit_iff, pure_eq_ok_iff, Prod.mk.injEq] at hBegun
  obtain ⟨-, -, lifetime, hBegun, expiration, hExpiration, message, hMessage, rfl, rfl⟩ := hBegun
  refine concludes_request fun w signature _ => concludes_after fun current hEnded => ?_
  dsimp only
  split
  · next hGeneration =>
    refine concludes_finish fun _ => ?_
    -- Without a snapshot loaded in between the tables that are looked at again are the current ones.
    rw [← hGeneration, World.tablesOf_generation] at hEnded
    have hHolds := holds_record w.signatures (now * nanosPerMilli)
      ⟨expiration, Identity.publicKey service (Identity.seed input.ns input.name),
        Identity.seed input.ns input.name⟩ signature hMessage
    exact ⟨lifetime, current, signature, hBegun, hExpiration, hEnded, rfl, hHolds, rfl⟩
  · next hGeneration =>
    refine concludes_finish fun hSame => ?_
    exact (hGeneration hSame).elim

theorem concludes_perform (service : Principal) (now : Int) (o : Operation) :
    (o.perform service now begun).Concludes told (fun w x w' a => w.generation = begun.generation →
      o.Revalidated begun w x w' a) begun none := by
  cases o with
  | encryptedKey caller path input =>
    refine concludes_of_call _ (.mono ?_ (concludes_encryptedKey caller path input))
    intro w x w' a h hGeneration
    exact h
  | serviceKey caller path transportKey =>
    refine concludes_of_call _ (.mono ?_ (concludes_serviceKey caller path transportKey))
    intro w x w' a h hGeneration
    exact h
  | namespaceSign caller ns path message =>
    refine concludes_of_call _ (.mono ?_ (concludes_namespaceSign caller ns path message))
    intro w x w' a h hGeneration
    exact h
  | signIdentity caller ns audience =>
    refine concludes_of_call _ (.mono ?_ (concludes_signIdentity service caller ns audience now))
    rintro w x w' token ⟨scope, hToken, hBegun, hEnded, hSame⟩ -
    exact ⟨token, scope, rfl, hToken, hBegun, hEnded, hSame⟩
  | signDelegation caller input =>
    refine concludes_of_call _ (.mono ?_ (concludes_signDelegation service caller input now))
    intro w x w' signIn h hGeneration
    obtain ⟨lifetime, current, signature, hBegun, -, hEnded, hReply, hHolds, hSame⟩ := h hGeneration
    exact ⟨(activeLifetime_iff ..).mp ⟨lifetime, hBegun⟩, (activeLifetime_iff ..).mp ⟨current, hEnded⟩,
      signIn, signature, rfl, hReply, hHolds, hSame⟩
  | _ => exact concludes_of_forall (fun _ _ _ _ _ => trivial) _ begun none

end Calls

/-! ## Runs -/

theorem Task.Segment.retired {task : Task} {w w' : World} {r : Result Answer}
    (h : task.Segment w w' r) (hTask : task.isLoad = false) : w'.retired = w.retired := by
  cases h with
  | loaded => cases hTask
  | notLoaded => rfl
  | operation segment => cases segment <;> rfl

namespace Server

theorem retired_run {s : Server} (hs : s.Sound fun task => task.isLoad = false)
    (service : Principal) {events : List Event}
    (hCalls : Calls (fun task => task.isLoad = false) events) :
    (s.run service events).1.world.retired = s.world.retired := by
  refine run_invariant (I := fun w => w.retired = s.world.retired) ?_ service events hs hCalls rfl
  intro w w' c hTask hBefore hSegment
  exact (hSegment.retired hTask).trans hBefore

/-- Without a snapshot loaded in the meantime, a call that returns something for which a right is
needed returns it in a state in which the right is still there. -/
theorem rights_held_at_return {service : Principal} {s before after : Server} {id : Nat} {now : Int}
    {o : Operation} {events : List Event} {last : Event} {a : Answer}
    (hReachable : Reachable service s) (hCalls : Calls (fun task => task.isLoad = false) events)
    (hReturns : Returns service s id (.operation now o) events last before after a) :
    o.Revalidated s.world before.world last.reaction? after.world a := by
  have hGeneration : before.world.generation = s.world.generation := by
    obtain ⟨earlier, hEvents, hBefore, -⟩ := hReturns.course
    have hEarlier : Calls (fun task => task.isLoad = false) earlier :=
      calls_of_course hEvents rfl hCalls
    rw [← hBefore]
    exact congrArg List.length (retired_run hReachable.sound service hEarlier)
  exact hReturns.concludes (concludes_perform service now o) hGeneration

namespace Sample

open Keys

def signingCall : Task := .operation 60 (.namespaceSign owner "vault" [[1]] [2])

/-- While the signature is made, the namespace changes under the call that waits for it. -/
def whileSigning : List Event := [auditorChange 4 .add, topUp, .reply 9 (.ok [3])]

def unsigned : Server :=
  (final.1.run owner [.call 9 signingCall, auditorChange 4 .add, topUp]).1

def signed : Server := (unsigned.step owner (.reply 9 (.ok [3]))).1

theorem signing_right_held_at_return :
    Reachable owner final.1 ∧ Calls (fun task => task.isLoad = false) whileSigning ∧
      Returns owner final.1 9 signingCall whileSigning (.reply 9 (.ok [3])) unsigned signed
        (.bytes [3]) ∧
      Signatures.MaySign final.1.world.tables owner "vault" ∧
      Signatures.MaySign signed.world.tables owner "vault" ∧ signed.world = unsigned.world := by
  have hReachable : Reachable owner final.1 := ⟨_, _, rfl⟩
  have hCalls : Calls (fun task => task.isLoad = false) whileSigning := by
    intro id task hMem
    simp only [whileSigning, auditorChange, topUp, List.mem_cons, List.not_mem_nil,
      Event.call.injEq, or_false, reduceCtorEq] at hMem
    rcases hMem with ⟨-, rfl⟩ | ⟨-, rfl⟩ <;> rfl
  have hReturns : Returns owner final.1 9 signingCall whileSigning (.reply 9 (.ok [3])) unsigned
      signed (.bytes [3]) := by
    refine ⟨?_, _, rfl, rfl, rfl⟩
    intro task hMem
    simp [whileSigning, auditorChange, topUp] at hMem
  exact ⟨hReachable, hCalls, hReturns, rights_held_at_return hReachable hCalls hReturns⟩

end Sample

end Server

end TenantVault
