import TenantVault.Proofs.Evaluation
import TenantVault.Proofs.Issuance

/-! # Delegations that can be fetched

A delegation that has been issued is kept until another one is issued after it has expired. Until then
whoever knows its seed, session key and expiry fetches it, and always with the same signature: what
others sign in the meantime, for the same identity and session key even, is kept beside it or is the same.
-/

namespace TenantVault

/-! ## Signatures that are kept -/

section Kept

variable {sign : Bytes → List Bytes → Bytes → Bytes} {strings : List Bytes} {i i' : Issue}
  {w w' : World}

/-- The signature of a delegation is there to be fetched. -/
def Issue.Kept (sign : Bytes → List Bytes → Bytes → Bytes) (i : Issue) (w : World) : Prop :=
  w.signatures.get? i.key = some (i.signature sign, i.expiration)

theorem Issued.kept (h : Issued sign i w w') : i.Kept sign w' := by
  unfold Issue.Kept
  rw [h.recorded, Signatures.record, Table.get?_put]
  exact if_pos BEq.rfl

/-- Nothing that has expired is there when a delegation has been issued. -/
theorem Issued.nanos_le (h : Issued sign i w w') {row : (Bytes × Bytes) × Bytes × Int}
    (hRow : row ∈ w'.signatures.rows) : i.nanos ≤ row.2.2 := by
  have hFound := (Table.get?_eq_some_iff _ row.1 row.2).mpr hRow
  rw [h.recorded, Signatures.record, Table.get?_put] at hFound
  split at hFound
  · rw [← Option.some.inj hFound]
    exact h.lasting
  · have hKept := (Table.get?_eq_some_iff _ _ _).mp hFound
    exact of_decide_eq_true (List.mem_filter.mp hKept).2

/-- Two delegations that are kept in one place differ in nothing but the time of the call. -/
theorem Issue.same_of_key (hFree : CollisionFree strings) (hMem : i.hashed ⊆ strings)
    (hMem' : i'.hashed ⊆ strings) (hCounted : 0 ≤ i.expiration) (hCounted' : 0 ≤ i'.expiration)
    (h : i'.key = i.key) :
    i'.seed = i.seed ∧ i'.sessionKey = i.sessionKey ∧ i'.expiration = i.expiration := by
  obtain ⟨hSeed, hMessage⟩ := Prod.mk.inj h
  have hSeedMem : i.seed ∈ strings := hMem List.mem_cons_self
  have hSeedMem' : i'.seed ∈ strings := hMem' List.mem_cons_self
  exact ⟨hFree _ hSeedMem' _ hSeedMem hSeed,
    Identity.delegation_unique hFree hMem' hMem hCounted' hCounted hMessage⟩

/-- A delegation stays when another one is issued before it has expired. -/
theorem Issue.Kept.issued (hKept : i.Kept sign w) (h : Issued sign i' w w')
    (hFree : CollisionFree strings) (hMem : i.hashed ⊆ strings) (hMem' : i'.hashed ⊆ strings)
    (hCounted : 0 ≤ i.expiration) (hEarly : i'.nanos ≤ i.expiration) : i.Kept sign w' := by
  by_cases hKey : i'.key = i.key
  · -- The other signature has replaced this one, and it is the same.
    obtain ⟨hSeed, hSessionKey, hExpiration⟩ :=
      Issue.same_of_key hFree hMem hMem' hCounted h.counted hKey
    have hNew := h.kept
    unfold Issue.Kept Issue.signature Issue.message at hNew ⊢
    rw [hKey, hSeed, hSessionKey, hExpiration] at hNew
    exact hNew
  · unfold Issue.Kept at hKept ⊢
    rw [h.recorded, Signatures.record, Table.get?_put, if_neg (by simpa using hKey)]
    rw [Table.get?_eq_some_iff] at hKept ⊢
    exact List.mem_filter.mpr ⟨hKept, decide_eq_true hEarly⟩

end Kept

/-! ## Runs in which delegations are issued -/

namespace Server

variable {service : Principal} {begun : Config → Prop} {asked : Int → Operation → Prop}
  {sign : Bytes → List Bytes → Bytes → Bytes} {generation : Nat} {s : Server}

/-- A service all of whose waiting calls began with the tables that it has, and issue delegations that a
signer of fixed signatures signs. -/
structure Issuing (service : Principal) (begun : Config → Prop) (asked : Int → Operation → Prop)
    (sign : Bytes → List Bytes → Bytes → Bytes) (generation : Nat) (s : Server) : Prop where
  lived : Lived service begun asked s
  current : s.world.generation = generation
  heeds : s.Heeds (SignedBy sign) (Task.Issues sign generation)

/-- What a step does to the signatures: nothing, unless a call ends and has issued a delegation. -/
inductive Turn (sign : Bytes → List Bytes → Bytes → Bytes) (w : World) :
    Server × Option Completion → Prop
  | kept {s' : Server} {c? : Option Completion} (same : s'.world.signatures = w.signatures)
      (quiet : ∀ c, c? = some c → c.issued? = none) : Turn sign w (s', c?)
  | issued {s' : Server} {c : Completion} {i : Issue} (about : c.issued? = some i)
      (issued : Issued sign i w s'.world) : Turn sign w (s', some c)

theorem Issuing.step (hAccepted : ∀ now o, asked now o → o.Accepted)
    (h : Issuing service begun asked sign generation s) {e : Event}
    (hCalls : Calls (Task.Asks asked) [e]) (hGiven : s.Given (SignedBy sign) e) :
    Issuing service begun asked sign generation (s.step service e).1 ∧
      Turn sign s.world (s.step service e) := by
  have hStart (id : Nat) (task : Task) (_ : e = .call id task) :
      (task.start service s.world).EachGiven (SignedBy sign) (task.Issues sign generation) s.world := by
    have hIssues : (task.start service s.world).EachGiven (SignedBy sign)
        (task.Issues sign s.world.generation) s.world :=
      task.issues_start service (h.lived.lasting hAccepted)
    rw [h.current] at hIssues
    exact hIssues
  have hLived := h.lived.step e hCalls
  have hSteps := (step_spec service h.lived.sound e hCalls).2
  obtain ⟨hHeeds, hEnded⟩ := heeds_step h.heeds hGiven hStart
  generalize s.step service e = next at hLived hSteps hHeeds hEnded ⊢
  cases hSteps with
  | waits same =>
    refine ⟨⟨hLived, (congrArg World.generation same).trans h.current, hHeeds⟩, ?_⟩
    apply Turn.kept (congrArg World.signatures same)
    intro c hNone
    cases hNone
  | @ends s' c about kind segment =>
    have hTask : c.task.isLoad = false := kind.isLoad
    have hRetired := congrArg List.length (segment.retired hTask)
    refine ⟨⟨hLived, hRetired.trans h.current, hHeeds⟩, ?_⟩
    cases hIssued : c.issued? with
    | none =>
      apply Turn.kept (Completion.signatures_of_not_issued segment hTask hIssued)
      intro c' hSame
      cases hSame
      exact hIssued
    | some i =>
      exact .issued hIssued (Completion.issued_of_issues (hEnded c rfl) h.current hIssued)

theorem Issuing.run (hAccepted : ∀ now o, asked now o → o.Accepted)
    (h : Issuing service begun asked sign generation s) {events : List Event}
    (hCalls : Calls (Task.Asks asked) events) (hSigned : s.AllGiven service (SignedBy sign) events) :
    Issuing service begun asked sign generation (s.run service events).1 := by
  induction events generalizing s with
  | nil => exact h
  | cons e events ih =>
    obtain ⟨hGiven, hRest⟩ := hSigned
    exact ih (h.step hAccepted hCalls.head hGiven).1 hCalls.tail hRest

/-- A delegation stays as long as all that are issued are issued before it has expired. -/
theorem Issuing.kept_run (hAccepted : ∀ now o, asked now o → o.Accepted)
    (h : Issuing service begun asked sign generation s) {events : List Event}
    (hCalls : Calls (Task.Asks asked) events) (hSigned : s.AllGiven service (SignedBy sign) events)
    {strings : List Bytes} (hFree : CollisionFree strings) {i : Issue} (hMem : i.hashed ⊆ strings)
    (hCounted : 0 ≤ i.expiration)
    (hOthers : ∀ c ∈ (s.run service events).2, c.hashed ⊆ strings ∧
      ∀ i', c.issued? = some i' → i'.nanos ≤ i.expiration)
    (hKept : i.Kept sign s.world) : i.Kept sign (s.run service events).1.world := by
  induction events generalizing s with
  | nil => exact hKept
  | cons e events ih =>
    obtain ⟨hGiven, hRest⟩ := hSigned
    obtain ⟨hNext, hTurn⟩ := h.step hAccepted hCalls.head hGiven
    rw [Server.run] at hOthers ⊢
    dsimp only at hOthers ⊢
    obtain ⟨hEnded, hLater⟩ := List.forall_mem_append.mp hOthers
    apply ih hNext hCalls.tail hRest hLater
    generalize s.step service e = next at hTurn hEnded ⊢
    cases hTurn with
    | kept same =>
      unfold Issue.Kept
      rw [same]
      exact hKept
    | @issued s' c i' about issued =>
      obtain ⟨hStrings, hEarly⟩ := hEnded c List.mem_cons_self
      rw [Completion.hashed_of_issued about] at hStrings
      exact hKept.issued issued hFree hMem hStrings hCounted (hEarly i' about)

/-- Whoever asks for a delegation gets it, at once and at any time, with a certain signature. -/
def Fetches (service : Principal) (s : Server) (seed sessionKey : Bytes) (expiration : Int)
    (signature : Bytes) : Prop :=
  ∀ id now, s.step service (.call id (.operation now (.getDelegation seed sessionKey expiration))) =
    (s.hold id none, some ⟨id, .operation now (.getDelegation seed sessionKey expiration),
      .ok (.delegation ⟨sessionKey, expiration, signature⟩)⟩)

theorem fetches_of_kept {i : Issue} (hCounted : 0 ≤ i.expiration) (hKept : i.Kept sign s.world) :
    s.Fetches service i.seed i.sessionKey i.expiration (i.signature sign) := by
  intro id now
  have hMessage := i.delegationMessage_eq hCounted
  have hFetched : Signatures.getDelegation i.seed i.sessionKey i.expiration s.world =
      .finish s.world ⟨i.sessionKey, i.expiration, i.signature sign⟩ := by
    unfold Issue.Kept Issue.key at hKept
    unfold Signatures.getDelegation
    rw [hMessage]
    dsimp only [bind, Except.bind]
    rw [hKept]
    rfl
  unfold step Task.start Operation.perform
  dsimp only
  rw [hFetched]
  rfl

/-- Every delegation that a call has returned can be fetched until another one is issued after it has
expired, whatever calls run in the meantime. What is there when a call returns one has not expired. -/
theorem delegation_stays_fetchable {before after : Server} {first more : List Event} {last : Event}
    {id : Nat} {now : Int} {caller : Principal} {input : DelegationRequest}
    {signIn : Signatures.SignIn} (hAccepted : ∀ now o, asked now o → o.Accepted)
    (hLived : Lived service begun asked s) (hIdle : ∀ id, s.waiting id = none)
    (hCalls : Calls (Task.Asks asked) (first ++ last :: more))
    (hSigned : s.AllGiven service (SignedBy sign) (first ++ last :: more))
    (hBefore : (s.run service first).1 = before)
    (hReturned : before.step service last =
      (after, some ⟨id, .operation now (.signDelegation caller input), .ok (.signIn signIn)⟩))
    (hFree : CollisionFree ((before.run service (last :: more)).2.flatMap Completion.hashed)) :
    (∀ row ∈ after.world.signatures.rows, now * Signatures.nanosPerMilli ≤ row.2.2) ∧
      ((∀ c ∈ (after.run service more).2, ∀ i, c.issued? = some i → i.nanos ≤ signIn.expiration) →
        ∃ message, Identity.delegationMessage input.sessionKey signIn.expiration none = .ok message ∧
          (after.run service more).1.Fetches service signIn.seed input.sessionKey signIn.expiration
            (sign Signer.delegationLabel [signIn.seed] message)) := by
  obtain ⟨hSignedFirst, hSignedRest⟩ := (allGiven_append_iff ..).mp hSigned
  obtain ⟨hCallsFirst, hCallsRest⟩ := (calls_append_iff ..).mp hCalls
  have hBegun : Issuing service begun asked sign s.world.generation s :=
    ⟨hLived, rfl, heeds_of_idle hIdle⟩
  have hIssuing := hBegun.run hAccepted hCallsFirst hSignedFirst
  rw [hBefore] at hIssuing hSignedRest
  obtain ⟨hGiven, hSignedMore⟩ := hSignedRest
  obtain ⟨hAfter, hTurn⟩ := hIssuing.step hAccepted hCallsRest.head hGiven
  rw [run] at hFree
  rw [hReturned] at hAfter hTurn hSignedMore hFree
  dsimp only at hAfter hSignedMore hFree
  generalize hEnded : (⟨id, .operation now (.signDelegation caller input), .ok (.signIn signIn)⟩ :
    Completion) = c at hTurn hFree
  have hAbout : c.issued? = some ⟨now, input.sessionKey, signIn⟩ := by
    rw [← hEnded]
    rfl
  cases hTurn with
  | kept same quiet =>
    rw [quiet c rfl] at hAbout
    cases hAbout
  | issued about issued =>
    cases Option.some.inj (about.symm.trans hAbout)
    refine ⟨fun row hRow => issued.nanos_le hRow, ?_⟩
    intro hEarly
    have hHashed (c' : Completion) (hMem : c' ∈ c :: (after.run service more).2) :
        c'.hashed ⊆ (c :: (after.run service more).2).flatMap Completion.hashed := by
      intro x hx
      exact List.mem_flatMap.mpr ⟨c', hMem, hx⟩
    refine ⟨_, (Identity.delegationMessage_eq_ok_iff ..).mpr ⟨issued.counted, rfl⟩, ?_⟩
    refine fetches_of_kept (i := ⟨now, input.sessionKey, signIn⟩) issued.counted ?_
    refine hAfter.kept_run hAccepted hCallsRest.tail hSignedMore hFree ?_ issued.counted ?_ issued.kept
    · rw [← Completion.hashed_of_issued about]
      exact hHashed c List.mem_cons_self
    · intro c' hMem
      exact ⟨hHashed c' (List.mem_cons_of_mem c hMem), hEarly c' hMem⟩

/-! ## Two calls that wait for the signer at once -/

namespace Sample

open Signatures (nanosPerMilli)

def sessionKey : Bytes := [
  48, 42, 48, 5, 6, 3, 43, 101, 112, 3, 33, 0, 121, 181, 86, 46, 143, 230, 84, 249, 64, 120, 177, 18, 232,
  169, 139, 167, 144, 31, 133, 58, 230, 149, 190, 215, 224, 227, 145, 11, 173, 4, 150, 100]

def consent : Bytes := [
  17, 111, 230, 239, 163, 113, 185, 155, 57, 216, 78, 3, 172, 228, 130, 43, 71, 250, 228, 77, 125, 12, 234,
  67, 192, 87, 21, 111, 23, 241, 61, 241, 190, 175, 178, 184, 213, 101, 73, 69, 154, 217, 15, 78, 37, 116,
  143, 86, 135, 212, 122, 92, 53, 80, 12, 6, 225, 195, 130, 69, 171, 248, 16, 8]

def request : DelegationRequest := ⟨"vault", "bot", sessionKey, consent⟩

theorem request_verifies : PublicKey.verify request.sessionKey (Signatures.challenge request owner)
    request.signature = .ok () := by
  have hKey : PublicKey.ofDer? request.sessionKey = some (.ed25519 (sessionKey.drop 12)) := rfl
  have hVerified : Ed25519.verify (sessionKey.drop 12) (Signatures.challenge request owner)
      request.signature = true := by
    rw [← Ed25519.verifyWith_strictMultiply]
    decide +kernel
  unfold PublicKey.verify
  rw [hKey]
  exact if_pos hVerified

def signer : Signer := ⟨List.replicate 32 7, rfl⟩

/-- What a call at some time issues. -/
def issue (now : Int) : Issue where
  now := now
  sessionKey := sessionKey
  signIn :=
    { expiration := (Namespace.defaultSessionLifetime + now) * nanosPerMilli
      userKey := Identity.publicKey owner (Identity.seed "vault" "bot")
      seed := Identity.seed "vault" "bot" }

def signing (now : Int) : Task := .operation now (.signDelegation owner request)

def signatureReply (now : Int) : Reply := .ok ((issue now).signature signer.sign)

def admission : List Event := [
  .call 0 (.operation 10 (.createNamespace owner newNamespace)),
  .call 1 (.operation 20 (.changeDelegators owner .add ⟨"vault", "bot", .ofList [owner]⟩))]

def admitted : Server := ((idle (.ofConfig config)).run owner admission).1

/-- A call for a delegation can begin with these tables and end with them. -/
def Admits (w : World) : Prop := w.tables = admitted.world.tables ∧ w.generation = 0

theorem admitted_admits : Admits admitted.world := ⟨rfl, rfl⟩

/-- What is there when the delegation of a call has been issued. -/
def withSignature (w : World) (now : Int) : World :=
  { w with
    signatures := Signatures.record w.signatures (issue now).nanos (issue now).key
      ((issue now).signature signer.sign) (issue now).expiration }

/-- A call waits for a signature; if the tables are still the same then, it issues the delegation. -/
def AwaitsSignature (s : Server) (id : Nat) (now : Int) : Prop :=
  ∃ resume, s.waiting id = some ⟨signing now,
      .ask (.sign Signer.delegationLabel [(issue now).seed] (issue now).message) resume⟩ ∧
    ∀ w, Admits w → resume w (signatureReply now) =
      .done (withSignature w now) (.ok (.signIn (issue now).signIn))

variable {s : Server} {id : Nat} {now : Int}

/-- A call begins with a request to the signer and ends well if the caller may still sign in then. -/
theorem exists_start_signing (now : Int) (hAdmits : Admits s.world) (hCounted : 0 ≤ (issue now).expiration) :
    ∃ resume, (signing now).start owner s.world =
        .ask (.sign Signer.delegationLabel [(issue now).seed] (issue now).message) resume ∧
      ∀ w lifetime, w.generation = 0 →
        Signatures.activeLifetime w.tables owner request.ns request.name = .ok lifetime →
          resume w (signatureReply now) = .done (withSignature w now) (.ok (.signIn (issue now).signIn)) := by
  obtain ⟨hTables, hGeneration⟩ := hAdmits
  have hAllowed : Access.allowed s.world.tables owner "namespace_sign_delegation" = .ok () := by
    rw [hTables]
    rfl
  have hActive : Signatures.activeLifetime s.world.tables owner request.ns request.name =
      .ok (.int Namespace.defaultSessionLifetime) := by
    rw [hTables]
    rfl
  have hExpiration : Signatures.expirationOf now (.int Namespace.defaultSessionLifetime) =
      .ok (issue now).expiration := rfl
  have hMessage : Identity.delegationMessage request.sessionKey (issue now).expiration none =
      .ok (issue now).message := (issue now).delegationMessage_eq hCounted
  obtain ⟨resume, hStart, hResume⟩ := Signatures.exists_signDelegation owner hAllowed request_verifies
    hActive hExpiration hMessage
  refine ⟨fun w reply => (resume w reply).map Answer.signIn, ?_, ?_⟩
  · rw [signing, Task.start, Operation.perform, hStart]
    rfl
  · intro w lifetime hFirst hStill
    dsimp only
    rw [signatureReply, hResume w _ _ (hFirst.trans hGeneration.symm) hStill]
    rfl

theorem awaits_of_call (id : Nat) (now : Int) (hAdmits : Admits s.world)
    (hCounted : 0 ≤ (issue now).expiration) :
    AwaitsSignature (s.step owner (.call id (signing now))).1 id now ∧
      (s.step owner (.call id (signing now))).1.world = s.world := by
  obtain ⟨resume, hStart, hResume⟩ := exists_start_signing now hAdmits hCounted
  rw [step_call_of_ask hStart]
  refine ⟨⟨_, if_pos rfl, ?_⟩, rfl⟩
  rintro w ⟨hSame, hFirst⟩
  refine hResume w (.int Namespace.defaultSessionLifetime) hFirst ?_
  rw [hSame]
  rfl

theorem AwaitsSignature.step {e : Event} (h : AwaitsSignature s id now) (hOther : id ≠ e.id) :
    AwaitsSignature (s.step owner e).1 id now := by
  unfold AwaitsSignature at h ⊢
  rw [waiting_step hOther]
  exact h

theorem AwaitsSignature.given (h : AwaitsSignature s id now) :
    s.Given (SignedBy signer.sign) (.reply id (signatureReply now)) := by
  obtain ⟨resume, hWaits, -⟩ := h
  intro id' reply task q resume' hReply hWaits'
  cases hReply
  cases hWaits.symm.trans hWaits'
  rfl

theorem AwaitsSignature.ends (h : AwaitsSignature s id now) (hAdmits : Admits s.world) :
    s.step owner (.reply id (signatureReply now)) =
      ({ s with world := withSignature s.world now }.hold id none,
        some ⟨id, signing now, .ok (.signIn (issue now).signIn)⟩) := by
  obtain ⟨resume, hWaits, hResume⟩ := h
  exact step_reply_of_done hWaits (hResume s.world hAdmits)

theorem AwaitsSignature.admits_after (h : AwaitsSignature s id now) (hAdmits : Admits s.world) :
    Admits (s.step owner (.reply id (signatureReply now))).1.world := by
  rw [h.ends hAdmits]
  exact hAdmits

def beginnings : List Event := admission ++ [.call 2 (signing 30), .call 3 (signing 40)]

/-- Two calls wait for the signer. -/
def pair : Server := ((idle (.ofConfig config)).run owner beginnings).1

/-- The call that began later has returned. -/
def afterLater : Server := (pair.step owner (.reply 3 (signatureReply 40))).1

def afterBoth : Server := (afterLater.step owner (.reply 2 (signatureReply 30))).1

def endings : List Event := [.reply 3 (signatureReply 40), .reply 2 (signatureReply 30)]

theorem pair_awaits : AwaitsSignature pair 2 30 ∧ AwaitsSignature pair 3 40 ∧ Admits pair.world := by
  have hPair : pair = ((admitted.step owner (.call 2 (signing 30))).1.step owner
      (.call 3 (signing 40))).1 := by
    rw [pair, beginnings, run_append, ← admitted]
    simp only [run]
  obtain ⟨hEarlier, hSame⟩ := awaits_of_call 2 30 admitted_admits (by decide)
  have hAdmits : Admits (admitted.step owner (.call 2 (signing 30))).1.world := by
    rw [hSame]
    exact admitted_admits
  obtain ⟨hLater, hSame'⟩ := awaits_of_call 3 40 hAdmits (by decide)
  have hOther : 2 ≠ (Event.call 3 (signing 40)).id := Nat.ne_of_lt (Nat.lt_succ_self 2)
  rw [hPair, hSame']
  exact ⟨hEarlier.step hOther, hLater, hAdmits⟩

theorem afterLater_awaits : AwaitsSignature afterLater 2 30 ∧ Admits afterLater.world := by
  obtain ⟨hEarlier, hLater, hAdmits⟩ := pair_awaits
  have hOther : 2 ≠ (Event.reply 3 (signatureReply 40)).id := Nat.ne_of_lt (Nat.lt_succ_self 2)
  rw [afterLater]
  exact ⟨hEarlier.step hOther, hLater.admits_after hAdmits⟩

theorem pair_step : pair.step owner (.reply 3 (signatureReply 40)) =
    (afterLater, some ⟨3, signing 40, .ok (.signIn (issue 40).signIn)⟩) := by
  obtain ⟨-, hLater, hAdmits⟩ := pair_awaits
  rw [afterLater, hLater.ends hAdmits]

theorem afterLater_step : afterLater.step owner (.reply 2 (signatureReply 30)) =
    (afterBoth, some ⟨2, signing 30, .ok (.signIn (issue 30).signIn)⟩) := by
  obtain ⟨hEarlier, hAdmits⟩ := afterLater_awaits
  rw [afterBoth, hEarlier.ends hAdmits]

theorem delegations_accepted : Calls (Task.Asks fun _ o => o.Accepted) (beginnings ++ endings) := by
  have hNamespace : NewNamespace.ofFields [("name", .text "vault"), ("managers",
      .list [.principal owner])] = .good newNamespace := rfl
  have hDelegators : DelegatorChange.ofFields [("ns", .text "vault"), ("name", .text "bot"),
      ("delegators", .list [.principal owner])] = .good ⟨"vault", "bot", .ofList [owner]⟩ := rfl
  have hRequest : DelegationRequest.ofFields [("ns", .text "vault"), ("name", .text "bot"),
      ("pubkey", .bytes sessionKey), ("sig", .bytes consent)] = .good request := rfl
  intro id task hMem
  simp only [beginnings, admission, endings, List.cons_append, List.nil_append, List.mem_cons,
    List.not_mem_nil, Event.call.injEq, reduceCtorEq, or_false] at hMem
  rcases hMem with ⟨-, rfl⟩ | ⟨-, rfl⟩ | ⟨-, rfl⟩ | ⟨-, rfl⟩
  · exact ⟨_, hNamespace⟩
  · exact ⟨_, hDelegators⟩
  · exact ⟨_, hRequest⟩
  · exact ⟨_, hRequest⟩

theorem delegations_signed :
    (idle (.ofConfig config)).AllGiven owner (SignedBy signer.sign) (beginnings ++ endings) := by
  obtain ⟨-, hLater, -⟩ := pair_awaits
  refine (allGiven_append_iff ..).mpr ⟨?_, hLater.given, afterLater_awaits.1.given, trivial⟩
  apply allGiven_of_calls
  simp [beginnings, admission]

/-- What is hashed for one delegation only, with the fields of the record in their order. -/
def hashedStrings (now : Int) : List Bytes :=
  let value := Identity.expirationValue (issue now).expiration
  let fields := Identity.hashedField Identity.expirationName value ++
    Identity.hashedField Identity.pubkeyName sessionKey
  [value, fields, UInt8.ofNat Identity.delegationDomain.length :: Identity.delegationDomain ++
    Sha256.sha256 fields]

theorem hashed_issue (now : Int) :
    (issue now).hashed = (issue now).seed :: sessionKey :: hashedStrings now := by
  rw [Issue.hashed, Identity.hashed, Identity.delegationStatement, Identity.delegationRecord_eq]
  rfl

theorem hashedStrings_nodup : (((issue 40).seed :: sessionKey ::
    (hashedStrings 40 ++ hashedStrings 30)).map Sha256.sha256).Nodup := by decide +kernel

theorem run_endings : pair.run owner endings = (afterBoth,
    [⟨3, signing 40, .ok (.signIn (issue 40).signIn)⟩,
      ⟨2, signing 30, .ok (.signIn (issue 30).signIn)⟩]) := by
  simp only [endings, run, pair_step, afterLater_step, Option.toList_some, List.append_nil,
    List.cons_append, List.nil_append]

theorem delegations_collisionFree :
    CollisionFree ((pair.run owner endings).2.flatMap Completion.hashed) := by
  apply (collisionFree_of_nodup hashedStrings_nodup).mono
  have hHashed : (pair.run owner endings).2.flatMap Completion.hashed =
      (issue 40).hashed ++ ((issue 30).hashed ++ []) := by
    rw [run_endings]
    rfl
  have hSeed : (issue 30).seed = (issue 40).seed := rfl
  rw [hHashed, hashed_issue, hashed_issue, hSeed]
  grind

theorem interleaved_delegation_stays :
    Calls (Task.Asks fun _ o => o.Accepted) (beginnings ++ endings) ∧
      (idle (.ofConfig config)).AllGiven owner (SignedBy signer.sign) (beginnings ++ endings) ∧
      CollisionFree ((pair.run owner endings).2.flatMap Completion.hashed) ∧
      (∀ row ∈ afterLater.world.signatures.rows, 40 * nanosPerMilli ≤ row.2.2) ∧
      ∃ message, Identity.delegationMessage request.sessionKey (issue 40).signIn.expiration none =
          .ok message ∧
        afterBoth.Fetches owner (issue 40).signIn.seed request.sessionKey (issue 40).signIn.expiration
          (signer.sign Signer.delegationLabel [(issue 40).signIn.seed] message) := by
  have hLived : Lived owner Config.Valid (fun _ o => o.Accepted) (idle (.ofConfig config)) :=
    .start ⟨fields, rfl⟩
  obtain ⟨hRows, hFetched⟩ := delegation_stays_fetchable (fun _ _ h => h) hLived (fun _ => rfl)
    delegations_accepted delegations_signed rfl pair_step delegations_collisionFree
  refine ⟨delegations_accepted, delegations_signed, delegations_collisionFree, hRows, ?_⟩
  have hRun : afterLater.run owner [.reply 2 (signatureReply 30)] =
      (afterBoth, [⟨2, signing 30, .ok (.signIn (issue 30).signIn)⟩]) := by
    simp only [run, afterLater_step, Option.toList_some, List.append_nil]
  rw [hRun] at hFetched
  dsimp only at hFetched
  apply hFetched
  intro c hMem i hIssued
  cases List.mem_singleton.mp hMem
  cases hIssued
  decide

end Sample

end Server

end TenantVault
