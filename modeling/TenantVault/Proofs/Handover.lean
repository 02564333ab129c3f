import TenantVault.Proofs.Envelopes
import TenantVault.Proofs.Exchanges
import TenantVault.Proofs.Server

/-! # Handing out a decrypted setting

An encrypted setting is handed out after two waits, for the signature from which its key is derived
and for the random octets of the exchange. The right to that key is looked at when the call begins
and when the signature has come. When the octets have come, only the right to read the setting is
looked at again, so a caller who has lost the right to the key by then is still served if he may
read the setting in another way.
-/

namespace TenantVault

/-! ## What a call delivers -/

inductive Reaction where
  | reply (reply : Reply)
  | random (octets : Bytes)

namespace Outcome

variable {α β : Type}

/-- A call goes on with one reaction after the other, each in the world in which it comes, and with
the last of them it ends in an answer. -/
def Delivers (a : α) : Outcome α → List (World × Reaction) → Prop
  | done _ r, [] => r = .ok a
  | ask _ resume, (w, .reply reply) :: rest => (resume w reply).Delivers a rest
  | draw _ resume, (w, .random octets) :: rest => (resume w octets).Delivers a rest
  | _, _ => False

variable {a : α} {w w' : World} {rest : List (World × Reaction)}

theorem delivers_finish_iff (a' : α) : (finish w a').Delivers a [] ↔ a' = a := by
  unfold finish Delivers
  rw [Except.ok.injEq]

theorem not_delivers_fail (why : Failure) : ¬ (fail w why : Outcome α).Delivers a rest := by
  intro h
  cases rest with
  | nil => cases h
  | cons step rest => exact h

theorem delivers_after_iff (r : Result β) (next : β → Outcome α) :
    (after w r next).Delivers a rest ↔ ∃ b, r = .ok b ∧ (next b).Delivers a rest := by
  cases r with
  | error why =>
    constructor
    · intro h
      exact (not_delivers_fail why h).elim
    · rintro ⟨_, ⟨⟩, _⟩
  | ok b =>
    constructor
    · intro h
      exact ⟨b, rfl, h⟩
    · rintro ⟨_, ⟨⟩, h⟩
      exact h

theorem delivers_request_iff (q : Request) (next : World → Bytes → Outcome α) (octets : Bytes) :
    (request q next).Delivers a ((w, .reply (.ok octets)) :: rest) ↔
      (next w octets).Delivers a rest := Iff.rfl

theorem delivers_draw_iff (size : Nat) (resume : World → Bytes → Outcome α) (octets : Bytes) :
    (draw size resume).Delivers a ((w, .random octets) :: rest) ↔
      (resume w octets).Delivers a rest := Iff.rfl

theorem delivers_map_iff (f : α → β) (o : Outcome α) (b : β) :
    (o.map f).Delivers b rest ↔ ∃ a, o.Delivers a rest ∧ f a = b := by
  have hNever {p : α → Prop} (hp : ∀ a, ¬ p a) : False ↔ ∃ a, p a ∧ f a = b :=
    ⟨False.elim, fun ⟨a, ha, _⟩ => hp a ha⟩
  -- The reactions are read along with the outcome, of which each constructor takes one kind.
  induction o generalizing rest with
  | done w r =>
    cases rest with
    | cons step rest => cases r <;> exact hNever fun _ => id
    | nil =>
      cases r with
      | error why => exact (iff_false_intro nofun).trans (hNever fun _ => nofun)
      | ok a =>
        refine (delivers_finish_iff (f a)).trans ?_
        constructor
        · intro h
          exact ⟨a, rfl, h⟩
        · rintro ⟨_, ⟨⟩, h⟩
          exact h
  | ask q resume ih =>
    cases rest with
    | nil => exact hNever fun _ => id
    | cons step rest =>
      obtain ⟨w, reaction⟩ := step
      cases reaction with
      | reply reply => exact ih w reply
      | random octets => exact hNever fun _ => id
  | draw size resume ih =>
    cases rest with
    | nil => exact hNever fun _ => id
    | cons step rest =>
      obtain ⟨w, reaction⟩ := step
      cases reaction with
      | reply reply => exact hNever fun _ => id
      | random octets => exact ih w octets

/-- What a call is after a reply, which is lost if the call does not wait for one. -/
def hear (o : Outcome α) (w : World) (reply : Reply) : Outcome α :=
  match o with
  | ask _ resume => resume w reply
  | o => o

theorem delivers_hear_iff (o : Outcome α) (w w' : World) (reply : Reply) (octets : Bytes) :
    (o.hear w reply).Delivers a [(w', .random octets)] ↔
      o.Delivers a [(w, .reply reply), (w', .random octets)] ∨
      o.Delivers a [(w', .random octets)] := by
  cases o with
  | done w r => exact ⟨False.elim, fun h => h.elim id id⟩
  | ask q resume => exact ⟨Or.inl, fun h => h.elim id False.elim⟩
  | draw size resume => exact ⟨Or.inr, fun h => h.elim False.elim id⟩

theorem quiet_hear {o : Outcome α} (h : o.Quiet w) (w' : World) (reply : Reply) :
    ∃ w'', (o.hear w' reply).Quiet w'' := by
  cases o with
  | done w'' r => exact ⟨w'', rfl⟩
  | ask q resume => exact ⟨w', h w' reply⟩
  | draw size resume => exact ⟨w', h⟩

end Outcome

namespace Server

/-- The place of a call among the waiting ones, which is none when it has ended. -/
def pendingOf (task : Task) : Outcome Answer → Option Pending
  | .done .. => none
  | o => some ⟨task, o⟩

section Waiting

variable {service : Principal} {s : Server} {id : Nat} {task : Task} {o : Outcome Answer}

theorem waiting_advance_self (s : Server) (id : Nat) (task : Task) (o : Outcome Answer) :
    (s.advance id task o).1.waiting id = pendingOf task o := by
  cases o <;> exact if_pos rfl

theorem ended_advance_iff (s : Server) (id : Nat) (task : Task) (o : Outcome Answer) (a : Answer) :
    (s.advance id task o).2 = some ⟨id, task, .ok a⟩ ↔ o.Delivers a [] := by
  cases o with
  | done w r =>
    constructor
    · rintro ⟨⟩
      rfl
    · rintro ⟨⟩
      rfl
  | ask q resume => exact ⟨nofun, False.elim⟩
  | draw size resume => exact ⟨nofun, False.elim⟩

theorem waiting_run {events : List Event} (hOthers : ∀ e ∈ events, e.id ≠ id)
    (service : Principal) (s : Server) :
    (s.run service events).1.waiting id = s.waiting id := by
  induction events generalizing s with
  | nil => rfl
  | cons e events ih =>
    have hOther : id ≠ e.id := (hOthers e List.mem_cons_self).symm
    have hRest : ∀ e ∈ events, e.id ≠ id := by
      intro e he
      exact hOthers e (List.mem_cons_of_mem _ he)
    exact (ih hRest _).trans (waiting_step hOther service s)

theorem waiting_step_reply (service : Principal) (hWaits : s.waiting id = pendingOf task o)
    (reply : Reply) :
    (s.step service (.reply id reply)).1.waiting id = pendingOf task (o.hear s.world reply) := by
  unfold step
  dsimp only
  rw [hWaits]
  cases o with
  | done w r => exact hWaits
  | ask q resume => exact waiting_advance_self s id task _
  | draw size resume => exact hWaits

theorem ended_step_random_iff (service : Principal) (hWaits : s.waiting id = pendingOf task o)
    (octets : Bytes) (a : Answer) :
    (s.step service (.random id octets)).2 = some ⟨id, task, .ok a⟩ ↔
      o.Delivers a [(s.world, .random octets)] := by
  unfold step
  dsimp only
  rw [hWaits]
  cases o with
  | done w r => exact ⟨nofun, False.elim⟩
  | ask q resume => exact ⟨nofun, False.elim⟩
  | draw size resume => exact ended_advance_iff s id task _ a

/-- A call that changes nothing leaves the world as it is when the octets come. -/
theorem world_step_random (service : Principal) (hWaits : s.waiting id = pendingOf task o)
    {w : World} (hQuiet : o.Quiet w) (octets : Bytes) :
    (s.step service (.random id octets)).1.world = s.world := by
  unfold step
  dsimp only
  rw [hWaits]
  cases o with
  | done w r => rfl
  | ask q resume => rfl
  | draw size resume =>
    have hResumed := hQuiet s.world octets
    dsimp only [pendingOf]
    cases hNext : resume s.world octets with
    | done w' r =>
      rw [hNext] at hResumed
      exact hResumed
    | ask q resume => rfl
    | draw size resume => rfl

theorem world_step_reply (service : Principal) (hWaits : s.waiting id = pendingOf task o)
    {w : World} (hQuiet : o.Quiet w) (reply : Reply) :
    (s.step service (.reply id reply)).1.world = s.world := by
  unfold step
  dsimp only
  rw [hWaits]
  cases o with
  | done w r => rfl
  | draw size resume => rfl
  | ask q resume =>
    have hResumed := hQuiet s.world reply
    dsimp only [pendingOf]
    cases hNext : resume s.world reply with
    | done w' r =>
      rw [hNext] at hResumed
      exact hResumed
    | ask q resume => rfl
    | draw size resume => rfl

variable {others others' : List Event} {s₁ s₂ : Server}

theorem waiting_after_call (service : Principal) (hOthers : ∀ e ∈ others, e.id ≠ id) :
    (s.run service (.call id task :: others)).1.waiting id = pendingOf task (task.start service s.world) :=
  (waiting_run hOthers service _).trans (waiting_advance_self s id task _)

theorem waiting_after_reply (service : Principal) (hOthers : ∀ e ∈ others, e.id ≠ id)
    (hOthers' : ∀ e ∈ others', e.id ≠ id) (reply : Reply)
    (hBefore : s₁ = (s.run service (.call id task :: others)).1)
    (hAfter : s₂ = (s₁.run service (.reply id reply :: others')).1) :
    s₂.waiting id = pendingOf task ((task.start service s.world).hear s₁.world reply) := by
  have hCall : s₁.waiting id = pendingOf task (task.start service s.world) := by
    rw [hBefore]
    exact waiting_after_call service hOthers
  rw [hAfter]
  exact (waiting_run hOthers' service _).trans (waiting_step_reply service hCall reply)

/-- A call that hears a reply and then gets random octets ends in an answer exactly if it delivers
it in the worlds of these three steps. -/
theorem ended_iff (service : Principal) (hOthers : ∀ e ∈ others, e.id ≠ id)
    (hOthers' : ∀ e ∈ others', e.id ≠ id) (reply : Reply) (octets : Bytes) (a : Answer)
    (hBefore : s₁ = (s.run service (.call id task :: others)).1)
    (hAfter : s₂ = (s₁.run service (.reply id reply :: others')).1) :
    (s₂.step service (.random id octets)).2 = some ⟨id, task, .ok a⟩ ↔
      (task.start service s.world).Delivers a
          [(s₁.world, .reply reply), (s₂.world, .random octets)] ∨
        (task.start service s.world).Delivers a [(s₂.world, .random octets)] := by
  have hWaits := waiting_after_reply service hOthers hOthers' reply hBefore hAfter
  rw [ended_step_random_iff service hWaits octets a, Outcome.delivers_hear_iff]

end Waiting

end Server

/-! ## Who is handed a decrypted setting -/

namespace Keys

open Access Outcome

def HoldsKey (t : Tables) (caller : Principal) (key : SettingKey) : Prop :=
  ∃ ns, t.namespaces.get? (.text key.ns) = some ns ∧ ns.canHaveKey caller key = .ok true

theorem keyHolder_iff (t : Tables) (caller : Principal) (key : SettingKey) :
    (∃ ns, keyHolder t caller key = .ok ns) ↔ HoldsKey t caller key :=
  exists_congr fun ns => keyHolder_eq_ok_iff t caller key ns

/-- The payload of a setting, decrypted by means of the signature from which its key is derived. -/
def decryptPayload (key : SettingKey) (payload dataKey signature : Bytes) : Result Bytes := do
  let tenant ← tenantOf key
  let ns ← TenantKey.namespacePart tenant
  let unwrapped ← Cose.SecretKey.unwrap
    (← Cose.Encrypted.decode dataKey (TenantKey.ofSignature ns signature) key.subject.raw)
  Cose.Encrypted.decode payload unwrapped key.subject.raw

/-- A payload encrypted for the caller, and the server's side of the exchange. -/
def encryptPayload (key : SettingKey) (input : ExchangeRequest) (plain octets : Bytes) :
    Result (Bytes × Bytes) := do
  KeyExchange.checkRequest input.publicKey input.nonce
  let agreement ← KeyExchange.respond octets input.publicKey input.nonce
  let sealed ← Cose.Encrypted.encode plain agreement.shared key.subject.raw input.nonce none
  return (sealed, agreement.publicKey)

theorem decryptPayload_of_encloses {key : SettingKey} {tenant : List Bytes}
    {ns signature plain payload d : Bytes} (hTenant : tenantOf key = .ok tenant)
    (hNs : TenantKey.namespacePart tenant = .ok ns)
    (hEncloses : Encloses (TenantKey.ofSignature ns signature) key.subject.raw plain payload (some d))
    (hPayload : payload.length ≤ Sealed.maxLength) (hDataKey : d.length ≤ Sealed.maxLength) :
    decryptPayload key payload d signature = .ok plain := by
  obtain ⟨wrapped, secret, hWrapped, hSecret, hPlain⟩ := hEncloses.decrypt hPayload hDataKey
  simp only [decryptPayload, bind_eq_ok_iff]
  exact ⟨tenant, hTenant, ns, hNs, wrapped, hWrapped, secret, hSecret, hPlain⟩

/-- Once the exchange has succeeded, nothing that the cipher takes fails to be encrypted for the caller. -/
theorem encryptPayload_of_respond {input : ExchangeRequest} {octets plain : Bytes}
    {agreement : KeyExchange.Agreement}
    (hRequest : KeyExchange.checkRequest input.publicKey input.nonce = .ok ())
    (hAgreement : KeyExchange.respond octets input.publicKey input.nonce = .ok agreement)
    (key : SettingKey) (hPlain : plain.length ≤ Sealed.maxLength) :
    ∃ sealed, encryptPayload key input plain octets = .ok sealed := by
  obtain ⟨sealed, hSealed⟩ := Cose.Encrypted.exists_encode
    (KeyExchange.length_shared_of_respond hAgreement)
    (KeyExchange.length_nonce_of_checkRequest hRequest)
    (Cose.Encrypted.fits_principal key.subject hPlain) none
  refine ⟨(sealed, agreement.publicKey), ?_⟩
  simp only [encryptPayload, bind_eq_ok_iff, exists_unit_iff, pure_eq_ok_iff]
  exact ⟨hRequest, agreement, hAgreement, sealed, hSealed, rfl⟩

/-- When an encrypted setting is handed out: what has to hold as the call begins, as the signature
comes and as the random octets come. -/
structure HandsOut (caller : Principal) (key : SettingKey) (input : ExchangeRequest)
    (begun signed drawn : World)
    (signature octets : Bytes) (handover : Handover SettingInfo) : Prop where
  admitted : Admits begun.tables "ecdh_setting_get" caller
  heldAtBegin : HoldsKey begun.tables caller key
  heldAtSignature : HoldsKey signed.tables caller key
  served : ∃ info payload dataKey plain current sealed,
    begun.tables.readSetting caller key = .ok info ∧ info.payload = some payload ∧
      info.dataKey = some dataKey ∧
    decryptPayload key payload dataKey signature = .ok plain ∧
    drawn.tables.getSettingInfo caller key = .ok current ∧
    (current.version.content? = info.version.content? ∨ key.version ≠ 0) ∧
    encryptPayload key input plain octets = .ok sealed ∧
    handover = ⟨{ info with payload := some sealed.1 }, sealed.2⟩

section Stages

variable {α : Type} {a : α} {w signed drawn : World}

theorem delivers_exchange_iff (input : ExchangeRequest) (octets : Bytes)
    (next : World → KeyExchange.Agreement → Outcome α) :
    (exchange input w next).Delivers a [(drawn, .random octets)] ↔
      KeyExchange.checkRequest input.publicKey input.nonce = .ok () ∧
        ∃ agreement, KeyExchange.respond octets input.publicKey input.nonce = .ok agreement ∧
          (next drawn agreement).Delivers a [] := by
  unfold exchange
  simp only [delivers_after_iff, exists_unit_iff, delivers_draw_iff]

theorem not_delivers_exchange (input : ExchangeRequest) (reply : Reply)
    (rest : List (World × Reaction)) (next : World → KeyExchange.Agreement → Outcome α) :
    ¬ (exchange input w next).Delivers a ((signed, .reply reply) :: rest) := by
  unfold exchange
  rw [delivers_after_iff]
  rintro ⟨_, _, h⟩
  exact h

theorem delivers_plainPayload_iff (caller : Principal) (key : SettingKey)
    (payload dataKey signature : Bytes) (rest : List (World × Reaction))
    (next : World → Bytes → Outcome α) :
    (plainPayload caller key payload (some dataKey) w next).Delivers a
        ((signed, .reply (.ok signature)) :: rest) ↔
      HoldsKey w.tables caller key ∧ HoldsKey signed.tables caller key ∧
        ∃ plain, decryptPayload key payload dataKey signature = .ok plain ∧
          (next signed plain).Delivers a rest := by
  unfold plainPayload settingKey decryptPayload
  simp only [delivers_after_iff, delivers_request_iff, bind_eq_ok_iff, ← keyHolder_iff]
  constructor
  · rintro ⟨ns, hHeld, tenant, hTenant, part, hPart, plain,
      ⟨ns', hHeld', secret, hSecret, unwrapped, hUnwrap, hPlain⟩, hNext⟩
    exact ⟨⟨ns, hHeld⟩, ⟨ns', hHeld'⟩, plain,
      ⟨tenant, hTenant, part, hPart, secret, hSecret, unwrapped, hUnwrap, hPlain⟩, hNext⟩
  · rintro ⟨⟨ns, hHeld⟩, ⟨ns', hHeld'⟩, plain,
      ⟨tenant, hTenant, part, hPart, secret, hSecret, unwrapped, hUnwrap, hPlain⟩, hNext⟩
    exact ⟨ns, hHeld, tenant, hTenant, part, hPart, plain,
      ⟨ns', hHeld', secret, hSecret, unwrapped, hUnwrap, hPlain⟩, hNext⟩

end Stages

theorem delivers_encryptedSetting_iff (caller : Principal) (path : SettingPath)
    (input : ExchangeRequest) (begun signed drawn : World) (signature octets : Bytes)
    (handover : Handover SettingInfo) :
    (encryptedSetting caller path input begun).Delivers handover
        [(signed, .reply (.ok signature)), (drawn, .random octets)] ↔
      HandsOut caller (path.toKey caller) input begun signed drawn signature octets handover := by
  unfold encryptedSetting
  simp only [delivers_after_iff, exists_unit_iff, allowed_eq_ok_iff]
  constructor
  · rintro ⟨hAdmitted, info, hRead, hDelivers⟩
    cases hPayload : info.payload with
    | none =>
      rw [hPayload] at hDelivers
      exact (not_delivers_fail _ hDelivers).elim
    | some payload =>
      cases hDataKey : info.dataKey with
      | none =>
        rw [hPayload, hDataKey] at hDelivers
        exact (not_delivers_exchange _ _ _ _ hDelivers).elim
      | some dataKey =>
        rw [hPayload] at hDelivers
        dsimp only at hDelivers
        rw [hDataKey, delivers_plainPayload_iff] at hDelivers
        obtain ⟨hBegin, hSignature, plain, hPlain, hDelivers⟩ := hDelivers
        simp only [delivers_exchange_iff, delivers_after_iff, bind_eq_ok_iff, exists_unit_iff,
          demand_eq_ok_iff, delivers_finish_iff, Bool.or_eq_true, decide_eq_true_iff] at hDelivers
        obtain ⟨hRequest, agreement, hAgreement, sealed, ⟨current, hCurrent, hVersion, hSealed⟩,
          rfl⟩ := hDelivers
        refine ⟨hAdmitted, hBegin, hSignature, info, payload, dataKey, plain, current,
          (sealed, agreement.publicKey), hRead, hPayload, hDataKey, hPlain, hCurrent, hVersion,
          ?_, ?_⟩
        · simp only [encryptPayload, bind_eq_ok_iff, exists_unit_iff, pure_eq_ok_iff]
          exact ⟨hRequest, agreement, hAgreement, sealed, hSealed, rfl⟩
        · rw [hDataKey]
  · rintro ⟨hAdmitted, hBegin, hSignature, info, payload, dataKey, plain, current, sealed, hRead,
      hPayload, hDataKey, hPlain, hCurrent, hVersion, hEncrypted, rfl⟩
    simp only [encryptPayload, bind_eq_ok_iff, exists_unit_iff, pure_eq_ok_iff] at hEncrypted
    obtain ⟨hRequest, agreement, hAgreement, message, hMessage, rfl⟩ := hEncrypted
    refine ⟨hAdmitted, info, hRead, ?_⟩
    rw [hPayload]
    dsimp only
    rw [hDataKey, delivers_plainPayload_iff]
    refine ⟨hBegin, hSignature, plain, hPlain, ?_⟩
    simp only [delivers_exchange_iff, delivers_after_iff, bind_eq_ok_iff, exists_unit_iff,
      demand_eq_ok_iff, delivers_finish_iff, Bool.or_eq_true, decide_eq_true_iff]
    exact ⟨hRequest, agreement, hAgreement, message, ⟨current, hCurrent, hVersion, hMessage⟩, rfl⟩

theorem dataKey_eq_none_of_delivers {caller : Principal} {path : SettingPath}
    {input : ExchangeRequest} {begun drawn : World} {octets : Bytes}
    {handover : Handover SettingInfo}
    (h : (encryptedSetting caller path input begun).Delivers handover [(drawn, .random octets)]) :
    handover.content.dataKey = none := by
  unfold encryptedSetting at h
  simp only [delivers_after_iff] at h
  obtain ⟨_, -, info, -, h⟩ := h
  cases hPayload : info.payload with
  | none =>
    rw [hPayload] at h
    exact (not_delivers_fail _ h).elim
  | some payload =>
    rw [hPayload] at h
    dsimp only at h
    cases hDataKey : info.dataKey with
    | none =>
      rw [hDataKey] at h
      unfold plainPayload at h
      simp only [delivers_exchange_iff, delivers_after_iff, delivers_finish_iff] at h
      obtain ⟨-, _, -, _, -, rfl⟩ := h
      rfl
    | some dataKey =>
      rw [hDataKey] at h
      unfold plainPayload settingKey at h
      simp only [delivers_after_iff] at h
      obtain ⟨_, -, _, -, _, -, h⟩ := h
      exact h.elim

theorem start_encryptedSetting_delivers_iff (service : Principal) (now : Int) (caller : Principal)
    (path : SettingPath) (input : ExchangeRequest) (w : World) (handover : Handover SettingInfo)
    (steps : List (World × Reaction)) :
    ((Task.operation now (.encryptedSetting caller path input)).start service w).Delivers
      (.sealedSetting handover)
        steps ↔ (encryptedSetting caller path input w).Delivers handover steps := by
  refine (delivers_map_iff Answer.sealedSetting _ _).trans ?_
  constructor
  · rintro ⟨_, h, ⟨⟩⟩
    exact h
  · intro h
    exact ⟨handover, h, rfl⟩

theorem start_encryptedSetting_quiet (service : Principal) (now : Int) (caller : Principal)
    (path : SettingPath) (input : ExchangeRequest) (w : World) :
    ((Task.operation now (.encryptedSetting caller path input)).start service w).Quiet w :=
  (quiet_encryptedSetting caller path input w).map Answer.sealedSetting

/-- With any other calls going on in between, an encrypted setting is handed out in exactly the
cases of `HandsOut`. The right to the key at the end is not among the conditions; it is there if the
namespace is still as it was when the signature came. -/
theorem encrypted_setting_handed_out_iff (service : Principal) (s : Server) (id : Nat) (now : Int)
    (caller : Principal) (path : SettingPath) (input : ExchangeRequest)
    {others others' : List Event} (hOthers : ∀ e ∈ others, e.id ≠ id)
    (hOthers' : ∀ e ∈ others', e.id ≠ id) (signature octets : Bytes)
    (handover : Handover SettingInfo) {signed drawn : Server}
    (hSigned : signed =
      (s.run service (.call id (.operation now (.encryptedSetting caller path input)) :: others)).1)
    (hDrawn : drawn = (signed.run service (.reply id (.ok signature) :: others')).1) :
    ((drawn.step service (.random id octets)).2 =
          some ⟨id, .operation now (.encryptedSetting caller path input),
            .ok (.sealedSetting handover)⟩ ∧
        handover.content.dataKey ≠ none ↔
      HandsOut caller (path.toKey caller) input s.world signed.world drawn.world signature octets
        handover) ∧
    (drawn.step service (.random id octets)).1.world = drawn.world ∧
    (HandsOut caller (path.toKey caller) input s.world signed.world drawn.world signature octets
      handover →
      drawn.world.tables.namespaces.get? (.text path.ns) =
        signed.world.tables.namespaces.get? (.text path.ns) →
      HoldsKey drawn.world.tables caller (path.toKey caller)) := by
  refine ⟨?_, ?_, ?_⟩
  · rw [Server.ended_iff service hOthers hOthers' (.ok signature) octets _ hSigned hDrawn,
      start_encryptedSetting_delivers_iff, start_encryptedSetting_delivers_iff,
      delivers_encryptedSetting_iff]
    constructor
    · rintro ⟨hHandsOut | hPlain, hEncrypted⟩
      · exact hHandsOut
      · exact (hEncrypted (dataKey_eq_none_of_delivers hPlain)).elim
    · intro hHandsOut
      refine ⟨Or.inl hHandsOut, ?_⟩
      obtain ⟨-, -, -, info, payload, dataKey, -, -, -, -, -, hDataKey, -, -, -, -, rfl⟩ :=
        hHandsOut
      dsimp only
      rw [hDataKey]
      exact nofun
  · have hWaits :=
      Server.waiting_after_reply service hOthers hOthers' (.ok signature) hSigned hDrawn
    have hBegun := start_encryptedSetting_quiet service now caller path input s.world
    obtain ⟨w, hQuiet⟩ := quiet_hear hBegun signed.world (.ok signature)
    exact Server.world_step_random service hWaits hQuiet octets
  · intro hHandsOut hSame
    obtain ⟨ns, hFound, hKey⟩ := hHandsOut.heldAtSignature
    exact ⟨ns, hSame.trans hFound, hKey⟩

end Keys

/-! ## A right that is lost in the meantime -/

namespace Server.Sample

open Keys

/-- An encrypted setting. -/
def sealedSetting (payload dataKey : Bytes) : NewSetting :=
  ⟨some payload, none, none, none, none, some dataKey⟩

def storing (payload dataKey : Bytes) : Event :=
  .call 1 (.operation 20 (.createSetting owner (path 0) (sealedSetting payload dataKey)))

def firstRow (payload dataKey : Bytes) : Setting := (sealedSetting payload dataKey).row 20

section Storing

variable {payload dataKey : Bytes}

theorem checkPayload_sealed (hSize : payload.length ≤ 200)
    (hParsed : ∃ m, Cose.Encrypted.parse payload = .ok m) (contentType : Json) :
    Tables.checkPayload (.int maxPayloadSize) payload true contentType = .ok () := by
  obtain ⟨m, hParsed⟩ := hParsed
  have hFits : payload.length ≤ maxPayloadSize := Nat.le_trans hSize (by decide)
  have hLimit : 0 < (maxPayloadSize : Int) := by decide
  simp only [Tables.checkPayload, Payload.checkEncrypted, bind_eq_ok_iff, exists_unit_iff,
    Payload.checkSize_eq_ok_iff hLimit, if_true]
  exact ⟨Int.ofNat_le.mpr hFits, m, hParsed, rfl⟩

/-- The tables with the setting as the first one of a namespace. -/
def withFirst (t : Tables) (ns : Namespace) (payload dataKey : Bytes) : Tables :=
  (t.putSetting ((path 0).toKey owner) (firstRow payload dataKey)).putNamespace "vault"
    { ns with payloadBytes := .int (0 + (firstRow payload dataKey).size) }

theorem step_storing_first {s : Server} {ns : Namespace}
    (hAdmits : Access.Admits s.world.tables "setting_create" owner)
    (hWrites : Writes s.world.tables owner ((path 0).toKey owner) ns)
    (hFresh : s.world.tables.getSetting? ((path 0).toKey owner) = none)
    (hLimit : ns.maxPayloadSize = .int maxPayloadSize) (hCount : ns.payloadBytes = .int 0)
    (hSize : payload.length ≤ 200) (hPayload : ∃ m, Cose.Encrypted.parse payload = .ok m)
    (hDataKey : ∃ m, Cose.Encrypted.parse dataKey = .ok m) :
    s.step owner (storing payload dataKey) =
      ({ s with world := s.world.withTables (withFirst s.world.tables ns payload dataKey) }.hold 1 none,
        some ⟨1, .operation 20 (.createSetting owner (path 0) (sealedSetting payload dataKey)),
          .ok (.stamp (firstRow payload dataKey).stamp)⟩) := by
  have hKeyFits : Tables.checkDataKey (sealedSetting payload dataKey).dataKey = .ok () := by
    obtain ⟨m, hParsed⟩ := hDataKey
    simp only [sealedSetting, Tables.checkDataKey, bind_eq_ok_iff]
    exact ⟨m, hParsed, rfl⟩
  have hPayloadFits : ∀ p, (sealedSetting payload dataKey).payload = some p →
      Tables.checkPayload ns.maxPayloadSize p (sealedSetting payload dataKey).dataKey.isSome
        (sealedSetting payload dataKey).declaredType = .ok () := by
    rintro _ ⟨⟩
    rw [hLimit]
    exact checkPayload_sealed hSize hPayload _
  have hCommit : Commit 20 s.world.tables _ _ _ :=
    .createSetting hAdmits hWrites rfl hFresh hKeyFits hPayloadFits
  rw [hCount] at hCommit
  exact step_of_perform (hCommit.perform_createSetting owner)

end Storing

def topUp : Event := .call 5 (.operation 70 (.topUp owner "vault" 1))

def auditor : Principal := ⟨[2], by decide⟩

/-- A namespace that everybody may read, with an auditor who may have its keys. -/
def publicNamespace : NewNamespace :=
  ⟨"vault", 1, none, none, .ofList [owner], .ofList [auditor], .empty, none⟩

def publicVault : Server :=
  ((empty governance).run owner [.call 0 (.operation 10 (.createNamespace owner publicNamespace))]).1

def ownersPath : SettingPath := ⟨"vault", false, some owner, [7], 0⟩

def auditedRead : Task := .operation 60 (.encryptedSetting auditor ownersPath ownRequest)

def givenSignature : Bytes := List.replicate 64 1

def auditorChange (id : Nat) (d : Direction) : Event :=
  .call id (.operation 50 (.changeMembers owner "vault" .auditor d (.ofList [auditor])))

section Dismissed

variable (payload dataKey : Bytes)

def auditedVault : Server := (publicVault.step owner (storing payload dataKey)).1

/-- The auditor waits for the signature. -/
def awaitingSignature : Server := ((auditedVault payload dataKey).run owner [.call 9 auditedRead, topUp]).1

/-- He waits for the octets, and is no auditor any more. -/
def awaitingOctets : Server :=
  ((awaitingSignature payload dataKey).run owner [.reply 9 (.ok givenSignature), auditorChange 6 .remove]).1

def sharedTables (ns : Namespace) : Tables := withFirst publicVault.world.tables ns payload dataKey

variable {payload dataKey} (hSize : payload.length ≤ 200)
  (hPayload : ∃ m, Cose.Encrypted.parse payload = .ok m)
  (hDataKey : ∃ m, Cose.Encrypted.parse dataKey = .ok m)

include hSize hPayload hDataKey

theorem auditedVault_eq : auditedVault payload dataKey = Server.hold { publicVault with
    world := publicVault.world.withTables
      (sharedTables payload dataKey (publicNamespace.row 10)) } 1 none := by
  have hWrites : Writes publicVault.world.tables owner ((path 0).toKey owner) (publicNamespace.row 10) :=
    ⟨rfl, rfl⟩
  rw [auditedVault, step_storing_first ⟨rfl, rfl⟩ hWrites rfl rfl rfl hSize hPayload hDataKey]
  rfl

theorem world_awaitingSignature : (awaitingSignature payload dataKey).world = publicVault.world.withTables
    (sharedTables payload dataKey { publicNamespace.row 10 with gasBalance := 1, updatedAt := .int 70 }) := by
  rw [awaitingSignature, auditedVault_eq hSize hPayload hDataKey]
  rfl

/-- Up to the octets the call has changed nothing, and the namespace has lost its auditor. -/
theorem world_awaitingOctets : (awaitingOctets payload dataKey).world = publicVault.world.withTables
    (sharedTables payload dataKey
      { publicNamespace.row 10 with gasBalance := 1, auditors := .empty, updatedAt := .int 50 }) := by
  have hStarted :=
    start_encryptedSetting_quiet owner 60 auditor ownersPath ownRequest (auditedVault payload dataKey).world
  have hWaits : (awaitingSignature payload dataKey).waiting 9 = _ := waiting_after_call owner (by decide)
  have hDismissed {s : Server} (hWorld : s.world = publicVault.world.withTables
      (sharedTables payload dataKey { publicNamespace.row 10 with gasBalance := 1, updatedAt := .int 70 })) :
      (s.step owner (auditorChange 6 .remove)).1.world = publicVault.world.withTables
        (sharedTables payload dataKey
          { publicNamespace.row 10 with gasBalance := 1, auditors := .empty, updatedAt := .int 50 }) := by
    obtain ⟨w, waiting⟩ := s
    cases hWorld
    rfl
  have hSame := world_step_reply owner hWaits hStarted (.ok givenSignature)
  exact hDismissed (hSame.trans (world_awaitingSignature hSize hPayload hDataKey))

theorem holdsKey_auditedVault :
    HoldsKey (auditedVault payload dataKey).world.tables auditor (ownersPath.toKey auditor) := by
  rw [auditedVault_eq hSize hPayload hDataKey]
  exact ⟨_, rfl, rfl⟩

theorem holdsKey_awaitingSignature :
    HoldsKey (awaitingSignature payload dataKey).world.tables auditor (ownersPath.toKey auditor) := by
  rw [world_awaitingSignature hSize hPayload hDataKey]
  exact ⟨_, rfl, rfl⟩

theorem not_holdsKey_awaitingOctets :
    ¬ HoldsKey (awaitingOctets payload dataKey).world.tables auditor (ownersPath.toKey auditor) := by
  rw [world_awaitingOctets hSize hPayload hDataKey]
  rintro ⟨ns, hFound, hKey⟩
  cases hFound
  cases hKey

/-- As an auditor and after it he may read the setting, which has not changed. -/
theorem read_while_waiting : ∃ info current,
    (auditedVault payload dataKey).world.tables.readSetting auditor (ownersPath.toKey auditor) = .ok info ∧
      info.payload = some payload ∧ info.dataKey = some dataKey ∧
      (awaitingOctets payload dataKey).world.tables.getSettingInfo auditor (ownersPath.toKey auditor) =
        .ok current ∧ current.version.content? = info.version.content? := by
  rw [auditedVault_eq hSize hPayload hDataKey, world_awaitingOctets hSize hPayload hDataKey]
  exact ⟨_, _, rfl, rfl, rfl, rfl, rfl⟩

end Dismissed

/-- All conditions are met by a text under a key of its own. -/
theorem exists_handsOut : ∃ payload dataKey sealed handover, payload.length ≤ 200 ∧
    (∃ m, Cose.Encrypted.parse payload = .ok m) ∧ (∃ m, Cose.Encrypted.parse dataKey = .ok m) ∧
    encryptPayload (ownersPath.toKey auditor) ownRequest [9] octets = .ok sealed ∧
    handover.content.payload = some sealed.1 ∧ handover.content.dataKey = some dataKey ∧
    HandsOut auditor (ownersPath.toKey auditor) ownRequest (auditedVault payload dataKey).world
      (awaitingSignature payload dataKey).world (awaitingOctets payload dataKey).world
      givenSignature octets handover := by
  have hText : [(9 : UInt8)].length ≤ Sealed.maxLength := by decide
  obtain ⟨payload, dataKey, hEncloses, hLength, hKeyLength, hPayload, hDataKey⟩ :=
    exists_encloses (TenantKey.length_ofSignature (Bytes.ofText "vault") givenSignature) owner hText
  have hSize : payload.length ≤ 200 := Nat.le_trans hLength (by decide)
  have hPayloadFits : payload.length ≤ Sealed.maxLength := Nat.le_trans hSize (by decide)
  have hDataKeyFits : dataKey.length ≤ Sealed.maxLength := Nat.le_trans hKeyLength (by decide)
  obtain ⟨agreement, hAgreement, -⟩ := ownRequest_agrees.respond
  obtain ⟨sealed, hSealed⟩ := encryptPayload_of_respond ownRequest_agrees.checkRequest hAgreement
    (ownersPath.toKey auditor) hText
  have hTenant : tenantOf (ownersPath.toKey auditor) = .ok [owner.raw, [0], Bytes.ofText "vault"] := rfl
  have hNs : TenantKey.namespacePart [owner.raw, [0], Bytes.ofText "vault"] =
      .ok (Bytes.ofText "vault") := rfl
  have hPlain : decryptPayload (ownersPath.toKey auditor) payload dataKey givenSignature = .ok [9] :=
    decryptPayload_of_encloses hTenant hNs hEncloses hPayloadFits hDataKeyFits
  obtain ⟨info, current, hRead, hFilled, hEncrypted, hCurrent, hVersion⟩ :=
    read_while_waiting hSize hPayload hDataKey
  refine ⟨payload, dataKey, sealed, ⟨{ info with payload := some sealed.1 }, sealed.2⟩, hSize, hPayload,
    hDataKey, hSealed, rfl, hEncrypted, ?admitted, ?heldAtBegin, ?heldAtSignature, ?served⟩
  case admitted =>
    rw [auditedVault_eq hSize hPayload hDataKey]
    exact ⟨rfl, rfl⟩
  case heldAtBegin => exact holdsKey_auditedVault hSize hPayload hDataKey
  case heldAtSignature => exact holdsKey_awaitingSignature hSize hPayload hDataKey
  case served =>
    exact ⟨info, payload, dataKey, [9], current, sealed, hRead, hFilled, hEncrypted, hPlain, hCurrent,
      .inl hVersion, hSealed, rfl⟩

theorem audited_setting_handed_out_iff :
    (∀ e ∈ [topUp], e.id ≠ 9) ∧ (∀ e ∈ [auditorChange 6 .remove], e.id ≠ 9) ∧
    ∃ payload dataKey handover,
      HandsOut auditor (ownersPath.toKey auditor) ownRequest (auditedVault payload dataKey).world
        (awaitingSignature payload dataKey).world (awaitingOctets payload dataKey).world
        givenSignature octets handover ∧
      ((awaitingOctets payload dataKey).step owner (.random 9 octets)).2 =
        some ⟨9, auditedRead, .ok (.sealedSetting handover)⟩ ∧ handover.content.dataKey ≠ none ∧
      ((awaitingOctets payload dataKey).step owner (.random 9 octets)).1.world =
        (awaitingOctets payload dataKey).world := by
  have hOthers : ∀ e ∈ [topUp], e.id ≠ 9 := by decide
  have hOthers' : ∀ e ∈ [auditorChange 6 .remove], e.id ≠ 9 := by decide
  obtain ⟨payload, dataKey, sealed, handover, -, -, -, -, -, -, hHandsOut⟩ := exists_handsOut
  obtain ⟨hEnded, hWorld, -⟩ :=
    encrypted_setting_handed_out_iff owner (auditedVault payload dataKey) 9 60 auditor ownersPath ownRequest
      hOthers hOthers' givenSignature octets handover rfl rfl
  obtain ⟨hCompletion, hEncrypted⟩ := hEnded.mpr hHandsOut
  exact ⟨hOthers, hOthers', payload, dataKey, handover, hHandsOut, hCompletion, hEncrypted, hWorld⟩

/-- The text of the setting goes out to somebody who may not have its key any more. -/
theorem setting_handed_to_former_auditor : ∃ payload dataKey sealed handover,
    ((awaitingOctets payload dataKey).step owner (.random 9 octets)).2 =
      some ⟨9, auditedRead, .ok (.sealedSetting handover)⟩ ∧
    handover.content.payload = some sealed.1 ∧ handover.content.dataKey = some dataKey ∧
    encryptPayload (ownersPath.toKey auditor) ownRequest [9] octets = .ok sealed ∧
    ¬ HoldsKey ((awaitingOctets payload dataKey).step owner (.random 9 octets)).1.world.tables auditor
      (ownersPath.toKey auditor) := by
  obtain ⟨payload, dataKey, sealed, handover, hSize, hPayload, hDataKey, hSealed, hFilled, hEncrypted,
    hHandsOut⟩ := exists_handsOut
  have hOthers : ∀ e ∈ [topUp], e.id ≠ 9 := by decide
  have hOthers' : ∀ e ∈ [auditorChange 6 .remove], e.id ≠ 9 := by decide
  have hWaits : (awaitingOctets payload dataKey).waiting 9 = _ :=
    waiting_after_reply owner hOthers hOthers' (.ok givenSignature) rfl rfl
  have hStarted :=
    start_encryptedSetting_quiet owner 60 auditor ownersPath ownRequest (auditedVault payload dataKey).world
  obtain ⟨w, hQuiet⟩ :=
    Outcome.quiet_hear hStarted (awaitingSignature payload dataKey).world (.ok givenSignature)
  have hDelivers : (auditedRead.start owner (auditedVault payload dataKey).world).Delivers
      (.sealedSetting handover) [((awaitingSignature payload dataKey).world, .reply (.ok givenSignature)),
        ((awaitingOctets payload dataKey).world, .random octets)] :=
    (start_encryptedSetting_delivers_iff ..).mpr ((delivers_encryptedSetting_iff ..).mpr hHandsOut)
  have hEnded :=
    (ended_iff owner hOthers hOthers' (.ok givenSignature) octets _ rfl rfl).mpr (Or.inl hDelivers)
  refine ⟨payload, dataKey, sealed, handover, hEnded, hFilled, hEncrypted, hSealed, ?_⟩
  rw [world_step_random owner hWaits hQuiet octets]
  exact not_holdsKey_awaitingOctets hSize hPayload hDataKey

end Server.Sample

end TenantVault
