import TenantVault.Proofs.Opening
import TenantVault.Proofs.Payloads

/-! # Encrypted settings that are recovered

A client gets the key of a setting from the service, encrypts a secret of its own with it and a text with
that secret, and has both stored. The service derives the same key again whenever it is needed, so whoever
may have the key gets the text back, from the archive and from another service with the same signer too.
-/

namespace TenantVault

open Sealed (maxLength)

/-! ## What stays recoverable -/

theorem Tables.Holds.length_payload {t : Tables} {key : SettingKey} {v : Int} {payload : Bytes}
    {dataKey : Option Bytes} (hHolds : t.Holds key v payload dataKey) (hWhole : t.Whole)
    (hFormed : t.Formed) : payload.length ≤ maxPayloadSize := by
  cases hHolds with
  | live found version hPayload hDataKey => exact (hFormed.live _ _ found).size payload hPayload
  | archived found hPayload hDataKey =>
    obtain ⟨s, hLive⟩ := hWhole.live_of_archived found
    exact (hFormed.archived _ s _ hLive found).size payload hPayload

namespace Keys

/-- The key of a setting has been handed out to a client that keeps the secret of its request. -/
inductive Fetched (answer : Request → Reply) (secret : Bytes) : SettingKey → Handover Bytes → Prop
  | intro {caller : Principal} {path : SettingPath} {input : ExchangeRequest} {random : Nat → Bytes}
      {w : World} {handover : Handover Bytes}
      (accepted : ∃ fields, SettingPath.ofFields fields = .good path)
      (agrees : input.Agrees secret (random KeyExchange.randomLength))
      (yields : (encryptedKey caller path input w).Yields answer random handover) :
      Fetched answer secret (path.toKey caller) handover

/-- A key that a client has got for a setting. -/
def Obtained (answer : Request → Reply) (key : SettingKey) (kek : Bytes) : Prop :=
  ∃ secret key' handover, key'.current = key.current ∧ Fetched answer secret key' handover ∧
    openKey secret key.subject.raw handover = .ok kek

section Obtaining

variable {answer : Request → Reply} {sign : Bytes → List Bytes → Bytes → Bytes} {key : SettingKey}
  {kek secret : Bytes} {handover : Handover Bytes}

theorem subject_eq {key' : SettingKey} (h : key'.current = key.current) :
    key'.subject = key.subject := by
  have hSubject := congrArg SettingKey.subject h
  exact hSubject

theorem Fetched.opened (h : Fetched answer secret key handover) (hSigner : SignsBy sign answer) :
    ∃ kek, settingKeyOf sign key.current = .ok kek ∧
      openKey secret key.subject.raw handover = .ok kek := by
  cases h with
  | intro accepted agrees yields =>
    obtain ⟨fields, hRead⟩ := accepted
    exact openKey_of_yields hSigner (SettingPath.length_key hRead) agrees yields

theorem Obtained.settingKeyOf (h : Obtained answer key kek) (hSigner : SignsBy sign answer) :
    settingKeyOf sign key = .ok kek := by
  obtain ⟨secret, key', handover, hKey, hFetched, hOpened⟩ := h
  obtain ⟨kek', hDerived, hOpened'⟩ := hFetched.opened hSigner
  rw [subject_eq hKey, hOpened] at hOpened'
  cases hOpened'
  rw [← hDerived, hKey]
  rfl

end Obtaining

end Keys

namespace Server

open Keys

/-- A version of a setting that a client has encrypted under the key of the setting stays readable for
whoever may have that key: whatever becomes of the service, as long as the setting is not deleted, he is
handed what he opens as the text of that version. A version without a key of its own is handed out as it
is stored. The key of a setting is the same for all its versions, whoever fetches it and whenever. -/
theorem encrypted_settings_recoverable {sign : Bytes → List Bytes → Bytes → Bytes}
    {answer : Request → Reply} (hSigner : SignsBy sign answer) {service : Principal}
    {begun : Config → Prop} {asked : Int → Operation → Prop}
    (hAccepted : ∀ now o, asked now o → o.Accepted) {s s' : Server}
    (hLived : Lived service begun asked s) {key : SettingKey} {v : Int} {kek plain payload : Bytes}
    {dataKey : Option Bytes} (hHolds : s.world.tables.Holds key v payload dataKey)
    (hLength : ∀ d, dataKey = some d → d.length ≤ maxLength)
    (hObtained : dataKey.isSome = true → Obtained answer key kek)
    (hEncloses : Encloses kek key.subject.raw plain payload dataKey)
    (hContinued : Continued key s s') {caller : Principal} {path : SettingPath}
    {input : ExchangeRequest} {secret : Bytes} {random : Nat → Bytes}
    (hKey : (path.toKey caller).current = key.current)
    (hMay : MayOpen s'.world.tables caller path v dataKey.isSome)
    (hAgrees : input.Agrees secret (random KeyExchange.randomLength)) :
    HandsOver answer random s'.world caller path input secret plain ∧
      ∀ secret key handover, Fetched answer secret key handover → ∃ kek,
        settingKeyOf sign key.current = .ok kek ∧ openKey secret key.subject.raw handover = .ok kek := by
  refine ⟨?_, fun _ _ _ hFetched => hFetched.opened hSigner⟩
  have hPayload := hHolds.length_payload hLived.whole (hLived.formed hAccepted)
  have hSound : s.Sound fun task => task.isLoad = false := hLived.fromEmpty.sound
  obtain ⟨hWhole, hHolds'⟩ := hContinued.holds hSound hLived.whole hHolds
  rw [← subject_eq hKey] at hEncloses
  refine handsOver_of_holds hSigner hAgrees ?_ hEncloses hPayload hLength hWhole
    (hHolds'.congr hKey) hMay
  intro hEncrypted
  rw [settingKeyOf_congr hKey]
  exact (hObtained hEncrypted).settingKeyOf hSigner

namespace Sample

def governedFields : Entry.Fields := ("controllers", .list [.principal owner]) :: fields

def governed : Config := { config with controllers := .ofList [owner] }

def vault : Server := ((idle (.ofConfig governed)).run owner founding).1

def answers : Request → Reply
  | .sign label path message => .ok (Signer.sign ⟨governed.signerSeed, rfl⟩ label path message)
  | _ => .error .notConfigured

def ownKey : SettingKey := (path 0).toKey owner

theorem answers_sign : SignsBy (Signer.sign ⟨governed.signerSeed, rfl⟩) answers :=
  fun _ _ _ => rfl

theorem ownKey_obtained : ∃ kek, kek.length = Gcm.keyLength ∧ Obtained answers ownKey kek := by
  obtain ⟨kek, hKey⟩ : ∃ kek, settingKeyOf (Signer.sign ⟨governed.signerSeed, rfl⟩) ownKey = .ok kek :=
    ⟨_, rfl⟩
  have hLength := length_settingKeyOf hKey
  obtain ⟨agreement, hAgreement, -⟩ := ownRequest_agrees.respond
  obtain ⟨wrapped, hWrapped⟩ := Cose.SecretKey.exists_wrap hLength (some ownKey.key)
  have hWrappedLength : wrapped.length ≤ 101 := Cose.SecretKey.length_wrap_le hWrapped
  have hLimit : 101 ≤ maxLength := by decide
  obtain ⟨sealed, hSealed⟩ := Cose.Encrypted.exists_encode (KeyExchange.length_shared_of_respond hAgreement)
    ownRequest_agrees.nonce
    (Cose.Encrypted.fits_principal ownKey.subject (hWrappedLength.trans hLimit)) none
  have hHolds : HoldsKey vault.world.tables owner ownKey := ⟨_, rfl, rfl⟩
  have hYields : (encryptedKey owner (path 0) ownRequest vault.world).Yields answers (fun _ => octets)
      ⟨sealed, agreement.publicKey⟩ :=
    (yields_encryptedKey_iff answers_sign).mpr ⟨⟨rfl, rfl⟩, hHolds, kek, hKey,
      ownRequest_agrees.checkRequest, agreement, hAgreement, ⟨vault.world, hHolds⟩, wrapped, hWrapped,
      sealed, hSealed, rfl⟩
  have hFetched : Fetched answers ownSecret ownKey ⟨sealed, agreement.publicKey⟩ :=
    .intro ⟨[("ns", .text "vault"), ("key", .bytes [7])], rfl⟩ ownRequest_agrees hYields
  obtain ⟨kek', hDerived, hOpened⟩ := hFetched.opened answers_sign
  cases hKey.symm.trans hDerived
  exact ⟨kek, hLength, ownSecret, ownKey, _, rfl, hFetched, hOpened⟩

def stored (payload dataKey : Bytes) : Server := (vault.step owner (storing payload dataKey)).1

/-- Another version with the same key beside it. -/
def renewed (payload : Bytes) : PayloadChange := ⟨1, payload, none, none, false⟩

def superseding (payload : Bytes) : Event :=
  .call 2 (.operation 30 (.updatePayload owner (path 0) (renewed payload)))

def countedVault (count : Int) : Namespace := { newNamespace.row 10 with payloadBytes := .int count }

def storedTables (payload dataKey : Bytes) : Tables :=
  (vault.world.tables.putSetting ownKey (firstRow payload dataKey)).putNamespace "vault"
    (countedVault (0 + (firstRow payload dataKey).size))

def supersededTables (payload dataKey : Bytes) : Tables :=
  (((storedTables payload dataKey).archivePayload ownKey (firstRow payload dataKey) false 30).putSetting
    ownKey ((renewed payload).row (firstRow payload dataKey) (.int 2) 30)).putNamespace "vault"
    (countedVault (0 + (firstRow payload dataKey).size + (renewed payload).written))

section Stored

variable {payload dataKey : Bytes}

theorem step_storing (hSize : payload.length ≤ 200)
    (hPayload : ∃ m, Cose.Encrypted.parse payload = .ok m)
    (hDataKey : ∃ m, Cose.Encrypted.parse dataKey = .ok m) :
    vault.step owner (storing payload dataKey) =
      ({ vault with world := vault.world.withTables (storedTables payload dataKey) }.hold 1 none,
        some ⟨1, .operation 20 (.createSetting owner (path 0) (sealedSetting payload dataKey)),
          .ok (.stamp (firstRow payload dataKey).stamp)⟩) :=
  step_storing_first ⟨rfl, rfl⟩ ⟨rfl, rfl⟩ rfl rfl rfl hSize hPayload hDataKey

theorem tables_stored (hSize : payload.length ≤ 200)
    (hPayload : ∃ m, Cose.Encrypted.parse payload = .ok m)
    (hDataKey : ∃ m, Cose.Encrypted.parse dataKey = .ok m) :
    (stored payload dataKey).world.tables = storedTables payload dataKey := by
  unfold stored
  rw [step_storing hSize hPayload hDataKey]
  rfl

theorem step_superseding (hSize : payload.length ≤ 200)
    (hPayload : ∃ m, Cose.Encrypted.parse payload = .ok m) {s : Server}
    (hTables : s.world.tables = storedTables payload dataKey) :
    s.step owner (superseding payload) =
      ({ s with world := s.world.withTables (supersededTables payload dataKey) }.hold 2 none,
        some ⟨2, .operation 30 (.updatePayload owner (path 0) (renewed payload)),
          .ok (.stamp ((renewed payload).row (firstRow payload dataKey) (.int 2) 30).stamp)⟩) := by
  have hCommit : Commit 30 s.world.tables (.updatePayload owner (path 0) (renewed payload))
      (supersededTables payload dataKey)
      (.ok (.stamp ((renewed payload).row (firstRow payload dataKey) (.int 2) 30).stamp)) := by
    rw [hTables]
    have hWrites : Writes (storedTables payload dataKey) owner ((path 0).toKey owner)
        (countedVault (0 + (firstRow payload dataKey).size)) := ⟨rfl, rfl⟩
    have hFound : (storedTables payload dataKey).getSetting? ((path 0).toKey owner) =
        some (firstRow payload dataKey) := rfl
    refine .updatePayload ⟨rfl, rfl⟩ hWrites hFound rfl rfl rfl rfl ?_
    exact checkPayload_sealed hSize hPayload _
  exact step_of_perform (hCommit.perform_updatePayload owner)

theorem stored_lived : Lived owner Config.Valid (fun _ o => o.Accepted) (stored payload dataKey) := by
  have hValid : governed.Valid := ⟨governedFields, rfl⟩
  have hFounding : Calls (Task.Asks fun _ o => o.Accepted) founding := by
    intro id task hMem
    cases List.mem_singleton.mp hMem
    exact ⟨[("name", .text "vault"), ("managers", .list [.principal owner])], rfl⟩
  have hStoring : Calls (Task.Asks fun _ o => o.Accepted) [storing payload dataKey] := by
    intro id task hMem
    cases List.mem_singleton.mp hMem
    exact ⟨⟨[("ns", .text "vault"), ("key", .bytes [7])], rfl⟩,
      [("payload", .bytes payload), ("dek", .bytes dataKey)], rfl⟩
  exact ((Lived.start hValid).run hFounding).step (storing payload dataKey) hStoring

end Stored

theorem exists_stored : ∃ kek payload dataKey, Obtained answers ownKey kek ∧
    Encloses kek ownKey.subject.raw [9] payload (some dataKey) ∧ payload.length ≤ 200 ∧
    dataKey.length ≤ maxLength ∧ (∃ m, Cose.Encrypted.parse payload = .ok m) ∧
    (stored payload dataKey).world.tables = storedTables payload dataKey ∧
    (stored payload dataKey).world.tables.Holds ownKey 1 payload (some dataKey) := by
  obtain ⟨kek, hKekLength, hObtained⟩ := ownKey_obtained
  obtain ⟨payload, dataKey, hEncloses, hPayloadLength, hDataKeyLength, hPayload, hDataKey⟩ :=
    exists_encloses hKekLength ownKey.subject (show [9].length ≤ maxLength by decide)
  have hSize : payload.length ≤ 200 := hPayloadLength.trans (by decide)
  have hLength : dataKey.length ≤ maxLength := hDataKeyLength.trans (by decide)
  have hTables := tables_stored hSize hPayload hDataKey
  refine ⟨kek, payload, dataKey, hObtained, hEncloses, hSize, hLength, hPayload, hTables, ?_⟩
  rw [hTables]
  exact .live (s := firstRow payload dataKey) rfl rfl rfl rfl

/-- The first version is read after it has been superseded. -/
theorem superseded_version_recovered : SignsBy (Signer.sign ⟨governed.signerSeed, rfl⟩) answers ∧
    ∃ kek payload dataKey superseded,
      Lived owner Config.Valid (fun _ o => o.Accepted) (stored payload dataKey) ∧
      (stored payload dataKey).world.tables.Holds ownKey 1 payload (some dataKey) ∧
      dataKey.length ≤ maxLength ∧ Obtained answers ownKey kek ∧
      Encloses kek ownKey.subject.raw [9] payload (some dataKey) ∧
      Continued ownKey (stored payload dataKey) superseded ∧
      MayOpen superseded.world.tables owner (path 1) 1 true ∧
      ownRequest.Agrees ownSecret octets ∧
      HandsOver answers (fun _ => octets) superseded.world owner (path 1) ownRequest ownSecret [9] := by
  obtain ⟨kek, payload, dataKey, hObtained, hEncloses, hSize, hLength, hPayload, hTables, hHolds⟩ :=
    exists_stored
  have hStep := step_superseding hSize hPayload hTables
  have hContinued : Continued ownKey (stored payload dataKey)
      ((stored payload dataKey).step owner (superseding payload)).1 := by
    refine .step .refl owner (superseding payload) nofun ?_
    rintro c hEnded ⟨caller, path', hWritten⟩
    obtain ⟨now, a, hTask, -⟩ := Completion.written?_eq_some_iff.mp hWritten
    rw [hStep] at hEnded
    cases hEnded
    cases hTask
  have hMay : MayOpen ((stored payload dataKey).step owner (superseding payload)).1.world.tables owner
      (path 1) 1 true := by
    rw [hStep]
    exact ⟨⟨rfl, rfl⟩, ⟨_, rfl, ⟨_, rfl, Or.inl rfl⟩, Or.inl rfl⟩, fun _ => ⟨_, rfl, rfl⟩⟩
  have hFits : ∀ d, some dataKey = some d → d.length ≤ maxLength := by
    rintro _ ⟨⟩
    exact hLength
  have hKey : ((path 1).toKey owner).current = ownKey.current := rfl
  exact ⟨answers_sign, kek, payload, dataKey, _, stored_lived, hHolds, hLength, hObtained, hEncloses,
    hContinued, hMay, ownRequest_agrees,
    (encrypted_settings_recoverable answers_sign (fun _ _ h => h) stored_lived hHolds hFits
      (fun _ => hObtained) hEncloses hContinued hKey hMay ownRequest_agrees).1⟩

def deletion : Event := .call 3 (.operation 40 (.deleteSetting owner (path 0)))

def banning : Event := .call 3 (.operation 40 (.setAllowedApis owner (.ofList ["setting_create"])))

/-- The owner may read the setting and have its key. -/
def KeepsRights (t : Tables) : Prop :=
  ∃ ns, t.namespaces.get? (.text "vault") = some ns ∧
    ns.readAccess owner ((path 1).toKey owner) = .ok .granted ∧
    ns.canHaveKey owner ((path 1).toKey owner) = .ok true

section Refused

variable {payload dataKey : Bytes} {s : Server}

theorem refused_after_deletion (hTables : s.world.tables = storedTables payload dataKey) :
    KeepsRights (s.step owner deletion).1.world.tables ∧
      ∀ row, Access.Admits (s.step owner deletion).1.world.tables "ecdh_setting_get" owner →
        (s.step owner deletion).1.world.tables.getSetting? ((path 1).toKey owner) ≠ some row := by
  obtain ⟨⟨t, signatures, retired⟩, waiting⟩ := s
  cases hTables
  refine ⟨⟨_, rfl, rfl, rfl⟩, ?_⟩
  rintro row - hFound
  cases hFound

theorem refused_after_banning (hTables : s.world.tables = storedTables payload dataKey) :
    KeepsRights (s.step owner banning).1.world.tables ∧
      ∀ row, Access.Admits (s.step owner banning).1.world.tables "ecdh_setting_get" owner →
        (s.step owner banning).1.world.tables.getSetting? ((path 1).toKey owner) ≠ some row := by
  obtain ⟨⟨t, signatures, retired⟩, waiting⟩ := s
  cases hTables
  refine ⟨⟨_, rfl, rfl, rfl⟩, ?_⟩
  rintro row ⟨-, hListed⟩
  cases hListed

end Refused

/-- A deletion takes the version away, and the allow-list the call, from a caller who keeps his rights. -/
theorem encrypted_setting_out_of_reach : ∃ kek payload dataKey,
    Lived owner Config.Valid (fun _ o => o.Accepted) (stored payload dataKey) ∧
    (stored payload dataKey).world.tables.Holds ownKey 1 payload (some dataKey) ∧
    Obtained answers ownKey kek ∧ Encloses kek ownKey.subject.raw [9] payload (some dataKey) ∧
    ∀ e ∈ [deletion, banning], KeepsRights ((stored payload dataKey).step owner e).1.world.tables ∧
      ∀ random input, ∃ why, Outcome.run answers random ((stored payload dataKey).step owner e).1.world
        (encryptedSetting owner (path 1) input ((stored payload dataKey).step owner e).1.world) =
          (((stored payload dataKey).step owner e).1.world, .error why) := by
  obtain ⟨kek, payload, dataKey, hObtained, hEncloses, -, -, -, hTables, hHolds⟩ := exists_stored
  obtain ⟨hKept, hGone⟩ := refused_after_deletion hTables
  obtain ⟨hKept', hBanned⟩ := refused_after_banning hTables
  refine ⟨kek, payload, dataKey, stored_lived, hHolds, hObtained, hEncloses, ?_⟩
  rw [List.forall_mem_cons, List.forall_mem_singleton]
  exact ⟨⟨hKept, fun _ _ => run_encryptedSetting_refused hGone⟩, hKept',
    fun _ _ => run_encryptedSetting_refused hBanned⟩

end Sample

end Server

end TenantVault
