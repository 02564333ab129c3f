import TenantVault.Proofs.Envelopes
import TenantVault.Proofs.Freshness
import TenantVault.Proofs.Retention

/-! # What a client opens

A client that keeps the secret of its request comes to the same shared secret as the service, so it
opens what it is handed: the key of a setting, which the service derives from what its signer signs, and
the text of a version, which the service decrypts by means of the same key.
-/

namespace TenantVault

open Sealed (maxLength)

/-! ## Calls that are answered in one way -/

namespace Outcome

variable {α β : Type} {answer : Request → Reply} {random : Nat → Bytes} {a : α} {w : World}

/-- A call can end in an answer when its requests are answered and its octets drawn in a given way, while
others change the world whenever it waits. -/
def Yields (answer : Request → Reply) (random : Nat → Bytes) (a : α) : Outcome α → Prop
  | done _ r => r = .ok a
  | ask q resume => ∃ w, (resume w (answer q)).Yields answer random a
  | draw size resume => ∃ w, (resume w (random size)).Yields answer random a

theorem yields_finish_iff (a' : α) : (finish w a').Yields answer random a ↔ a' = a := by
  unfold finish Yields
  rw [Except.ok.injEq]

theorem yields_after_iff (r : Result β) (next : β → Outcome α) :
    (after w r next).Yields answer random a ↔ ∃ b, r = .ok b ∧ (next b).Yields answer random a := by
  cases r with
  | error why =>
    constructor
    · intro h
      cases h
    · rintro ⟨_, ⟨⟩, _⟩
  | ok b =>
    constructor
    · intro h
      exact ⟨b, rfl, h⟩
    · rintro ⟨_, ⟨⟩, h⟩
      exact h

theorem yields_request_iff {q : Request} {octets : Bytes} (hAnswer : answer q = .ok octets)
    (next : World → Bytes → Outcome α) :
    (request q next).Yields answer random a ↔ ∃ w, (next w octets).Yields answer random a := by
  rw [request, Yields, hAnswer]

theorem run_after {r : Result β} {b : β} (h : r = .ok b) (w' : World) (next : β → Outcome α) :
    run answer random w (after w' r next) = run answer random w (next b) := by
  rw [h]
  rfl

theorem run_request {q : Request} {octets : Bytes} (hAnswer : answer q = .ok octets)
    (next : World → Bytes → Outcome α) :
    run answer random w (request q next) = run answer random w (next w octets) := by
  rw [request, run, hAnswer]

end Outcome

namespace Keys

open Access Outcome

/-- What the client does with a message that was encrypted for it in an exchange. -/
def openSealed (secret publicKey subject sealed : Bytes) : Result Bytes := do
  Cose.Encrypted.decode sealed (← KeyExchange.clientSecret secret publicKey) subject

/-- What the client does with the key of a setting that was handed to it. -/
def openKey (secret subject : Bytes) (handover : Handover Bytes) : Result Bytes := do
  Cose.SecretKey.unwrap (← openSealed secret handover.publicKey subject handover.content)

theorem openSealed_eq {secret subject plain sealed nonce : Bytes} {agreement : KeyExchange.Agreement}
    (hShared : KeyExchange.clientSecret secret agreement.publicKey = .ok agreement.shared)
    (hSealed : Cose.Encrypted.encode plain agreement.shared subject nonce none = .ok sealed)
    (hPlain : plain.length + Gcm.tagLength ≤ maxLength) :
    openSealed secret agreement.publicKey subject sealed = .ok plain := by
  unfold openSealed
  rw [hShared]
  exact Cose.Encrypted.decode_encode hSealed hPlain nofun

/-! ## The key of a setting -/

section Derivation

variable {α : Type} {answer : Request → Reply} {random : Nat → Bytes} {a : α} {w : World}
  {sign : Bytes → List Bytes → Bytes → Bytes} {key : SettingKey} {kek : Bytes}

/-- The signer answers whenever it is asked, and the same to the same question. -/
def SignsBy (sign : Bytes → List Bytes → Bytes → Bytes) (answer : Request → Reply) : Prop :=
  ∀ label path message, answer (.sign label path message) = .ok (sign label path message)

/-- The key under which a setting is encrypted, by what the signer signs. -/
def settingKeyOf (sign : Bytes → List Bytes → Bytes → Bytes) (key : SettingKey) : Result Bytes := do
  let tenant ← tenantOf key
  let ns ← TenantKey.namespacePart tenant
  return TenantKey.ofSignature ns (sign Signer.settingLabel tenant (TenantKey.challenge ns key.key))

/-- The version of a setting has no part in its key. -/
theorem settingKeyOf_congr {key' : SettingKey} (h : key'.current = key.current) :
    settingKeyOf sign key' = settingKeyOf sign key := by
  have hSame (k : SettingKey) : settingKeyOf sign k = settingKeyOf sign k.current := rfl
  rw [hSame key', h, ← hSame key]

theorem length_settingKeyOf (h : settingKeyOf sign key = .ok kek) : kek.length = Gcm.keyLength := by
  simp only [settingKeyOf, bind_eq_ok_iff, pure_eq_ok_iff] at h
  obtain ⟨tenant, -, ns, -, rfl⟩ := h
  exact TenantKey.length_ofSignature ..

theorem yields_settingKey_iff (hSigner : SignsBy sign answer) (next : World → Bytes → Outcome α) :
    (settingKey key key.key w next).Yields answer random a ↔
      ∃ kek, settingKeyOf sign key = .ok kek ∧ ∃ w, (next w kek).Yields answer random a := by
  unfold settingKey settingKeyOf
  simp only [yields_after_iff, bind_eq_ok_iff, pure_eq_ok_iff, yields_request_iff (hSigner ..)]
  constructor
  · rintro ⟨tenant, hTenant, ns, hNs, hNext⟩
    exact ⟨_, ⟨tenant, hTenant, ns, hNs, rfl⟩, hNext⟩
  · rintro ⟨_, ⟨tenant, hTenant, ns, hNs, rfl⟩, hNext⟩
    exact ⟨tenant, hTenant, ns, hNs, hNext⟩

theorem run_settingKey (hSigner : SignsBy sign answer) (hKey : settingKeyOf sign key = .ok kek)
    (next : World → Bytes → Outcome α) :
    run answer random w (settingKey key key.key w next) = run answer random w (next w kek) := by
  simp only [settingKeyOf, bind_eq_ok_iff, pure_eq_ok_iff] at hKey
  obtain ⟨tenant, hTenant, ns, hNs, rfl⟩ := hKey
  unfold settingKey
  rw [run_after hTenant, run_after hNs, run_request (hSigner ..)]

theorem yields_exchange_iff (input : ExchangeRequest)
    (next : World → KeyExchange.Agreement → Outcome α) :
    (exchange input w next).Yields answer random a ↔
      KeyExchange.checkRequest input.publicKey input.nonce = .ok () ∧ ∃ agreement,
        KeyExchange.respond (random KeyExchange.randomLength) input.publicKey input.nonce =
          .ok agreement ∧ ∃ w, (next w agreement).Yields answer random a := by
  unfold exchange
  rw [yields_after_iff, exists_unit_iff, Yields]
  simp only [yields_after_iff]
  constructor
  · rintro ⟨hRequest, w, agreement, hAgreement, hNext⟩
    exact ⟨hRequest, agreement, hAgreement, w, hNext⟩
  · rintro ⟨hRequest, agreement, hAgreement, w, hNext⟩
    exact ⟨hRequest, w, agreement, hAgreement, hNext⟩

theorem run_exchange {input : ExchangeRequest} {agreement : KeyExchange.Agreement}
    (hRequest : KeyExchange.checkRequest input.publicKey input.nonce = .ok ())
    (hAgreement : KeyExchange.respond (random KeyExchange.randomLength) input.publicKey input.nonce =
      .ok agreement) (next : World → KeyExchange.Agreement → Outcome α) :
    run answer random w (exchange input w next) = run answer random w (next w agreement) := by
  unfold exchange
  rw [run_after hRequest, run, run_after hAgreement]

end Derivation

/-! ## A client gets the key -/

section Fetching

variable {answer : Request → Reply} {random : Nat → Bytes} {w : World}
  {sign : Bytes → List Bytes → Bytes → Bytes} {caller : Principal} {path : SettingPath}
  {input : ExchangeRequest} {secret : Bytes} {handover : Handover Bytes}

theorem yields_encryptedKey_iff (hSigner : SignsBy sign answer) :
    (encryptedKey caller path input w).Yields answer random handover ↔
      Admits w.tables "ecdh_cose_encrypted_key" caller ∧
      HoldsKey w.tables caller (path.toKey caller) ∧
      ∃ kek, settingKeyOf sign (path.toKey caller) = .ok kek ∧
      KeyExchange.checkRequest input.publicKey input.nonce = .ok () ∧
      ∃ agreement, KeyExchange.respond (random KeyExchange.randomLength) input.publicKey input.nonce =
        .ok agreement ∧
      (∃ w : World, HoldsKey w.tables caller (path.toKey caller)) ∧
      ∃ wrapped, Cose.SecretKey.wrap kek (some (path.toKey caller).key) = .ok wrapped ∧
      ∃ sealed, Cose.Encrypted.encode wrapped agreement.shared (path.toKey caller).subject.raw
        input.nonce none = .ok sealed ∧ handover = ⟨sealed, agreement.publicKey⟩ := by
  unfold encryptedKey
  simp only [yields_after_iff, exists_unit_iff, allowed_eq_ok_iff, yields_settingKey_iff hSigner,
    yields_exchange_iff, yields_finish_iff, bind_eq_ok_iff, ← keyHolder_iff]
  constructor
  · rintro ⟨hAdmits, ns, hHeld, kek, hKey, w, hRequest, agreement, hAgreement, w', sealed,
      ⟨ns', hHeld', wrapped, hWrapped, hSealed⟩, rfl⟩
    exact ⟨hAdmits, ⟨ns, hHeld⟩, kek, hKey, hRequest, agreement, hAgreement, ⟨w', ns', hHeld'⟩,
      wrapped, hWrapped, sealed, hSealed, rfl⟩
  · rintro ⟨hAdmits, ⟨ns, hHeld⟩, kek, hKey, hRequest, agreement, hAgreement, ⟨w', ns', hHeld'⟩,
      wrapped, hWrapped, sealed, hSealed, rfl⟩
    exact ⟨hAdmits, ns, hHeld, kek, hKey, w, hRequest, agreement, hAgreement, w', sealed,
      ⟨ns', hHeld', wrapped, hWrapped, hSealed⟩, rfl⟩

/-- Whatever others do while it is fetched, the client gets the key that the signer stands for. -/
theorem openKey_of_yields (hSigner : SignsBy sign answer)
    (hLength : path.key.length ≤ maxKeyLength)
    (hAgrees : input.Agrees secret (random KeyExchange.randomLength))
    (hYields : (encryptedKey caller path input w).Yields answer random handover) :
    ∃ kek, settingKeyOf sign (path.toKey caller) = .ok kek ∧
      openKey secret (path.toKey caller).subject.raw handover = .ok kek := by
  obtain ⟨-, -, kek, hKey, -, agreement, hAgreement, -, wrapped, hWrapped, sealed, hSealed, rfl⟩ :=
    (yields_encryptedKey_iff hSigner).mp hYields
  obtain ⟨agreement', hAgreement', hShared⟩ := hAgrees.respond
  cases hAgreement.symm.trans hAgreement'
  have hKeyId : (path.toKey caller).key.length ≤ maxKeyLength := hLength
  have hSmall : maxKeyLength + 200 ≤ maxLength := by decide
  have hPlain : wrapped.length + Gcm.tagLength ≤ maxLength := by
    have hWrappedLength := Cose.SecretKey.length_wrap_le hWrapped
    rw [Option.getD_some] at hWrappedLength
    unfold Gcm.tagLength
    omega
  refine ⟨kek, hKey, ?_⟩
  unfold openKey
  dsimp only
  rw [openSealed_eq hShared hSealed hPlain]
  refine Cose.SecretKey.unwrap_wrap hWrapped ?_
  rintro id ⟨⟩
  exact hKeyId.trans (by decide)

end Fetching

/-! ## A client opens a text -/

section Reading

variable {kek subject plain payload : Bytes} {dataKey : Option Bytes}

variable {answer : Request → Reply} {random : Nat → Bytes} {w : World}
  {sign : Bytes → List Bytes → Bytes → Bytes} {caller : Principal} {key : SettingKey}

theorem run_plainPayload {α : Type} (hSigner : SignsBy sign answer)
    (hKey : dataKey.isSome = true → settingKeyOf sign key = .ok kek)
    (hEncloses : Encloses kek key.subject.raw plain payload dataKey)
    (hPayload : payload.length ≤ maxLength) (hDataKey : ∀ d, dataKey = some d → d.length ≤ maxLength)
    (hHeld : dataKey.isSome = true → HoldsKey w.tables caller key)
    (next : World → Bytes → Outcome α) :
    run answer random w (plainPayload caller key payload dataKey w next) =
      run answer random w (next w plain) := by
  cases dataKey with
  | none =>
    cases hEncloses
    rfl
  | some d =>
    obtain ⟨ns, hHolder⟩ := (keyHolder_iff ..).mpr (hHeld rfl)
    obtain ⟨wrapped, secret, hWrapped, hSecret, hPlain⟩ :=
      hEncloses.decrypt hPayload (hDataKey d rfl)
    unfold plainPayload
    dsimp only
    rw [run_after hHolder, run_settingKey hSigner (hKey rfl)]
    refine run_after ?_ w (next w)
    simp only [bind_eq_ok_iff]
    exact ⟨ns, hHolder, wrapped, hWrapped, secret, hSecret, hPlain⟩

theorem eq_ok_of_map_setting {r : Result SettingInfo} {info : SettingInfo}
    (h : r.map Answer.setting = .ok (.setting info)) : r = .ok info := by
  cases r with
  | error why => cases h
  | ok info' =>
    cases h
    rfl

variable {t : Tables} {v : Int} {row : Setting}

theorem readSetting_of_holds (hWhole : t.Whole) (hHolds : t.Holds key v payload dataKey)
    (hFound : t.getSetting? key = some row) (hMay : MayRead t caller key row)
    (hAt : key.version = v ∨ key.version = 0 ∧ row.version = .int v) :
    ∃ info current, t.readSetting caller key = .ok info ∧ info.payload = some payload ∧
      info.dataKey = dataKey ∧ t.getSettingInfo caller key = .ok current ∧
      (current.version.content? = info.version.content? ∨ key.version ≠ 0) := by
  obtain ⟨h, hKept, hIncludes⟩ := hWhole.holds_iff.mp hHolds
  obtain ⟨_, ⟨⟩, hLive⟩ := hKept.found rfl hFound
  have hServed := hKept.served hFound hMay
  obtain ⟨current, hInfo, hNumber⟩ := History.info_of_live hLive key
  have hCurrent (hReached : key.version ≤ h.number) : t.getSettingInfo caller key = .ok current := by
    unfold Tables.getSettingInfo
    rw [History.readableSetting_of_live hFound hLive hMay, if_neg (by omega)]
    exact hInfo
  rcases hIncludes.cases with ⟨rfl, hVersion⟩ | ⟨i, old, rfl, hOld, hVersion⟩
  · obtain ⟨info, hAnswer, hSame, hPayload, hDataKey⟩ :=
      hServed.current (hAt.symm.imp_left And.left)
    refine ⟨info, current, eq_ok_of_map_setting hAnswer, ?_, ?_, hCurrent ?_, Or.inl ?_⟩
    · rw [hPayload, ← hVersion]
    · rw [hDataKey, ← hVersion]
    · unfold History.number at hAt ⊢
      omega
    · rw [hNumber, hSame]
  · obtain ⟨hFirst, hEarlier⟩ : 0 < (i : Int) + 1 ∧ (i : Int) + 1 < h.number :=
      History.bounds_of_past (show (key.withVersion (i + 1)).version = (i : Int) + 1 from rfl) hOld
    -- The live record has a later version, so the earlier one has been asked for by its number.
    have hAsked : key.version = (i : Int) + 1 := by
      refine hAt.resolve_right ?_
      rintro ⟨-, hRow⟩
      have hSame := Json.int.inj (hRow.symm.trans hLive.version)
      omega
    have hPayload : old.payload = some payload := (congrArg Version.payload hVersion).symm
    have hDataKey : old.dataKey = dataKey := (congrArg Version.dataKey hVersion).symm
    obtain ⟨⟨info, hAnswer, -, -, hInfoPayload, hInfoKey⟩, -⟩ :=
      hServed.earlier i old payload hAsked hOld hPayload
    refine ⟨info, current, eq_ok_of_map_setting hAnswer, hInfoPayload, hInfoKey.trans hDataKey,
      hCurrent ?_, Or.inr ?_⟩
    · omega
    · omega

/-- A caller is let in to a version of a setting, and to the key of the setting where he needs it. -/
structure MayOpen (t : Tables) (caller : Principal) (path : SettingPath) (v : Int) (encrypted : Bool) :
    Prop where
  admitted : Admits t "ecdh_setting_get" caller
  reads : ∃ row, t.getSetting? (path.toKey caller) = some row ∧
    MayRead t caller (path.toKey caller) row ∧
    (path.version = v ∨ path.version = 0 ∧ row.version = .int v)
  holdsKey : encrypted = true → HoldsKey t caller (path.toKey caller)

/-- A call that nothing disturbs hands out a setting with a message that the client opens as a text. -/
def HandsOver (answer : Request → Reply) (random : Nat → Bytes) (w : World) (caller : Principal)
    (path : SettingPath) (input : ExchangeRequest) (secret plain : Bytes) : Prop :=
  ∃ handover sealed, run answer random w (encryptedSetting caller path input w) = (w, .ok handover) ∧
    handover.content.payload = some sealed ∧
    openSealed secret handover.publicKey (path.toKey caller).subject.raw sealed = .ok plain

theorem handsOver_of_holds {path : SettingPath} {input : ExchangeRequest} {secret : Bytes}
    (hSigner : SignsBy sign answer) (hAgrees : input.Agrees secret (random KeyExchange.randomLength))
    (hKey : dataKey.isSome = true → settingKeyOf sign (path.toKey caller) = .ok kek)
    (hEncloses : Encloses kek (path.toKey caller).subject.raw plain payload dataKey)
    (hPayload : payload.length ≤ maxPayloadSize)
    (hDataKey : ∀ d, dataKey = some d → d.length ≤ maxLength) (hWhole : w.tables.Whole)
    (hHolds : w.tables.Holds (path.toKey caller) v payload dataKey)
    (hMay : MayOpen w.tables caller path v dataKey.isSome) :
    HandsOver answer random w caller path input secret plain := by
  obtain ⟨hAdmits, ⟨row, hFound, hReads, hAt⟩, hHeld⟩ := hMay
  obtain ⟨info, current, hRead, hInfoPayload, hInfoKey, hCurrent, hVersion⟩ :=
    readSetting_of_holds hWhole hHolds hFound hReads hAt
  obtain ⟨agreement, hAgreement, hShared⟩ := hAgrees.respond
  have hLimit : maxPayloadSize + 100 ≤ (maxLength : Int) := by decide
  have hLength := hEncloses.length_le
  have hPlain : plain.length + Gcm.tagLength ≤ maxLength := by
    unfold Gcm.tagLength
    omega
  have hFits : plain.length ≤ maxLength := by omega
  obtain ⟨sealed, hSealed⟩ := Cose.Encrypted.exists_encode
    (KeyExchange.length_shared_of_respond hAgreement) hAgrees.nonce
    (Cose.Encrypted.fits_principal (path.toKey caller).subject hFits) none
  refine ⟨⟨{ info with payload := some sealed }, agreement.publicKey⟩, sealed, ?_, rfl,
    openSealed_eq hShared hSealed hPlain⟩
  unfold encryptedSetting
  dsimp only
  rw [run_after ((allowed_eq_ok_iff ..).mpr hAdmits), run_after hRead, hInfoPayload]
  dsimp only
  rw [hInfoKey, run_plainPayload hSigner hKey hEncloses (by omega) hDataKey hHeld,
    run_exchange hAgrees.checkRequest hAgreement]
  refine run_after ?_ w _
  simp only [bind_eq_ok_iff, exists_unit_iff, demand_eq_ok_iff, Bool.or_eq_true, decide_eq_true_iff]
  exact ⟨current, hCurrent, hVersion, hSealed⟩

/-- Nobody is handed a setting that is not there, or anything past the allow-list. -/
theorem run_encryptedSetting_refused {path : SettingPath} {input : ExchangeRequest}
    (hRefused : ∀ row, Admits w.tables "ecdh_setting_get" caller →
      w.tables.getSetting? (path.toKey caller) ≠ some row) :
    ∃ why, run answer random w (encryptedSetting caller path input w) = (w, .error why) := by
  unfold encryptedSetting
  dsimp only
  cases hAllowed : allowed w.tables caller "ecdh_setting_get" with
  | error why => exact ⟨why, rfl⟩
  | ok _ =>
    cases hRead : w.tables.readSetting caller (path.toKey caller) with
    | error why => exact ⟨why, rfl⟩
    | ok info =>
      simp only [Tables.readSetting, bind_eq_ok_iff, readableSetting_eq_ok_iff] at hRead
      obtain ⟨row, ⟨hFound, -⟩, -⟩ := hRead
      exact (hRefused row ((allowed_eq_ok_iff ..).mp hAllowed) hFound).elim

end Reading

end Keys

end TenantVault
