import TenantVault.Proofs.Breakdowns
import TenantVault.Proofs.Ranges
import TenantVault.Proofs.Recovery
import TenantVault.Proofs.Replies

/-! # Reads of whatever has been stored

Of a message only the outer form is looked at when it is stored, so a read can come upon values of any kind.
It fails in a way that the service reports, unless one of the messages that it opens breaks down, or the
refusal has to name the setting by a version that is too long to be shown. None of that depends on the decoder
that reads the messages.
-/

namespace TenantVault

open Failure (IsReported IsOpening IsMalformed OrBreakdown)

/-! ## Checks that are reported -/

namespace Access

variable {t : Tables} {caller : Principal} {key : SettingKey} {ns : Namespace} {s : Setting}

theorem failsAs_demand {kind : Failure → Prop} {condition : Bool} {otherwise : Failure} (h : kind otherwise) :
    FailsAs kind (demand condition otherwise) := by
  cases condition
  · exact failsAs_error h
  · exact failsAs_ok _

theorem failsAs_allowed (t : Tables) (caller : Principal) (api : String) :
    FailsAs IsReported (allowed t caller api) :=
  (failsAs_demand trivial).bind fun _ _ => failsAs_demand trivial

theorem failsAs_lookup (t : Tables) (name : String) : FailsAs IsReported (lookup t name) := by
  unfold lookup
  split
  · exact failsAs_ok _
  · exact failsAs_error trivial

theorem failsAs_isArchived (h : ns.InRange) : FailsAs IsReported ns.isArchived := by
  obtain ⟨n, hStatus, -⟩ := h.status
  rw [Namespace.isArchived, hStatus]
  exact failsAs_ok _

theorem failsAs_readAccess (h : ns.InRange) (caller : Principal) (key : SettingKey) :
    FailsAs IsReported (ns.readAccess caller key) := by
  unfold Namespace.readAccess
  split
  · exact failsAs_ok _
  · refine (failsAs_isArchived h).bind fun archived _ => ?_
    repeat' split
    all_goals exact failsAs_ok _

theorem failsAs_keyHolder (hRange : t.InRange) (caller : Principal) (key : SettingKey) :
    FailsAs IsReported (keyHolder t caller key) := by
  refine (failsAs_lookup t key.ns).bind fun ns hFound => ?_
  rw [lookup_eq_ok_iff] at hFound
  have hArchived := failsAs_isArchived (hRange.namespaces _ ns hFound)
  refine (hArchived.bind fun _ _ => failsAs_ok _).bind fun _ _ => ?_
  exact (failsAs_demand trivial).bind fun _ _ => failsAs_ok _

end Access

/-! ## Refusals that name the setting -/

/-- A setting is not there for a caller who gets as far as that, or not at the version that is asked for. -/
inductive Tables.RefusesByName (t : Tables) (caller : Principal) (key : SettingKey) : Prop
  | setting {ns : Namespace} {access : ReadAccess} (housed : t.namespaces.get? (.text key.ns) = some ns)
      (admits : ns.readAccess caller key = .ok access) (granted : access ≠ .refused)
      (absent : t.getSetting? key = none) : t.RefusesByName caller key
  | version {s : Setting} (found : t.getSetting? key = some s) (reads : Access.MayRead t caller key s)
      (beyond : s.version.less key.version = .ok true) : t.RefusesByName caller key

/-- Or what is asked for is an earlier version and not in the archive, or it has no payload. -/
inductive Tables.ReadRefusesByName (t : Tables) (caller : Principal) (key : SettingKey) : Prop
  | live (refused : t.RefusesByName caller key) : t.ReadRefusesByName caller key
  | archived {s : Setting} (read : Access.readableSetting t caller key = .ok s)
      (earlier : ¬ (key.version = 0 ∨ s.version.isInt key.version = true))
      (absent : t.archived.get? key.stored = none) : t.ReadRefusesByName caller key
  | payload {info : SettingInfo} (read : t.readSetting caller key = .ok info)
      (absent : info.payload = none) : t.ReadRefusesByName caller key

/-- Because of the version a refusal cannot name the setting. -/
def SettingKey.Nameless (key : SettingKey) : Prop := (Json.int key.version).isPrintable = false

theorem Failure.naming_of_nameless {key : SettingKey} (h : key.Nameless) (why : Failure) :
    Failure.naming key why = .breakdown .numberTooLong := Failure.showing_of_not_isPrintable h why

namespace Access

variable {t : Tables} {caller : Principal} {key : SettingKey} {ns : Namespace} {s : Setting}

theorem failsAs_readableSetting (hWhole : t.Whole) (hRange : t.InRange) (caller : Principal)
    (key : SettingKey) :
    FailsAs (OrBreakdown IsReported fun fault =>
      fault = .numberTooLong ∧ key.Nameless ∧ t.RefusesByName caller key) (readableSetting t caller key) := by
  refine ((failsAs_lookup t key.ns).orBreakdown fun _ => id).bind fun ns hNamespace => ?_
  rw [lookup_eq_ok_iff] at hNamespace
  have hAccess := failsAs_readAccess (hRange.namespaces _ ns hNamespace) caller key
  refine (hAccess.orBreakdown fun _ => id).bind fun access hGrants => ?_
  refine (failsAs_demand (.inl trivial)).bind fun _ hOpen => ?_
  rw [demand_eq_ok_iff] at hOpen
  have hGranted : access ≠ .refused := by
    rintro rfl
    cases hOpen
  refine FailsAs.bind ?_ fun s hFound => (failsAs_demand (.inl trivial)).bind fun _ hReader => ?_
  · cases hFound : t.getSetting? key with
    | none =>
      rw [getSetting, hFound]
      refine failsAs_error (Failure.naming_orBreakdown (.inl trivial) fun hNameless => ⟨rfl, hNameless, ?_⟩)
      exact .setting hNamespace hGrants hGranted hFound
    | some s =>
      rw [(getSetting_eq_ok_iff ..).mpr hFound]
      exact failsAs_ok s
  · rw [getSetting_eq_ok_iff] at hFound
    rw [demand_eq_ok_iff] at hReader
    have hMay := mayRead_of_access hNamespace hGrants hOpen hReader
    obtain ⟨n, hVersion, -⟩ := hWhole.version hFound
    refine FailsAs.bind ?_ fun beyond hBeyond => ?_
    · rw [hVersion]
      exact failsAs_ok _
    · cases beyond with
      | false => exact failsAs_ok s
      | true =>
        refine failsAs_error (Failure.naming_orBreakdown (.inl trivial) fun hNameless => ⟨rfl, hNameless, ?_⟩)
        exact .version hFound hMay hBeyond

theorem readableSetting_of_refusesByName (h : t.RefusesByName caller key) :
    ∃ what, readableSetting t caller key = .error (.naming key (.missing what)) := by
  cases h with
  | @setting ns access housed admits granted absent =>
    have hOpen : (access != .refused) = true := by
      cases access with
      | refused => exact (granted rfl).elim
      | _ => rfl
    refine ⟨.setting key, ?_⟩
    unfold readableSetting getSetting
    rw [(lookup_eq_ok_iff ..).mpr housed]
    simp only [bind, Except.bind, admits, demand, hOpen, if_true, absent]
  | version found reads beyond =>
    refine ⟨.version key, ?_⟩
    rw [readableSetting_of_mayRead found reads, beyond]
    rfl

end Access

namespace Tables

variable {t : Tables} {s : Setting} {caller : Principal} {key : SettingKey} {info : SettingInfo}

theorem failsAs_info (h : s.InRange) (key : SettingKey) : FailsAs IsReported (s.info key) := by
  obtain ⟨members, hTags, -⟩ := h.tags
  rw [Setting.info, hTags]
  exact failsAs_ok _

theorem inRange_of_readable (hRange : t.InRange) (h : Access.readableSetting t caller key = .ok s) :
    s.InRange :=
  hRange.live _ s ((Access.readableSetting_eq_ok_iff ..).mp h).1

theorem failsAs_getSettingInfo (hWhole : t.Whole) (hRange : t.InRange) (caller : Principal) (key : SettingKey) :
    FailsAs (OrBreakdown IsReported fun fault =>
      fault = .numberTooLong ∧ key.Nameless ∧ t.RefusesByName caller key) (t.getSettingInfo caller key) :=
  (Access.failsAs_readableSetting hWhole hRange caller key).bind fun _ hRead =>
    (failsAs_info (inRange_of_readable hRange hRead) key).orBreakdown fun _ => id

theorem failsAs_readSetting (hWhole : t.Whole) (hRange : t.InRange) (caller : Principal) (key : SettingKey) :
    FailsAs (OrBreakdown IsReported fun fault =>
      fault = .numberTooLong ∧ key.Nameless ∧ t.ReadRefusesByName caller key) (t.readSetting caller key) := by
  refine FailsAs.bind ?_ fun s hRead => ?_
  · refine (Access.failsAs_readableSetting hWhole hRange caller key).mono fun why hWhy => ?_
    exact hWhy.mono (fun _ => id) fun fault hFault => hFault.imp_right (And.imp_right .live)
  have hInfo : FailsAs (OrBreakdown IsReported fun fault =>
      fault = .numberTooLong ∧ key.Nameless ∧ t.ReadRefusesByName caller key) (s.info key) :=
    (failsAs_info (inRange_of_readable hRange hRead) key).orBreakdown fun _ => id
  split
  · exact hInfo.bind fun _ _ => failsAs_ok _
  · next hEarlier =>
    refine FailsAs.bind ?_ fun _ _ => hInfo.bind fun _ _ => failsAs_ok _
    unfold archivedPayload
    split
    · exact failsAs_ok _
    · next hAbsent =>
      refine failsAs_error (Failure.naming_orBreakdown (.inl trivial) fun hNameless => ⟨rfl, hNameless, ?_⟩)
      exact .archived hRead hEarlier hAbsent

/-- A setting that is read is there, at a version that it has reached. -/
theorem not_refusesByName_of_readSetting (h : t.readSetting caller key = .ok info) :
    ¬ t.RefusesByName caller key := by
  intro hRefuses
  obtain ⟨what, hRefused⟩ := Access.readableSetting_of_refusesByName hRefuses
  rw [readSetting, hRefused] at h
  cases h

end Tables

namespace Tables

variable {t : Tables} {caller : Principal} {key : SettingKey} {info : SettingInfo} {version : Json}

/-- A read is refused by name before its setting is found, or because what it has found has no payload. -/
theorem ReadRefusesByName.cases (h : t.ReadRefusesByName caller key) :
    (∃ what, t.readSetting caller key = .error (.naming key (.missing what))) ∨
      ∃ info, t.readSetting caller key = .ok info ∧ info.payload = none := by
  cases h with
  | live refused =>
    obtain ⟨what, hRefused⟩ := Access.readableSetting_of_refusesByName refused
    refine .inl ⟨what, ?_⟩
    rw [readSetting, hRefused]
    rfl
  | archived read earlier absent =>
    refine .inl ⟨.storedPayload key, ?_⟩
    unfold readSetting archivedPayload
    rw [read]
    simp only [bind, Except.bind, earlier, if_false, absent]
  | payload read absent => exact .inr ⟨_, read, absent⟩

/-- The second look at a setting, after its payload has been opened, cannot be put into words: the setting is
not there any more, or the version that it has now is to be shown. -/
inductive Strays (t : Tables) (caller : Principal) (key : SettingKey) (version : Json) : Prop
  | named (nameless : key.Nameless) (refused : t.RefusesByName caller key) : t.Strays caller key version
  | changed {current : SettingInfo} (read : t.getSettingInfo caller key = .ok current)
      (live : key.version = 0) (other : current.version.content? ≠ version.content?)
      (tooLong : current.version.isPrintable = false) : t.Strays caller key version

/-- In the tables that a setting has been read from it has not changed. -/
theorem not_strays_of_readSetting (h : t.readSetting caller key = .ok info) :
    ¬ t.Strays caller key info.version := by
  intro hStrays
  cases hStrays with
  | named nameless refused => exact not_refusesByName_of_readSetting h refused
  | changed read live other tooLong =>
    simp only [readSetting, getSettingInfo, bind_eq_ok_iff, live, true_or, if_true, Setting.fullInfo,
      pure_eq_ok_iff] at h read
    obtain ⟨s, hRead, _, hInfo, rfl⟩ := h
    obtain ⟨s', hRead', hInfo'⟩ := read
    cases hRead.symm.trans hRead'
    cases hInfo.symm.trans hInfo'
    exact other rfl

theorem failsAs_unchanged (hWhole : t.Whole) (hRange : t.InRange) (caller : Principal) (key : SettingKey)
    (version : Json) :
    FailsAs (OrBreakdown IsReported fun fault => fault = .numberTooLong ∧ t.Strays caller key version) (do
      let current ← t.getSettingInfo caller key
      Access.demand (current.version.content? = version.content? || key.version ≠ 0)
        (.naming key (.showing current.version (.conflict (.changed key current.version.display))))) := by
  refine FailsAs.bind ?_ fun current hRead => ?_
  · refine (failsAs_getSettingInfo hWhole hRange caller key).mono fun why hWhy => ?_
    refine hWhy.mono (fun _ => id) ?_
    rintro fault ⟨rfl, hNameless, hRefused⟩
    exact ⟨rfl, .named hNameless hRefused⟩
  · cases hSame : (current.version.content? = version.content? || key.version ≠ 0 : Bool) with
    | true => exact failsAs_ok _
    | false =>
      simp only [ne_eq, Bool.or_eq_false_iff, decide_eq_false_iff_not, decide_not, Bool.not_eq_false',
        decide_eq_true_eq] at hSame
      obtain ⟨hOther, hLive⟩ := hSame
      have hPrintable : (Json.int key.version).isPrintable = true := by
        rw [hLive]
        decide +kernel
      refine failsAs_error ?_
      rw [Failure.naming, Failure.showing_of_isPrintable hPrintable]
      refine Failure.showing_orBreakdown (.inl trivial) fun hLong => ⟨rfl, ?_⟩
      exact .changed hRead hLive hOther hLong

end Tables

namespace KeyExchange

theorem failsAs_checkRequest (theirs nonce : Bytes) : FailsAs IsReported (checkRequest theirs nonce) := by
  unfold checkRequest
  split
  · exact failsAs_error trivial
  · split
    · exact failsAs_error trivial
    · exact failsAs_ok _

/-- The secret of the service has the right length, whatever has been drawn. -/
theorem failsAs_respond (random theirs nonce : Bytes) : FailsAs IsReported (respond random theirs nonce) := by
  have hLength : (HashFunction.sha3_256.hmac random nonce).length = X25519.keyLength :=
    TenantKey.length_ofSignature random nonce
  unfold respond agree
  rw [if_neg (not_not.mpr hLength)]
  split
  · exact failsAs_error trivial
  · split
    · exact failsAs_ok _
    · exact failsAs_error trivial

end KeyExchange

/-! ## What is opened -/

namespace Keys

open Access Outcome

section Opening

variable {read : Cbor.Decoder} {kek subject payload dataKey plain : Bytes} {fault : Breakdown}

def openStored (read : Cbor.Decoder) (kek subject payload dataKey : Bytes) : Result Bytes := do
  let wrapped ← Cose.Encrypted.decode dataKey kek subject read
  let unwrapped ← Cose.SecretKey.unwrap wrapped read
  Cose.Encrypted.decode payload unwrapped subject read

/-- Where opening breaks down: at the message that holds the key, at that key or at the message under that
key. -/
inductive Breaks (read : Cbor.Decoder) (kek subject payload dataKey : Bytes) : Breakdown → Prop
  | dataKey {fault : Breakdown} (breaks : Cose.Encrypted.BreaksIn read dataKey subject fault) :
      Breaks read kek subject payload dataKey fault
  | secret {wrapped : Bytes} {fault : Breakdown}
      (opened : Cose.Encrypted.decode dataKey kek subject read = .ok wrapped)
      (breaks : Cose.SecretKey.Breaks read wrapped fault) : Breaks read kek subject payload dataKey fault
  | payload {wrapped secret : Bytes} {fault : Breakdown}
      (opened : Cose.Encrypted.decode dataKey kek subject read = .ok wrapped)
      (unwrapped : Cose.SecretKey.unwrap wrapped read = .ok secret)
      (breaks : Cose.Encrypted.BreaksIn read payload subject fault) :
      Breaks read kek subject payload dataKey fault

theorem failsAs_openStored (read : Cbor.Decoder) (hKek : kek.length = Gcm.keyLength)
    (subject payload dataKey : Bytes) :
    FailsAs (OrBreakdown IsOpening (Breaks read kek subject payload dataKey))
      (openStored read kek subject payload dataKey) := by
  have hDataKey := Cose.Encrypted.failsAs_decode read dataKey hKek subject
  refine (hDataKey.mono fun _ h => h.mono (fun _ => id) fun _ => .dataKey).bind fun wrapped hOpened => ?_
  have hUnwrap := Cose.SecretKey.failsAs_unwrap read wrapped
  refine (hUnwrap.mono fun _ h => h.mono (fun _ => .inl) fun _ => .secret hOpened).bind fun secret hSecret => ?_
  have hLength := Cose.SecretKey.length_of_unwrap hSecret
  have hPayload := Cose.Encrypted.failsAs_decode read payload hLength subject
  exact hPayload.mono fun _ h => h.mono (fun _ => id) fun _ => .payload hOpened hSecret

theorem openStored_of_breaks (hKek : kek.length = Gcm.keyLength)
    (h : Breaks read kek subject payload dataKey fault) :
    openStored read kek subject payload dataKey = .error (.breakdown fault) := by
  unfold openStored
  cases h with
  | dataKey breaks =>
    rw [Cose.Encrypted.decode_of_breaksIn hKek breaks]
    rfl
  | secret opened breaks =>
    rw [opened]
    dsimp only [bind, Except.bind]
    rw [Cose.SecretKey.unwrap_of_breaks breaks]
  | payload opened unwrapped breaks =>
    rw [opened]
    dsimp only [bind, Except.bind]
    rw [unwrapped]
    exact Cose.Encrypted.decode_of_breaksIn (Cose.SecretKey.length_of_unwrap unwrapped) breaks

theorem length_of_openStored (h : openStored read kek subject payload dataKey = .ok plain) :
    plain.length ≤ Sealed.maxLength := by
  simp only [openStored, bind_eq_ok_iff] at h
  obtain ⟨wrapped, -, secret, -, hOpened⟩ := h
  exact Cose.Encrypted.length_of_decode hOpened

end Opening

/-! ## Calls -/

/-- The keys that a setting can have, by the replies that can come. -/
def Derivable (given : Request → Reply → Prop) (key : SettingKey) (kek : Bytes) : Prop :=
  ∃ tenant ns signature, tenantOf key = .ok tenant ∧ TenantKey.namespacePart tenant = .ok ns ∧
    given (.sign Signer.settingLabel tenant (TenantKey.challenge ns key.key)) (.ok signature) ∧
    kek = TenantKey.ofSignature ns signature

theorem Derivable.length {given : Request → Reply → Prop} {key : SettingKey} {kek : Bytes}
    (h : Derivable given key kek) : kek.length = Gcm.keyLength := by
  obtain ⟨tenant, ns, signature, -, -, -, rfl⟩ := h
  exact TenantKey.length_ofSignature ns signature

theorem exists_namespacePart (path : SettingPath) (caller : Principal) :
    ∃ tenant, tenantOf (path.toKey caller) = .ok tenant ∧
      ∃ ns, TenantKey.namespacePart tenant = .ok ns := by
  have hScope := path.scope_toKey caller
  rw [tenantOf, SettingKey.tenant?, if_pos (by omega)]
  exact ⟨_, rfl, _, rfl⟩

/-- Why a read breaks down by what it begins with: its refusal has to name the setting and cannot, or the
caller may read it and have its key, and opening it breaks down. -/
inductive Trips (read : Cbor.Decoder) (given : Request → Reply → Prop) (t : Tables) (caller : Principal)
    (key : SettingKey) : Breakdown → Prop
  | named (admits : Admits t "ecdh_setting_get" caller) (nameless : key.Nameless)
      (refused : t.ReadRefusesByName caller key) : Trips read given t caller key .numberTooLong
  | stored {info : SettingInfo} {payload dataKey kek : Bytes} {fault : Breakdown}
      (admits : Admits t "ecdh_setting_get" caller) (found : t.readSetting caller key = .ok info)
      (filled : info.payload = some payload) (encrypted : info.dataKey = some dataKey)
      (holds : HoldsKey t caller key) (derivable : Derivable given key kek)
      (breaks : Breaks read kek key.subject.raw payload dataKey fault) : Trips read given t caller key fault

/-- Why it breaks down at all, in the end: it may also be that the setting has changed in the meantime. -/
inductive Escapes (read : Cbor.Decoder) (given : Request → Reply → Prop) (begun ended : Tables)
    (caller : Principal) (key : SettingKey) : Breakdown → Prop
  | begun {fault : Breakdown} (trips : Trips read given begun caller key fault) :
      Escapes read given begun ended caller key fault
  | ended {info : SettingInfo} (found : begun.readSetting caller key = .ok info)
      (strays : ended.Strays caller key info.version) : Escapes read given begun ended caller key .numberTooLong

theorem Escapes.trips {read : Cbor.Decoder} {given : Request → Reply → Prop} {t : Tables} {caller : Principal}
    {key : SettingKey} {fault : Breakdown} (h : Escapes read given t t caller key fault) :
    Trips read given t caller key fault := by
  cases h with
  | begun trips => exact trips
  | ended found strays => exact (Tables.not_strays_of_readSetting found strays).elim

/-- Tables as a service comes to have them. -/
structure Healthy (t : Tables) : Prop where
  whole : t.Whole
  inRange : t.InRange
  live : ∀ k s p, t.settings.get? k = some s → s.payload = some p → p.length ≤ maxPayloadSize
  archived : ∀ k a p, t.archived.get? k = some a → a.payload = some p → p.length ≤ maxPayloadSize

theorem Healthy.length_payload {t : Tables} (h : Healthy t) {caller : Principal} {key : SettingKey}
    {info : SettingInfo} {p : Bytes} (hFound : t.readSetting caller key = .ok info)
    (hPayload : info.payload = some p) : p.length ≤ Sealed.maxLength := by
  have hLimit : maxPayloadSize ≤ Sealed.maxLength := by decide
  refine le_trans ?_ hLimit
  simp only [Tables.readSetting, bind_eq_ok_iff, readableSetting_eq_ok_iff] at hFound
  obtain ⟨s, ⟨hLive, -⟩, hFound⟩ := hFound
  split at hFound
  · simp only [Setting.fullInfo, bind_eq_ok_iff, pure_eq_ok_iff] at hFound
    obtain ⟨_, -, rfl⟩ := hFound
    exact h.live _ s p hLive hPayload
  · simp only [bind_eq_ok_iff, pure_eq_ok_iff] at hFound
    obtain ⟨a, hArchived, _, -, rfl⟩ := hFound
    unfold Tables.archivedPayload at hArchived
    split at hArchived
    · next row hRow =>
      cases hArchived
      exact h.archived _ _ p hRow hPayload
    · cases hArchived

section Calls

variable {α : Type} {read : Cbor.Decoder} {given : Request → Reply → Prop} {kind : Tables → Failure → Prop}
  {w : World}

/-- However a call ends, in tables as a service comes to have them it fails in no other way. -/
abbrev Confined (given : Request → Reply → Prop) (kind : Tables → Failure → Prop) (o : Outcome α)
    (w : World) : Prop :=
  o.EachGiven given (fun w _ r => Healthy w.tables → FailsAs (kind w.tables) r) w

theorem confined_after {β : Type} {r : Result β} {next : β → Outcome α}
    (hFirst : Healthy w.tables → FailsAs (kind w.tables) r)
    (hNext : ∀ b, r = .ok b → Confined given kind (next b) w) : Confined given kind (.after w r next) w :=
  eachGiven_after (fun why hFails hHealthy => failsAs_error (hFirst hHealthy why hFails)) hNext

variable (hKind : ∀ t why, IsReported why → kind t why)

include hKind

theorem confined_settingKey {caller : Principal} {path : SettingPath} {next : World → Bytes → Outcome α}
    (hNext : ∀ w kek, Derivable given (path.toKey caller) kek → Confined given kind (next w kek) w) :
    Confined given kind (settingKey (path.toKey caller) (path.toKey caller).key w next) w := by
  obtain ⟨tenant, hTenant, ns, hPart⟩ := exists_namespacePart path caller
  unfold settingKey
  rw [hTenant, after, hPart, after]
  refine eachGiven_request ?_ ?_
  · intro w refusal _
    exact failsAs_error (hKind _ _ (Failure.isReported_request _ refusal))
  · intro w signature hGiven
    exact hNext w _ ⟨tenant, ns, signature, hTenant, hPart, hGiven, rfl⟩

theorem confined_exchange {input : ExchangeRequest} {next : World → KeyExchange.Agreement → Outcome α}
    (hNext : ∀ w agreement, Confined given kind (next w agreement) w) :
    Confined given kind (exchange input w next) w := by
  refine confined_after (fun _ => (KeyExchange.failsAs_checkRequest _ _).mono (hKind _)) fun _ _ => ?_
  intro w octets
  refine confined_after (fun _ => (KeyExchange.failsAs_respond octets _ _).mono (hKind _)) fun agreement _ => ?_
  exact hNext w agreement

theorem confined_plainPayload {caller : Principal} {path : SettingPath} {payload : Bytes}
    {dataKey : Option Bytes} {next : World → Bytes → Outcome α} (hSize : payload.length ≤ Sealed.maxLength)
    (hBreaks : ∀ t d kek fault, dataKey = some d → HoldsKey w.tables caller (path.toKey caller) →
      Derivable given (path.toKey caller) kek →
      Breaks read kek (path.toKey caller).subject.raw payload d fault → kind t (.breakdown fault))
    (hNext : ∀ w plain, plain.length ≤ Sealed.maxLength → Confined given kind (next w plain) w) :
    Confined given kind (plainPayload caller (path.toKey caller) payload dataKey w next read) w := by
  have hHolder (w : World) (h : Healthy w.tables) :
      FailsAs (kind w.tables) (keyHolder w.tables caller (path.toKey caller)) :=
    (failsAs_keyHolder h.inRange caller _).mono (hKind _)
  cases dataKey with
  | none => exact hNext w payload hSize
  | some d =>
    refine confined_after (hHolder w) fun ns hHeld => confined_settingKey hKind fun w₁ kek hDerivable => ?_
    have hHolds := (keyHolder_iff w.tables caller _).mp ⟨ns, hHeld⟩
    refine confined_after (fun hHealthy => ?_) fun plain hOpened => hNext w₁ plain ?_
    · -- The tables may be others by now, but the payload and its key are what has been read before.
      refine (hHolder w₁ hHealthy).bind fun _ _ => ?_
      refine (failsAs_openStored read hDerivable.length _ payload d).mono fun why hWhy => ?_
      rcases hWhy with hOpening | ⟨fault, rfl, hFault⟩
      · exact hKind _ why hOpening.isReported
      · exact hBreaks _ d kek fault rfl hHolds hDerivable hFault
    · rw [bind_eq_ok_iff] at hOpened
      obtain ⟨_, -, hOpened⟩ := hOpened
      exact length_of_openStored hOpened

end Calls

/-- A read fails as the service reports, however its requests are answered and whatever becomes of the tables
while it waits, unless something of what it begins or ends with is in its way. -/
theorem confined_encryptedSetting (read : Cbor.Decoder) (given : Request → Reply → Prop) (caller : Principal)
    (path : SettingPath) (input : ExchangeRequest) {w : World} (hHealthy : Healthy w.tables) :
    Confined given (fun t => OrBreakdown IsReported (Escapes read given w.tables t caller (path.toKey caller)))
      (encryptedSetting caller path input w read) w := by
  have hKind : ∀ t why, IsReported why →
      OrBreakdown IsReported (Escapes read given w.tables t caller (path.toKey caller)) why := fun _ _ => .inl
  unfold encryptedSetting
  dsimp only
  refine confined_after (fun _ => (failsAs_allowed _ _ _).mono (hKind _)) fun _ hAllowed => ?_
  rw [allowed_eq_ok_iff] at hAllowed
  refine confined_after (fun h => ?_) fun info hFound => ?_
  · refine (Tables.failsAs_readSetting h.whole h.inRange caller (path.toKey caller)).mono fun why hWhy => ?_
    refine hWhy.mono (fun _ => id) ?_
    rintro fault ⟨rfl, hNameless, hRefused⟩
    exact .begun (.named hAllowed hNameless hRefused)
  cases hPayload : info.payload with
  | none =>
    intro _
    refine failsAs_error (Failure.naming_orBreakdown (.inl trivial) fun hNameless => ?_)
    exact .begun (.named hAllowed hNameless (.payload hFound hPayload))
  | some payload =>
    refine confined_plainPayload hKind (hHealthy.length_payload hFound hPayload) ?_ ?_
    · intro t d kek fault hDataKey hHolds hDerivable hBreaks
      refine Failure.orBreakdown_of_breaks (.begun ?_)
      exact .stored hAllowed hFound hPayload hDataKey hHolds hDerivable hBreaks
    · intro w₁ plain hPlain
      refine confined_exchange hKind fun w₂ agreement => ?_
      refine confined_after (fun h => ?_) fun sealed _ _ => failsAs_ok _
      have hUnchanged := Tables.failsAs_unchanged h.whole h.inRange caller (path.toKey caller) info.version
      have hFits := Cose.Encrypted.fits_principal (path.toKey caller).subject hPlain
      rw [← bind_assoc]
      refine FailsAs.bind ?_ fun _ _ => ?_
      · refine hUnchanged.mono fun why hWhy => hWhy.mono (fun _ => id) ?_
        rintro fault ⟨rfl, hStrays⟩
        exact .ended hFound hStrays
      · refine (Cose.Encrypted.failsAs_encode hFits _ _ none).mono ?_
        rintro why ⟨fault, rfl⟩
        exact hKind _ _ trivial

theorem run_of_trips {read : Cbor.Decoder} {answer : Request → Reply} {w : World} {caller : Principal}
    {path : SettingPath} {fault : Breakdown}
    (h : Trips read (fun q reply => reply = answer q) w.tables caller (path.toKey caller) fault)
    (random : Nat → Bytes) (input : ExchangeRequest) :
    run answer random w (encryptedSetting caller path input w read) = (w, .error (.breakdown fault)) := by
  unfold encryptedSetting
  dsimp only
  cases h with
  | named admits nameless refused =>
    rw [run_after ((allowed_eq_ok_iff ..).mpr admits)]
    rcases refused.cases with ⟨what, hRefused⟩ | ⟨info, hFound, hAbsent⟩
    · rw [hRefused, Failure.naming_of_nameless nameless]
      rfl
    · rw [run_after hFound, hAbsent, Failure.naming_of_nameless nameless]
      rfl
  | @stored info payload d kek fault admits found filled encrypted holds derivable breaks =>
    obtain ⟨ns, hHeld⟩ := (keyHolder_iff ..).mpr holds
    have hOpened := openStored_of_breaks derivable.length breaks
    rw [openStored] at hOpened
    obtain ⟨tenant, part, signature, hTenant, hPart, hAnswer, rfl⟩ := derivable
    unfold plainPayload settingKey
    rw [run_after ((allowed_eq_ok_iff ..).mpr admits), run_after found, filled]
    dsimp only
    rw [encrypted]
    dsimp only
    rw [run_after hHeld, run_after hTenant, run_after hPart, run_request hAnswer.symm, hHeld]
    dsimp only [bind, Except.bind] at hOpened ⊢
    rw [hOpened]
    rfl

end Keys

/-! ## Services -/

open Keys

/-- A call that reads a setting fails in no other way, if its last segment begins in healthy tables. -/
def Task.Confines (kind : Principal → SettingPath → Tables → Failure → Prop) :
    Task → World → World → Result Answer → Prop
  | .operation _ (.encryptedSetting caller path _), w, _, r =>
    Healthy w.tables → FailsAs (kind caller path w.tables) r
  | _, _, _, _ => True

namespace Server

variable {service : Principal} {begun : Config → Prop} {asked : Int → Operation → Prop} {s : Server}

theorem given_of_any (s : Server) (e : Event) : s.Given (fun _ _ => True) e :=
  fun _ _ _ _ _ _ _ => trivial

/-- What holds of every call that begins in such a state holds of every call that waits in one. -/
theorem Lived.heeds {P : Task → World → World → Result Answer → Prop}
    (hStart : ∀ (s : Server) (task : Task), Lived service begun asked s →
      (task.start service s.world).EachGiven (fun _ _ => True) (P task) s.world)
    (h : Lived service begun asked s) : s.Heeds (fun _ _ => True) P := by
  have hStep {s : Server} (hLived : Lived service begun asked s) (hHeeds : s.Heeds (fun _ _ => True) P)
      (e : Event) : (s.step service e).1.Heeds (fun _ _ => True) P :=
    (heeds_step hHeeds (s.given_of_any e) fun _ task _ => hStart s task hLived).1
  induction h with
  | start valid => exact heeds_of_idle fun _ => rfl
  | step reached e calls ih => exact hStep reached ih e
  | reload reached wrote written id ih => exact hStep reached ih _

/-- A read has begun in some state that such a service can be in, and something is in its way when it ends. -/
def EscapesBegun (service : Principal) (asked : Int → Operation → Prop) (caller : Principal)
    (path : SettingPath) (ended : Tables) (fault : Breakdown) : Prop :=
  ∃ s, Lived service Config.Valid asked s ∧
    Escapes Cbor.decode (fun _ _ => True) s.world.tables ended caller (path.toKey caller) fault

theorem Lived.healthy (hAccepted : ∀ now o, asked now o → o.Accepted)
    (h : Lived service Config.Valid asked s) : Healthy s.world.tables := by
  have hFormed := h.formed hAccepted
  refine ⟨h.whole, h.inRange hAccepted, ?_, ?_⟩
  · intro k row p hFound hPayload
    exact (hFormed.live k row hFound).size p hPayload
  · intro k a p hFound hPayload
    obtain ⟨row, hLive⟩ := h.whole.live_of_archived hFound
    exact (hFormed.archived k row a hLive hFound).size p hPayload

theorem Lived.confines (hAccepted : ∀ now o, asked now o → o.Accepted)
    (h : Lived service Config.Valid asked s) (task : Task) :
    (task.start service s.world).EachGiven (fun _ _ => True) (task.Confines fun caller path ended =>
      OrBreakdown IsReported (EscapesBegun service asked caller path ended)) s.world := by
  by_cases hRead : ∃ now caller path input, task = .operation now (.encryptedSetting caller path input)
  · obtain ⟨now, caller, path, input, rfl⟩ := hRead
    refine (Outcome.eachGiven_map_iff ..).mpr ?_
    have hConfined := confined_encryptedSetting Cbor.decode (fun _ _ => True) caller path input
      (h.healthy hAccepted)
    refine hConfined.mono fun w w' r hFails hHealthy => ?_
    refine ((hFails hHealthy).map _).mono fun why hWhy => ?_
    exact hWhy.mono (fun _ => id) fun fault hEscapes => ⟨s, h, hEscapes⟩
  · -- Nothing is said of any other task.
    apply Outcome.eachGiven_of_forall
    intro w w' r
    unfold Task.Confines
    split
    · next now caller path input => exact (hRead ⟨now, caller, path, input, rfl⟩).elim
    · trivial

/-- Whatever has been stored, a message and a key are opened or refused, and a read returns or fails as the
service reports, unless it comes upon a value that cannot be shown or compared, or upon more data than the
cipher takes. This is so of a read that nothing disturbs, of one with anything happening while it waits, and
of every read that a service ends. -/
theorem reads_fail_as_reported (hAccepted : ∀ now o, asked now o → o.Accepted)
    (h : Lived service Config.Valid asked s) :
    (∀ read bs key aad, key.length = Gcm.keyLength →
      (FailsAs IsOpening (Cose.Encrypted.decode bs key aad read) ↔
        ∀ fault, ¬ Cose.Encrypted.BreaksIn read bs aad fault)) ∧
    (∀ read bs, FailsAs IsMalformed (Cose.SecretKey.unwrap bs read) ↔
      ∀ fault, ¬ Cose.SecretKey.Breaks read bs fault) ∧
    (∀ read answer random caller path input,
      FailsAs IsReported (Outcome.run answer random s.world
        (encryptedSetting caller path input s.world read)).2 ↔
      ∀ fault, ¬ Trips read (fun q reply => reply = answer q) s.world.tables caller (path.toKey caller) fault) ∧
    (∀ read given caller path input, (encryptedSetting caller path input s.world read).EachGiven given
      (fun w _ r => Healthy w.tables → FailsAs (OrBreakdown IsReported
        (Escapes read given s.world.tables w.tables caller (path.toKey caller))) r) s.world) ∧
    ∀ e c now caller path input, (s.step service e).2 = some c →
      c.task = .operation now (.encryptedSetting caller path input) →
        FailsAs (OrBreakdown IsReported (EscapesBegun service asked caller path s.world.tables)) c.result := by
  refine ⟨?_, ?_, ?_, ?_, ?_⟩
  · intro read bs key aad hKey
    refine failsAs_iff_not (Cose.Encrypted.failsAs_decode read bs hKey aad) Failure.not_isOpening_breakdown ?_
    exact fun fault => Cose.Encrypted.decode_of_breaksIn hKey
  · intro read bs
    refine failsAs_iff_not (Cose.SecretKey.failsAs_unwrap read bs) ?_ fun fault => Cose.SecretKey.unwrap_of_breaks
    exact fun fault hMalformed => Failure.not_isOpening_breakdown fault (.inl hMalformed)
  · intro read answer random caller path input
    have hHealthy := h.healthy hAccepted
    have hConfined := confined_encryptedSetting read (fun q reply => reply = answer q) caller path input hHealthy
    have hFails := (hConfined.run random hHealthy).mono fun why hWhy =>
      hWhy.mono (fun _ => id) fun _ => Escapes.trips
    refine failsAs_iff_not hFails (fun _ => id) fun fault hTrips => ?_
    rw [run_of_trips hTrips]
  · intro read given caller path input
    exact confined_encryptedSetting read given caller path input (h.healthy hAccepted)
  · intro e c now caller path input hEnded hTask
    have hHeeds := h.heeds fun s task hLived => hLived.confines hAccepted task
    have hStep := heeds_step hHeeds (s.given_of_any e) fun _ task _ => h.confines hAccepted task
    have hEnds := hStep.2 c hEnded
    rw [hTask] at hEnds
    exact hEnds (h.healthy hAccepted)

namespace Sample

/-- The algorithm is the first number that cannot be shown. -/
def hostileHeader : Cbor.Entries := [(.int Cose.algorithmLabel, .int Cbor.Value.unprintable)]

def hostile : Cose.Encrypted where
  headerOctets := Cbor.encode (.map false hostileHeader)
  header := hostileHeader
  unprotected := [(.int Cose.nonceLabel, .bytes exchangeNonce)]
  ciphertext := []

def hostileOctets : Bytes := Cbor.encode hostile.item

theorem length_minimal_unprintable : (Der.minimal Cbor.Value.unprintable).length ≤ 1800 :=
  Der.length_minimal_le (by decide +kernel)

theorem restorable_hostileHeader :
    Cbor.Restorable false Cbor.maxNesting (.map false hostileHeader) := by
  refine .map (by decide) (List.pairwise_singleton _ _) ?_ ?_
  · simp only [hostileHeader, List.forall_mem_singleton]
    exact .int (by decide) (by decide)
  · simp only [hostileHeader, List.forall_mem_singleton]
    exact .wide (by decide +kernel) (length_minimal_unprintable.trans (by decide))

theorem length_headerOctets_hostile : hostile.headerOctets.length ≤ 2000 := by
  have hNumber := length_minimal_unprintable
  have hWide := Cbor.encode_wide (show 2 ^ 64 ≤ Cbor.Value.unprintable by decide +kernel)
  have hValue := congrArg List.length hWide
  have hLabel : (Cbor.encodeInt Cose.algorithmLabel).length = 1 := by decide
  have hMap := Cbor.length_head_le 5 1
  have hTag := Cbor.length_head_le 6 2
  have hBytes := Cbor.length_head_le 2 (Der.minimal Cbor.Value.unprintable).length
  simp only [Cbor.encode, Cbor.encodeBytes, List.length_append] at hValue
  simp only [hostile, hostileHeader, Cbor.encode, Cbor.encodeEntries, List.length_append,
    List.length_singleton, List.append_nil]
  omega

theorem parse_hostileOctets : Cose.Encrypted.parse hostileOctets = .ok hostile := by
  have hNonce : exchangeNonce.length ≤ Cbor.maxLength := by decide
  have hLimit : 2000 ≤ Cbor.maxLength := by decide
  have hItem : Cbor.Restorable false Cbor.maxNesting hostile.item := by
    refine .list (by decide) ?_
    simp only [List.forall_mem_cons]
    refine ⟨.bytes (length_headerOctets_hostile.trans hLimit), ?_, .bytes (by decide), nofun⟩
    refine .map (by decide) (List.pairwise_singleton _ _) ?_ ?_
    · simp only [hostile, List.forall_mem_singleton]
      exact .int (by decide) (by decide)
    · simp only [hostile, List.forall_mem_singleton]
      exact .bytes hNonce
  have hHeader := restorable_hostileHeader.decode_encode
  exact Cose.Encrypted.parse_iff_written.mpr ⟨⟨_, .inl rfl, hItem.decode_encode⟩, .inr ⟨[], hHeader⟩⟩

theorem hostileOctets_break (aad : Bytes) :
    Cose.Encrypted.BreaksIn Cbor.decode hostileOctets aad .numberTooLong := by
  have hAlgorithm : hostile.algorithm = .int Cbor.Value.unprintable := by
    rw [Cose.Encrypted.algorithm, hostile, hostileHeader, Cbor.Value.lookup_first, Option.getD_some]
  have hNonce : hostile.nonce = .bytes exchangeNonce := by
    rw [Cose.Encrypted.nonce, Cose.Encrypted.label?, hostile, Cbor.Value.lookup_first, Option.getD_some]
  refine ⟨hostile, parse_hostileOctets, .numberTooLong ⟨exchangeNonce, hNonce, rfl⟩ ?_ ?_⟩
  · rw [hAlgorithm, Cbor.Value.isInt, Cbor.Value.same_int, beq_eq_false_iff_ne]
    decide +kernel
  · rw [hAlgorithm, Cbor.Value.isPrintable, Int.natAbs_natCast]
    exact decide_eq_false (Nat.lt_irrefl _)

/-- The fraction of an exponent `N` and a mantissa 0 under label 1. There are decoders that read it as a
signalling decimal. -/
def signallingOctets : Bytes := [0xA1, 0x01, 0xC4, 0x82, 0x61, 0x4E, 0x00]

def signallingHeader : Cbor.Entries := [(.int 1, .special (.notANumber true false 0))]

def signallingReader : Cbor.Decoder := fun bs =>
  if bs = signallingOctets then .ok (.map false signallingHeader, []) else Cbor.decode bs

/-- A message with such a header. -/
def signallingMessage : Bytes :=
  [0x83, 0x47] ++ signallingOctets ++ [0xA1, 0x05, 0x4C] ++ exchangeNonce ++ [0x40]

theorem signallingMessage_breaks (aad : Bytes) :
    Cose.Encrypted.BreaksIn signallingReader signallingMessage aad .signalled := by
  refine ⟨⟨signallingOctets, signallingHeader, [(.int 5, .bytes exchangeNonce)], []⟩, rfl, ?_⟩
  refine .signalled ⟨exchangeNonce, ?_, rfl⟩ ?_
  · rw [Cose.Encrypted.nonce, Cose.Encrypted.label?, Cose.nonceLabel, Cbor.Value.lookup_first, Option.getD_some]
  · rw [Cose.Encrypted.algorithm, Cose.algorithmLabel, signallingHeader, Cbor.Value.lookup_first,
      Option.getD_some]
    rfl

section Stored

variable {payload dataKey : Bytes}

theorem trips_of_breaksIn {fault : Breakdown}
    (h : ∀ aad, Cose.Encrypted.BreaksIn Cbor.decode dataKey aad fault) :
    Trips Cbor.decode (fun q reply => reply = answers q) (storedTables payload dataKey) owner
      ((path 0).toKey owner) fault :=
  .stored ⟨rfl, rfl⟩ rfl rfl rfl ⟨_, rfl, rfl⟩ ⟨_, _, _, rfl, rfl, rfl, rfl⟩ (.dataKey (h _))

theorem trips_of_nameless {version : Int} (hBeyond : 1 < version)
    (hNameless : (Json.int version).isPrintable = false) :
    Trips Cbor.decode (fun q reply => reply = answers q) (storedTables payload dataKey) owner
      ((path version).toKey owner) .numberTooLong := by
  refine .named ⟨rfl, rfl⟩ hNameless (.live (.version (s := firstRow payload dataKey) rfl ?_ ?_))
  · exact ⟨_, rfl, .inl rfl⟩
  · exact (Json.less_int 1 version).trans (congrArg _ (decide_eq_true hBeyond))

end Stored

def emptyOctets : Bytes := [0x83, 0x40, 0xA0, 0x40]

/-- The owner stores a key of his own making, and then cannot read the setting; neither can he at a version
that is too long for the refusal. With another decoder there is a message that cannot be compared. -/
theorem hostile_key_crashes_read :
    (∀ now o, (fun _ o => Operation.Accepted o) (now : Int) o → o.Accepted) ∧
      Lived owner Config.Valid (fun _ o => o.Accepted) (stored emptyOctets hostileOctets) ∧
      (∀ version : Int, version = 0 ∨ version = Cbor.Value.unprintable →
        ¬ FailsAs IsReported (Outcome.run answers (fun _ => octets) (stored emptyOctets hostileOctets).world
          (encryptedSetting owner (path version) ownRequest (stored emptyOctets hostileOctets).world)).2) ∧
      octets.length = Gcm.keyLength ∧
      ¬ FailsAs IsOpening (Cose.Encrypted.decode signallingMessage octets [] signallingReader) := by
  have hAccepted : ∀ now o, (fun _ o => Operation.Accepted o) (now : Int) o → o.Accepted :=
    fun _ _ h => h
  -- The octets play no part beyond this, and are too many to be looked at.
  have hCrashes {dataKey : Bytes} (hParsed : ∃ m, Cose.Encrypted.parse dataKey = .ok m) {version : Int}
      (hTrips : Trips Cbor.decode (fun q reply => reply = answers q) (storedTables emptyOctets dataKey) owner
        ((path version).toKey owner) .numberTooLong) :
      ¬ FailsAs IsReported (Outcome.run answers (fun _ => octets) (stored emptyOctets dataKey).world
        (encryptedSetting owner (path version) ownRequest (stored emptyOctets dataKey).world)).2 := by
    have hTables := @tables_stored emptyOctets dataKey (by decide) ⟨⟨[], [], [], []⟩, rfl⟩ hParsed
    obtain ⟨-, -, hReads, -⟩ := reads_fail_as_reported hAccepted (@stored_lived emptyOctets dataKey)
    rw [hReads, hTables]
    exact fun hNone => hNone _ hTrips
  have hParsed : ∃ m, Cose.Encrypted.parse hostileOctets = .ok m := ⟨hostile, parse_hostileOctets⟩
  refine ⟨hAccepted, stored_lived, ?_, rfl, ?_⟩
  · rintro version (rfl | rfl)
    · exact hCrashes hParsed (trips_of_breaksIn hostileOctets_break)
    · exact hCrashes hParsed (trips_of_nameless (by decide +kernel) Json.isPrintable_unprintable)
  · obtain ⟨hMessages, -⟩ := reads_fail_as_reported hAccepted (@stored_lived emptyOctets hostileOctets)
    rw [hMessages signallingReader signallingMessage octets [] rfl]
    exact fun hNone => hNone _ (signallingMessage_breaks [])

end Sample

end Server

end TenantVault
