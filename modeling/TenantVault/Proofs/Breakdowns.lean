import TenantVault.Proofs.Formats

/-! # Messages and keys of any kind

What a message or a key holds is only looked at when it is opened, and it may be anything then. It is refused
as malformed or not authentic, with three exceptions: a value that is to be shown in the refusal holds a
number that is too long for that, a decimal refuses to be compared, or there is more data than the cipher
takes. All of this is about items, so it holds whatever decoder has read them.
-/

namespace TenantVault

/-! ## Failures that are reported -/

namespace Failure

/-- Failures that the service reports as its own; the others come out of a lower layer as they are. -/
def IsReported : Failure → Prop
  | fields _ | value _ | unconfigured _ | unhashable _ | breakdown _ => False
  | _ => True

def IsOpening (why : Failure) : Prop := why.IsMalformed ∨ ∃ fault, why = .crypto fault

/-- Failures of some kind, and breakdowns for which there is a reason. -/
def OrBreakdown (kind : Failure → Prop) (breaks : Breakdown → Prop) (why : Failure) : Prop :=
  kind why ∨ ∃ fault, why = .breakdown fault ∧ breaks fault

variable {why : Failure} {kind kind' : Failure → Prop} {breaks breaks' : Breakdown → Prop}
  {fault : Breakdown}

theorem IsMalformed.isReported (h : why.IsMalformed) : why.IsReported := by
  obtain ⟨fault, rfl⟩ := h
  trivial

theorem IsOpening.isReported (h : why.IsOpening) : why.IsReported := by
  rcases h with hMalformed | ⟨fault, rfl⟩
  · exact hMalformed.isReported
  · trivial

theorem not_isOpening_breakdown (fault : Breakdown) : ¬ IsOpening (.breakdown fault) := by
  rintro (⟨_, hSame⟩ | ⟨_, hSame⟩) <;> cases hSame

theorem isReported_request (q : Request) (refusal : Refusal) : (q.failure refusal).IsReported := by
  cases refusal <;> trivial

theorem orBreakdown_of_breaks (h : breaks fault) : OrBreakdown kind breaks (.breakdown fault) :=
  .inr ⟨fault, rfl, h⟩

theorem OrBreakdown.mono (h : why.OrBreakdown kind breaks) (hKind : ∀ why, kind why → kind' why)
    (hBreaks : ∀ fault, breaks fault → breaks' fault) : why.OrBreakdown kind' breaks' := by
  rcases h with hWhy | ⟨fault, rfl, hFault⟩
  · exact .inl (hKind why hWhy)
  · exact orBreakdown_of_breaks (hBreaks fault hFault)

/-- What shows a value fails as it should, unless there is no printed form of the value. -/
theorem showing_orBreakdown {shown : Json} (hWhy : why.OrBreakdown kind breaks)
    (hLong : shown.isPrintable = false → breaks .numberTooLong) :
    (showing shown why).OrBreakdown kind breaks := by
  cases hShown : shown.isPrintable with
  | true =>
    rw [showing_of_isPrintable hShown]
    exact hWhy
  | false =>
    rw [showing_of_not_isPrintable hShown]
    exact orBreakdown_of_breaks (hLong hShown)

theorem naming_orBreakdown {key : SettingKey} (hWhy : why.OrBreakdown kind breaks)
    (hLong : (Json.int key.version).isPrintable = false → breaks .numberTooLong) :
    (naming key why).OrBreakdown kind breaks := showing_orBreakdown hWhy hLong

end Failure

open Failure (IsReported IsOpening IsMalformed OrBreakdown)

section Failing

variable {α β : Type} {r : Result α} {kind : Failure → Prop} {breaks : Breakdown → Prop}

theorem FailsAs.orBreakdown {kind' : Failure → Prop} (h : FailsAs kind r)
    (hKind : ∀ why, kind why → kind' why) : FailsAs (OrBreakdown kind' breaks) r :=
  h.mono fun why hWhy => .inl (hKind why hWhy)

theorem FailsAs.map (h : FailsAs kind r) (f : α → β) : FailsAs kind (r.map f) :=
  fun why hFails => h why ((map_eq_error_iff f r why).mp hFails)

/-- If whatever can break down does so, only failures of the kind are left exactly if nothing can. -/
theorem failsAs_iff_not (h : FailsAs (OrBreakdown kind breaks) r) (hKind : ∀ fault, ¬ kind (.breakdown fault))
    (hBreaks : ∀ fault, breaks fault → r = .error (.breakdown fault)) :
    FailsAs kind r ↔ ∀ fault, ¬ breaks fault := by
  constructor
  · intro hFails fault hFault
    exact hKind fault (hFails _ (hBreaks fault hFault))
  · intro hNone
    refine h.mono fun why hWhy => hWhy.resolve_right ?_
    rintro ⟨fault, -, hFault⟩
    exact hNone fault hFault

end Failing

/-! ## Sealed texts -/

namespace Sealed

variable {key nonce aad sealed plain : Bytes}

/-- A sealed text that has a tag, with more data than the cipher takes. -/
structure TooLong (aad sealed : Bytes) : Prop where
  tagged : Gcm.tagLength ≤ sealed.length
  unfit : ¬ Fits aad sealed

theorem decrypt_of_tooLong (hKey : key.length = Gcm.keyLength) (hNonce : nonce.length = Gcm.nonceLength)
    (h : TooLong aad sealed) : decrypt key nonce aad sealed = .error (.breakdown .dataTooLong) := by
  have hTagged : ¬ sealed.length < Gcm.tagLength := Nat.not_lt.mpr h.tagged
  unfold decrypt
  rw [checkLengths_eq_ok_iff.mpr ⟨hKey, hNonce⟩, checkSizes_of_not_fits h.unfit]
  simp only [bind, Except.bind, hTagged, if_false]

theorem failsAs_decrypt (hKey : key.length = Gcm.keyLength) (hNonce : nonce.length = Gcm.nonceLength)
    (aad sealed : Bytes) :
    FailsAs (OrBreakdown (fun why => ∃ fault, why = .crypto fault)
      fun fault => fault = .dataTooLong ∧ TooLong aad sealed) (decrypt key nonce aad sealed) := by
  by_cases hLong : TooLong aad sealed
  · rw [decrypt_of_tooLong hKey hNonce hLong]
    exact failsAs_error (Failure.orBreakdown_of_breaks ⟨rfl, hLong⟩)
  · unfold decrypt
    rw [checkLengths_eq_ok_iff.mpr ⟨hKey, hNonce⟩]
    dsimp only [bind, Except.bind]
    split
    · exact failsAs_error (.inl ⟨_, rfl⟩)
    · next hTagged =>
      have hFits : Fits aad sealed := by
        by_contra hUnfit
        exact hLong ⟨Nat.not_lt.mp hTagged, hUnfit⟩
      dsimp only [pure, Except.pure]
      rw [checkSizes_of_fits hFits]
      dsimp only
      split
      · exact failsAs_ok _
      · exact failsAs_error (.inl ⟨_, rfl⟩)

theorem length_of_decrypt (h : decrypt key nonce aad sealed = .ok plain) : plain.length ≤ maxLength := by
  unfold decrypt at h
  simp only [bind_eq_ok_iff, exists_unit_iff] at h
  obtain ⟨-, h⟩ := h
  split at h
  · cases h
  · simp only [bind_eq_ok_iff, exists_unit_iff, checkSizes_eq_ok_iff] at h
    obtain ⟨hFits, h⟩ := h
    split at h
    · next text hText =>
      cases h
      unfold Gcm.decrypt? at hText
      dsimp only at hText
      split at hText
      · cases hText
        rw [Gcm.length_crypt, List.length_take]
        exact (Nat.min_le_right _ _).trans hFits.1
      · cases hText
    · cases h

end Sealed

/-! ## Messages -/

namespace Cose

theorem unsupported_orBreakdown {v : Cbor.Value} {breaks : Breakdown → Prop}
    (hSignals : v.signals = true → breaks .signalled)
    (hLong : v.isPrintable = false → breaks .numberTooLong)
    (cause : String → Malformation) (shown : String) :
    (unsupported cause v shown).OrBreakdown IsMalformed breaks := by
  unfold unsupported
  cases hCompared : v.signals with
  | true => exact Failure.orBreakdown_of_breaks (hSignals hCompared)
  | false =>
    unfold refused
    cases hShown : v.isPrintable with
    | true => exact .inl ⟨_, rfl⟩
    | false => exact Failure.orBreakdown_of_breaks (hLong hShown)

theorem unsupported_of_signals {v : Cbor.Value} (h : v.signals = true) (cause : String → Malformation)
    (shown : String) : unsupported cause v shown = .breakdown .signalled := by
  rw [unsupported, h, if_pos rfl]

theorem unsupported_of_not_isPrintable {v : Cbor.Value} (h : v.isPrintable = false)
    (cause : String → Malformation) (shown : String) :
    unsupported cause v shown = .breakdown .numberTooLong := by
  rw [unsupported, Cbor.Value.signals_of_not_isPrintable h, if_neg Bool.false_ne_true, refused, h,
    if_neg Bool.false_ne_true]

theorem isInt_of_signals {v : Cbor.Value} (h : v.signals = true) (n : Int) : v.isInt n = false := by
  cases v with
  | special d =>
    simp [Cbor.Value.isInt, Cbor.Value.same, Cbor.Value.sameNumber, Cbor.Value.integer?,
      Cbor.Value.exactValue?]
  | _ => cases h

theorem isNull_of_signals {v : Cbor.Value} (h : v.signals = true) : v.isNull = false := by
  cases v with
  | special d => rfl
  | _ => cases h

theorem isNull_of_not_isPrintable {v : Cbor.Value} (h : v.isPrintable = false) : v.isNull = false := by
  cases v with
  | null => cases h
  | _ => rfl

namespace Encrypted

variable {read : Cbor.Decoder} {m : Encrypted} {bs key aad plain : Bytes} {fault : Breakdown}

def HasNonce (m : Encrypted) : Prop := ∃ nonce, m.nonce = .bytes nonce ∧ nonce.length = Gcm.nonceLength

/-- Why opening a message breaks down. Its nonce is as it has to be; then its algorithm cannot be compared, or it
is none that is supported and cannot be shown, or it is supported and the ciphertext is too long. -/
inductive Breaks (m : Encrypted) (aad : Bytes) : Breakdown → Prop
  | signalled (nonce : m.HasNonce) (signals : m.algorithm.signals = true) : m.Breaks aad .signalled
  | numberTooLong (nonce : m.HasNonce) (other : m.algorithm.isInt aesGcm = false)
      (tooLong : m.algorithm.isPrintable = false) : m.Breaks aad .numberTooLong
  | dataTooLong (nonce : m.HasNonce)
      (supported : m.algorithm.isNull = true ∨ m.algorithm.isInt aesGcm = true)
      (tooLong : Sealed.TooLong (authenticated m.headerOctets aad) m.ciphertext) : m.Breaks aad .dataTooLong

/-- Why opening a string breaks down, as read by some decoder. -/
def BreaksIn (read : Cbor.Decoder) (bs aad : Bytes) (fault : Breakdown) : Prop :=
  ∃ m, parse bs read = .ok m ∧ m.Breaks aad fault

theorem decrypt_of_nonce {nonce : Bytes} (hNonce : m.nonce = .bytes nonce)
    (hLength : nonce.length = Gcm.nonceLength) (key aad : Bytes) :
    m.decrypt key aad =
      if !m.algorithm.isNull && !m.algorithm.isInt aesGcm then
        .error (Cose.unsupported .encryptionAlgorithm m.algorithm m.algorithm.display)
      else Sealed.decrypt key nonce (authenticated m.headerOctets aad) m.ciphertext := by
  unfold decrypt
  rw [hNonce]
  dsimp only
  rw [if_pos hLength]
  rfl

theorem failsAs_decrypt (m : Encrypted) (hKey : key.length = Gcm.keyLength) (aad : Bytes) :
    FailsAs (OrBreakdown IsOpening (m.Breaks aad)) (m.decrypt key aad) := by
  have hOther {size : Nat} : OrBreakdown IsOpening (m.Breaks aad) (.malformed (.nonceLength size)) :=
    .inl (.inl ⟨_, rfl⟩)
  by_cases hNonce : m.HasNonce
  · obtain ⟨nonce, hBytes, hLength⟩ := id hNonce
    rw [decrypt_of_nonce hBytes hLength]
    split
    · next hAlgorithm =>
      simp only [Bool.and_eq_true, Bool.not_eq_true'] at hAlgorithm
      refine failsAs_error ((unsupported_orBreakdown ?_ ?_ _ _).mono (fun _ => .inl) fun _ => id)
      · exact .signalled hNonce
      · exact fun hLong => .numberTooLong hNonce hAlgorithm.2 hLong
    · next hAlgorithm =>
      have hSupported : m.algorithm.isNull = true ∨ m.algorithm.isInt aesGcm = true := by
        simpa only [Bool.and_eq_true, Bool.not_eq_true', not_and_or, Bool.not_eq_false] using hAlgorithm
      refine (Sealed.failsAs_decrypt hKey hLength _ _).mono fun why hWhy => ?_
      refine hWhy.mono (fun _ => .inr) ?_
      rintro _ ⟨rfl, hLong⟩
      exact .dataTooLong hNonce hSupported hLong
  · unfold decrypt
    dsimp only
    split
    · next bs hBytes =>
      rw [if_neg fun hLength => hNonce ⟨bs, hBytes, hLength⟩]
      exact failsAs_error hOther
    · exact failsAs_error hOther

theorem decrypt_of_breaks (hKey : key.length = Gcm.keyLength) (h : m.Breaks aad fault) :
    m.decrypt key aad = .error (.breakdown fault) := by
  cases h with
  | signalled nonce signals =>
    obtain ⟨nonce, hBytes, hLength⟩ := nonce
    rw [decrypt_of_nonce hBytes hLength, isNull_of_signals signals, isInt_of_signals signals,
      unsupported_of_signals signals]
    rfl
  | numberTooLong nonce other tooLong =>
    obtain ⟨nonce, hBytes, hLength⟩ := nonce
    rw [decrypt_of_nonce hBytes hLength, isNull_of_not_isPrintable tooLong, other,
      unsupported_of_not_isPrintable tooLong]
    rfl
  | dataTooLong nonce supported tooLong =>
    obtain ⟨nonce, hBytes, hLength⟩ := nonce
    have hSupported : ¬ (!m.algorithm.isNull && !m.algorithm.isInt aesGcm) = true := by
      simpa only [Bool.and_eq_true, Bool.not_eq_true', not_and_or, Bool.not_eq_false] using supported
    rw [decrypt_of_nonce hBytes hLength, if_neg hSupported]
    exact Sealed.decrypt_of_tooLong hKey hLength tooLong

theorem length_of_decrypt (h : m.decrypt key aad = .ok plain) : plain.length ≤ Sealed.maxLength := by
  by_cases hNonce : m.HasNonce
  · obtain ⟨nonce, hBytes, hLength⟩ := hNonce
    rw [decrypt_of_nonce hBytes hLength] at h
    split at h
    · cases h
    · exact Sealed.length_of_decrypt h
  · unfold decrypt at h
    dsimp only at h
    split at h
    · next bs hBytes =>
      rw [if_neg fun hLength => hNonce ⟨bs, hBytes, hLength⟩] at h
      cases h
    · cases h

theorem failsAs_decode (read : Cbor.Decoder) (bs : Bytes) (hKey : key.length = Gcm.keyLength) (aad : Bytes) :
    FailsAs (OrBreakdown IsOpening (BreaksIn read bs aad)) (decode bs key aad read) := by
  refine FailsAs.bind ((failsAs_parse bs read).orBreakdown fun _ => .inl) fun m hParsed => ?_
  refine (failsAs_decrypt m hKey aad).mono fun why hWhy => ?_
  exact hWhy.mono (fun _ => id) fun fault hBreaks => ⟨m, hParsed, hBreaks⟩

theorem decode_of_breaksIn (hKey : key.length = Gcm.keyLength) (h : BreaksIn read bs aad fault) :
    decode bs key aad read = .error (.breakdown fault) := by
  obtain ⟨m, hParsed, hBreaks⟩ := h
  unfold decode
  rw [hParsed]
  exact decrypt_of_breaks hKey hBreaks

theorem length_of_decode (h : decode bs key aad read = .ok plain) : plain.length ≤ Sealed.maxLength := by
  simp only [decode, bind_eq_ok_iff] at h
  obtain ⟨m, -, hOpened⟩ := h
  exact length_of_decrypt hOpened

/-- A text that fits is only refused for a key or nonce of another length. -/
theorem failsAs_encode {plaintext : Bytes} (hFits : Sealed.Fits (authenticated standardHeader aad) plaintext)
    (key nonce : Bytes) (keyId : Option Bytes) :
    FailsAs (fun why => ∃ fault, why = .argument fault) (encode plaintext key aad nonce keyId) := by
  by_cases hLengths : key.length = Gcm.keyLength ∧ nonce.length = Gcm.nonceLength
  · obtain ⟨bs, hWritten⟩ := exists_encode hLengths.1 hLengths.2 hFits keyId
    rw [hWritten]
    exact failsAs_ok bs
  · obtain ⟨fault, hRefused⟩ := encode_of_lengths hLengths
    rw [hRefused]
    exact failsAs_error ⟨fault, rfl⟩

end Encrypted

/-! ## Keys -/

namespace SecretKey

variable {read : Cbor.Decoder} {bs secret : Bytes} {fault : Breakdown}

def typeOf (entries : Cbor.Entries) : Cbor.Value :=
  (Cbor.Value.lookup (.int typeLabel) entries).getD .null

/-- Why unwrapping a key breaks down: its type cannot be compared, or is none that is supported and cannot be
shown. -/
inductive Breaks (read : Cbor.Decoder) (bs : Bytes) : Breakdown → Prop
  | signalled {entries : Cbor.Entries} (decoded : decodeFirst .key bs read = .ok (.map false entries))
      (signals : (typeOf entries).signals = true) : Breaks read bs .signalled
  | numberTooLong {entries : Cbor.Entries}
      (decoded : decodeFirst .key bs read = .ok (.map false entries))
      (other : secretLabel? (typeOf entries) = none)
      (tooLong : (typeOf entries).isPrintable = false) : Breaks read bs .numberTooLong

theorem secretLabel?_of_signals {type : Cbor.Value} (h : type.signals = true) : secretLabel? type = none := by
  simp only [secretLabel?, isInt_of_signals h, Bool.or_self, Bool.false_eq_true, if_false]

theorem failsAs_unwrap (read : Cbor.Decoder) (bs : Bytes) :
    FailsAs (OrBreakdown IsMalformed (Breaks read bs)) (unwrap bs read) := by
  unfold unwrap
  refine FailsAs.bind ((failsAs_decodeFirst _ bs read).orBreakdown fun _ => id) fun v hDecoded => ?_
  split
  · next entries =>
    dsimp only
    split
    · next hType =>
      refine failsAs_error (unsupported_orBreakdown ?_ ?_ _ _)
      · exact .signalled hDecoded
      · exact fun hLong => .numberTooLong hDecoded hType hLong
    · split
      · exact failsAs_error (.inl ⟨_, rfl⟩)
      · exact failsAs_error (.inl ⟨_, rfl⟩)
      · split
        · exact failsAs_ok _
        · exact failsAs_error (.inl ⟨_, rfl⟩)
      · exact failsAs_error (.inl ⟨_, rfl⟩)
  · exact failsAs_error (.inl ⟨_, rfl⟩)

theorem unwrap_of_unsupported {entries : Cbor.Entries}
    (hDecoded : decodeFirst .key bs read = .ok (.map false entries))
    (hType : secretLabel? (typeOf entries) = none) :
    unwrap bs read = .error (unsupported .keyType (typeOf entries) (typeOf entries).inspect) := by
  unfold unwrap
  rw [hDecoded]
  dsimp only [bind, Except.bind]
  rw [typeOf] at hType ⊢
  rw [hType]
  rfl

theorem unwrap_of_breaks (h : Breaks read bs fault) : unwrap bs read = .error (.breakdown fault) := by
  cases h with
  | signalled decoded signals =>
    rw [unwrap_of_unsupported decoded (secretLabel?_of_signals signals), unsupported_of_signals signals]
  | numberTooLong decoded other tooLong =>
    rw [unwrap_of_unsupported decoded other, unsupported_of_not_isPrintable tooLong]

theorem length_of_unwrap (h : unwrap bs read = .ok secret) : secret.length = secretLength := by
  simp only [unwrap, bind_eq_ok_iff] at h
  obtain ⟨v, -, hRead⟩ := h
  repeat' split at hRead
  all_goals cases hRead
  assumption

end SecretKey

end Cose

end TenantVault
