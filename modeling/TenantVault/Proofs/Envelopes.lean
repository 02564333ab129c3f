import TenantVault.Cose.SecretKey
import TenantVault.Proofs.Access
import TenantVault.Proofs.Items

/-! # Messages and keys that are opened again

What has been encrypted under a key is read with the same key, nonce and outer data, and a secret that has
been wrapped is unwrapped again.
-/

namespace TenantVault

open Cbor (Restorable maxLength maxNesting)

namespace Sealed

variable {key nonce aad data : Bytes}

/-- The cipher takes the data and what its tag covers besides. -/
def Fits (aad data : Bytes) : Prop := data.length ≤ maxLength ∧ aad.length ≤ maxLength

theorem checkLengths_eq_ok_iff : checkLengths key nonce = .ok () ↔
    key.length = Gcm.keyLength ∧ nonce.length = Gcm.nonceLength := by
  unfold checkLengths
  split
  · next hKey => exact ⟨nofun, fun h => (hKey h.1).elim⟩
  · next hKey =>
    split
    · next hNonce => exact ⟨nofun, fun h => (hNonce h.2).elim⟩
    · next hNonce =>
      exact ⟨fun _ => ⟨Decidable.of_not_not hKey, Decidable.of_not_not hNonce⟩, fun _ => rfl⟩

theorem checkLengths_of_not (h : ¬ (key.length = Gcm.keyLength ∧ nonce.length = Gcm.nonceLength)) :
    ∃ fault, checkLengths key nonce = .error (.argument fault) := by
  unfold checkLengths
  split
  · exact ⟨_, rfl⟩
  · next hKey =>
    split
    · exact ⟨_, rfl⟩
    · next hNonce => exact (h ⟨Decidable.of_not_not hKey, Decidable.of_not_not hNonce⟩).elim

theorem checkSizes_of_fits (h : Fits aad data) : checkSizes aad data = .ok () := by
  rw [checkSizes, if_neg]
  rintro (hLong | hLong)
  · exact Nat.not_lt.mpr h.1 hLong
  · exact Nat.not_lt.mpr h.2 hLong

theorem checkSizes_of_not_fits (h : ¬ Fits aad data) :
    checkSizes aad data = .error (.breakdown .dataTooLong) := by
  rw [checkSizes, if_pos]
  by_contra hShort
  rw [not_or, Nat.not_lt, Nat.not_lt] at hShort
  exact h hShort

theorem checkSizes_eq_ok_iff : checkSizes aad data = .ok () ↔ Fits aad data := by
  refine ⟨fun hChecked => ?_, checkSizes_of_fits⟩
  by_contra hLong
  rw [checkSizes_of_not_fits hLong] at hChecked
  cases hChecked

end Sealed

namespace Cose.Encrypted

/-- The message that a text is encrypted into. -/
def message (plaintext key aad nonce : Bytes) (keyId : Option Bytes) : Encrypted where
  headerOctets := standardHeader
  header := [(.int algorithmLabel, .int aesGcm)]
  unprotected := (.int nonceLabel, .bytes nonce) ::
    match keyId with
    | some id => [(.int keyIdLabel, .bytes id)]
    | none => []
  ciphertext := Gcm.encrypt key nonce (authenticated standardHeader aad) plaintext

/-- A message without its mark. -/
def item (m : Encrypted) : Cbor.Value :=
  .list false [.bytes m.headerOctets, .map false m.unprotected, .bytes m.ciphertext]

section Sealing

variable {plaintext key aad nonce bs : Bytes} {keyId : Option Bytes}

theorem encode_eq_ok_iff : encode plaintext key aad nonce keyId = .ok bs ↔
    (key.length = Gcm.keyLength ∧ nonce.length = Gcm.nonceLength) ∧
      Sealed.Fits (authenticated standardHeader aad) plaintext ∧
      bs = mark :: Cbor.encode (message plaintext key aad nonce keyId).item := by
  simp only [encode, Sealed.encrypt, bind_eq_ok_iff, exists_unit_iff, Sealed.checkLengths_eq_ok_iff,
    Sealed.checkSizes_eq_ok_iff, pure_eq_ok_iff]
  constructor
  · rintro ⟨_, ⟨hLengths, hFits, rfl⟩, rfl⟩
    exact ⟨hLengths, hFits, rfl⟩
  · rintro ⟨hLengths, hFits, rfl⟩
    exact ⟨_, ⟨hLengths, hFits, rfl⟩, rfl⟩

theorem length_authenticated_le (octets aad : Bytes) :
    (authenticated octets aad).length ≤ 44 + octets.length + aad.length := by
  have hCount := Cbor.length_head_le 4 3
  have hTag : (Bytes.ofText "Encrypt0").length = 8 := Bytes.length_ofText _
  have hName := Cbor.length_head_le 3 8
  have hOctets := Cbor.length_head_le 2 octets.length
  have hOuter := Cbor.length_head_le 2 aad.length
  simp only [authenticated, Cbor.encode_list, Cbor.encodeItems_cons, Cbor.encodeItems_nil,
    Cbor.encode_text, Cbor.encode_bytes, hTag, List.length_append, List.length_cons, List.length_nil,
    Nat.zero_add, Nat.reduceAdd]
  omega

/-- A principal stands in the outer data of any message. -/
theorem fits_principal (p : Principal) (hText : plaintext.length ≤ Sealed.maxLength) :
    Sealed.Fits (authenticated standardHeader p.raw) plaintext := by
  have hCovered := length_authenticated_le standardHeader p.raw
  have hHeader : standardHeader.length = 3 := rfl
  have hPrincipal := p.length_le
  refine ⟨hText, ?_⟩
  unfold Sealed.maxLength
  omega

theorem exists_encode (hKey : key.length = Gcm.keyLength) (hNonce : nonce.length = Gcm.nonceLength)
    (hFits : Sealed.Fits (authenticated standardHeader aad) plaintext) (keyId : Option Bytes) :
    ∃ bs, encode plaintext key aad nonce keyId = .ok bs :=
  ⟨_, encode_eq_ok_iff.mpr ⟨⟨hKey, hNonce⟩, hFits, rfl⟩⟩

theorem encode_of_lengths (h : ¬ (key.length = Gcm.keyLength ∧ nonce.length = Gcm.nonceLength)) :
    ∃ fault, encode plaintext key aad nonce keyId = .error (.argument fault) := by
  obtain ⟨fault, hRefused⟩ := Sealed.checkLengths_of_not h
  unfold encode Sealed.encrypt
  rw [hRefused]
  exact ⟨fault, rfl⟩

theorem encode_of_not_fits (hKey : key.length = Gcm.keyLength)
    (hNonce : nonce.length = Gcm.nonceLength)
    (hLong : ¬ Sealed.Fits (authenticated standardHeader aad) plaintext) (keyId : Option Bytes) :
    encode plaintext key aad nonce keyId = .error (.breakdown .dataTooLong) := by
  unfold encode Sealed.encrypt
  rw [Sealed.checkLengths_eq_ok_iff.mpr ⟨hKey, hNonce⟩, Sealed.checkSizes_of_not_fits hLong]
  rfl

theorem restorable_item (hText : plaintext.length + Gcm.tagLength ≤ maxLength)
    (hNonce : nonce.length = Gcm.nonceLength) (hId : ∀ id, keyId = some id → id.length ≤ maxLength) :
    Restorable false maxNesting (message plaintext key aad nonce keyId).item := by
  have hNonceFits : nonce.length ≤ maxLength := by
    rw [hNonce]
    decide
  have hUnprotected :
      Restorable false 399 (.map false (message plaintext key aad nonce keyId).unprotected) := by
    unfold message
    cases hKeyId : keyId with
    | none =>
      refine .map (by simp) (List.pairwise_singleton _ _) ?_ ?_
      · simp only [List.forall_mem_singleton]
        exact .int (by decide) (by decide)
      · simp only [List.forall_mem_singleton]
        exact .bytes hNonceFits
    | some id =>
      refine .map (by simp) ?_ ?_ ?_
      · simp [nonceLabel, keyIdLabel]
      · simp only [List.forall_mem_cons]
        exact ⟨.int (by decide) (by decide), .int (by decide) (by decide), nofun⟩
      · simp only [List.forall_mem_cons]
        exact ⟨.bytes hNonceFits, .bytes (hId id hKeyId), nofun⟩
  refine .list (by simp) ?_
  simp only [List.forall_mem_cons, message]
  exact ⟨.bytes (by decide), hUnprotected, .bytes (by rw [Gcm.length_encrypt]; exact hText), nofun⟩

theorem decodeHeader_standardHeader :
    decodeHeader standardHeader = .ok [(.int algorithmLabel, .int aesGcm)] := by
  have hHeader : Restorable false maxNesting (.map false [(.int algorithmLabel, .int aesGcm)]) := by
    refine .map (by decide) (List.pairwise_singleton _ _) ?_ ?_
    · simp only [List.forall_mem_singleton]
      exact .int (by decide) (by decide)
    · simp only [List.forall_mem_singleton]
      exact .int (by decide) (by decide)
  have hDecoded := hHeader.decode_encode
  unfold decodeHeader decodeFirst standardHeader
  rw [hDecoded]
  rfl

theorem parse_encode (h : encode plaintext key aad nonce keyId = .ok bs)
    (hId : ∀ id, keyId = some id → id.length ≤ maxLength) :
    parse bs = .ok (message plaintext key aad nonce keyId) := by
  obtain ⟨⟨-, hNonce⟩, ⟨hLength, -⟩, rfl⟩ := encode_eq_ok_iff.mp h
  have hLimits : Sealed.maxLength + Gcm.tagLength ≤ maxLength := by decide
  have hText : plaintext.length + Gcm.tagLength ≤ maxLength := by omega
  have hItem : Restorable false maxNesting (message plaintext key aad nonce keyId).item :=
    restorable_item hText hNonce hId
  have hDecoded := hItem.decode_encode
  unfold parse withoutMark
  dsimp only
  rw [if_pos rfl, decodeWhole, hDecoded]
  have hHeader := decodeHeader_standardHeader
  unfold item message
  simp only [List.isEmpty_nil, ↓reduceIte, bind, Except.bind, pure, Except.pure, hHeader]

theorem decrypt_message (hKey : key.length = Gcm.keyLength)
    (hNonce : nonce.length = Gcm.nonceLength)
    (hText : plaintext.length + Gcm.tagLength ≤ Sealed.maxLength)
    (hOuter : (authenticated standardHeader aad).length ≤ Sealed.maxLength) :
    (message plaintext key aad nonce keyId).decrypt key aad = .ok plaintext := by
  have hFound : (message plaintext key aad nonce keyId).nonce = .bytes nonce := by
    simp [Encrypted.nonce, label?, message]
  have hAlgorithm : (message plaintext key aad nonce keyId).algorithm = .int aesGcm := by
    simp [algorithm, message]
  have hLong : ¬ (message plaintext key aad nonce keyId).ciphertext.length < Gcm.tagLength := by
    simp [message]
  have hLength : (message plaintext key aad nonce keyId).ciphertext.length =
      plaintext.length + Gcm.tagLength := Gcm.length_encrypt ..
  have hFits : Sealed.checkSizes (authenticated standardHeader aad)
      (message plaintext key aad nonce keyId).ciphertext = .ok () :=
    Sealed.checkSizes_of_fits ⟨hLength ▸ hText, hOuter⟩
  have hOpened : Gcm.decrypt? key nonce (authenticated standardHeader aad)
      (message plaintext key aad nonce keyId).ciphertext = some plaintext :=
    Gcm.decrypt?_encrypt ..
  have hHeader : (message plaintext key aad nonce keyId).headerOctets = standardHeader := rfl
  unfold decrypt Sealed.decrypt
  rw [hFound, hAlgorithm, hHeader]
  simp only [hNonce, Cbor.Value.isInt, Cbor.Value.same_int, bind, Except.bind, pure, Except.pure,
    Sealed.checkLengths_eq_ok_iff.mpr ⟨hKey, hNonce⟩, hLong, hFits, hOpened, BEq.rfl, ↓reduceIte,
    Bool.not_true, Bool.and_false, Bool.false_eq_true]

/-- Whoever has the key and the outer data gets back what has been encrypted. -/
theorem decode_encode (h : encode plaintext key aad nonce keyId = .ok bs)
    (hText : plaintext.length + Gcm.tagLength ≤ Sealed.maxLength)
    (hId : ∀ id, keyId = some id → id.length ≤ maxLength) : decode bs key aad = .ok plaintext := by
  obtain ⟨⟨hKey, hNonce⟩, ⟨-, hOuter⟩, -⟩ := encode_eq_ok_iff.mp h
  unfold decode
  rw [parse_encode h hId]
  exact decrypt_message hKey hNonce hText hOuter

/-- A message is longer than each of its parts. -/
theorem length_le_of_encode (h : encode plaintext key aad nonce keyId = .ok bs) :
    plaintext.length + Gcm.tagLength ≤ bs.length ∧ ∀ id, keyId = some id → id.length ≤ bs.length := by
  obtain ⟨-, -, rfl⟩ := encode_eq_ok_iff.mp h
  constructor
  · simp only [item, message, Cbor.encode, Cbor.encodeItems, Cbor.encodeBytes, List.length_cons,
      List.length_append, Gcm.length_encrypt]
    omega
  · rintro id rfl
    simp only [item, message, Cbor.encode, Cbor.encodeItems, Cbor.encodeEntries, Cbor.encodeBytes,
      List.length_cons, List.length_append]
    omega

theorem length_encode_le (h : encode plaintext key aad nonce keyId = .ok bs) :
    bs.length ≤ 100 + plaintext.length + (keyId.getD []).length := by
  obtain ⟨⟨-, hNonce⟩, -, rfl⟩ := encode_eq_ok_iff.mp h
  have hLabels : (Cbor.encodeInt nonceLabel).length = 1 ∧ (Cbor.encodeInt keyIdLabel).length = 1 ∧
      standardHeader.length = 3 := by decide
  have hList (n : Nat) := Cbor.length_head_le 4 n
  have hMap (n : Nat) := Cbor.length_head_le 5 n
  have hBytes (n : Nat) := Cbor.length_head_le 2 n
  have hHeader := hBytes standardHeader.length
  have hNonceHead := hBytes nonce.length
  have hText := hBytes (plaintext.length + Gcm.tagLength)
  have hThree := hList 3
  unfold Gcm.nonceLength at hNonce
  unfold Gcm.tagLength at hText
  cases keyId with
  | none =>
    have hOne := hMap 1
    simp only [item, message, Cbor.encode, Cbor.encodeItems, Cbor.encodeEntries, Cbor.encodeBytes,
      List.length_cons, List.length_append, List.length_nil, Gcm.length_encrypt, Nat.zero_add,
      Nat.reduceAdd, Option.getD_none, Gcm.tagLength]
    omega
  | some id =>
    have hTwo := hMap 2
    have hId := hBytes id.length
    simp only [item, message, Cbor.encode, Cbor.encodeItems, Cbor.encodeEntries, Cbor.encodeBytes,
      List.length_cons, List.length_append, List.length_nil, Gcm.length_encrypt, Nat.zero_add,
      Nat.reduceAdd, Option.getD_some, Gcm.tagLength]
    omega

end Sealing

end Cose.Encrypted

namespace Cose.SecretKey

variable {secret bs : Bytes} {keyId : Option Bytes}

/-- A secret key as an item. -/
def item (secret : Bytes) (keyId : Option Bytes) : Cbor.Value :=
  .map false ([(.int typeLabel, .int symmetric), (.int algorithmLabel, .int aesGcm),
    (.int symmetricLabel, .bytes secret)] ++
      match keyId with
      | some id => [(.int keyIdLabel, .bytes id)]
      | none => [])

theorem wrap_eq_ok_iff : wrap secret keyId = .ok bs ↔
    secret.length = secretLength ∧ bs = Cbor.encode (item secret keyId) := by
  unfold wrap
  split
  · next hLength => exact ⟨nofun, fun h => (hLength h.1).elim⟩
  · next hLength =>
    rw [Except.ok.injEq]
    exact ⟨fun h => ⟨Decidable.of_not_not hLength, h.symm⟩, fun h => h.2.symm⟩

theorem exists_wrap (hLength : secret.length = secretLength) (keyId : Option Bytes) :
    ∃ bs, wrap secret keyId = .ok bs :=
  ⟨_, wrap_eq_ok_iff.mpr ⟨hLength, rfl⟩⟩

theorem restorable_item (hLength : secret.length = secretLength)
    (hId : ∀ id, keyId = some id → id.length ≤ maxLength) :
    Restorable false maxNesting (item secret keyId) := by
  have hSecret : secret.length ≤ maxLength := by
    rw [hLength]
    decide
  unfold item
  cases hKeyId : keyId with
  | none =>
    refine .map (by simp) ?_ ?_ ?_
    · simp [typeLabel, algorithmLabel, symmetricLabel]
    · simp only [List.append_nil, List.forall_mem_cons]
      exact ⟨.int (by decide) (by decide), .int (by decide) (by decide),
        .int (by decide) (by decide), nofun⟩
    · simp only [List.append_nil, List.forall_mem_cons]
      exact ⟨.int (by decide) (by decide), .int (by decide) (by decide), .bytes hSecret, nofun⟩
  | some id =>
    refine .map (by simp) ?_ ?_ ?_
    · simp [typeLabel, algorithmLabel, symmetricLabel, keyIdLabel]
    · simp only [List.cons_append, List.nil_append, List.forall_mem_cons]
      exact ⟨.int (by decide) (by decide), .int (by decide) (by decide),
        .int (by decide) (by decide), .int (by decide) (by decide), nofun⟩
    · simp only [List.cons_append, List.nil_append, List.forall_mem_cons]
      exact ⟨.int (by decide) (by decide), .int (by decide) (by decide), .bytes hSecret,
        .bytes (hId id hKeyId), nofun⟩

theorem unwrap_wrap (h : wrap secret keyId = .ok bs)
    (hId : ∀ id, keyId = some id → id.length ≤ maxLength) : unwrap bs = .ok secret := by
  obtain ⟨hLength, rfl⟩ := wrap_eq_ok_iff.mp h
  have hDecoded := (restorable_item hLength hId).decode_encode
  unfold unwrap decodeFirst
  rw [hDecoded]
  unfold item
  have hLabel : secretLabel? (.int symmetric) = some symmetricLabel := by
    simp [secretLabel?, Cbor.Value.isInt]
  simp only [bind, Except.bind, List.cons_append, Cbor.Value.lookup, Cbor.Value.same_int, BEq.rfl,
    ↓reduceIte, Option.getD_some, hLabel, typeLabel, symmetricLabel, algorithmLabel]
  simp [hLength]

theorem length_le_of_wrap (h : wrap secret keyId = .ok bs) :
    ∀ id, keyId = some id → id.length ≤ bs.length := by
  obtain ⟨-, rfl⟩ := wrap_eq_ok_iff.mp h
  rintro id rfl
  simp only [item, Cbor.encode, Cbor.encodeEntries, Cbor.encodeBytes, List.length_append,
    List.cons_append, List.nil_append]
  omega

theorem length_wrap_le (h : wrap secret keyId = .ok bs) :
    bs.length ≤ 100 + (keyId.getD []).length := by
  obtain ⟨hLength, rfl⟩ := wrap_eq_ok_iff.mp h
  have hLabels : (Cbor.encodeInt typeLabel).length = 1 ∧ (Cbor.encodeInt symmetric).length = 1 ∧
      (Cbor.encodeInt algorithmLabel).length = 1 ∧ (Cbor.encodeInt aesGcm).length = 1 ∧
      (Cbor.encodeInt symmetricLabel).length = 1 ∧ (Cbor.encodeInt keyIdLabel).length = 1 := by decide
  have hMap (n : Nat) := Cbor.length_head_le 5 n
  have hBytes (n : Nat) := Cbor.length_head_le 2 n
  unfold secretLength at hLength
  cases keyId with
  | none =>
    have hFirst := hMap 3
    have hSecond := hBytes secret.length
    simp only [item, List.append_nil, Cbor.encode, List.length_cons, List.length_nil, Nat.zero_add,
      Nat.reduceAdd, Cbor.encodeEntries, Cbor.encodeBytes, List.length_append, Option.getD_none]
    omega
  | some id =>
    have hFirst := hMap 4
    have hSecond := hBytes secret.length
    have hThird := hBytes id.length
    simp only [item, List.cons_append, List.nil_append, Cbor.encode, List.length_cons,
      List.length_nil, Nat.zero_add, Nat.reduceAdd, Cbor.encodeEntries, Cbor.encodeBytes,
      List.length_append, Option.getD_some]
    omega

end Cose.SecretKey

/-! ## What is stored of a text -/

namespace Keys

/-- What is stored of a text: the text itself, or a message under a secret and that secret under the
key of the setting. -/
inductive Encloses (kek subject plain : Bytes) : Bytes → Option Bytes → Prop
  | bare : Encloses kek subject plain plain none
  | sealed {secret wrapped payload dataKey nonce keyNonce : Bytes} {id textId keyId : Option Bytes}
      (wraps : Cose.SecretKey.wrap secret id = .ok wrapped)
      (sealsKey : Cose.Encrypted.encode wrapped kek subject keyNonce keyId = .ok dataKey)
      (sealsText : Cose.Encrypted.encode plain secret subject nonce textId = .ok payload) :
      Encloses kek subject plain payload (some dataKey)

section Enclosing

variable {kek subject plain payload : Bytes} {dataKey : Option Bytes}

theorem Encloses.length_le (h : Encloses kek subject plain payload dataKey) :
    plain.length ≤ payload.length := by
  cases h with
  | bare => exact Nat.le_refl _
  | sealed wraps sealsKey sealsText =>
    have hLength := (Cose.Encrypted.length_le_of_encode sealsText).1
    omega

theorem Encloses.decrypt {d : Bytes} (h : Encloses kek subject plain payload (some d))
    (hPayload : payload.length ≤ Sealed.maxLength) (hDataKey : d.length ≤ Sealed.maxLength) :
    ∃ wrapped secret, Cose.Encrypted.decode d kek subject = .ok wrapped ∧
      Cose.SecretKey.unwrap wrapped = .ok secret ∧
      Cose.Encrypted.decode payload secret subject = .ok plain := by
  cases h with
  | @sealed secret wrapped _ _ _ _ _ _ _ wraps sealsKey sealsText =>
    obtain ⟨hWrapped, hKeyId⟩ := Cose.Encrypted.length_le_of_encode sealsKey
    obtain ⟨hPlain, hTextId⟩ := Cose.Encrypted.length_le_of_encode sealsText
    have hId := Cose.SecretKey.length_le_of_wrap wraps
    have hLimits : Sealed.maxLength ≤ maxLength := by decide
    refine ⟨wrapped, secret, ?_, ?_, ?_⟩
    · refine Cose.Encrypted.decode_encode sealsKey (Nat.le_trans hWrapped hDataKey) ?_
      exact fun id hSome => Nat.le_trans (Nat.le_trans (hKeyId id hSome) hDataKey) hLimits
    · refine Cose.SecretKey.unwrap_wrap wraps ?_
      intro id hSome
      have hFits := hId id hSome
      omega
    · refine Cose.Encrypted.decode_encode sealsText (Nat.le_trans hPlain hPayload) ?_
      exact fun id hSome => Nat.le_trans (Nat.le_trans (hTextId id hSome) hPayload) hLimits

/-- Every text of moderate length can be stored. -/
theorem exists_encloses (hKek : kek.length = Gcm.keyLength) (subject : Principal) {plain : Bytes}
    (hPlain : plain.length ≤ Sealed.maxLength) : ∃ payload dataKey,
      Encloses kek subject.raw plain payload (some dataKey) ∧ payload.length ≤ 100 + plain.length ∧
      dataKey.length ≤ 200 ∧ (∃ m, Cose.Encrypted.parse payload = .ok m) ∧
      ∃ m, Cose.Encrypted.parse dataKey = .ok m := by
  have hNonce : (List.replicate 12 (0 : UInt8)).length = Gcm.nonceLength := rfl
  have hSecret : (List.replicate 32 (1 : UInt8)).length = Gcm.keyLength := rfl
  obtain ⟨wrapped, hWrapped⟩ := Cose.SecretKey.exists_wrap hSecret none
  have hWrappedLength : wrapped.length ≤ 100 := Cose.SecretKey.length_wrap_le hWrapped
  have hLimit : 100 ≤ Sealed.maxLength := by decide
  obtain ⟨dataKey, hDataKey⟩ := Cose.Encrypted.exists_encode hKek hNonce
    (Cose.Encrypted.fits_principal subject (Nat.le_trans hWrappedLength hLimit)) none
  obtain ⟨payload, hPayload⟩ := Cose.Encrypted.exists_encode hSecret hNonce
    (Cose.Encrypted.fits_principal subject hPlain) none
  have hDataKeyLength : dataKey.length ≤ 100 + wrapped.length :=
    Cose.Encrypted.length_encode_le hDataKey
  exact ⟨payload, dataKey, .sealed hWrapped hDataKey hPayload,
    Cose.Encrypted.length_encode_le hPayload, by omega,
    ⟨_, Cose.Encrypted.parse_encode hPayload nofun⟩, _, Cose.Encrypted.parse_encode hDataKey nofun⟩

end Enclosing

end Keys

end TenantVault
