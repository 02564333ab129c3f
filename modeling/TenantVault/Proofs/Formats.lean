import TenantVault.Proofs.Envelopes
import TenantVault.Proofs.Framing
import TenantVault.Proofs.Payloads

/-! # The formats that are accepted

An encrypted message is a list of a protected header, a map and a ciphertext, with or without its mark; a
plain payload is a single item of the declared type. Nothing else is accepted, and all else is refused as
malformed. What is encrypted is written in the first of these formats.
-/

namespace TenantVault

/-! ## Ways to fail -/

/-- If there is no result, the failure is of the given kind. -/
def FailsAs {α : Type} (kind : Failure → Prop) (r : Result α) : Prop := ∀ why, r = .error why → kind why

def Failure.IsMalformed (why : Failure) : Prop := ∃ fault, why = .malformed fault

section Failing

variable {α β : Type} {kind : Failure → Prop}

theorem failsAs_ok (a : α) : FailsAs kind (.ok a) := nofun

theorem failsAs_error {why : Failure} (h : kind why) : FailsAs kind (.error why : Result α) := by
  rintro _ ⟨⟩
  exact h

theorem FailsAs.bind {r : Result β} {next : β → Result α} (hFirst : FailsAs kind r)
    (hNext : ∀ b, r = .ok b → FailsAs kind (next b)) : FailsAs kind (r >>= next) := by
  cases r with
  | error why => exact failsAs_error (hFirst why rfl)
  | ok b => exact hNext b rfl

theorem FailsAs.mono {kind' : Failure → Prop} {r : Result α} (h : FailsAs kind r)
    (hKind : ∀ why, kind why → kind' why) : FailsAs kind' r :=
  fun why hFails => hKind why (h why hFails)

end Failing

namespace Cose

theorem failsAs_decodeWhole (what : Document) (bs : Bytes) (read : Cbor.Decoder) :
    FailsAs Failure.IsMalformed (decodeWhole what bs read) := by
  unfold decodeWhole
  split
  · exact failsAs_error ⟨_, rfl⟩
  · split
    · exact failsAs_ok _
    · exact failsAs_error ⟨_, rfl⟩

theorem failsAs_decodeFirst (what : Document) (bs : Bytes) (read : Cbor.Decoder) :
    FailsAs Failure.IsMalformed (decodeFirst what bs read) := by
  unfold decodeFirst
  split
  · exact failsAs_error ⟨_, rfl⟩
  · exact failsAs_ok _

theorem decodeFirst_eq_ok_iff (what : Document) (bs : Bytes) (read : Cbor.Decoder) (v : Cbor.Value) :
    decodeFirst what bs read = .ok v ↔ ∃ rest, read bs = .ok (v, rest) := by
  unfold decodeFirst
  cases read bs with
  | error fault => simp
  | ok parts =>
    obtain ⟨v', rest⟩ := parts
    simp

/-! ## Encrypted messages -/

namespace Encrypted

variable {bs : Bytes} {m : Encrypted}

/-- A string that makes up a message: a list of its three parts, with at most one mark in front of it. -/
structure Written (bs : Bytes) (m : Encrypted) : Prop where
  item : ∃ octets, (bs = octets ∨ bs = mark :: octets) ∧ Cbor.decode octets = .ok (m.item, [])
  header : (m.headerOctets = [] ∧ m.header = []) ∨
    ∃ rest, Cbor.decode m.headerOctets = .ok (.map false m.header, rest)

theorem withoutMark_of_head (h : bs.head? ≠ some mark) : withoutMark mark bs = bs := by
  cases bs with
  | nil => rfl
  | cons b bs =>
    rw [withoutMark, if_neg]
    simpa using h

theorem parse_marked (h : bs.head? ≠ some mark) : parse (mark :: bs) = parse bs := by
  unfold parse
  rw [withoutMark_of_head h, withoutMark, if_pos rfl]

/-- Read as an item, the mark is a tag and no list. -/
theorem tagged_of_decode_marked {v : Cbor.Value} {rest : Bytes}
    (h : Cbor.decode (mark :: bs) = .ok (v, rest)) : ∃ content, v = .tagged 16 content := by
  have hTagged : Cbor.tagged (some (Cbor.itemWithin 399)) false 16 bs = .ok (v, rest) := h
  unfold Cbor.tagged at hTagged
  simp only [bind_eq_ok_iff] at hTagged
  obtain ⟨⟨tag, middle⟩, hTag, reader, -, hRead⟩ := hTagged
  cases hTag
  rw [if_neg (show ¬ 16 = Cbor.transparentTag by decide)] at hRead
  simp only [bind_eq_ok_iff] at hRead
  obtain ⟨⟨content, rest'⟩, -, hMeaning⟩ := hRead
  cases hMeaning
  exact ⟨content, rfl⟩

theorem decodeHeader_eq_ok_iff (octets : Bytes) (header : Cbor.Entries) :
    decodeHeader octets = .ok header ↔
      (octets = [] ∧ header = []) ∨ ∃ rest, Cbor.decode octets = .ok (.map false header, rest) := by
  cases octets with
  | nil => simp [decodeHeader, Cbor.decode_nil, eq_comm]
  | cons b octets =>
    unfold decodeHeader
    simp only [List.isEmpty_cons, Bool.false_eq_true, if_false, bind_eq_ok_iff, decodeFirst_eq_ok_iff,
      reduceCtorEq, false_and, false_or]
    constructor
    · rintro ⟨v, ⟨rest, hDecoded⟩, hMap⟩
      split at hMap
      · cases hMap
        exact ⟨rest, hDecoded⟩
      · cases hMap
    · rintro ⟨rest, hDecoded⟩
      exact ⟨_, ⟨rest, hDecoded⟩, rfl⟩

theorem failsAs_decodeHeader (octets : Bytes) (read : Cbor.Decoder) :
    FailsAs Failure.IsMalformed (decodeHeader octets read) := by
  unfold decodeHeader
  split
  · exact failsAs_ok _
  · refine (failsAs_decodeFirst _ _ _).bind fun v _ => ?_
    split
    · exact failsAs_ok _
    · exact failsAs_error ⟨_, rfl⟩

theorem failsAs_parse (bs : Bytes) (read : Cbor.Decoder) :
    FailsAs Failure.IsMalformed (parse bs read) := by
  unfold parse
  refine (failsAs_decodeWhole _ _ _).bind fun v _ => ?_
  split
  · exact (failsAs_decodeHeader _ _).bind fun header _ => failsAs_ok _
  · exact failsAs_error ⟨_, rfl⟩
  · exact failsAs_error ⟨_, rfl⟩
  · exact failsAs_error ⟨_, rfl⟩
  · exact failsAs_error ⟨_, rfl⟩

theorem parse_eq_ok_iff : parse bs = .ok m ↔
    Cbor.decode (withoutMark mark bs) = .ok (m.item, []) ∧
      decodeHeader m.headerOctets = .ok m.header := by
  unfold parse
  simp only [bind_eq_ok_iff, Payload.decodeWhole_eq_ok_iff]
  constructor
  · rintro ⟨v, hDecoded, hParts⟩
    split at hParts
    · obtain ⟨header, hHeader, hSame⟩ := (bind_eq_ok_iff _ _ _).mp hParts
      cases hSame
      exact ⟨hDecoded, hHeader⟩
    · cases hParts
    · cases hParts
    · cases hParts
    · cases hParts
  · rintro ⟨hDecoded, hHeader⟩
    refine ⟨m.item, hDecoded, ?_⟩
    rw [item]
    dsimp only
    rw [hHeader]
    rfl

theorem parse_iff_written : parse bs = .ok m ↔ Written bs m := by
  rw [parse_eq_ok_iff, decodeHeader_eq_ok_iff]
  constructor
  · rintro ⟨hDecoded, hHeader⟩
    refine ⟨⟨withoutMark mark bs, ?_, hDecoded⟩, hHeader⟩
    by_cases hMarked : bs.head? = some mark
    · obtain ⟨octets, rfl⟩ := List.head?_eq_some_iff.mp hMarked
      exact .inr (by rw [withoutMark, if_pos rfl])
    · exact .inl (withoutMark_of_head hMarked).symm
  · rintro ⟨⟨octets, rfl | rfl, hDecoded⟩, hHeader⟩
    · refine ⟨?_, hHeader⟩
      by_cases hMarked : bs.head? = some mark
      · obtain ⟨octets, rfl⟩ := List.head?_eq_some_iff.mp hMarked
        obtain ⟨content, hTagged⟩ := tagged_of_decode_marked hDecoded
        cases hTagged
      · rw [withoutMark_of_head hMarked]
        exact hDecoded
    · exact ⟨by rw [withoutMark, if_pos rfl]; exact hDecoded, hHeader⟩

theorem eq_of_parse_of_prefix {bs' : Bytes} {m' : Encrypted} (h : parse bs = .ok m)
    (h' : parse bs' = .ok m') (hPrefix : bs <+: bs') : bs = bs' := by
  have hDecoded := (parse_eq_ok_iff.mp h).1
  have hDecoded' := (parse_eq_ok_iff.mp h').1
  obtain ⟨suffix, rfl⟩ := hPrefix
  cases bs with
  | nil =>
    rw [withoutMark, Cbor.decode_nil] at hDecoded
    cases hDecoded
  | cons b octets =>
    -- Both strings begin with the same octet, so either both are marked or none is.
    rw [List.cons_append] at hDecoded' ⊢
    by_cases hMarked : b = mark
    · rw [withoutMark, if_pos hMarked] at hDecoded hDecoded'
      have hPrefix := List.prefix_append octets suffix
      rw [← Cbor.eq_of_decode_of_prefix hDecoded hDecoded' hPrefix]
    · rw [withoutMark, if_neg hMarked] at hDecoded hDecoded'
      have hPrefix := List.prefix_append (b :: octets) suffix
      exact Cbor.eq_of_decode_of_prefix hDecoded hDecoded' hPrefix

/-- What is a message, what it is read as, and that no message begins another one. -/
theorem accepted_iff_written :
    (∀ bs m, parse bs = .ok m ↔ Written bs m) ∧
    (∀ bs, FailsAs Failure.IsMalformed (parse bs)) ∧
    (∀ bs bs' m m', parse bs = .ok m → parse bs' = .ok m' → bs <+: bs' → bs = bs') ∧
    ∀ bs, bs.head? ≠ some mark → parse (mark :: bs) = parse bs :=
  ⟨fun _ _ => parse_iff_written, fun bs => failsAs_parse bs Cbor.decode, fun _ _ _ _ => eq_of_parse_of_prefix,
    fun _ => parse_marked⟩

/-- A message of three empty parts, with its mark and with an octet behind it. -/
theorem empty_message_written :
    Written [0xD0, 0x83, 0x40, 0xA0, 0x40] ⟨[], [], [], []⟩ ∧
      ¬ ∃ m, parse [0xD0, 0x83, 0x40, 0xA0, 0x40, 0] = .ok m := by
  obtain ⟨hWritten, -, hPrefixFree, -⟩ := accepted_iff_written
  have hParsed : parse [0xD0, 0x83, 0x40, 0xA0, 0x40] = .ok ⟨[], [], [], []⟩ := rfl
  refine ⟨(hWritten _ _).mp hParsed, ?_⟩
  rintro ⟨m, hLonger⟩
  have hSame := hPrefixFree _ _ _ _ hParsed hLonger ⟨[0], rfl⟩
  cases hSame

/-! ## What is encrypted -/

section Sealing

variable {plaintext key aad nonce : Bytes} {keyId : Option Bytes}

theorem head?_encode_item (m : Encrypted) : (Cbor.encode m.item).head? = some 0x83 := rfl

/-- A message gives back what it was made of, whoever leaves out its mark, if the cipher takes the text together
with its tag, and the outer data in their structure. More is not encrypted, and no other lengths of key and nonce
are taken. A key identifier in memory is shorter than its bound. -/
theorem decode_undoes_encode (plaintext key aad nonce : Bytes) (keyId : Option Bytes) :
    (key.length = 32 → nonce.length = 12 → plaintext.length + 16 < 2 ^ 31 →
      (authenticated standardHeader aad).length < 2 ^ 31 →
      (∀ id, keyId = some id → id.length < 2 ^ 63) →
      ∃ octets m, encode plaintext key aad nonce keyId = .ok (mark :: octets) ∧
        (∀ bs, bs = octets ∨ bs = mark :: octets →
          parse bs = .ok m ∧ decode bs key aad = .ok plaintext) ∧
        m.algorithm = .int 3 ∧ m.nonce = .bytes nonce ∧
        m.keyId = (keyId.map Cbor.Value.bytes).getD .null ∧
        m.ciphertext.length = plaintext.length + 16) ∧
    (key.length = 32 → nonce.length = 12 →
      2 ^ 31 ≤ plaintext.length ∨ 2 ^ 31 ≤ (authenticated standardHeader aad).length →
      encode plaintext key aad nonce keyId = .error (.breakdown .dataTooLong)) ∧
    (¬ (key.length = 32 ∧ nonce.length = 12) →
      ∃ fault, encode plaintext key aad nonce keyId = .error (.argument fault)) := by
  refine ⟨?_, ?_, encode_of_lengths⟩
  · intro hKey hNonce hText hOuter hId
    have hTextFits : plaintext.length + Gcm.tagLength ≤ Sealed.maxLength := Nat.le_pred_of_lt hText
    have hOuterFits : (authenticated standardHeader aad).length ≤ Sealed.maxLength :=
      Nat.le_pred_of_lt hOuter
    have hFits : Sealed.Fits (authenticated standardHeader aad) plaintext :=
      ⟨(Nat.le_add_right _ _).trans hTextFits, hOuterFits⟩
    have hEncoded : encode plaintext key aad nonce keyId =
        .ok (mark :: Cbor.encode (message plaintext key aad nonce keyId).item) :=
      encode_eq_ok_iff.mpr ⟨⟨hKey, hNonce⟩, hFits, rfl⟩
    have hIdFits : ∀ id, keyId = some id → id.length ≤ Cbor.maxLength :=
      fun id hSome => Nat.le_pred_of_lt (hId id hSome)
    have hMarked := parse_encode hEncoded hIdFits
    have hBare : parse (Cbor.encode (message plaintext key aad nonce keyId).item) =
        .ok (message plaintext key aad nonce keyId) := by
      rw [← parse_marked]
      · exact hMarked
      · rw [head?_encode_item]
        decide
    have hOpened {bs : Bytes} (hParsed : parse bs = .ok (message plaintext key aad nonce keyId)) :
        decode bs key aad = .ok plaintext := by
      unfold decode
      rw [hParsed]
      exact decrypt_message hKey hNonce hTextFits hOuterFits
    refine ⟨_, message plaintext key aad nonce keyId, hEncoded, ?_, ?_, ?_, ?_, ?_⟩
    · rintro bs (rfl | rfl)
      · exact ⟨hBare, hOpened hBare⟩
      · exact ⟨hMarked, hOpened hMarked⟩
    · simp [algorithm, message, aesGcm]
    · simp [Encrypted.nonce, label?, message]
    · cases keyId <;> simp [Encrypted.keyId, label?, message, Cbor.Value.lookup, keyIdLabel, nonceLabel]
    · simp [message, Gcm.tagLength]
  · intro hKey hNonce hLong
    refine encode_of_not_fits hKey hNonce ?_ keyId
    rintro ⟨hText, hOuter⟩
    unfold Sealed.maxLength at hText hOuter
    omega

/-- The empty text under a key identifier. -/
theorem empty_text_returned : ∃ octets m,
    encode [] (List.replicate 32 0) [1] (List.replicate 12 0) (some [7]) = .ok (mark :: octets) ∧
      decode octets (List.replicate 32 0) [1] = .ok [] ∧ parse octets = .ok m ∧
      m.keyId = .bytes [7] ∧ m.ciphertext.length = 16 := by
  have hOuter : (authenticated standardHeader [1]).length < 2 ^ 31 :=
    (length_authenticated_le standardHeader [1]).trans_lt (by decide)
  obtain ⟨octets, m, hEncoded, hRead, -, -, hKeyId, hLength⟩ :=
    (decode_undoes_encode [] (List.replicate 32 0) [1] (List.replicate 12 0) (some [7])).1 rfl rfl
      (by decide) hOuter (by rintro id ⟨⟩; decide)
  obtain ⟨hParsed, hOpened⟩ := hRead octets (.inl rfl)
  exact ⟨octets, m, hEncoded, hOpened, hParsed, hKeyId, hLength⟩

end Sealing

end Encrypted

end Cose

/-! ## Plain payloads -/

namespace Payload

variable {limit : Int} {payload : Bytes} {v : Cbor.Value}

/-- The number of a type that can be declared, if one is declared. -/
def declaration (declared : Option Int) : Json := (declared.map Json.int).getD .null

theorem declaredType_declaration {declared : Option Int}
    (hType : ∀ major, declared = some major → 2 ≤ major ∧ major ≤ 6) :
    declaredType (declaration declared) = .ok declared := by
  cases declared with
  | none => rfl
  | some major =>
    obtain ⟨hLow, hHigh⟩ := hType major rfl
    obtain rfl | rfl | rfl | rfl | rfl : major = 2 ∨ major = 3 ∨ major = 4 ∨ major = 5 ∨ major = 6 := by
      omega
    all_goals rfl

section Declared

variable {declared : Option Int} (hType : ∀ major, declared = some major → 2 ≤ major ∧ major ≤ 6)

include hType

theorem decodePlain_eq_ok_iff : decodePlain (.int limit) payload (declaration declared) = .ok v ↔
    ¬ (0 < limit ∧ limit < payload.length) ∧ Cbor.decode payload = .ok (v, []) ∧
      ∀ major, declared = some major → majorType payload = major := by
  have hSize : checkSize (.int limit) payload = .ok () ↔ ¬ (0 < limit ∧ limit < payload.length) := by
    rw [checkSize_int]
    split
    · next hLong => exact ⟨nofun, fun hFits => (hFits hLong).elim⟩
    · next hFits => exact ⟨fun _ => hFits, fun _ => rfl⟩
  unfold decodePlain
  simp only [bind_eq_ok_iff, exists_unit_iff, hSize, declaredType_declaration hType, Except.ok.injEq,
    exists_eq_left']
  refine and_congr_right fun _ => ?_
  cases payload with
  | nil =>
    rw [Cbor.decode_nil]
    exact ⟨nofun, nofun⟩
  | cons b octets =>
    simp only [List.isEmpty_cons, Bool.false_eq_true, if_false, bind_eq_ok_iff, decodeWhole_eq_ok_iff]
    cases declared with
    | none =>
      constructor
      · rintro ⟨v', hDecoded, hSame⟩
        cases hSame
        exact ⟨hDecoded, nofun⟩
      · rintro ⟨hDecoded, -⟩
        exact ⟨v, hDecoded, rfl⟩
    | some major =>
      constructor
      · rintro ⟨v', hDecoded, hMajor⟩
        dsimp only at hMajor
        split at hMajor
        · cases hMajor
        · next hSame =>
          cases hMajor
          refine ⟨hDecoded, ?_⟩
          rintro _ ⟨⟩
          exact of_not_not hSame
      · rintro ⟨hDecoded, hMajor⟩
        refine ⟨v, hDecoded, ?_⟩
        dsimp only
        rw [if_neg (not_not.mpr (hMajor major rfl))]
        rfl

theorem failsAs_decodePlain : FailsAs (fun why =>
    if 0 < limit ∧ limit < payload.length then
      why = .payloadTooLarge payload.length (Json.int limit).display
    else why.IsMalformed) (decodePlain (.int limit) payload (declaration declared)) := by
  unfold decodePlain
  rw [checkSize_int, declaredType_declaration hType]
  split
  · exact failsAs_error rfl
  · cases payload with
    | nil => exact failsAs_error ⟨_, rfl⟩
    | cons b octets =>
      refine (Cose.failsAs_decodeWhole .payload (b :: octets) Cbor.decode).bind fun v _ => ?_
      cases declared with
      | none => exact failsAs_ok v
      | some major =>
        dsimp only
        split
        · exact failsAs_error ⟨_, rfl⟩
        · exact failsAs_ok v

end Declared

theorem majorType_eq_iff {major : Int} (h : payload ≠ []) :
    majorType payload = major ↔ ∃ b octets, payload = b :: octets ∧ (b.toNat / 32 : Nat) = major := by
  cases payload with
  | nil => exact (h rfl).elim
  | cons b octets => simp [majorType]

/-- A payload is accepted if it is no longer than the limit, makes up one item and is of the type that is
declared, which its first octet shows and its value has. -/
theorem accepted_iff_single_item (limit : Int) (payload : Bytes) (declared : Option Int)
    (hType : ∀ major, declared = some major → 2 ≤ major ∧ major ≤ 6) :
    (∀ v, decodePlain (.int limit) payload (declaration declared) = .ok v ↔
      (limit ≤ 0 ∨ payload.length ≤ limit) ∧ Cbor.decode payload = .ok (v, []) ∧
        ∀ major, declared = some major →
          ∃ b octets, payload = b :: octets ∧ (b.toNat / 32 : Nat) = major) ∧
    (∀ v, decodePlain (.int limit) payload (declaration declared) = .ok v →
      ∀ major, declared = some major → v.IsOfType major.toNat) ∧
    ∀ why, decodePlain (.int limit) payload (declaration declared) = .error why →
      if 0 < limit ∧ limit < payload.length then
        why = .payloadTooLarge payload.length (Json.int limit).display
      else why.IsMalformed := by
  have hAccepted (v : Cbor.Value) : decodePlain (.int limit) payload (declaration declared) = .ok v ↔
      (limit ≤ 0 ∨ payload.length ≤ limit) ∧ Cbor.decode payload = .ok (v, []) ∧
        ∀ major, declared = some major →
          ∃ b octets, payload = b :: octets ∧ (b.toNat / 32 : Nat) = major := by
    rw [decodePlain_eq_ok_iff hType]
    have hSize : ¬ (0 < limit ∧ limit < payload.length) ↔ limit ≤ 0 ∨ payload.length ≤ limit := by omega
    refine and_congr hSize (and_congr_right fun hDecoded => ?_)
    have hNonempty : payload ≠ [] := by
      rintro rfl
      cases hDecoded
    simp only [majorType_eq_iff hNonempty]
  refine ⟨hAccepted, ?_, failsAs_decodePlain hType⟩
  intro v hRead major hDeclared
  obtain ⟨-, hDecoded, hMajor⟩ := (hAccepted v).mp hRead
  obtain ⟨b, octets, rfl, hShown⟩ := hMajor major hDeclared
  rw [← hShown, Int.toNat_natCast]
  exact Cbor.isOfType_of_decode hDecoded

/-- A list of no items where a list is declared, and with an octet behind it. -/
theorem empty_list_accepted :
    (∀ major, some (4 : Int) = some major → 2 ≤ major ∧ major ≤ 6) ∧
      decodePlain (.int 1) [0x80] (declaration (some 4)) = .ok (.list false []) ∧
      ∀ v, decodePlain (.int 0) [0x80, 0] (declaration (some 4)) ≠ .ok v := by
  have hType : ∀ major, some (4 : Int) = some major → 2 ≤ major ∧ major ≤ 6 := by
    rintro _ ⟨⟩
    decide
  refine ⟨hType, ?_, ?_⟩
  · refine ((accepted_iff_single_item 1 [0x80] (some 4) hType).1 _).mpr ⟨by decide, rfl, ?_⟩
    rintro _ ⟨⟩
    exact ⟨0x80, [], rfl, rfl⟩
  · intro v hRead
    obtain ⟨-, hDecoded, -⟩ := ((accepted_iff_single_item 0 [0x80, 0] (some 4) hType).1 v).mp hRead
    cases hDecoded

end Payload

end TenantVault
