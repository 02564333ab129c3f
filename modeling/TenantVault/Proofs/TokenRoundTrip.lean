import TenantVault.Proofs.IdentityTokens

/-! # Claims and signed messages that come back

Claims are read as they were written, whatever numbers and texts they hold, from five minutes before the time that
they begin with until five minutes after the time that they expire. A signed message is read as it was written, with
its mark and without it, and it is verified in the same way by keys in any order.
-/

namespace TenantVault.Cose

open Cbor (maxLength maxNesting Recoverable)

/-! ## Claims -/

namespace Claims

/-- Claims are accepted exactly from five minutes before they begin until five minutes after they expire, and are then
the eight that were written. Outside of this time they are refused as expired, or else as not yet valid. The octets
that hold them are no more than fit into a memory. -/
theorem encoded_claims_valid_in_window (c : Claims) (now : Int) (hFits : c.encode.length < 2 ^ 63) :
    ((∃ claims, decode c.encode now = .ok claims) ↔
      c.issuedAt - 300 ≤ now ∧ now ≤ c.issuedAt + c.lifetime + 300) ∧
    (∀ claims, decode c.encode now = .ok claims →
      claims = [(.int 1, .text c.issuer), (.int 2, .text c.subject), (.int 3, .text c.audience),
        (.int 4, .int (c.issuedAt + c.lifetime)), (.int 5, .int c.issuedAt), (.int 6, .int c.issuedAt),
        (.int 7, .bytes c.id), (.int 9, .text c.scope)] ∧
      scopeOf claims = .ok c.scope) ∧
    (¬ (c.issuedAt - 300 ≤ now ∧ now ≤ c.issuedAt + c.lifetime + 300) →
      decode c.encode now = .error (.denied
        (if c.issuedAt + c.lifetime + 300 < now then .tokenExpired else .tokenNotYetValid))) := by
  have hLength : c.encode.length ≤ maxLength := Nat.le_pred_of_lt hFits
  refine ⟨?_, ?_, ?_⟩
  · simp only [decode_encode_eq_ok_iff hLength]
    constructor
    · rintro ⟨_, -, hWindow⟩
      exact hWindow
    · intro hWindow
      exact ⟨_, rfl, hWindow⟩
  · intro claims hDecoded
    obtain ⟨rfl, -⟩ := (decode_encode_eq_ok_iff hLength now claims).mp hDecoded
    exact ⟨rfl, c.scopeOf_entries⟩
  · intro hOutside
    rw [decode_encode_eq hLength]
    by_cases hLate : c.issuedAt + c.lifetime + 300 < now
    · rw [if_pos (by omega), if_pos hLate]
    · rw [if_neg (by omega), if_pos (by omega), if_neg hLate]

namespace Sample

/-- Claims that expire before they begin, at a time of more than 64 bits, so that only one second is left to them. -/
def momentary : Claims := ⟨"a", "b", "c", 2 ^ 64, -600, [], "é"⟩

theorem momentary_valid_once :
    momentary.encode.length < 2 ^ 63 ∧
      (∃ claims, decode momentary.encode (2 ^ 64 - 300) = .ok claims ∧ scopeOf claims = .ok "é") ∧
      decode momentary.encode (2 ^ 64 - 299) = .error (.denied .tokenExpired) ∧
      decode momentary.encode (2 ^ 64 - 301) = .error (.denied .tokenNotYetValid) := by
  have hFits : momentary.encode.length < 2 ^ 63 := by decide +kernel
  obtain ⟨hValid, hRead, -⟩ := encoded_claims_valid_in_window momentary (2 ^ 64 - 300) hFits
  obtain ⟨-, -, hLate⟩ := encoded_claims_valid_in_window momentary (2 ^ 64 - 299) hFits
  obtain ⟨-, -, hEarly⟩ := encoded_claims_valid_in_window momentary (2 ^ 64 - 301) hFits
  obtain ⟨claims, hAccepted⟩ := hValid.mpr (by decide)
  exact ⟨hFits, ⟨claims, hAccepted, (hRead claims hAccepted).2⟩, hLate (by decide), hEarly (by decide)⟩

end Sample

end Claims

/-! ## Signed messages -/

namespace Signed

variable {bs aad : Bytes} {keys keys' : List Bytes}

/-- The list that a mark stands in front of does not begin with one. -/
theorem parse_encode_item (m : Signed) : parse (Cbor.encode m.item) = parse m.toBytes := by
  have hList : ∃ octets, Cbor.encode m.item = 0x84 :: octets := ⟨_, rfl⟩
  obtain ⟨octets, hOctets⟩ := hList
  rw [toBytes_eq, hOctets]
  rfl

/-- A message for a payload with its signature filled in. -/
def filled (payload : Bytes) (algorithm : Int) (keyId : Option Bytes) (signature : Bytes) : Signed :=
  { unsigned payload algorithm keyId with signature }

/-- The protected header of a message. -/
def headerEntries (algorithm : Int) (keyId : Option Bytes) : Cbor.Entries :=
  (.int algorithmLabel, .int algorithm) ::
    match keyId with
    | some id => [(.int keyIdLabel, .bytes id)]
    | none => []

theorem headerOctets_filled (payload : Bytes) (algorithm : Int) (keyId : Option Bytes) (signature : Bytes) :
    (filled payload algorithm keyId signature).headerOctets =
      Cbor.encode (.map false (headerEntries algorithm keyId)) := rfl

theorem lookup_headerEntries (algorithm : Int) (keyId : Option Bytes) :
    Cbor.Value.lookup (.int algorithmLabel) (headerEntries algorithm keyId) = some (.int algorithm) :=
  Cbor.Value.lookup_first ..

theorem recoverable_headerEntries (algorithm : Int) (keyId : Option Bytes) :
    Recoverable false maxNesting (.map false (headerEntries algorithm keyId)) := by
  unfold headerEntries
  cases keyId with
  | none => exact .map (by simp) (by simp) (by simp [Recoverable.int]) (by simp [Recoverable.int])
  | some id =>
    refine .map (by simp) ?_ ?_ ?_
    · simp [algorithmLabel, keyIdLabel]
    · simp [Recoverable.int]
    · simp [Recoverable.int, Recoverable.bytes]

section Filling

variable {payload signature : Bytes} {algorithm : Int} {keyId : Option Bytes}
  (hFits : (filled payload algorithm keyId signature).toBytes.length ≤ maxLength)

include hFits

/-- The algorithm is read from the octets that are signed. -/
theorem algorithm_filled :
    (filled payload algorithm keyId signature).algorithm = .ok (.int algorithm) := by
  have hHeader := (length_headerOctets_le (filled payload algorithm keyId signature)).trans hFits
  rw [headerOctets_filled] at hHeader
  have hDecoded := (recoverable_headerEntries algorithm keyId hHeader).decode_encode
  rw [← headerOctets_filled payload algorithm keyId signature] at hDecoded
  rw [algorithm_of_map hDecoded, lookup_headerEntries, Option.getD_some]

/-- Without its mark a message is the list that the mark stands in front of. -/
theorem parse_filled (hMarked : bs = (filled payload algorithm keyId signature).toBytes ∨
    mark :: bs = (filled payload algorithm keyId signature).toBytes) :
    parse bs = .ok (filled payload algorithm keyId signature) := by
  have hParsed := parse_toBytes (m := filled payload algorithm keyId signature) rfl hFits
  rcases hMarked with rfl | hBare
  · exact hParsed
  · rw [toBytes_eq, List.cons.injEq] at hBare
    obtain ⟨-, rfl⟩ := hBare
    rw [parse_encode_item]
    exact hParsed

end Filling

/-- Keys of the right length are as good in any order and however often they are listed. -/
theorem verify_of_same_keys (hKeys : ∀ key ∈ keys, key.length = Ed25519.keyLength)
    (hSame : ∀ key, key ∈ keys' ↔ key ∈ keys) : verify bs aad keys' = verify bs aad keys := by
  have hKeys' : ∀ key ∈ keys', key.length = Ed25519.keyLength := fun key hMem => hKeys key ((hSame key).mp hMem)
  have hAny (p : Bytes → Bool) : keys'.any p = keys.any p := by
    rw [Bool.eq_iff_iff, List.any_eq_true, List.any_eq_true]
    simp only [hSame]
  cases hParsed : parse bs with
  | error why =>
    unfold verify
    rw [hParsed]
    rfl
  | ok m => rw [verify_of_parse hKeys hParsed, verify_of_parse hKeys' hParsed, hAny]

/-- A message that fits into a memory comes back as it was written, whether or not its mark is left out, and so do the
octets that are signed and the algorithm. Whether and how a message is accepted depends on which keys there are, and
neither on their order nor on how often each of them is listed. -/
theorem signed_round_trip_for_any_key_order :
    (∀ payload algorithm keyId signature aad bs,
      (filled payload algorithm keyId signature).toBytes.length < 2 ^ 63 →
      bs = (filled payload algorithm keyId signature).toBytes ∨
        mark :: bs = (filled payload algorithm keyId signature).toBytes →
      ∃ m, parse bs = .ok m ∧ m = filled payload algorithm keyId signature ∧
        m.signedPart aad = (unsigned payload algorithm keyId).signedPart aad ∧
        m.algorithm = .ok (.int algorithm)) ∧
    ∀ bs aad keys keys', (∀ key ∈ keys, key.length = 32) →
      keys'.Perm keys ∨ (∀ key, key ∈ keys' ↔ key ∈ keys) → verify bs aad keys' = verify bs aad keys := by
  constructor
  · intro payload algorithm keyId signature aad bs hLength hMarked
    have hFits : (filled payload algorithm keyId signature).toBytes.length ≤ maxLength :=
      Nat.le_pred_of_lt hLength
    exact ⟨_, parse_filled hFits hMarked, rfl, rfl, algorithm_filled hFits⟩
  · intro bs aad keys keys' hKeys hSame
    refine verify_of_same_keys hKeys ?_
    rcases hSame with hPerm | hSet
    · exact fun key => hPerm.mem_iff
    · exact hSet

namespace Sample

/-- A message under an algorithm of more than 64 bits, and the two keys of a list turned round. -/
theorem wide_algorithm_returned :
    (filled [1] (2 ^ 64) (some [7]) [2]).toBytes.length < 2 ^ 63 ∧
      (∃ octets, mark :: octets = (filled [1] (2 ^ 64) (some [7]) [2]).toBytes ∧
        parse octets = .ok (filled [1] (2 ^ 64) (some [7]) [2])) ∧
      (∀ key ∈ [publicKey, List.replicate 32 0], key.length = 32) ∧
      verify signed.toBytes caller [List.replicate 32 0, publicKey, List.replicate 32 0] =
        verify signed.toBytes caller [publicKey, List.replicate 32 0] := by
  obtain ⟨hReturned, hOrder⟩ := signed_round_trip_for_any_key_order
  have hLength : (filled [1] (2 ^ 64) (some [7]) [2]).toBytes.length < 2 ^ 63 := by decide +kernel
  have hKeys : ∀ key ∈ [publicKey, List.replicate 32 0], key.length = 32 := by
    simp [publicKey]
  obtain ⟨m, hParsed, rfl, -⟩ := hReturned [1] (2 ^ 64) (some [7]) [2] [] _ hLength (.inr (toBytes_eq _).symm)
  exact ⟨hLength, ⟨_, (toBytes_eq _).symm, hParsed⟩, hKeys,
    hOrder _ _ _ _ hKeys (.inr (by simp [or_comm]))⟩

end Sample

end Signed

end TenantVault.Cose
