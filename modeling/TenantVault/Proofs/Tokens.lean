import TenantVault.Cose.Claims
import TenantVault.Cose.Signed
import TenantVault.Proofs.Breakdowns

/-! # Tokens that are accepted and refused

A signed token is accepted if its protected header names EdDSA and one of the keys verifies its signature,
and its claims if the time lies between the two that they state. Both are refused as malformed or as not
valid, with the exceptions stated here: a protected header is read only after the token around it has been
accepted, and what goes wrong in it comes out as it is, like a time that has no whole part.
-/

namespace TenantVault

theorem Cbor.Value.isInt_null (n : Int) : Cbor.Value.null.isInt n = false := by
  simp [isInt, same, sameNumber, integer?, exactValue?]

theorem Binary64.isFinite_iff (x : Binary64) :
    x.isFinite = true ↔ x.isNaN = false ∧ x.isInfinite = false := by
  unfold isFinite isNaN isInfinite
  by_cases hExponent : x.exponentField = 2047
  · by_cases hFraction : x.fractionField = 0
    · simp [hExponent, hFraction]
    · simp [hExponent, hFraction]
  · simp [hExponent]

theorem Binary64.not_isNaN_of_isInfinite {x : Binary64} (h : x.isInfinite = true) : x.isNaN = false := by
  unfold isInfinite at h
  unfold isNaN
  simp only [Bool.and_eq_true, beq_iff_eq] at h
  simp [h.2]

theorem Binary64.truncate_eq_tdiv (x : Binary64) : x.truncate = x.ratio.1.tdiv x.ratio.2 := by
  unfold truncate ratio
  dsimp only
  split
  · rw [Int.neg_tdiv, Int.ofNat_tdiv]
  · rw [Int.ofNat_tdiv]

namespace Cose

open Failure (IsMalformed)

/-! ## Signatures -/

namespace Signed

variable {bs aad message signature : Bytes} {keys : List Bytes} {m : Signed} {why : Failure}

/-- The item that a message is written as. -/
def item (m : Signed) : Cbor.Value :=
  .list false [.bytes m.headerOctets, .map false m.unprotected, .bytes m.payload, .bytes m.signature]

theorem parse_eq_ok_iff :
    parse bs = .ok m ↔ ∃ rest, Cbor.decode (withoutMark mark bs) = .ok (m.item, rest) := by
  unfold parse
  simp only [bind_eq_ok_iff, decodeFirst_eq_ok_iff]
  constructor
  · rintro ⟨v, ⟨rest, hDecoded⟩, hParts⟩
    split at hParts
    · cases hParts
      exact ⟨rest, hDecoded⟩
    · cases hParts
    · cases hParts
  · rintro ⟨rest, hDecoded⟩
    exact ⟨m.item, ⟨rest, hDecoded⟩, rfl⟩

theorem failsAs_parse (bs : Bytes) : FailsAs IsMalformed (parse bs) := by
  unfold parse
  refine (failsAs_decodeFirst _ _ _).bind fun v _ => ?_
  split
  · exact failsAs_ok _
  · exact failsAs_error ⟨_, rfl⟩
  · exact failsAs_error ⟨_, rfl⟩

/-- The protected header is a map with EdDSA as its algorithm. -/
def NamesEdDsa (m : Signed) : Prop :=
  ∃ fixed header rest v, Cbor.decode m.headerOctets = .ok (.map fixed header, rest) ∧
    Cbor.Value.lookup (.int algorithmLabel) header = some v ∧ v.isInt edDsa = true

/-- What comes out of a protected header that cannot be read, is no map, or names an algorithm that cannot be
compared, or has a number in it that is too long to be shown. -/
inductive Escapes (m : Signed) : Failure → Prop where
  | undecodable (fault : Cbor.Fault) (nonempty : m.headerOctets ≠ [])
      (decoded : Cbor.decode m.headerOctets = .error fault) : Escapes m (.breakdown (.cbor fault))
  | notMap (v : Cbor.Value) (rest : Bytes) (decoded : Cbor.decode m.headerOctets = .ok (v, rest))
      (other : ∀ fixed header, v ≠ .map fixed header) : Escapes m (.breakdown .notRecord)
  | signalled (fixed : Bool) (header : Cbor.Entries) (rest : Bytes) (v : Cbor.Value)
      (decoded : Cbor.decode m.headerOctets = .ok (.map fixed header, rest))
      (found : Cbor.Value.lookup (.int algorithmLabel) header = some v) (signals : v.signals = true) :
      Escapes m (.breakdown .signalled)
  | unshowable (fixed : Bool) (header : Cbor.Entries) (rest : Bytes) (v : Cbor.Value)
      (decoded : Cbor.decode m.headerOctets = .ok (.map fixed header, rest))
      (found : Cbor.Value.lookup (.int algorithmLabel) header = some v) (other : v.isInt edDsa = false)
      (tooLong : v.isPrintable = false) : Escapes m (.breakdown .numberTooLong)

theorem algorithm_of_empty (h : m.headerOctets = []) : m.algorithm = .ok .null := by
  unfold algorithm
  exact if_pos (by rw [h]; rfl)

theorem algorithm_of_nonempty (h : m.headerOctets ≠ []) :
    m.algorithm = match Cbor.decode m.headerOctets with
      | .error fault => .error (.breakdown (.cbor fault))
      | .ok (.map _ header, _) => .ok ((Cbor.Value.lookup (.int algorithmLabel) header).getD .null)
      | .ok _ => .error (.breakdown .notRecord) := by
  unfold algorithm
  exact if_neg (by simpa using h)

theorem nonempty_of_decode {parts : Cbor.Value × Bytes} (h : Cbor.decode m.headerOctets = .ok parts) :
    m.headerOctets ≠ [] := by
  intro hEmpty
  rw [hEmpty, Cbor.decode_nil] at h
  cases h

theorem algorithm_of_map {fixed : Bool} {header : Cbor.Entries} {rest : Bytes}
    (h : Cbor.decode m.headerOctets = .ok (.map fixed header, rest)) :
    m.algorithm = .ok ((Cbor.Value.lookup (.int algorithmLabel) header).getD .null) := by
  rw [algorithm_of_nonempty (nonempty_of_decode h), h]

theorem Escapes.cases_algorithm (h : m.Escapes why) :
    m.algorithm = .error why ∨
      ∃ v, m.algorithm = .ok v ∧ v.isInt edDsa = false ∧
        unsupported .signatureAlgorithm v v.inspect = why := by
  cases h with
  | undecodable fault nonempty decoded =>
    left
    rw [algorithm_of_nonempty nonempty, decoded]
  | notMap v rest decoded other =>
    left
    rw [algorithm_of_nonempty (nonempty_of_decode decoded), decoded]
    split
    · next hSame => cases hSame
    · next fixed header _ hSame =>
      cases hSame
      exact (other fixed header rfl).elim
    · rfl
  | signalled fixed header rest v decoded found signals =>
    right
    refine ⟨v, ?_, isInt_of_signals signals edDsa, unsupported_of_signals signals _ _⟩
    rw [algorithm_of_map decoded, found]
    rfl
  | unshowable fixed header rest v decoded found other tooLong =>
    right
    refine ⟨v, ?_, other, unsupported_of_not_isPrintable tooLong _ _⟩
    rw [algorithm_of_map decoded, found]
    rfl

theorem escapes_of_algorithm (h : m.algorithm = .error why) : m.Escapes why := by
  by_cases hNonempty : m.headerOctets ≠ []
  · rw [algorithm_of_nonempty hNonempty] at h
    split at h
    · next fault hDecoded =>
      cases h
      exact .undecodable fault hNonempty hDecoded
    · cases h
    · next parts hOther hDecoded =>
      cases h
      exact .notMap parts.1 parts.2 hDecoded fun fixed header hMap => hOther fixed header parts.2 (by rw [← hMap])
  · rw [algorithm_of_empty (not_not.mp hNonempty)] at h
    cases h

theorem exists_of_algorithm {v : Cbor.Value} (h : m.algorithm = .ok v) (hThere : v ≠ .null) :
    ∃ fixed header rest, Cbor.decode m.headerOctets = .ok (.map fixed header, rest) ∧
      Cbor.Value.lookup (.int algorithmLabel) header = some v := by
  by_cases hNonempty : m.headerOctets ≠ []
  · rw [algorithm_of_nonempty hNonempty] at h
    split at h
    · cases h
    · next fixed header rest hDecoded =>
      refine ⟨fixed, header, rest, hDecoded, ?_⟩
      cases hFound : Cbor.Value.lookup (.int algorithmLabel) header with
      | none =>
        rw [hFound] at h
        cases h
        exact (hThere rfl).elim
      | some w =>
        rw [hFound] at h
        cases h
        rfl
    · cases h
  · rw [algorithm_of_empty (not_not.mp hNonempty)] at h
    cases h
    exact (hThere rfl).elim

/-- Another algorithm is refused as malformed, if it is one that can be compared and shown. -/
theorem unsupported_or_escapes {v : Cbor.Value} (h : m.algorithm = .ok v) (hOther : v.isInt edDsa = false) :
    (unsupported .signatureAlgorithm v v.inspect).IsMalformed ∨
      m.Escapes (unsupported .signatureAlgorithm v v.inspect) := by
  have hOdd : (unsupported .signatureAlgorithm v v.inspect).OrBreakdown IsMalformed
      fun fault => m.Escapes (.breakdown fault) := by
    refine unsupported_orBreakdown (fun hSignals => ?_) (fun hLong => ?_) _ _
    · obtain ⟨fixed, header, rest, hDecoded, hFound⟩ := exists_of_algorithm h (by rintro rfl; cases hSignals)
      exact .signalled fixed header rest v hDecoded hFound hSignals
    · obtain ⟨fixed, header, rest, hDecoded, hFound⟩ := exists_of_algorithm h (by rintro rfl; cases hLong)
      exact .unshowable fixed header rest v hDecoded hFound hOther hLong
  rcases hOdd with hMalformed | ⟨fault, hSame, hEscapes⟩
  · exact .inl hMalformed
  · rw [hSame]
    exact .inr hEscapes

theorem namesEdDsa_iff : m.NamesEdDsa ↔ ∃ v, m.algorithm = .ok v ∧ v.isInt edDsa = true := by
  constructor
  · rintro ⟨fixed, header, rest, v, hDecoded, hFound, hSame⟩
    refine ⟨v, ?_, hSame⟩
    rw [algorithm_of_map hDecoded, hFound]
    rfl
  · rintro ⟨v, hAlgorithm, hSame⟩
    have hThere : v ≠ .null := by
      rintro rfl
      rw [Cbor.Value.isInt_null] at hSame
      cases hSame
    obtain ⟨fixed, header, rest, hDecoded, hFound⟩ := exists_of_algorithm hAlgorithm hThere
    exact ⟨fixed, header, rest, v, hDecoded, hFound, hSame⟩

/-- With keys of the right length all of them can be tried. -/
theorem verifiedByAny_eq (hKeys : ∀ key ∈ keys, key.length = Ed25519.keyLength) :
    verifiedByAny message signature keys =
      .ok (keys.any fun key => Ed25519.verify key message signature) := by
  induction keys with
  | nil => rfl
  | cons key keys ih =>
    have hLength := hKeys key List.mem_cons_self
    have hRest := ih fun other hOther => hKeys other (List.mem_cons_of_mem key hOther)
    rw [verifiedByAny, if_neg (not_not.mpr hLength), List.any_cons, hRest]
    cases Ed25519.verify key message signature with
    | true => rfl
    | false => rfl

section Verifying

variable (hKeys : ∀ key ∈ keys, key.length = Ed25519.keyLength)

include hKeys

theorem verify_of_parse (hParsed : parse bs = .ok m) :
    verify bs aad keys = (do
      let v ← m.algorithm
      if v.isInt edDsa then
        if keys.any fun key => Ed25519.verify key (m.signedPart aad) m.signature then .ok m
        else .error (.crypto .tokenSignature)
      else .error (unsupported .signatureAlgorithm v v.inspect)) := by
  unfold verify
  rw [hParsed]
  dsimp only [bind, Except.bind]
  cases m.algorithm with
  | error why => rfl
  | ok v =>
    dsimp only
    rw [verifiedByAny_eq hKeys]
    cases v.isInt edDsa with
    | true =>
      cases keys.any fun key => Ed25519.verify key (m.signedPart aad) m.signature with
      | true => rfl
      | false => rfl
    | false => rfl

theorem verify_eq_ok_iff : verify bs aad keys = .ok m ↔
    parse bs = .ok m ∧ m.NamesEdDsa ∧
      ∃ key ∈ keys, Ed25519.verify key (m.signedPart aad) m.signature = true := by
  constructor
  · intro hVerified
    obtain ⟨m', hParsed, -⟩ := (bind_eq_ok_iff _ _ _).mp hVerified
    rw [verify_of_parse hKeys hParsed, bind_eq_ok_iff] at hVerified
    obtain ⟨v, hAlgorithm, hChecked⟩ := hVerified
    split at hChecked
    · next hNamed =>
      split at hChecked
      · next hAny =>
        cases hChecked
        exact ⟨hParsed, namesEdDsa_iff.mpr ⟨v, hAlgorithm, hNamed⟩, List.any_eq_true.mp hAny⟩
      · cases hChecked
    · cases hChecked
  · rintro ⟨hParsed, hNames, hAny⟩
    obtain ⟨v, hAlgorithm, hNamed⟩ := namesEdDsa_iff.mp hNames
    rw [verify_of_parse hKeys hParsed, hAlgorithm]
    dsimp only [bind, Except.bind]
    rw [if_pos hNamed, if_pos (List.any_eq_true.mpr hAny)]

theorem verify_of_escapes (hParsed : parse bs = .ok m) (h : m.Escapes why) :
    verify bs aad keys = .error why := by
  rw [verify_of_parse hKeys hParsed]
  rcases h.cases_algorithm with hAlgorithm | ⟨v, hAlgorithm, hOther, rfl⟩
  · rw [hAlgorithm]
    rfl
  · rw [hAlgorithm]
    dsimp only [bind, Except.bind]
    rw [hOther, if_neg Bool.false_ne_true]

/-- How a token is refused whose outer form is right. -/
theorem cases_of_verify_error (hParsed : parse bs = .ok m) (hFails : verify bs aad keys = .error why) :
    (why.IsMalformed ∧ ¬ m.NamesEdDsa) ∨
      (why = .crypto .tokenSignature ∧ m.NamesEdDsa ∧
        ∀ key ∈ keys, Ed25519.verify key (m.signedPart aad) m.signature = false) ∨
      m.Escapes why := by
  rw [verify_of_parse hKeys hParsed] at hFails
  cases hAlgorithm : m.algorithm with
  | error fault =>
    rw [hAlgorithm] at hFails
    cases hFails
    exact .inr (.inr (escapes_of_algorithm hAlgorithm))
  | ok v =>
    rw [hAlgorithm] at hFails
    dsimp only [bind, Except.bind] at hFails
    split at hFails
    · next hNamed =>
      split at hFails
      · cases hFails
      · next hNone =>
        cases hFails
        refine .inr (.inl ⟨rfl, namesEdDsa_iff.mpr ⟨v, hAlgorithm, hNamed⟩, ?_⟩)
        simpa using hNone
    · next hOther =>
      rw [Bool.not_eq_true] at hOther
      cases hFails
      rcases unsupported_or_escapes hAlgorithm hOther with hMalformed | hEscapes
      · refine .inl ⟨hMalformed, fun hNames => ?_⟩
        obtain ⟨w, hSame, hNamed⟩ := namesEdDsa_iff.mp hNames
        rw [hAlgorithm] at hSame
        cases hSame
        rw [hOther] at hNamed
        cases hNamed
      · exact .inr (.inr hEscapes)

end Verifying

/-- Which tokens are accepted, and in which ways the others are refused. A token whose protected header
cannot be looked into is not reported as malformed, although it is. -/
theorem verified_or_refused (bs aad : Bytes) (keys : List Bytes)
    (hKeys : ∀ key ∈ keys, key.length = Ed25519.keyLength) :
    (∀ m, verify bs aad keys = .ok m ↔ parse bs = .ok m ∧ m.NamesEdDsa ∧
      ∃ key ∈ keys, Ed25519.verify key (m.signedPart aad) m.signature = true) ∧
    (∀ why, verify bs aad keys = .error why →
      (why.IsMalformed ∧ ∀ m, parse bs = .ok m → ¬ m.NamesEdDsa) ∨
      (why = .crypto .tokenSignature ∧ ∃ m, parse bs = .ok m ∧ m.NamesEdDsa ∧
        ∀ key ∈ keys, Ed25519.verify key (m.signedPart aad) m.signature = false) ∨
      ∃ m, parse bs = .ok m ∧ m.Escapes why) ∧
    ∀ m why, parse bs = .ok m → m.Escapes why → verify bs aad keys = .error why := by
  refine ⟨fun m => verify_eq_ok_iff hKeys, ?_, fun m why => verify_of_escapes hKeys⟩
  intro why hFails
  cases hParsed : parse bs with
  | error fault =>
    unfold verify at hFails
    rw [hParsed] at hFails
    cases hFails
    exact .inl ⟨failsAs_parse bs why hParsed, nofun⟩
  | ok m =>
    rcases cases_of_verify_error hKeys hParsed hFails with ⟨hMalformed, hOther⟩ | ⟨hCrypto, hNone⟩ | hEscapes
    · refine .inl ⟨hMalformed, ?_⟩
      rintro m' ⟨⟩
      exact hOther
    · exact .inr (.inl ⟨hCrypto, m, rfl, hNone⟩)
    · exact .inr (.inr ⟨m, rfl, hEscapes⟩)

namespace Sample

def publicKey : Bytes := [
  121, 181, 86, 46, 143, 230, 84, 249, 64, 120, 177, 18, 232, 169, 139, 167, 144, 31, 133, 58, 230, 149, 190,
  215, 224, 227, 145, 11, 173, 4, 150, 100]

/-- A message of an empty payload that is signed for the text `caller`. -/
def signed : Signed where
  headerOctets := [0xA1, 0x01, 0x27]
  unprotected := []
  payload := []
  signature := [
    153, 96, 224, 144, 121, 5, 181, 165, 198, 101, 68, 248, 10, 199, 60, 5, 17, 82, 54, 32, 145, 75, 83, 157, 53,
    228, 253, 1, 201, 144, 59, 140, 23, 112, 250, 15, 72, 254, 17, 216, 19, 195, 159, 19, 94, 110, 133, 70, 234,
    122, 169, 178, 67, 122, 66, 205, 2, 154, 195, 126, 119, 88, 110, 14]

def caller : Bytes := [0x63, 0x61, 0x6C, 0x6C, 0x65, 0x72]

/-- The signed token is accepted for the second of two keys, and the same token with only the beginning of
its header is not reported as malformed. -/
theorem truncated_header_escapes :
    (∀ key ∈ [List.replicate 32 0, publicKey], key.length = Ed25519.keyLength) ∧
      verify signed.toBytes caller [List.replicate 32 0, publicKey] = .ok signed ∧
      verify { signed with headerOctets := [0xA1] }.toBytes caller [List.replicate 32 0, publicKey] =
        .error (.breakdown (.cbor .ended)) := by
  have hKeys : ∀ key ∈ [List.replicate 32 0, publicKey], key.length = Ed25519.keyLength := by
    intro key hMem
    rcases List.mem_cons.mp hMem with rfl | hMem
    · rfl
    · rw [List.mem_singleton.mp hMem]
      rfl
  obtain ⟨hAccepted, -, -⟩ := verified_or_refused signed.toBytes caller _ hKeys
  obtain ⟨-, -, hEscaped⟩ := verified_or_refused { signed with headerOctets := [0xA1] }.toBytes caller _ hKeys
  refine ⟨hKeys, (hAccepted signed).mpr ⟨rfl, ?_, publicKey, by simp, by decide +kernel⟩, ?_⟩
  · exact ⟨false, [(.int 1, .int (-8))], [], .int (-8), rfl, by simp [algorithmLabel],
      by simp [Cbor.Value.isInt, edDsa]⟩
  · exact hEscaped { signed with headerOctets := [0xA1] } _ rfl (.undecodable .ended (List.cons_ne_nil _ _) rfl)

end Sample

end Signed

/-! ## Times -/

namespace Claims

variable {bs : Bytes} {claims : Cbor.Entries} {now n : Int} {label : Int} {v : Cbor.Value} {why : Failure}

/-- The whole part of a number, a flag being one or zero. -/
inductive WholePart : Cbor.Value → Int → Prop where
  | int (n : Int) : WholePart (.int n) n
  | bool (b : Bool) : WholePart (.bool b) (if b then 1 else 0)
  | float (x : Binary64) (finite : x.isFinite = true) : WholePart (.float x) (x.ratio.1.tdiv x.ratio.2)

/-- What comes out of a time that is a double without a whole part, or no number and cannot be shown. -/
inductive Escapes : Cbor.Value → Failure → Prop where
  | notANumber (x : Binary64) (odd : x.isNaN = true) : Escapes (.float x) (.breakdown .timestampNotANumber)
  | infinite (x : Binary64) (odd : x.isInfinite = true) : Escapes (.float x) (.breakdown .timestampInfinite)
  | unshowable (v : Cbor.Value) (noInteger : v.integer? = none) (noDouble : ∀ x, v ≠ .float x)
      (tooLong : v.isPrintable = false) : Escapes v (.breakdown .numberTooLong)

theorem seconds_of_not_float (h : ∀ x, v ≠ .float x) :
    seconds v = match v.integer? with
      | some n => .ok n
      | none => .error (refused .timestamp v v.inspect) := by
  cases v with
  | float x => exact (h x rfl).elim
  | _ => rfl

theorem seconds_of_wholePart (h : WholePart v n) : seconds v = .ok n := by
  cases h with
  | int n => rfl
  | bool b => rfl
  | float x finite =>
    obtain ⟨hNumber, hFinite⟩ := x.isFinite_iff.mp finite
    unfold seconds
    dsimp only
    rw [hNumber, hFinite, ← Binary64.truncate_eq_tdiv]
    rfl

theorem wholePart_of_integer? (h : v.integer? = some n) : WholePart v n := by
  cases v with
  | bool b =>
    cases h
    exact .bool b
  | int n =>
    cases h
    exact .int n
  | _ => cases h

theorem wholePart_of_seconds (h : seconds v = .ok n) : WholePart v n := by
  by_cases hDouble : ∃ x, v = .float x
  · obtain ⟨x, rfl⟩ := hDouble
    unfold seconds at h
    dsimp only at h
    split at h
    · cases h
    · next hNumber =>
      split at h
      · cases h
      · next hFinite =>
        cases h
        rw [Bool.not_eq_true] at hNumber hFinite
        rw [Binary64.truncate_eq_tdiv]
        exact .float x (x.isFinite_iff.mpr ⟨hNumber, hFinite⟩)
  · rw [seconds_of_not_float fun x hSame => hDouble ⟨x, hSame⟩] at h
    split at h
    · next hInteger =>
      cases h
      exact wholePart_of_integer? hInteger
    · cases h

theorem failsAs_seconds (v : Cbor.Value) :
    FailsAs (fun why => why.IsMalformed ∨ Escapes v why) (seconds v) := by
  by_cases hDouble : ∃ x, v = .float x
  · obtain ⟨x, rfl⟩ := hDouble
    unfold seconds
    dsimp only
    split
    · next hNumber => exact failsAs_error (.inr (.notANumber x hNumber))
    · split
      · next hInfinite => exact failsAs_error (.inr (.infinite x hInfinite))
      · exact failsAs_ok _
  · have hNoDouble : ∀ x, v ≠ .float x := fun x hSame => hDouble ⟨x, hSame⟩
    rw [seconds_of_not_float hNoDouble]
    split
    · exact failsAs_ok _
    · next hInteger =>
      unfold refused
      cases hShown : v.isPrintable with
      | true => exact failsAs_error (.inl ⟨_, rfl⟩)
      | false => exact failsAs_error (.inr (.unshowable v hInteger hNoDouble hShown))

theorem seconds_of_escapes (h : Escapes v why) : seconds v = .error why := by
  cases h with
  | notANumber x odd =>
    unfold seconds
    exact if_pos odd
  | infinite x odd =>
    unfold seconds
    dsimp only
    rw [Binary64.not_isNaN_of_isInfinite odd, odd]
    rfl
  | unshowable v noInteger noDouble tooLong =>
    rw [seconds_of_not_float noDouble, noInteger]
    dsimp only
    rw [refused, tooLong]
    rfl

theorem seconds_eq_ok_iff : seconds v = .ok n ↔ WholePart v n :=
  ⟨wholePart_of_seconds, seconds_of_wholePart⟩

/-- A time is stated under a label; a null does not count. -/
def Stated (claims : Cbor.Entries) (label : Int) (v : Cbor.Value) : Prop :=
  Cbor.Value.lookup (.int label) claims = some v ∧ v.isNull = false

theorem timestamp?_of_stated (h : Stated claims label v) :
    timestamp? label claims = seconds v >>= fun n => .ok (some n) := by
  obtain ⟨hFound, hThere⟩ := h
  unfold timestamp?
  rw [hFound]
  cases v with
  | null => cases hThere
  | _ => rfl

theorem timestamp?_of_not_stated (h : ∀ v, ¬ Stated claims label v) : timestamp? label claims = .ok none := by
  unfold timestamp?
  split
  · rfl
  · rfl
  · next v hOther hFound =>
    refine (h v ⟨hFound, ?_⟩).elim
    cases v with
    | null => exact (hOther rfl).elim
    | _ => rfl

section Window

variable (outside : Int → Prop) [DecidablePred outside]

/-- The check of one of the two times. -/
def checkTime (label : Int) (refusal : Denial) (claims : Cbor.Entries) : Result Unit := do
  match ← timestamp? label claims with
  | some n => if outside n then .error (.denied refusal) else .ok ()
  | none => .ok ()

/-- A check with the rest of the work in each of its branches is one in front of that work. -/
theorem checkTime_bind {α : Type} (label : Int) (refusal : Denial) (claims : Cbor.Entries) (rest : Result α) :
    (do
      if let some n ← timestamp? label claims then
        if outside n then throw (.denied refusal)
      rest) = checkTime outside label refusal claims >>= fun _ => rest := by
  unfold checkTime
  cases timestamp? label claims with
  | error why => rfl
  | ok time? =>
    cases time? with
    | none => rfl
    | some n =>
      dsimp only [bind, Except.bind]
      by_cases hOutside : outside n
      · rw [if_pos hOutside, if_pos hOutside]
        rfl
      · rw [if_neg hOutside, if_neg hOutside]

variable {outside} {refusal : Denial}

theorem checkTime_of_stated (h : Stated claims label v) :
    checkTime outside label refusal claims =
      seconds v >>= fun n => if outside n then .error (.denied refusal) else .ok () := by
  unfold checkTime
  rw [timestamp?_of_stated h]
  cases seconds v with
  | error why => rfl
  | ok n => rfl

theorem checkTime_eq_ok_iff : checkTime outside label refusal claims = .ok () ↔
    ∀ v, Stated claims label v → ∃ n, WholePart v n ∧ ¬ outside n := by
  by_cases hStated : ∃ v, Stated claims label v
  · obtain ⟨v, hStated⟩ := hStated
    have hOnly : ∀ w, Stated claims label w → w = v := fun w hOther =>
      Option.some.inj (hOther.1.symm.trans hStated.1)
    simp only [checkTime_of_stated hStated, bind_eq_ok_iff, seconds_eq_ok_iff]
    constructor
    · rintro ⟨n, hWhole, hInside⟩ w hOther
      rw [hOnly w hOther]
      refine ⟨n, hWhole, fun hOutside => ?_⟩
      rw [if_pos hOutside] at hInside
      cases hInside
    · intro hTimes
      obtain ⟨n, hWhole, hInside⟩ := hTimes v hStated
      exact ⟨n, hWhole, if_neg hInside⟩
  · have hNone : ∀ v, ¬ Stated claims label v := fun v h => hStated ⟨v, h⟩
    unfold checkTime
    rw [timestamp?_of_not_stated hNone]
    exact ⟨fun _ v h => (hNone v h).elim, fun _ => rfl⟩

theorem cases_of_checkTime_error (h : checkTime outside label refusal claims = .error why) :
    ∃ v, Stated claims label v ∧
      ((why.IsMalformed ∧ ∀ n, ¬ WholePart v n) ∨ (why = .denied refusal ∧ ∃ n, WholePart v n ∧ outside n) ∨
        Escapes v why) := by
  by_cases hStated : ∃ v, Stated claims label v
  · obtain ⟨v, hStated⟩ := hStated
    refine ⟨v, hStated, ?_⟩
    rw [checkTime_of_stated hStated] at h
    cases hSeconds : seconds v with
    | error fault =>
      rw [hSeconds] at h
      cases h
      rcases failsAs_seconds v why hSeconds with hMalformed | hEscapes
      · refine .inl ⟨hMalformed, fun n hWhole => ?_⟩
        rw [seconds_of_wholePart hWhole] at hSeconds
        cases hSeconds
      · exact .inr (.inr hEscapes)
    | ok n =>
      rw [hSeconds] at h
      dsimp only [bind, Except.bind] at h
      split at h
      · next hOutside =>
        cases h
        exact .inr (.inl ⟨rfl, n, wholePart_of_seconds hSeconds, hOutside⟩)
      · cases h
  · have hNone : ∀ v, ¬ Stated claims label v := fun v h => hStated ⟨v, h⟩
    unfold checkTime at h
    rw [timestamp?_of_not_stated hNone] at h
    cases h

theorem checkTime_of_escapes (hStated : Stated claims label v) (h : Escapes v why) :
    checkTime outside label refusal claims = .error why := by
  rw [checkTime_of_stated hStated, seconds_of_escapes h]
  rfl

end Window

/-- The claims have not expired at a time, as far as they say. -/
def Unexpired (claims : Cbor.Entries) (now : Int) : Prop :=
  ∀ v, Stated claims expiryLabel v → ∃ n, WholePart v n ∧ now - 300 ≤ n

/-- The claims are valid already at a time, as far as they say. -/
def Begun (claims : Cbor.Entries) (now : Int) : Prop :=
  ∀ v, Stated claims notBeforeLabel v → ∃ n, WholePart v n ∧ n ≤ now + 300

/-- Why claims are refused at a time: one that they state is of no use, or lies on the wrong side. -/
inductive Refused (claims : Cbor.Entries) (now : Int) : Failure → Prop where
  | unusable (why : Failure) (label : Int) (v : Cbor.Value)
      (known : label = expiryLabel ∨ label = notBeforeLabel) (stated : Stated claims label v)
      (useless : ∀ n, ¬ WholePart v n) (malformed : why.IsMalformed) : Refused claims now why
  | expired (v : Cbor.Value) (n : Int) (stated : Stated claims expiryLabel v) (whole : WholePart v n)
      (past : n < now - 300) : Refused claims now (.denied .tokenExpired)
  | early (v : Cbor.Value) (n : Int) (stated : Stated claims notBeforeLabel v) (whole : WholePart v n)
      (future : now + 300 < n) : Refused claims now (.denied .tokenNotYetValid)

/-- What comes out of the first time that is looked at and can neither be used nor be reported. -/
inductive Breaks (claims : Cbor.Entries) (now : Int) (why : Failure) : Prop where
  | expiry (v : Cbor.Value) (stated : Stated claims expiryLabel v) (escapes : Escapes v why)
  | start (v : Cbor.Value) (unexpired : Unexpired claims now) (stated : Stated claims notBeforeLabel v)
      (escapes : Escapes v why)

theorem checkExpiry_eq_ok_iff :
    checkTime (· < now - tolerance) expiryLabel .tokenExpired claims = .ok () ↔ Unexpired claims now := by
  rw [checkTime_eq_ok_iff]
  simp only [Int.not_lt]
  rfl

theorem checkStart_eq_ok_iff :
    checkTime (now + tolerance < ·) notBeforeLabel .tokenNotYetValid claims = .ok () ↔ Begun claims now := by
  rw [checkTime_eq_ok_iff]
  simp only [Int.not_lt]
  rfl

section Map

variable {rest : Bytes} (hDecoded : Cbor.decode bs = .ok (.map false claims, rest))

include hDecoded

theorem decode_of_map (now : Int) : decode bs now = (do
    checkTime (· < now - tolerance) expiryLabel .tokenExpired claims
    checkTime (now + tolerance < ·) notBeforeLabel .tokenNotYetValid claims
    return claims) := by
  unfold decode
  rw [(decodeFirst_eq_ok_iff _ _ _ _).mpr ⟨rest, hDecoded⟩]
  exact (checkTime_bind (· < now - tolerance) _ _ _ _).trans
    (congrArg _ (funext fun _ => checkTime_bind (now + tolerance < ·) _ _ _ _))

theorem decode_eq_ok_iff_of_map {claims' : Cbor.Entries} :
    decode bs now = .ok claims' ↔ claims' = claims ∧ Unexpired claims now ∧ Begun claims now := by
  rw [decode_of_map hDecoded]
  simp only [bind_eq_ok_iff, exists_unit_iff, checkExpiry_eq_ok_iff, checkStart_eq_ok_iff, pure_eq_ok_iff]
  constructor
  · rintro ⟨hExpiry, hStart, rfl⟩
    exact ⟨rfl, hExpiry, hStart⟩
  · rintro ⟨rfl, hExpiry, hStart⟩
    exact ⟨hExpiry, hStart, rfl⟩

theorem decode_of_breaks (h : Breaks claims now why) : decode bs now = .error why := by
  rw [decode_of_map hDecoded]
  cases h with
  | expiry v stated escapes =>
    rw [checkTime_of_escapes stated escapes]
    rfl
  | start v unexpired stated escapes =>
    rw [checkExpiry_eq_ok_iff.mpr unexpired, checkTime_of_escapes stated escapes]
    rfl

theorem cases_of_decode_error (h : decode bs now = .error why) :
    Refused claims now why ∨ Breaks claims now why := by
  rw [decode_of_map hDecoded] at h
  cases hExpiry : checkTime (· < now - tolerance) expiryLabel .tokenExpired claims with
  | error fault =>
    rw [hExpiry] at h
    cases h
    obtain ⟨v, hStated, ⟨hMalformed, hUseless⟩ | ⟨rfl, n, hWhole, hPast⟩ | hEscapes⟩ :=
      cases_of_checkTime_error hExpiry
    · exact .inl (.unusable why expiryLabel v (.inl rfl) hStated hUseless hMalformed)
    · exact .inl (.expired v n hStated hWhole hPast)
    · exact .inr (.expiry v hStated hEscapes)
  | ok u =>
    rw [hExpiry] at h
    dsimp only [bind, Except.bind] at h
    cases hStart : checkTime (now + tolerance < ·) notBeforeLabel .tokenNotYetValid claims with
    | error fault =>
      rw [hStart] at h
      cases h
      obtain ⟨v, hStated, ⟨hMalformed, hUseless⟩ | ⟨rfl, n, hWhole, hFuture⟩ | hEscapes⟩ :=
        cases_of_checkTime_error hStart
      · exact .inl (.unusable why notBeforeLabel v (.inr rfl) hStated hUseless hMalformed)
      · exact .inl (.early v n hStated hWhole hFuture)
      · exact .inr (.start v (checkExpiry_eq_ok_iff.mp hExpiry) hStated hEscapes)
    | ok u' =>
      rw [hStart] at h
      cases h

end Map

theorem exists_map_of_decode (h : decode bs now = .ok claims) :
    ∃ claims' rest, Cbor.decode bs = .ok (.map false claims', rest) := by
  obtain ⟨v, hFirst, hChecked⟩ := (bind_eq_ok_iff _ _ _).mp h
  obtain ⟨rest, hDecoded⟩ := (decodeFirst_eq_ok_iff _ _ _ _).mp hFirst
  split at hChecked
  · exact ⟨_, rest, hDecoded⟩
  · cases hChecked

theorem isMalformed_of_not_map (hNoMap : ∀ claims rest, Cbor.decode bs ≠ .ok (.map false claims, rest))
    (h : decode bs now = .error why) : why.IsMalformed := by
  unfold decode at h
  cases hFirst : decodeFirst .claims bs with
  | error fault =>
    rw [hFirst] at h
    cases h
    exact failsAs_decodeFirst .claims bs _ why hFirst
  | ok v =>
    obtain ⟨rest, hDecoded⟩ := (decodeFirst_eq_ok_iff _ _ _ _).mp hFirst
    rw [hFirst] at h
    dsimp only [bind, Except.bind] at h
    split at h
    · exact (hNoMap _ rest hDecoded).elim
    · cases h
      exact ⟨_, rfl⟩

/-- When claims are valid, and in which ways they are refused otherwise. A time that is a double without a
whole part, or no number and too long to be shown, is not reported as malformed. -/
theorem valid_or_refused (bs : Bytes) (now : Int) :
    (∀ claims, decode bs now = .ok claims ↔
      (∃ rest, Cbor.decode bs = .ok (.map false claims, rest)) ∧ Unexpired claims now ∧ Begun claims now) ∧
    (∀ why, decode bs now = .error why →
      (why.IsMalformed ∧ ∀ claims rest, Cbor.decode bs ≠ .ok (.map false claims, rest)) ∨
      ∃ claims rest, Cbor.decode bs = .ok (.map false claims, rest) ∧
        (Refused claims now why ∨ Breaks claims now why)) ∧
    ∀ claims rest why, Cbor.decode bs = .ok (.map false claims, rest) → Breaks claims now why →
      decode bs now = .error why := by
  refine ⟨fun claims => ⟨fun hValid => ?_, ?_⟩, fun why hFails => ?_, fun claims rest why => decode_of_breaks⟩
  · obtain ⟨claims', rest, hDecoded⟩ := exists_map_of_decode hValid
    obtain ⟨rfl, hTimes⟩ := (decode_eq_ok_iff_of_map hDecoded).mp hValid
    exact ⟨⟨rest, hDecoded⟩, hTimes⟩
  · rintro ⟨⟨rest, hDecoded⟩, hTimes⟩
    exact (decode_eq_ok_iff_of_map hDecoded).mpr ⟨rfl, hTimes⟩
  · by_cases hMap : ∃ claims rest, Cbor.decode bs = .ok (.map false claims, rest)
    · obtain ⟨claims, rest, hDecoded⟩ := hMap
      exact .inr ⟨claims, rest, hDecoded, cases_of_decode_error hDecoded hFails⟩
    · have hNoMap : ∀ claims rest, Cbor.decode bs ≠ .ok (.map false claims, rest) :=
        fun claims rest hDecoded => hMap ⟨claims, rest, hDecoded⟩
      exact .inl ⟨isMalformed_of_not_map hNoMap hFails, hNoMap⟩

/-- Claims that expire at the time 1 with a tolerance of 300, and at a time that is not a number. -/
theorem odd_expiry_escapes :
    decode [0xA1, 0x04, 0x01] 301 = .ok [(.int 4, .int 1)] ∧
      decode [0xA1, 0x04, 0xF9, 0x7E, 0x00] 301 = .error (.breakdown .timestampNotANumber) := by
  have hStated (v : Cbor.Value) (hThere : v.isNull = false) : Stated [(.int 4, v)] expiryLabel v :=
    ⟨by simp [expiryLabel], hThere⟩
  constructor
  · refine ((valid_or_refused _ 301).1 _).mpr ⟨⟨[], rfl⟩, ?_, ?_⟩
    · rintro v ⟨hFound, -⟩
      rw [(hStated (.int 1) rfl).1] at hFound
      cases hFound
      exact ⟨1, .int 1, by decide⟩
    · rintro v ⟨hFound, -⟩
      simp [notBeforeLabel, Cbor.Value.lookup] at hFound
  · have hDecoded : Cbor.decode [0xA1, 0x04, 0xF9, 0x7E, 0x00] =
        .ok (.map false [(.int 4, .float .notANumber)], []) := rfl
    have hOdd : Escapes (.float .notANumber) (.breakdown .timestampNotANumber) := .notANumber _ (by decide)
    exact (valid_or_refused _ 301).2.2 _ _ _ hDecoded (.expiry _ (hStated _ rfl) hOdd)

end Claims

end Cose

end TenantVault
