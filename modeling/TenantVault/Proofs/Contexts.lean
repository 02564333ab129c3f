import TenantVault.Cose.Encrypted
import TenantVault.Cose.Signed
import TenantVault.Proofs.Strings
import TenantVault.Service.Signatures

/-! # What is authenticated

Tags of sealed texts, signatures of tokens and signatures of delegators cover lists of strings. Each of these
lists is known from its octets, and so is what it is for: no octet can be moved from one part to another, and
what was signed or sealed for one purpose cannot be passed off for another.
-/

namespace TenantVault

/-- What a tag or a signature covers besides the sealed text: the structure of an encrypted message, that of a signed
message, or the challenge that a delegator signs. -/
inductive Context where
  | encrypted (header aad : Bytes)
  | signed (header aad payload : Bytes)
  | challenge (ns name : String) (caller : Principal)

namespace Context

variable {c c' : Context}

def items : Context → List Cbor.Value
  | encrypted header aad => [.text "Encrypt0", .bytes header, .bytes aad]
  | signed header aad payload => [.text "Signature1", .bytes header, .bytes aad, .bytes payload]
  | challenge ns name caller => [.text ns, .text name, .bytes caller.raw]

def octets (c : Context) : Bytes := Cbor.encode (.list false c.items)

theorem octets_encrypted (header aad : Bytes) :
    (encrypted header aad).octets = Cose.Encrypted.authenticated header aad := rfl

theorem octets_signed (m : Cose.Signed) (aad : Bytes) :
    (signed m.headerOctets aad m.payload).octets = m.signedPart aad := rfl

theorem octets_challenge (input : DelegationRequest) (caller : Principal) :
    (challenge input.ns input.name caller).octets = Signatures.challenge input caller := rfl

/-- The strings are not too long for their heads, which hold 64 bits. No string in the memory of a machine is
longer. -/
def Fits : Context → Prop
  | encrypted header aad => header.length < 2 ^ 64 ∧ aad.length < 2 ^ 64
  | signed header aad payload => header.length < 2 ^ 64 ∧ aad.length < 2 ^ 64 ∧ payload.length < 2 ^ 64
  | challenge ns name _ => ns.utf8ByteSize < 2 ^ 64 ∧ name.utf8ByteSize < 2 ^ 64

theorem Fits.isString (h : c.Fits) : ∀ v ∈ c.items, Cbor.IsString v := by
  cases c with
  | encrypted header aad =>
    have hTag : Cbor.IsString (.text "Encrypt0") := Cbor.isString_text_iff.mpr (by decide)
    simp [items, hTag, Cbor.IsString.bytes h.1, Cbor.IsString.bytes h.2]
  | signed header aad payload =>
    have hTag : Cbor.IsString (.text "Signature1") := Cbor.isString_text_iff.mpr (by decide)
    simp [items, hTag, Cbor.IsString.bytes h.1, Cbor.IsString.bytes h.2.1, Cbor.IsString.bytes h.2.2]
  | challenge ns name caller =>
    have hCaller : Cbor.IsString (.bytes caller.raw) := by
      have := caller.length_le
      exact .bytes (by omega)
    have hNs : Cbor.IsString (.text ns) := Cbor.isString_text_iff.mpr h.1
    have hName : Cbor.IsString (.text name) := Cbor.isString_text_iff.mpr h.2
    simp [items, hCaller, hNs, hName]

theorem length_items_lt (c : Context) : c.items.length < 2 ^ 64 := by
  cases c <;> simp [items]

theorem octets_ne_of_count (hCount : c.items.length ≠ c'.items.length) : c.octets ≠ c'.octets := by
  intro hSame
  rw [octets, octets, Cbor.encode_list, Cbor.encode_list] at hSame
  obtain ⟨-, hLength, -⟩ :=
    Cbor.head_append_inj (by decide) (by decide) c.length_items_lt c'.length_items_lt hSame
  exact hCount hLength

theorem encrypted_ne_signed (header aad header' aad' payload : Bytes) :
    (encrypted header aad).octets ≠ (signed header' aad' payload).octets := by
  apply octets_ne_of_count
  simp [items]

theorem signed_ne_challenge (header aad payload : Bytes) (ns name : String) (caller : Principal) :
    (signed header aad payload).octets ≠ (challenge ns name caller).octets := by
  apply octets_ne_of_count
  simp [items]

/-- The second item of a challenge is a text, and that of the structure of an encrypted message is not. -/
theorem encrypted_ne_challenge (header aad : Bytes) (ns name : String) (caller : Principal) :
    (encrypted header aad).octets ≠ (challenge ns name caller).octets := by
  intro hSame
  have hTag : (Bytes.ofText "Encrypt0").length = 8 := Bytes.length_ofText _
  simp only [octets, items, Cbor.encode_list, Cbor.encodeItems_cons, Cbor.encode_text, Cbor.encode_bytes,
    List.length_cons, List.length_nil, List.append_assoc] at hSame
  have hItems := List.append_cancel_left hSame
  rw [hTag] at hItems
  obtain ⟨hLength, hTexts⟩ := Cbor.head_append_inj_of_small (by decide) (by decide) hItems
  obtain ⟨-, hRest⟩ := List.append_inj hTexts (hTag.trans hLength)
  exact Cbor.head_append_ne (by decide) (by decide) (by decide) _ _ _ _ hRest

theorem items_inj (hSame : c.items = c'.items) : c = c' := by
  -- Contexts of different kinds differ in the number or in the kinds of their items.
  cases c <;> cases c' <;> simp [items] at hSame
  · next header aad header' aad' =>
    obtain ⟨rfl, rfl⟩ := hSame
    rfl
  · next header aad payload header' aad' payload' =>
    obtain ⟨rfl, rfl, rfl⟩ := hSame
    rfl
  · next ns name caller ns' name' caller' =>
    obtain ⟨rfl, rfl, hCaller⟩ := hSame
    rw [Principal.ext hCaller]

theorem octets_inj (h : c.Fits) (h' : c'.Fits) : c.octets = c'.octets ↔ c = c' := by
  constructor
  · intro hSame
    exact items_inj (Cbor.encode_list_inj c.length_items_lt c'.length_items_lt h.isString h'.isString hSame)
  · rintro rfl
    rfl

end Context

/-- What is authenticated shows what it is for: the octets of a context determine its parts, and for contexts of
different kinds they are never the same, whatever the parts are. -/
theorem contexts_unambiguous :
    (∀ (input input' : DelegationRequest) (caller caller' : Principal),
      (Context.challenge input.ns input.name caller).Fits →
      (Context.challenge input'.ns input'.name caller').Fits →
        (Signatures.challenge input caller = Signatures.challenge input' caller' ↔
          input.ns = input'.ns ∧ input.name = input'.name ∧ caller.raw = caller'.raw)) ∧
    (∀ header aad header' aad', (Context.encrypted header aad).Fits → (Context.encrypted header' aad').Fits →
      (Cose.Encrypted.authenticated header aad = Cose.Encrypted.authenticated header' aad' ↔
        header = header' ∧ aad = aad')) ∧
    (∀ (m m' : Cose.Signed) (aad aad' : Bytes), (Context.signed m.headerOctets aad m.payload).Fits →
      (Context.signed m'.headerOctets aad' m'.payload).Fits →
        (m.signedPart aad = m'.signedPart aad' ↔
          m.headerOctets = m'.headerOctets ∧ aad = aad' ∧ m.payload = m'.payload)) ∧
    (∀ header aad (m : Cose.Signed) aad', Cose.Encrypted.authenticated header aad ≠ m.signedPart aad') ∧
    (∀ header aad input caller, Cose.Encrypted.authenticated header aad ≠ Signatures.challenge input caller) ∧
    (∀ (m : Cose.Signed) aad input caller, m.signedPart aad ≠ Signatures.challenge input caller) := by
  refine ⟨?challenge, ?encrypted, ?signed, ?_, ?_, ?_⟩
  case challenge =>
    intro input input' caller caller' h h'
    rw [← Context.octets_challenge, ← Context.octets_challenge, Context.octets_inj h h', Context.challenge.injEq]
    exact and_congr_right fun _ => and_congr_right fun _ => ⟨congrArg Principal.raw, Principal.ext⟩
  case encrypted =>
    intro header aad header' aad' h h'
    rw [← Context.octets_encrypted, ← Context.octets_encrypted, Context.octets_inj h h', Context.encrypted.injEq]
  case signed =>
    intro m m' aad aad' h h'
    rw [← Context.octets_signed, ← Context.octets_signed, Context.octets_inj h h', Context.signed.injEq]
  · intro header aad m aad'
    exact Context.encrypted_ne_signed header aad m.headerOctets aad' m.payload
  · intro header aad input caller
    exact Context.encrypted_ne_challenge header aad input.ns input.name caller
  · intro m aad input caller
    exact Context.signed_ne_challenge m.headerOctets aad m.payload input.ns input.name caller

theorem moved_octet_authenticated :
    Signatures.challenge ⟨"app", "bot", [], []⟩ .anonymous ≠
        Signatures.challenge ⟨"ap", "pbot", [], []⟩ .anonymous ∧
      Cose.Encrypted.authenticated [0x01] [] ≠ Cose.Encrypted.authenticated [] [0x01] := by
  obtain ⟨hChallenge, hEncrypted, -⟩ := contexts_unambiguous
  constructor
  · have hFits : (Context.challenge "app" "bot" .anonymous).Fits ∧
        (Context.challenge "ap" "pbot" .anonymous).Fits := by
      refine ⟨⟨?_, ?_⟩, ?_, ?_⟩ <;> decide
    intro hSame
    obtain ⟨hNs, -⟩ := (hChallenge _ _ _ _ hFits.1 hFits.2).mp hSame
    exact absurd hNs (by decide)
  · intro hSame
    obtain ⟨hHeader, -⟩ := (hEncrypted _ _ _ _ ⟨by decide, by decide⟩ ⟨by decide, by decide⟩).mp hSame
    cases hHeader

end TenantVault
