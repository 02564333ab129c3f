import TenantVault.Namespace.Operations
import TenantVault.Proofs.Access
import TenantVault.Proofs.CaseFolding
import TenantVault.Proofs.Elements
import TenantVault.Proofs.Strings
import TenantVault.PublicKey

/-! # What a fixed identity stands for

The key of a fixed identity holds the service behind one octet with its length, and the seed, which is a list of
two texts. All of it can be read back from the key, so two keys are the same only if service, namespace and name
in lowercase are. Identities are hashes of keys, and apart from collisions the same holds for them.
-/

namespace TenantVault

namespace PublicKey

variable {tag : UInt8} {content bs : Bytes}

theorem only?_element (h : content.length < 256 ^ 126) (tag : UInt8) :
    only? tag (Der.element tag content) = some content := by
  have hRead := Der.expect?_element h tag []
  rw [List.append_nil] at hRead
  rw [only?, hRead]

theorem eq_of_only? (h : only? tag bs = some content) : bs = Der.element tag content := by
  rw [only?] at h
  split at h
  · next hRead =>
    cases h
    rw [Der.eq_of_expect? hRead, List.append_nil]
  · cases h

end PublicKey

namespace Identity

variable {service service' : Principal} {ns ns' name name' : String}

section Keys

variable {seed seed' : Bytes}

/-! ## The parts of a key -/

/-- The algorithm of a key, the same in all of them. -/
def algorithm : Bytes := Der.element 0x30 (Der.element 0x06 signatureId)

/-- The content of the bit string of a key. No bit of its last octet is unused. -/
def bits (service : Principal) (seed : Bytes) : Bytes :=
  0x00 :: UInt8.ofNat service.raw.length :: service.raw ++ seed

theorem publicKey_eq (service : Principal) (seed : Bytes) :
    publicKey service seed = Der.element 0x30 (algorithm ++ Der.element 0x03 (bits service seed)) := rfl

theorem length_bits (service : Principal) (h : seed.length < 256 ^ 120) :
    (bits service seed).length < 256 ^ 126 - 256 := by
  have := service.length_le
  simp only [bits, List.cons_append, List.length_cons, List.length_append]
  omega

theorem length_body (service : Principal) (h : seed.length < 256 ^ 120) :
    (algorithm ++ Der.element 0x03 (bits service seed)).length < 256 ^ 126 := by
  have hBits := length_bits service h
  have hFits : (bits service seed).length < 256 ^ 126 := by omega
  have hElement := Der.length_element_le hFits 0x03
  have hAlgorithm : algorithm.length = 14 := by decide
  rw [List.length_append, hAlgorithm]
  omega

/-- The service and the seed that a bit string holds. -/
def holder? : Bytes → Option (Principal × Bytes)
  | 0x00 :: size :: raw =>
    if raw.length < size.toNat then none
    else (Principal.ofRaw? (raw.take size.toNat)).map fun service => (service, raw.drop size.toNat)
  | _ => none

theorem holder?_bits (service : Principal) (seed : Bytes) : holder? (bits service seed) = some (service, seed) := by
  have hSize : (UInt8.ofNat service.raw.length).toNat = service.raw.length := by
    have := service.length_le
    rw [UInt8.toNat_ofNat']
    omega
  have hThere : ¬ (service.raw ++ seed).length < service.raw.length := by
    rw [List.length_append]
    omega
  simp only [bits, List.cons_append, holder?, hSize, if_neg hThere, List.take_left, List.drop_left,
    Principal.ofRaw?, dif_pos service.length_le]
  rfl

theorem eq_bits_of_holder? {content : Bytes} (h : holder? content = some (service, seed)) :
    content = bits service seed := by
  unfold holder? at h
  split at h
  · next size raw =>
    split at h
    · cases h
    · next hThere =>
      obtain ⟨found, hFound, hPair⟩ := Option.map_eq_some_iff.mp h
      cases hPair
      rw [Principal.ofRaw?] at hFound
      split at hFound
      · cases hFound
        have hSize : (raw.take size.toNat).length = size.toNat := by
          rw [List.length_take]
          omega
        simp only [bits, hSize, UInt8.ofNat_toNat, List.cons_append, List.take_append_drop]
      · cases hFound
  · cases h

theorem bits_inj : bits service seed = bits service' seed' ↔ service = service' ∧ seed = seed' := by
  constructor
  · intro hSame
    have hRead := holder?_bits service seed
    rw [hSame, holder?_bits] at hRead
    cases hRead
    exact ⟨rfl, rfl⟩
  · rintro ⟨rfl, rfl⟩
    rfl

/-! ## Keys -/

/-- A subject public key of a service and a seed, each length written as it has to be. -/
inductive IsPublicKey (service : Principal) (seed : Bytes) : Bytes → Prop
  | intro {id algorithm string whole : Bytes}
    (id_element : Der.IsElement 0x06 signatureId id)
    (algorithm_element : Der.IsElement 0x30 id algorithm)
    (string_element : Der.IsElement 0x03 (bits service seed) string)
    (whole_element : Der.IsElement 0x30 (algorithm ++ string) whole) : IsPublicKey service seed whole

theorem isPublicKey_publicKey (service : Principal) (h : seed.length < 256 ^ 120) :
    IsPublicKey service seed (publicKey service seed) := by
  have hBits := length_bits service h
  apply IsPublicKey.intro
  · exact Der.isElement_element (by decide) 0x06
  · exact Der.isElement_element (by decide) 0x30
  · exact Der.isElement_element (by omega) 0x03
  · exact Der.isElement_element (length_body service h) 0x30

/-- The service and the seed of a key. -/
def readPublicKey? (der : Bytes) : Option (Principal × Bytes) := do
  let body ← PublicKey.only? 0x30 der
  let (algorithm, string) ← Der.expect? 0x30 body
  let id ← PublicKey.only? 0x06 algorithm
  if id = signatureId then holder? (← PublicKey.only? 0x03 string) else none

theorem readPublicKey?_publicKey (service : Principal) (h : seed.length < 256 ^ 120) :
    readPublicKey? (publicKey service seed) = some (service, seed) := by
  have hBits := length_bits service h
  have hBody := PublicKey.only?_element (length_body service h) 0x30
  have hAlgorithm : Der.expect? 0x30 (algorithm ++ Der.element 0x03 (bits service seed)) =
      some (Der.element 0x06 signatureId, Der.element 0x03 (bits service seed)) :=
    Der.expect?_element (by decide) 0x30 _
  have hId : PublicKey.only? 0x06 (Der.element 0x06 signatureId) = some signatureId :=
    PublicKey.only?_element (by decide) 0x06
  have hString : PublicKey.only? 0x03 (Der.element 0x03 (bits service seed)) = some (bits service seed) :=
    PublicKey.only?_element (by omega) 0x03
  rw [publicKey_eq]
  simp only [readPublicKey?, hBody, hAlgorithm, hId, hString, Option.bind_eq_bind, Option.bind_some, if_true]
  exact holder?_bits service seed

/-- Nothing else than the key of a service and a seed is read as one. -/
theorem eq_publicKey_of_read {der : Bytes} (h : readPublicKey? der = some (service, seed)) :
    der = publicKey service seed := by
  simp only [readPublicKey?, Option.bind_eq_bind, Option.bind_eq_some_iff] at h
  obtain ⟨body, hBody, ⟨algorithm', string⟩, hParts, id, hId, h⟩ := h
  split at h
  · next hSame =>
    obtain ⟨content, hString, hHolder⟩ := Option.bind_eq_some_iff.mp h
    dsimp only at hId hString
    rw [publicKey_eq, PublicKey.eq_of_only? hBody, Der.eq_of_expect? hParts, PublicKey.eq_of_only? hId,
      PublicKey.eq_of_only? hString, eq_bits_of_holder? hHolder, hSame, algorithm]
  · cases h

theorem publicKey_inj :
    publicKey service seed = publicKey service' seed' ↔ service = service' ∧ seed = seed' := by
  constructor
  · intro hSame
    obtain ⟨-, hBody⟩ := Der.element_inj hSame
    obtain ⟨-, hBits⟩ := Der.element_inj (List.append_cancel_left hBody)
    exact bits_inj.mp hBits
  · rintro ⟨rfl, rfl⟩
    rfl

end Keys

/-! ## Seeds -/

/-- The texts of a seed are not too long for their heads, which hold 64 bits. No text in the memory of a machine
is longer. -/
structure Writable (ns name : String) : Prop where
  ns_fits : ns.utf8ByteSize < 2 ^ 64
  name_fits : (Text.lower name).utf8ByteSize < 2 ^ 64

theorem Writable.isString (h : Writable ns name) :
    ∀ v ∈ [Cbor.Value.text ns, .text (Text.lower name)], Cbor.IsString v := by
  rw [List.forall_mem_cons, List.forall_mem_singleton]
  exact ⟨Cbor.isString_text_iff.mpr h.ns_fits, Cbor.isString_text_iff.mpr h.name_fits⟩

theorem Writable.length_seed (h : Writable ns name) : (seed ns name).length < 256 ^ 120 := by
  have hNs := h.ns_fits
  have hName := h.name_fits
  have hCount := Cbor.length_head_le 4 [Cbor.Value.text ns, .text (Text.lower name)].length
  have hNsHead := Cbor.length_head_le 3 (Bytes.ofText ns).length
  have hNameHead := Cbor.length_head_le 3 (Bytes.ofText (Text.lower name)).length
  simp only [seed, Cbor.encode_list, Cbor.encodeItems_cons, Cbor.encodeItems_nil, Cbor.encode_text,
    List.length_append, List.length_nil, Bytes.length_ofText] at hNsHead hNameHead ⊢
  omega

theorem seed_inj (h : Writable ns name) (h' : Writable ns' name') :
    seed ns name = seed ns' name' ↔ ns = ns' ∧ Text.lower name = Text.lower name' := by
  constructor
  · intro hSame
    rw [seed, seed] at hSame
    have hTexts := Cbor.encode_list_inj (by simp) (by simp) h.isString h'.isString hSame
    simpa using hTexts
  · rintro ⟨rfl, hName⟩
    rw [seed, seed, hName]

/-! ## Identities -/

/-- Two different keys with one hash. -/
def Collide (key key' : Bytes) : Prop := key ≠ key' ∧ Sha256.sha224 key = Sha256.sha224 key'

theorem selfAuthenticating_eq_iff {key key' : Bytes} :
    Principal.selfAuthenticating key = .selfAuthenticating key' ↔ key = key' ∨ Collide key key' := by
  constructor
  · intro hSame
    have hRaw : Sha256.sha224 key ++ [0x02] = Sha256.sha224 key' ++ [0x02] := congrArg Principal.raw hSame
    have hHash := List.append_cancel_right hRaw
    by_cases hKey : key = key'
    · exact .inl hKey
    · exact .inr ⟨hKey, hHash⟩
  · rintro (rfl | ⟨-, hHash⟩)
    · rfl
    · apply Principal.ext
      simp only [Principal.selfAuthenticating, hHash]

/-- The name is given in lowercase on the way, and what is lowercase stays as it is. -/
theorem fixedIdentity_eq_ok_iff {p : Principal} :
    fixedIdentity service ns name = .ok p ↔ Name.check ns = .ok () ∧ p = principal service ns name := by
  have hName : seed ns (Text.lower name) = seed ns name := by
    rw [seed, seed, Text.lower_lower]
  rw [fixedIdentity, bind_eq_ok_iff, exists_unit_iff, pure_eq_ok_iff, principal, principal, hName]
  exact and_congr_right fun _ => eq_comm

/-- Fixed identities are told apart by what they stand for.

A key is a subject public key from which its service and its seed can be read back, and nothing else is read
as one; a length of DER has at most 126 octets, which is enough for any seed that a machine can hold. Two keys
are the same only if service and seed are, however long the seed is, and that is, if service, namespace and name in
lowercase are. So two identities can only be the same by a collision of hashes. -/
theorem fixed_identities_differ (service service' : Principal) (h : Writable ns name) (h' : Writable ns' name') :
    (∀ octets, octets.length < 256 ^ 120 → IsPublicKey service octets (publicKey service octets) ∧
      readPublicKey? (publicKey service octets) = some (service, octets)) ∧
    (∀ der octets, readPublicKey? der = some (service, octets) → der = publicKey service octets) ∧
    (seed ns name).length < 256 ^ 120 ∧
    (∀ octets octets', publicKey service octets = publicKey service' octets' ↔
      service = service' ∧ octets = octets') ∧
    (publicKey service (seed ns name) = publicKey service' (seed ns' name') ↔
      service = service' ∧ ns = ns' ∧ Text.lower name = Text.lower name') ∧
    (∀ p p', fixedIdentity service ns name = .ok p → fixedIdentity service' ns' name' = .ok p' →
      (p = p' ↔ (service = service' ∧ ns = ns' ∧ Text.lower name = Text.lower name') ∨
        Collide (publicKey service (seed ns name)) (publicKey service' (seed ns' name')))) := by
  have hKeys : publicKey service (seed ns name) = publicKey service' (seed ns' name') ↔
      service = service' ∧ ns = ns' ∧ Text.lower name = Text.lower name' :=
    publicKey_inj.trans (and_congr_right fun _ => seed_inj h h')
  refine ⟨fun octets hFits => ?_, fun der octets => eq_publicKey_of_read, h.length_seed,
    fun octets octets' => publicKey_inj, hKeys, ?_⟩
  · exact ⟨isPublicKey_publicKey service hFits, readPublicKey?_publicKey service hFits⟩
  · intro p p' hIdentity hIdentity'
    obtain ⟨-, rfl⟩ := fixedIdentity_eq_ok_iff.mp hIdentity
    obtain ⟨-, rfl⟩ := fixedIdentity_eq_ok_iff.mp hIdentity'
    rw [principal, principal, selfAuthenticating_eq_iff, hKeys]

theorem bots_told_apart : ∃ p p' p'', fixedIdentity .anonymous "app" "Bot" = .ok p ∧
    fixedIdentity .anonymous "app" "BOT" = .ok p' ∧ fixedIdentity .anonymous "ap" "pbot" = .ok p'' ∧
    p = p' ∧ (p = p'' →
      Collide (publicKey .anonymous (seed "app" "Bot")) (publicKey .anonymous (seed "ap" "pbot"))) := by
  have hBot : Writable "app" "Bot" := ⟨by decide, by decide⟩
  have hCapital : Writable "app" "BOT" := ⟨by decide, by decide⟩
  have hMoved : Writable "ap" "pbot" := ⟨by decide, by decide⟩
  have hLower : Text.lower "Bot" = Text.lower "BOT" := by decide
  have hNames : Name.check "app" = .ok () ∧ Name.check "ap" = .ok () := ⟨by decide, by decide⟩
  have hFirst := fixedIdentity_eq_ok_iff.mpr ⟨hNames.1, (rfl : _ = principal .anonymous "app" "Bot")⟩
  have hSecond := fixedIdentity_eq_ok_iff.mpr ⟨hNames.1, (rfl : _ = principal .anonymous "app" "BOT")⟩
  have hThird := fixedIdentity_eq_ok_iff.mpr ⟨hNames.2, (rfl : _ = principal .anonymous "ap" "pbot")⟩
  obtain ⟨-, -, -, -, -, hSame⟩ := fixed_identities_differ .anonymous .anonymous hBot hCapital
  obtain ⟨-, -, -, -, -, hOther⟩ := fixed_identities_differ .anonymous .anonymous hBot hMoved
  refine ⟨_, _, _, hFirst, hSecond, hThird, (hSame _ _ hFirst hSecond).mpr (.inl ⟨rfl, rfl, hLower⟩), ?_⟩
  intro hIdentity
  obtain ⟨-, hNs, -⟩ | hCollide := (hOther _ _ hFirst hThird).mp hIdentity
  · exact absurd hNs (by decide)
  · exact hCollide

end Identity

end TenantVault
