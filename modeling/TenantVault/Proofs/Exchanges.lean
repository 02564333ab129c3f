import TenantVault.KeyExchange
import TenantVault.Proofs.Evaluation
import TenantVault.Request.Forms
import TenantVault.Signer

/-! # Exchanges of keys

The service draws its secret anew for each exchange, and the client has made one of its own. Each of them
combines its secret with the public key of the other, which gives both the same shared secret.
-/

namespace TenantVault

namespace KeyExchange

theorem length_shared_of_respond {random theirs nonce : Bytes} {agreement : Agreement}
    (h : respond random theirs nonce = .ok agreement) : agreement.shared.length = 32 := by
  unfold respond agree at h
  split at h
  · cases h
  · split at h
    · cases h
    · split at h
      · next shared hShared =>
        cases h
        unfold X25519.exchange? at hShared
        dsimp only at hShared
        split at hShared
        · cases hShared
        · cases hShared
          exact X25519.length_multiply _ _
      · cases h

theorem length_nonce_of_checkRequest {theirs nonce : Bytes} (h : checkRequest theirs nonce = .ok ()) :
    nonce.length = Gcm.nonceLength := by
  unfold checkRequest at h
  split at h
  · cases h
  · next hLength => exact Decidable.not_not.mp hLength

end KeyExchange

/-- A request that was made with a secret, and an exchange in which both sides come to the same. -/
structure ExchangeRequest.Agrees (input : ExchangeRequest) (secret random : Bytes) : Prop where
  length_secret : secret.length = X25519.keyLength
  publicKey : input.publicKey = X25519.publicKey secret
  nonce : input.nonce.length = Gcm.nonceLength
  shared : ∃ shared,
    X25519.exchange? secret (X25519.publicKey (HashFunction.sha3_256.hmac random input.nonce)) =
      some shared ∧
    X25519.exchange? (HashFunction.sha3_256.hmac random input.nonce) (X25519.publicKey secret) =
      some shared

namespace ExchangeRequest.Agrees

variable {input : ExchangeRequest} {secret random : Bytes}

theorem checkRequest (h : input.Agrees secret random) :
    KeyExchange.checkRequest input.publicKey input.nonce = .ok () := by
  have hLength : input.publicKey.length = X25519.keyLength := by
    rw [h.publicKey, X25519.publicKey, X25519.length_multiply]
  unfold KeyExchange.checkRequest
  rw [if_neg (Decidable.not_not.mpr h.nonce), if_neg (Decidable.not_not.mpr hLength)]

theorem respond (h : input.Agrees secret random) : ∃ agreement,
    KeyExchange.respond random input.publicKey input.nonce = .ok agreement ∧
      KeyExchange.clientSecret secret agreement.publicKey = .ok agreement.shared := by
  have hPublic (s : Bytes) : (X25519.publicKey s).length = X25519.keyLength := X25519.length_multiply ..
  have hSecret : (HashFunction.sha3_256.hmac random input.nonce).length = X25519.keyLength :=
    TenantKey.length_ofSignature random input.nonce
  obtain ⟨shared, hClient, hServer⟩ := h.shared
  refine ⟨⟨shared, X25519.publicKey (HashFunction.sha3_256.hmac random input.nonce)⟩, ?_, ?_⟩
  · unfold KeyExchange.respond KeyExchange.agree
    rw [h.publicKey, if_neg (Decidable.not_not.mpr hSecret), if_neg (Decidable.not_not.mpr (hPublic secret)),
      hServer]
  · unfold KeyExchange.clientSecret
    rw [if_neg (Decidable.not_not.mpr h.length_secret), if_neg (Decidable.not_not.mpr (hPublic _)), hClient]

end ExchangeRequest.Agrees

namespace Server.Sample

/-! ## An exchange -/

def octets : Bytes := List.replicate 32 2

def ownSecret : Bytes := List.replicate 32 3

def exchangeNonce : Bytes := List.replicate 12 0

def ownRequest : ExchangeRequest := ⟨exchangeNonce, X25519.publicKey ownSecret⟩

def exchangeRequest : ExchangeRequest := ⟨exchangeNonce, List.replicate 32 9⟩

/-- The secret that the service makes of its octets. -/
def drawnSecret : Bytes :=
  [163, 148, 51, 112, 37, 235, 144, 45, 62, 35, 145, 158, 223, 146, 106, 253, 124, 93, 0, 165, 251, 249,
    24, 44, 237, 211, 210, 75, 143, 21, 40, 115]

theorem hmac_octets : HashFunction.sha3_256.hmac octets exchangeNonce = drawnSecret := by
  have hDigest : HashFunction.sha3_256.digest = Sha3.strictSha3_256 :=
    funext fun message => (Sha3.strictSha3_256_eq message).symm
  rw [HashFunction.hmac, hDigest]
  decide +kernel

/-- Client and service have different secrets and share a third one. -/
theorem ownRequest_agrees : ownRequest.Agrees ownSecret octets where
  length_secret := rfl
  publicKey := rfl
  nonce := rfl
  shared := by
    have hShared : ((X25519.multiply ownSecret (X25519.publicKey drawnSecret)).all (· = 0)) = false ∧
        X25519.multiply drawnSecret (X25519.publicKey ownSecret) =
          X25519.multiply ownSecret (X25519.publicKey drawnSecret) := by
      simp only [X25519.publicKey, ← X25519.strictMultiply_eq]
      decide +kernel
    obtain ⟨hNonzero, hSame⟩ := hShared
    have hNonce : ownRequest.nonce = exchangeNonce := rfl
    refine ⟨X25519.multiply ownSecret (X25519.publicKey drawnSecret), ?_, ?_⟩
    · rw [hNonce, hmac_octets, X25519.exchange?]
      simp only [hNonzero, Bool.false_eq_true, if_false]
    · rw [hNonce, hmac_octets, X25519.exchange?]
      simp only [hSame, hNonzero, Bool.false_eq_true, if_false]

theorem exchange_succeeds :
    ∃ agreement, KeyExchange.respond octets exchangeRequest.publicKey exchangeRequest.nonce =
      .ok agreement := by
  have hShared : ((X25519.multiply drawnSecret exchangeRequest.publicKey).all (· = 0)) = false := by
    rw [← X25519.strictMultiply_eq]
    decide +kernel
  have hExchange : X25519.exchange? drawnSecret exchangeRequest.publicKey =
      some (X25519.multiply drawnSecret exchangeRequest.publicKey) := by
    simp only [X25519.exchange?, hShared, Bool.false_eq_true, if_false]
  have hNonce : exchangeRequest.nonce = exchangeNonce := rfl
  rw [hNonce, KeyExchange.respond, hmac_octets, KeyExchange.agree, if_neg (by decide), if_neg (by decide),
    hExchange]
  exact ⟨_, rfl⟩

end Server.Sample

end TenantVault
