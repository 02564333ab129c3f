import TenantVault.Cipher.Aes256

/-! # Galois/counter mode with AES-256

Authenticated encryption under a 96-bit nonce with a full 16-octet tag behind the ciphertext.
`decrypt?_encrypt` says that the right key, nonce and additional data give the plaintext back.
-/

namespace TenantVault.Gcm

def keyLength : Nat := 32

def nonceLength : Nat := 12

def tagLength : Nat := 16

/-- Multiplication in the field of `2 ^ 128` elements; the top bit of a block is the constant term. -/
def multiplyFrom : Nat → Nat → Nat → Nat → Nat
  | 0, _, _, z => z
  | bit + 1, x, v, z =>
    let z := if x.testBit bit then z ^^^ v else z
    let v := if v % 2 = 1 then (v / 2) ^^^ (0xE1 <<< 120) else v / 2
    multiplyFrom bit x v z

def multiply (x y : Nat) : Nat := multiplyFrom 128 x y 0

def padBlock (bs : Bytes) : Bytes := bs ++ List.replicate ((16 - bs.length % 16) % 16) 0

def hash (subkey : Nat) (bs : Bytes) : Nat :=
  (Bytes.chunks 16 bs).foldl (fun y block => multiply (y ^^^ Bytes.foldBE block) subkey) 0

def counterBlock (nonce : Bytes) (counter : Nat) : Bytes := nonce ++ Bytes.ofNatBE 4 counter

/-- Enough keystream for `size` octets of text, from the second counter value on. -/
def keystream (keys : List Bytes) (nonce : Bytes) (size : Nat) : Bytes :=
  let octets := (List.range ((size + 15) / 16)).flatMap fun i =>
    Aes256.encryptBlock keys (counterBlock nonce (i + 2))
  octets ++ List.replicate (size - octets.length) 0

theorem le_length_keystream (keys : List Bytes) (nonce : Bytes) (size : Nat) :
    size ≤ (keystream keys nonce size).length := by
  simp only [keystream, List.length_append, List.length_replicate]
  omega

/-- The text combined with the keystream; doing it twice gives the text back. -/
def crypt (keys : List Bytes) (nonce text : Bytes) : Bytes :=
  Bytes.xor text (keystream keys nonce text.length)

@[simp] theorem length_crypt (keys : List Bytes) (nonce text : Bytes) :
    (crypt keys nonce text).length = text.length := by
  have := le_length_keystream keys nonce text.length
  simp only [crypt, Bytes.length_xor]
  omega

theorem crypt_crypt (keys : List Bytes) (nonce text : Bytes) :
    crypt keys nonce (crypt keys nonce text) = text := by
  rw [crypt, length_crypt, crypt]
  exact Bytes.xor_xor_cancel _ _ (le_length_keystream keys nonce text.length)

def tag (keys : List Bytes) (nonce aad ciphertext : Bytes) : Bytes :=
  let subkey := Bytes.foldBE (Aes256.encryptBlock keys (List.replicate 16 0))
  let lengths := Bytes.ofNatBE 8 (8 * aad.length) ++ Bytes.ofNatBE 8 (8 * ciphertext.length)
  let digest := hash subkey (padBlock aad ++ padBlock ciphertext ++ lengths)
  Bytes.ofNatBE tagLength (digest ^^^ Bytes.foldBE (Aes256.encryptBlock keys (counterBlock nonce 1)))

@[simp] theorem length_tag (keys : List Bytes) (nonce aad ciphertext : Bytes) :
    (tag keys nonce aad ciphertext).length = tagLength := by
  simp [tag]

def encrypt (key nonce aad plaintext : Bytes) : Bytes :=
  let keys := Aes256.roundKeys key
  let ciphertext := crypt keys nonce plaintext
  ciphertext ++ tag keys nonce aad ciphertext

@[simp] theorem length_encrypt (key nonce aad plaintext : Bytes) :
    (encrypt key nonce aad plaintext).length = plaintext.length + tagLength := by
  simp [encrypt]

/-- The plaintext of a sealed text, if its tag is right. -/
def decrypt? (key nonce aad sealed : Bytes) : Option Bytes :=
  let keys := Aes256.roundKeys key
  let ciphertext := sealed.take (sealed.length - tagLength)
  if tag keys nonce aad ciphertext = sealed.drop (sealed.length - tagLength) then
    some (crypt keys nonce ciphertext)
  else none

theorem decrypt?_encrypt (key nonce aad plaintext : Bytes) :
    decrypt? key nonce aad (encrypt key nonce aad plaintext) = some plaintext := by
  have cut : (encrypt key nonce aad plaintext).length - tagLength =
      (crypt (Aes256.roundKeys key) nonce plaintext).length := by simp
  rw [decrypt?, cut]
  simp only [encrypt, List.take_left, List.drop_left, if_pos, crypt_crypt]

end TenantVault.Gcm
