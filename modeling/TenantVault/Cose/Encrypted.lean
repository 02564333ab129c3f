import TenantVault.Cbor.Encode
import TenantVault.Cipher.Sealed

/-! # Encrypted messages

The COSE message for a single recipient: a tagged list of a protected header, an unprotected header with
the nonce under label 5, and the sealed text. Header and outer data are both bound into the tag through
the structure that `authenticated` writes.

What a string holds is up to its decoder. This is `Cbor.decode` unless another one is named: decoders differ
in the tags that they give a meaning to, and what comes of an item does not depend on how it is written.
-/

namespace TenantVault.Cose

def algorithmLabel : Int := 1

def keyIdLabel : Int := 4

def nonceLabel : Int := 5

/-- AES-256-GCM. -/
def aesGcm : Int := 3

/-- The bytes of a string behind its message mark; the mark may be absent. -/
def withoutMark (mark : UInt8) (bs : Bytes) : Bytes :=
  match bs with
  | b :: rest => if b = mark then rest else bs
  | [] => []

/-- The only item in a string. -/
def decodeWhole (what : Document) (bs : Bytes) (read : Cbor.Decoder := Cbor.decode) : Result Cbor.Value :=
  match read bs with
  | .error fault => .error (.malformed (.undecodable what fault))
  | .ok (v, rest) => if rest.isEmpty then .ok v else .error (.malformed (.trailing rest.length))

/-- The first item in a string. -/
def decodeFirst (what : Document) (bs : Bytes) (read : Cbor.Decoder := Cbor.decode) : Result Cbor.Value :=
  match read bs with
  | .error fault => .error (.malformed (.undecodable what fault))
  | .ok (v, _) => .ok v

/-- A value that is refused by a message that shows it; a number that is too long cannot be shown. -/
def refused (cause : String → Malformation) (v : Cbor.Value) (shown : String) : Failure :=
  if v.isPrintable then .malformed (cause shown) else .breakdown .numberTooLong

/-- A value that is refused because it is none of the supported numbers. A signalling decimal does not get
as far as that, since comparing it fails. -/
def unsupported (cause : String → Malformation) (v : Cbor.Value) (shown : String) : Failure :=
  if v.signals then .breakdown .signalled else refused cause v shown

structure Encrypted where
  headerOctets : Bytes
  /-- What the protected header holds. -/
  header : Cbor.Entries
  unprotected : Cbor.Entries
  ciphertext : Bytes

namespace Encrypted

def mark : UInt8 := 0xD0

/-- The value under a label of the unprotected header. -/
def label? (m : Encrypted) (label : Int) : Option Cbor.Value := Cbor.Value.lookup (.int label) m.unprotected

def nonce (m : Encrypted) : Cbor.Value := (m.label? nonceLabel).getD (.bytes [])

def keyId (m : Encrypted) : Cbor.Value := (m.label? keyIdLabel).getD .null

def algorithm (m : Encrypted) : Cbor.Value :=
  (Cbor.Value.lookup (.int algorithmLabel) m.header).getD .null

def decodeHeader (octets : Bytes) (read : Cbor.Decoder := Cbor.decode) : Result Cbor.Entries :=
  if octets.isEmpty then .ok []
  else do
    match ← decodeFirst .encryptedHeader octets read with
    | .map false entries => return entries
    | _ => throw (.malformed .protectedHeader)

def parse (bs : Bytes) (read : Cbor.Decoder := Cbor.decode) : Result Encrypted := do
  match ← decodeWhole .encrypted (withoutMark mark bs) read with
  | .list false [.bytes headerOctets, .map false unprotected, .bytes ciphertext] =>
    let header ← decodeHeader headerOctets read
    return { headerOctets, header, unprotected, ciphertext }
  | .list false [.bytes _, .map false _, _] => throw (.malformed .ciphertext)
  | .list false [.bytes _, _, _] => throw (.malformed .unprotectedHeader)
  | .list false [_, _, _] => throw (.malformed .protectedHeader)
  | _ => throw (.malformed .notThreeElements)

/-- What the tag of a message covers besides the text. -/
def authenticated (headerOctets aad : Bytes) : Bytes :=
  Cbor.encode (.list false [.text "Encrypt0", .bytes headerOctets, .bytes aad])

def standardHeader : Bytes := Cbor.encode (.map false [(.int algorithmLabel, .int aesGcm)])

def encode (plaintext key aad nonce : Bytes) (keyId : Option Bytes) : Result Bytes := do
  let ciphertext ← Sealed.encrypt key nonce (authenticated standardHeader aad) plaintext
  let keyEntry := match keyId with
    | some id => [(Cbor.Value.int keyIdLabel, Cbor.Value.bytes id)]
    | none => []
  let unprotected := (.int nonceLabel, .bytes nonce) :: keyEntry
  return mark :: Cbor.encode (.list false [.bytes standardHeader, .map false unprotected, .bytes ciphertext])

/-- The nonce of a message has to be a string of twelve octets, and the algorithm, where it is given,
AES-256-GCM. -/
def decrypt (m : Encrypted) (key aad : Bytes) : Result Bytes := do
  let nonce ← match m.nonce with
    | .bytes bs => if bs.length = Gcm.nonceLength then pure bs else throw (.malformed (.nonceLength bs.length))
    | _ => throw (.malformed (.nonceLength 0))
  if !m.algorithm.isNull && !m.algorithm.isInt aesGcm then
    throw (unsupported .encryptionAlgorithm m.algorithm m.algorithm.display)
  Sealed.decrypt key nonce (authenticated m.headerOctets aad) m.ciphertext

def decode (bs key aad : Bytes) (read : Cbor.Decoder := Cbor.decode) : Result Bytes := do
  (← parse bs read).decrypt key aad

end Encrypted

end TenantVault.Cose
