import TenantVault.Cbor.Decode
import TenantVault.Cbor.Printed
import TenantVault.Setting.Key

/-! # Failures

Every way in which a request can fail, by cause, in groups that a client can tell apart. `summary` is the
wording of a cause. A failure that began in a lower layer adds a `detail`, and one that is nothing but a
limit of a primitive has no wording of its own.
-/

namespace TenantVault

inductive Denial where
  | noPermission
  | anonymous
  | apiNotAllowed (api : String)
  | notController
  | notDelegator
  | membershipChanged
  | challenge
  | challengeLength
  | tokenExpired
  | tokenNotYetValid
  deriving DecidableEq

inductive Absence where
  | namespaceRow (name : String)
  | delegatedName (name : String)
  | delegation
  | setting (key : SettingKey)
  | version (key : SettingKey)
  | storedPayload (key : SettingKey)
  | archivedVersion (key : SettingKey)
  | payload (key : SettingKey)
  deriving DecidableEq

/-- The current version of a setting is as it is shown. -/
inductive Conflict where
  | expected (current : String) (given : Int)
  | alreadySet (key : SettingKey)
  | changed (key : SettingKey) (current : String)
  deriving DecidableEq

/-- The kinds of encoded documents. -/
inductive Document where
  | encrypted
  | encryptedHeader
  | key
  | payload
  | token
  | claims
  deriving DecidableEq

inductive Malformation where
  | undecodable (what : Document) (fault : Cbor.Fault)
  | trailing (count : Nat)
  | notThreeElements
  | protectedHeader
  | unprotectedHeader
  | ciphertext
  | nonceLength (size : Nat)
  | encryptionAlgorithm (shown : String)
  | secretLength (size : Nat)
  | keyNotMap
  | keyType (shown : String)
  | missingSecret
  | secret
  | emptyPayload
  | payloadType (major : Int)
  | notFourElements
  | token
  | signatureAlgorithm (shown : String)
  | claimsNotMap
  | timestamp (shown : String)
  | missingScope
  | scope
  deriving DecidableEq

inductive CryptoFault where
  | ciphertextTooShort (size : Nat)
  | authentication
  | tokenSignature
  | noKeyService
  | signing (detail : String)
  | publicKey (detail : String)
  | servicePublicKey (detail : String)
  | serviceKey (detail : String)
  deriving DecidableEq

inductive Disablement where
  | delegation
  | readOnlyUpdate
  | notReadWriteUpdate
  | readOnlyStatus
  | readOnlyDelete
  /-- Announced by the signer itself. -/
  | signer
  deriving DecidableEq

inductive BadArgument where
  | keyLength (size : Nat)
  | nonceLength (size : Nat)
  | contentType (shown : String)
  | seedLength (size : Nat)
  | publicKey
  | publicKeyAlgorithm
  | exchangeKeyLength
  | exchangeKey (detail : String)
  | emptyName
  | nameCharacter (c : Char)
  | noPrincipals
  | anonymousPrincipal
  | memberKind (kind : String)
  | topUpAmount
  deriving DecidableEq

/-- Why the value of a field is refused. -/
inductive FieldFault where
  | missing
  | notText
  | textTooShort
  | notBytes
  | notInteger
  | unreadableInteger
  | fractionalInteger
  | integerTooWide
  | notFlag
  | unreadableFlag
  | notSet
  | notTable
  | notPrincipal
  | tooSmall
  | tooLarge
  | argument (why : BadArgument)
  | payloadSizeNotPositive
  | payloadSizeTooLarge (limit : Nat)
  | visibility
  | keyTooLong (limit : Nat)
  | readOnlyWithoutPayload
  | nonceLength (size : Nat)
  | exchangeKeyLength (size : Nat)
  | seedLength (expected size : Nat)
  | anonymousService
  deriving DecidableEq

/-- A refused field: where it stands and why. -/
structure FieldError where
  place : List String
  fault : FieldFault
  deriving DecidableEq

inductive BadValue where
  | principal (fault : Principal.TextFault)
  | snapshotVersion (shown : String)
  | noSnapshotPath
  | seedLength (size : Nat)
  deriving DecidableEq

inductive Unconfigured where
  | seed
  | service
  deriving DecidableEq

/-- Limits of the primitives. -/
inductive Breakdown where
  | expansionTooLong
  | rawKeyLength
  | lowOrderPoint
  | scopeOutOfRange
  | timestampNotANumber
  | timestampInfinite
  | emptyPath
  | base64 (fault : Base64.Fault)
  | unreadableNumber
  | numberTooLong
  | infiniteNumber
  | notJson
  | missingField (name : String)
  | notRecord
  | notPair
  | missingOctets
  | wrongType
  /-- A document with integers of more than 64 bits, or nested too deep. -/
  | unwritable
  | cbor (fault : Cbor.Fault)
  /-- A signalling decimal has been compared with a number. -/
  | signalled
  /-- More data than a cipher takes at a time. -/
  | dataTooLong
  /-- Seven-bit groups of a negative integer never end. -/
  | endlessInteger
  deriving DecidableEq

inductive Failure where
  | denied (why : Denial)
  | missing (what : Absence)
  | conflict (why : Conflict)
  | namespaceExists (name : String)
  | namespaceNotEmpty (name : String) (total : Nat)
  | payloadTooLarge (size : Nat) (limit : String)
  | malformed (why : Malformation)
  | crypto (why : CryptoFault)
  | disabled (why : Disablement)
  | argument (why : BadArgument)
  | fields (errors : List FieldError)
  | value (why : BadValue)
  | unconfigured (why : Unconfigured)
  | unhashable (type : String)
  | breakdown (why : Breakdown)
  deriving DecidableEq

def Denial.summary : Denial → String
  | noPermission => "no permission"
  | anonymous => "anonymous user is not allowed"
  | apiNotAllowed api => "API " ++ api ++ " is not allowed"
  | notController => "user is not a controller"
  | notDelegator => "caller is not a delegator"
  | membershipChanged => "namespace membership changed"
  | challenge => "challenge verification failed"
  | challengeLength => "challenge verification failed: invalid signature length"
  | tokenExpired => "token expired"
  | tokenNotYetValid => "token not yet valid"

def Absence.summary : Absence → String
  | namespaceRow name => "namespace " ++ name ++ " not found"
  | delegatedName name => "name " ++ name ++ " not found"
  | delegation => "delegation signature not found"
  | setting key => "setting " ++ key.toText ++ " not found"
  | version key => "setting " ++ key.toText ++ " version not found"
  | storedPayload key => "setting " ++ key.toText ++ " payload not found"
  | archivedVersion key =>
    "setting " ++ key.toText ++ " has no archived version " ++ SettingKey.intText key.version
  | payload key => "setting " ++ key.toText ++ " has no payload"

def Conflict.summary : Conflict → String
  | expected current given =>
    "version mismatch, expected " ++ current ++ ", got " ++ SettingKey.intText given
  | alreadySet key => "setting " ++ key.toText ++ " already exists"
  | changed key current =>
    "setting " ++ key.toText ++ " changed to version " ++ current ++ " during the request"

def Document.problem : Document → String
  | encrypted => "invalid COSE_Encrypt0 item"
  | encryptedHeader => "invalid COSE_Encrypt0 protected header"
  | key => "invalid COSE key"
  | payload => "decode CBOR payload failed"
  | token => "invalid COSE sign1 token"
  | claims => "invalid claims"

def expectedLength (what : String) (expected size : Nat) : String :=
  "invalid " ++ what ++ " length, expected " ++ toString expected ++ ", got " ++ toString size

/-- What a payload of a declared major type has to be. -/
def majorTypeName (major : Int) : String :=
  if major = 2 then "byte string"
  else if major = 3 then "text string"
  else if major = 4 then "array items"
  else if major = 5 then "map items"
  else "tagged item"

def Malformation.summary : Malformation → String
  | undecodable what _ => what.problem
  | trailing count => toString count ++ " trailing bytes after CBOR item"
  | notThreeElements => Document.encrypted.problem ++ ": expected a 3 element array"
  | protectedHeader => Document.encryptedHeader.problem
  | unprotectedHeader => "invalid COSE_Encrypt0 unprotected header"
  | ciphertext => "invalid COSE_Encrypt0 ciphertext"
  | nonceLength size => expectedLength "nonce" 12 size
  | encryptionAlgorithm shown => "unsupported COSE algorithm: " ++ shown
  | secretLength size => expectedLength "secret" 32 size
  | keyNotMap => Document.key.problem ++ ": expected a map"
  | keyType shown => "unsupported key type: " ++ shown
  | missingSecret => "missing secret key"
  | secret => "invalid secret key"
  | emptyPayload => Document.payload.problem ++ ": empty payload"
  | payloadType major => "invalid " ++ majorTypeName major
  | notFourElements => Document.token.problem ++ ": expected a 4 element array"
  | token => Document.token.problem
  | signatureAlgorithm shown => "unsupported algorithm: " ++ shown
  | claimsNotMap => Document.claims.problem ++ ": expected a map"
  | timestamp shown => "invalid timestamp claim: " ++ shown
  | missingScope => "missing scope"
  | scope => "invalid scope text"

def faultDetail : Cbor.Fault → String
  | .ended => "the item is not complete"
  | .malformed => "the item is not well formed"

def Malformation.detail? : Malformation → Option String
  | undecodable _ fault => some (faultDetail fault)
  | _ => none

def CryptoFault.summary : CryptoFault → String
  | ciphertextTooShort size => "ciphertext too short: " ++ toString size ++ " bytes (minimum 16)"
  | authentication => "AES-256-GCM authentication failed"
  | tokenSignature => "COSE sign1 signature verification failed"
  | noKeyService => "vetKD service is not configured"
  | signing _ => "signing failed"
  | publicKey _ => "public key derivation failed"
  | servicePublicKey _ => "vetKD public key failed"
  | serviceKey _ => "vetKD key derivation failed"

def CryptoFault.detail? : CryptoFault → Option String
  | signing detail | publicKey detail | servicePublicKey detail | serviceKey detail => some detail
  | _ => none

def Disablement.summary? : Disablement → Option String
  | delegation => some "delegation is disabled"
  | readOnlyUpdate => some "readonly setting can not be updated"
  | notReadWriteUpdate => some "readonly or archived setting can not be updated"
  | readOnlyStatus => some "readonly setting status can not be changed"
  | readOnlyDelete => some "readonly setting can not be deleted"
  | signer => none

def BadArgument.summary : BadArgument → String
  | keyLength size => expectedLength "key" 32 size
  | nonceLength size => expectedLength "nonce" 12 size
  | contentType shown => "ctype should be in [2..6], got " ++ shown
  | seedLength size => "signer seed must be 32 bytes, got " ++ toString size
  | publicKey => "invalid public key"
  | publicKeyAlgorithm => "unsupported public key algorithm"
  | exchangeKeyLength => "invalid X25519 public key length"
  | exchangeKey _ => "invalid X25519 public key"
  | emptyName => "empty string"
  | nameCharacter c => "invalid character: " ++ String.singleton c
  | noPrincipals => "principals cannot be empty"
  | anonymousPrincipal => "anonymous user is not allowed"
  | memberKind kind => "invalid member kind: " ++ kind
  | topUpAmount => "top up amount should be greater than 0"

def BadArgument.detail? : BadArgument → Option String
  | publicKey => some "no key of a known kind in strict DER"
  | exchangeKey detail => some detail
  | _ => none

/-- The wording of a refusal that is a rule of this program; the others are plain type errors. -/
def FieldFault.summary? : FieldFault → Option String
  | argument why => some why.summary
  | payloadSizeNotPositive => some "max_payload_size should be greater than 0"
  | payloadSizeTooLarge limit =>
    some ("max_payload_size should be less than or equal to " ++ toString limit)
  | visibility => some "visibility should be 0 or 1"
  | keyTooLong limit => some ("key length exceeds the limit " ++ toString limit)
  | readOnlyWithoutPayload => some "readonly setting should have payload"
  | nonceLength size => some ("nonce should be 12 bytes, got " ++ toString size)
  | exchangeKeyLength size => some ("public_key should be 32 bytes, got " ++ toString size)
  | seedLength expected size =>
    some ("signer_seed must be exactly " ++ toString expected ++ " bytes, got " ++ toString size)
  | anonymousService => some "service_id cannot be the anonymous principal"
  | _ => none

def Principal.TextFault.summary : Principal.TextFault → String
  | empty => "empty principal text"
  | invalid text => "invalid principal text " ++ Text.quote text
  | checksum text => "principal checksum mismatch for " ++ Text.quote text
  | tooLong size => "principal too long: " ++ toString size ++ " bytes (maximum 29)"
  | notCanonical text => "non-canonical principal text " ++ Text.quote text

def BadValue.summary : BadValue → String
  | principal fault => fault.summary
  | snapshotVersion shown => "unsupported snapshot version: " ++ shown
  | noSnapshotPath => "no snapshot path configured"
  | seedLength size => "COSE_SIGNER_SEED must decode to exactly 32 bytes, got " ++ toString size

def Unconfigured.summary : Unconfigured → String
  | seed => "No signer seed found in environment. Set COSE_SIGNER_SEED=<base64-encoded-32-byte-seed>"
  | service => "COSE_SERVICE_ID environment variable is not set"

/-- Whether a value of a document has a printed form. The numbers inside lists and objects come out of
documents, where they are short. -/
def Json.isPrintable : Json → Bool
  | int n => n.natAbs < Cbor.Value.unprintable
  | _ => true

theorem Json.isPrintable_unprintable : (int Cbor.Value.unprintable).isPrintable = false := by
  rw [isPrintable, Int.natAbs_natCast]
  exact decide_eq_false (Nat.lt_irrefl _)

namespace Failure

/-- A failure whose wording shows a value; without a printed form of it there is no wording. The limit of
printed numbers is not to be worked out where a failure is only handed on. -/
@[irreducible]
def showing (shown : Json) (why : Failure) : Failure :=
  if shown.isPrintable then why else .breakdown .numberTooLong

theorem showing_of_isPrintable {shown : Json} (h : shown.isPrintable = true) (why : Failure) :
    showing shown why = why := by
  rw [showing, if_pos h]

theorem showing_of_not_isPrintable {shown : Json} (h : shown.isPrintable = false) (why : Failure) :
    showing shown why = .breakdown .numberTooLong := by
  rw [showing, h, if_neg Bool.false_ne_true]

theorem showing_int {n : Int} (h : n.natAbs < Cbor.Value.unprintable) (why : Failure) :
    showing (.int n) why = why := by
  refine showing_of_isPrintable ?_ why
  rw [Json.isPrintable]
  exact decide_eq_true h

/-- A failure whose wording names a setting, its version included. -/
def naming (key : SettingKey) (why : Failure) : Failure := showing (.int key.version) why

theorem naming_of_lt {key : SettingKey} (h : key.version.natAbs < Cbor.Value.unprintable) (why : Failure) :
    naming key why = why := showing_int h why

def summary? : Failure → Option String
  | denied why => some why.summary
  | missing what => some what.summary
  | conflict why => some why.summary
  | namespaceExists name => some ("namespace " ++ name ++ " already exists")
  | namespaceNotEmpty name total =>
    some ("namespace " ++ name ++ " still holds " ++ toString total ++ " setting(s)")
  | payloadTooLarge size limit =>
    some ("payload size " ++ toString size ++ " exceeds the limit " ++ limit)
  | malformed why => some why.summary
  | crypto why => some why.summary
  | disabled why => why.summary?
  | argument why => some why.summary
  | fields _ => none
  | value why => some why.summary
  | unconfigured why => some why.summary
  | unhashable type => some ("unsupported value type: " ++ type)
  | breakdown _ => none

def detail? : Failure → Option String
  | malformed why => why.detail?
  | crypto why => why.detail?
  | argument why => why.detail?
  | _ => none

end Failure

/-- The result of an operation that can fail. -/
abbrev Result (α : Type) := Except Failure α

end TenantVault
