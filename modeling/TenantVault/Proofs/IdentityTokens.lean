import TenantVault.Proofs.Evaluation
import TenantVault.Proofs.Opening
import TenantVault.Proofs.Ranges
import TenantVault.Proofs.Tokens

/-! # Identity tokens from the service to the verifier

The service builds the octets that it has signed, and the verifier builds them again from what it parses. A token
that nothing disturbed is verified with the key of the service for the caller it was issued to, its claims say what
the service put into them and are valid for as long as they say, and role and namespace are read off the scope.
-/

namespace TenantVault

open Cbor (maxLength maxNesting Recoverable)

/-! ## Messages -/

namespace Cose.Signed

variable {m : Signed} {aad key : Bytes} {keys : List Bytes}

theorem recoverable_item (h : m.unprotected = []) : Recoverable false maxNesting m.item := by
  refine .list (by simp) ?_
  simp only [h, List.forall_mem_cons]
  refine ⟨.bytes _, .map (by simp) (by simp) (by simp) (by simp), .bytes _, .bytes _, by simp⟩

theorem toBytes_eq (m : Signed) : m.toBytes = mark :: Cbor.encode m.item := rfl

/-- A message in which everything is protected is parsed as it was written. -/
theorem parse_toBytes (h : m.unprotected = []) (hLength : m.toBytes.length ≤ maxLength) :
    parse m.toBytes = .ok m := by
  rw [toBytes_eq, List.length_cons] at hLength
  have hDecoded := (recoverable_item h (by omega)).decode_encode
  refine parse_eq_ok_iff.mpr ⟨[], ?_⟩
  rw [toBytes_eq, withoutMark, if_pos rfl, hDecoded]

/-- What the service writes into the protected header of a token. -/
theorem namesEdDsa_of_header (h : m.headerOctets = (unsigned [] edDsa none).headerOctets) : m.NamesEdDsa := by
  refine ⟨false, [(.int algorithmLabel, .int edDsa)], [], .int edDsa, ?_, Cbor.Value.lookup_first .., ?_⟩
  · rw [h]
    rfl
  · simp [Cbor.Value.isInt]

theorem length_part_le {part : Bytes} (h : Cbor.Value.bytes part ∈ [Cbor.Value.bytes m.headerOctets,
    .map false m.unprotected, .bytes m.payload, .bytes m.signature]) : part.length ≤ m.toBytes.length := by
  have hPart := Cbor.length_le_encodeItems h
  rw [Cbor.encode_bytes, List.length_append] at hPart
  rw [toBytes, Cbor.encode_list, List.length_cons, List.length_append]
  omega

theorem length_payload_le (m : Signed) : m.payload.length ≤ m.toBytes.length := length_part_le (by simp)

theorem length_headerOctets_le (m : Signed) : m.headerOctets.length ≤ m.toBytes.length := length_part_le (by simp)

end Cose.Signed

/-! ## Claims -/

namespace Cose.Claims

variable {c : Claims}

theorem recoverable_entries (c : Claims) : Recoverable false maxNesting (.map false c.entries) := by
  refine .map (by simp [entries]) ?_ ?_ ?_
  · simp [entries, issuerLabel, subjectLabel, audienceLabel, expiryLabel, notBeforeLabel, issuedAtLabel, idLabel,
      scopeLabel]
  · simp [entries, Recoverable.int]
  · simp [entries, Recoverable.int, Recoverable.bytes, Recoverable.text]

theorem decode_encode (hLength : c.encode.length ≤ maxLength) :
    Cbor.decode c.encode = .ok (.map false c.entries, []) :=
  (recoverable_entries c hLength).decode_encode

/-- A time that is stated as a number is compared as it is. -/
theorem checkTime_of_int {claims : Cbor.Entries} {outside : Int → Prop} [DecidablePred outside] {label n : Int}
    {refusal : Denial} (h : Stated claims label (.int n)) :
    checkTime outside label refusal claims = if outside n then .error (.denied refusal) else .ok () := by
  rw [checkTime_of_stated h, seconds_of_wholePart (.int n)]
  rfl

theorem lookup_entries (c : Claims) :
    Cbor.Value.lookup (.int issuerLabel) c.entries = some (.text c.issuer) ∧
      Cbor.Value.lookup (.int subjectLabel) c.entries = some (.text c.subject) ∧
      Cbor.Value.lookup (.int audienceLabel) c.entries = some (.text c.audience) ∧
      Cbor.Value.lookup (.int expiryLabel) c.entries = some (.int (c.issuedAt + c.lifetime)) ∧
      Cbor.Value.lookup (.int notBeforeLabel) c.entries = some (.int c.issuedAt) ∧
      Cbor.Value.lookup (.int idLabel) c.entries = some (.bytes c.id) ∧
      Cbor.Value.lookup (.int scopeLabel) c.entries = some (.text c.scope) := by
  simp [entries, Cbor.Value.lookup, issuerLabel, subjectLabel, audienceLabel, expiryLabel, notBeforeLabel,
    issuedAtLabel, idLabel, scopeLabel]

theorem scopeOf_entries (c : Claims) : scopeOf c.entries = .ok c.scope := by
  obtain ⟨-, -, -, -, -, -, hScope⟩ := c.lookup_entries
  rw [scopeOf, hScope]

/-- Claims that have been written are refused if they have expired, then if they have not begun. -/
theorem decode_encode_eq (hLength : c.encode.length ≤ maxLength) (t : Int) :
    decode c.encode t =
      if c.issuedAt + c.lifetime < t - 300 then .error (.denied .tokenExpired)
      else if t + 300 < c.issuedAt then .error (.denied .tokenNotYetValid)
      else .ok c.entries := by
  obtain ⟨-, -, -, hExpiry, hStart, -, -⟩ := c.lookup_entries
  rw [decode_of_map (decode_encode hLength), checkTime_of_int ⟨hExpiry, rfl⟩, checkTime_of_int ⟨hStart, rfl⟩,
    tolerance]
  split
  · rfl
  · split
    · rfl
    · rfl

/-- Claims are accepted from shortly before they were issued until shortly after they expire. -/
theorem decode_encode_eq_ok_iff (hLength : c.encode.length ≤ maxLength) (t : Int) (claims : Cbor.Entries) :
    decode c.encode t = .ok claims ↔
      claims = c.entries ∧ c.issuedAt - 300 ≤ t ∧ t ≤ c.issuedAt + c.lifetime + 300 := by
  rw [decode_encode_eq hLength]
  constructor
  · intro h
    split at h
    · cases h
    · split at h
      · cases h
      · cases h
        exact ⟨rfl, by omega, by omega⟩
  · rintro ⟨rfl, hFrom, hUntil⟩
    rw [if_neg (by omega), if_neg (by omega)]

end Cose.Claims

/-! ## Scopes -/

/-- What a caller is in a namespace. A manager may do everything, whatever else he is. -/
inductive Role where
  | manager
  | auditingUser
  | user
  | auditor
  deriving DecidableEq, Repr

namespace Role

def Held (row : Namespace) (caller : Principal) : Role → Prop
  | manager => caller ∈ row.managers
  | auditingUser => caller ∉ row.managers ∧ caller ∈ row.users ∧ caller ∈ row.auditors
  | user => caller ∉ row.managers ∧ caller ∈ row.users ∧ caller ∉ row.auditors
  | auditor => caller ∉ row.managers ∧ caller ∉ row.users ∧ caller ∈ row.auditors

/-- The right that a scope names first. -/
def right : Role → String
  | manager => "Namespace.*"
  | auditingUser | auditor => "Namespace.Read"
  | user => "Namespace.Read.Info"

/-- Whether the role comes with no settings of one's own. -/
def alone : Role → Bool
  | manager | auditor => true
  | auditingUser | user => false

def scope (name : String) (role : Role) : String :=
  role.right ++ ":" ++ name ++ if role.alone then "" else " Namespace.*.SubjectedSetting:" ++ name

theorem exists_iff (p : Role → Prop) : (∃ role, p role) ↔ p manager ∨ p auditingUser ∨ p user ∨ p auditor := by
  constructor
  · rintro ⟨_ | _ | _ | _, h⟩ <;> simp [h]
  · rintro (h | h | h | h) <;> exact ⟨_, h⟩

/-- A scope is issued to whoever has a role, and it is the one of that role. -/
theorem tokenScope?_eq_some_iff {row : Namespace} {caller : Principal} {name text : String} :
    row.tokenScope? caller name = some text ↔ ∃ role : Role, role.Held row caller ∧ role.scope name = text := by
  simp only [exists_iff, Held, scope, right, alone, Namespace.tokenScope?, Namespace.isManager, Namespace.isUser,
    Namespace.isAuditor, decide_eq_true_eq]
  by_cases hManager : caller ∈ row.managers <;> by_cases hUser : caller ∈ row.users <;>
    by_cases hAuditor : caller ∈ row.auditors <;> simp [hManager, hUser, hAuditor, String.append_assoc]

theorem toList_scope (role : Role) (name : String) : (role.scope name).toList =
    role.right.toList ++ ':' :: (name.toList ++
      if role.alone then [] else ' ' :: ("Namespace.*.SubjectedSetting:" ++ name).toList) := by
  rw [scope]
  split <;> simp

/-- What a scope says. There is no colon in the right that it names first, and no space in a name. -/
def read? (text : String) : Option (Role × String) :=
  let (first, rest) := text.toList.span (· ≠ ':')
  let (name, others) := (rest.drop 1).span (· ≠ ' ')
  let role? := [manager, auditingUser, user, auditor].find? fun role =>
    decide (role.right.toList = first) && role.alone == others.isEmpty
  role?.map fun role => (role, String.ofList name)

theorem read?_scope (role : Role) {name : String} (hName : IsName name) :
    read? (role.scope name) = some (role, name) := by
  have hRight : ∀ c ∈ role.right.toList, decide (c ≠ ':') = true := by
    cases role <;> simp [right]
  have hSolid : ∀ c ∈ name.toList, decide (c ≠ ' ') = true := by
    intro c hc
    have hChar := hName.2 c hc
    rw [decide_eq_true_iff]
    rintro rfl
    cases hChar
  rw [read?, toList_scope, Text.span_append hRight (by simp)]
  simp only [List.drop_succ_cons, List.drop_zero]
  rw [Text.span_append hSolid]
  · rw [String.ofList_toList]
    cases role <;> simp [right, alone]
  · cases role <;> simp [alone]

example : read? "Namespace.Read:a Namespace.*.SubjectedSetting:a" = some (auditingUser, "a") := by decide

theorem scope_inj {role role' : Role} {name name' : String} (hName : IsName name) (hName' : IsName name') :
    role'.scope name' = role.scope name ↔ role' = role ∧ name' = name := by
  constructor
  · intro hSame
    have hRead := read?_scope role hName
    rw [← hSame, read?_scope role' hName'] at hRead
    cases hRead
    exact ⟨rfl, rfl⟩
  · rintro ⟨rfl, rfl⟩
    rfl

end Role

/-! ## Undisturbed calls -/

namespace Outcome

variable {α β : Type} {answer : Request → Reply} {random : Nat → Bytes} {w w' : World} {a : α}

theorem run_after_eq_ok_iff {r : Result β} {next : β → Outcome α} :
    run answer random w (after w r next) = (w', .ok a) ↔
      ∃ b, r = .ok b ∧ run answer random w (next b) = (w', .ok a) := by
  cases r with
  | ok b => simp [after]
  | error why => simp [after, fail, run]

theorem run_request_eq_ok_iff {q : Request} {next : World → Bytes → Outcome α} :
    run answer random w (request q next) = (w', .ok a) ↔
      ∃ octets, answer q = .ok octets ∧ run answer random w (next w octets) = (w', .ok a) := by
  rw [request, run]
  cases answer q with
  | ok octets => simp
  | error refusal => simp [fail, run]

theorem run_finish_eq_ok_iff {a' : α} : run answer random w (finish w a) = (w', .ok a') ↔ w = w' ∧ a = a' := by
  simp [finish, run]

theorem run_map_eq_ok_iff {f : α → β} {o : Outcome α} {b : β} :
    run answer random w (o.map f) = (w', .ok b) ↔ ∃ a, run answer random w o = (w', .ok a) ∧ f a = b := by
  induction o with
  | done w₀ r => cases r <;> simp [map, finish, fail, run]
  | ask q resume ih => exact ih w (answer q)
  | draw size resume ih => exact ih w (random size)

end Outcome

/-! ## The life of a token -/

namespace Signatures

open Outcome

variable {answer : Request → Reply} {random : Nat → Bytes} {service caller : Principal}
  {ns audience scope : String} {now : Int} {w w' : World} {token key : Bytes}

theorem run_identityPublicKey_iff :
    (Operation.identityPublicKey.perform service now w).run answer random w = (w', .ok (.bytes key)) ↔
      answer (.publicKey Signer.identityLabel []) = .ok key ∧ w = w' := by
  simp only [Operation.perform, run_map_eq_ok_iff, identityPublicKey, run_request_eq_ok_iff, run_finish_eq_ok_iff,
    Answer.bytes.injEq]
  constructor
  · rintro ⟨_, ⟨_, hAnswer, rfl, rfl⟩, rfl⟩
    exact ⟨hAnswer, rfl⟩
  · rintro ⟨hAnswer, rfl⟩
    exact ⟨key, ⟨key, hAnswer, rfl, rfl⟩, rfl⟩

/-- The claims of a token that is issued at a time. -/
def claims (service caller : Principal) (audience : String) (now : Int) (id : Bytes) (scope : String) :
    Cose.Claims where
  issuer := service.toText
  subject := caller.toText
  audience
  issuedAt := now.fdiv 1000
  lifetime := tokenLifetime
  id
  scope

theorem tokenScope_eq_ok_iff {t : Tables} :
    Access.tokenScope t caller ns = .ok scope ↔ ∃ row, t.namespaces.get? (.text ns) = some row ∧
      ∃ role : Role, role.Held row caller ∧ role.scope ns = scope := by
  simp only [Access.tokenScope, bind_eq_ok_iff, Access.lookup_eq_ok_iff, ← Role.tokenScope?_eq_some_iff]
  constructor
  · rintro ⟨row, hRow, hScope⟩
    refine ⟨row, hRow, ?_⟩
    split at hScope
    · next hIssued =>
      cases hScope
      exact hIssued
    · cases hScope
  · rintro ⟨row, hRow, hScope⟩
    refine ⟨row, hRow, ?_⟩
    rw [hScope]
    rfl

/-- The token for claims, with a signature that may still be empty. -/
def issued (c : Cose.Claims) (signature : Bytes) : Cose.Signed :=
  { Cose.Signed.unsigned c.encode Cose.edDsa none with signature }

/-- When a token is issued, and which one. -/
theorem run_signIdentity_iff :
    ((Operation.signIdentity caller ns audience).perform service now w).run answer random w =
        (w', .ok (.bytes token)) ↔
      caller.isAnonymous = false ∧ IsName ns ∧ w = w' ∧ ∃ scope signature,
        Access.tokenScope w.tables caller ns = .ok scope ∧
        answer (.sign Signer.identityLabel [] ((issued (claims service caller audience now
          (random tokenIdLength) scope) []).signedPart caller.raw)) = .ok signature ∧
        (issued (claims service caller audience now (random tokenIdLength) scope) signature).toBytes = token := by
  simp only [Operation.perform, run_map_eq_ok_iff, signIdentity, run_request_eq_ok_iff, run_finish_eq_ok_iff,
    run_after_eq_ok_iff, Answer.bytes.injEq, bind_eq_ok_iff, exists_unit_iff, Access.authenticated_eq_ok_iff,
    Name.check_eq_ok_iff, run, Access.demand_eq_ok_iff, decide_eq_true_eq]
  constructor
  · rintro ⟨_, ⟨scope, ⟨hKnown, hName, hScope⟩, signature, hSigned, -, rfl, rfl⟩, rfl⟩
    exact ⟨hKnown, hName, rfl, scope, signature, hScope, hSigned, rfl⟩
  · rintro ⟨hKnown, hName, rfl, scope, signature, hScope, hSigned, rfl⟩
    exact ⟨_, ⟨scope, ⟨hKnown, hName, hScope⟩, signature, hSigned, ⟨scope, hScope, rfl⟩, rfl, rfl⟩, rfl⟩

/-- Whatever the signer signs for a label and a path is verified with the key that it states for them. -/
def Vouches (answer : Request → Reply) : Prop :=
  ∀ label path key message signature, answer (.publicKey label path) = .ok key →
    answer (.sign label path message) = .ok signature → Ed25519.verify key message signature = true

/-- A signer with a seed vouches for its signatures if every signature is verified with its own key. -/
theorem vouches_of_verify_sign {s : Signer}
    (hOwn : ∀ seed message, Ed25519.verify (Ed25519.publicKey seed) message (Ed25519.sign seed message) = true)
    (hKeys : ∀ label path, answer (.publicKey label path) = .ok (s.publicKey label path))
    (hSigns : ∀ label path message, answer (.sign label path message) = .ok (s.sign label path message)) :
    Vouches answer := by
  intro label path key message signature hKey hSignature
  rw [hKeys] at hKey
  rw [hSigns] at hSignature
  cases hKey
  cases hSignature
  exact hOwn (s.privateKey label path) message

/-- An issued token is verified with any keys among which is the one for its signature. -/
theorem verify_issued {c : Cose.Claims} {aad signature : Bytes} {keys : List Bytes}
    (hLength : (issued c signature).toBytes.length ≤ maxLength)
    (hSigned : Ed25519.verify key ((issued c []).signedPart aad) signature = true)
    (hKeys : ∀ k ∈ keys, k.length = Ed25519.keyLength) (hMem : key ∈ keys) :
    Cose.Signed.verify (issued c signature).toBytes aad keys = .ok (issued c signature) := by
  refine (Cose.Signed.verify_eq_ok_iff hKeys).mpr ⟨?_, ?_, key, hMem, hSigned⟩
  · exact Cose.Signed.parse_toBytes rfl hLength
  · exact Cose.Signed.namesEdDsa_of_header rfl

/-- A client that knows the key of the service verifies the token of a caller, whatever other keys it trusts. The
claims are those that the service states, they are accepted from five minutes before the second of issue until five
minutes after the hour that follows it, and their scope is that of one role in one namespace only. -/
theorem identity_token_verifies {earlier : Int} {before : World}
    (hKey : (Operation.identityPublicKey.perform service earlier before).run answer random before =
      (before, .ok (.bytes key)))
    (hSigner : Vouches answer)
    (hToken : ((Operation.signIdentity caller ns audience).perform service now w).run answer random w =
      (w', .ok (.bytes token)))
    (hLength : token.length ≤ maxLength) :
    ∃ m claims scope role row,
      (∀ keys, (∀ k ∈ keys, k.length = Ed25519.keyLength) → key ∈ keys →
        Cose.Signed.verify token caller.raw keys = .ok m) ∧
      (∀ t claims', Cose.Claims.decode m.payload t = .ok claims' ↔
        claims' = claims ∧ now.fdiv 1000 - 300 ≤ t ∧ t ≤ now.fdiv 1000 + 3900) ∧
      Cbor.Value.lookup (.int Cose.Claims.issuerLabel) claims = some (.text service.toText) ∧
      Cbor.Value.lookup (.int Cose.Claims.subjectLabel) claims = some (.text caller.toText) ∧
      Cbor.Value.lookup (.int Cose.Claims.audienceLabel) claims = some (.text audience) ∧
      Cbor.Value.lookup (.int Cose.Claims.idLabel) claims = some (.bytes (random tokenIdLength)) ∧
      Cose.Claims.scopeOf claims = .ok scope ∧ Access.tokenScope w.tables caller ns = .ok scope ∧
      w.tables.namespaces.get? (.text ns) = some row ∧ role.Held row caller ∧
      ∀ role' ns', IsName ns' → (Role.scope ns' role' = scope ↔ role' = role ∧ ns' = ns) := by
  obtain ⟨hIdentity, -⟩ := run_identityPublicKey_iff.mp hKey
  obtain ⟨-, hName, -, scope, signature, hScope, hSigned, rfl⟩ := run_signIdentity_iff.mp hToken
  obtain ⟨row, hRow, role, hHeld, rfl⟩ := tokenScope_eq_ok_iff.mp hScope
  let c := claims service caller audience now (random tokenIdLength) (role.scope ns)
  have hPayload : c.encode.length ≤ maxLength :=
    (Cose.Signed.length_payload_le (issued c signature)).trans hLength
  obtain ⟨hIssuer, hSubject, hAudience, -, -, hId, -⟩ := c.lookup_entries
  refine ⟨issued c signature, c.entries, role.scope ns, role, row, ?_, ?_, hIssuer, hSubject, hAudience, hId,
    c.scopeOf_entries, hScope, hRow, hHeld, ?_⟩
  · intro keys hKeys hMem
    exact verify_issued hLength (hSigner _ _ _ _ _ hIdentity hSigned) hKeys hMem
  · intro t claims'
    have hHour : c.issuedAt + c.lifetime + 300 = now.fdiv 1000 + 3900 := by
      change now.fdiv 1000 + 3600 + 300 = _
      omega
    rw [← hHour]
    exact Cose.Claims.decode_encode_eq_ok_iff hPayload t claims'
  · intro role' ns' hName'
    exact Role.scope_inj hName hName'

end Signatures

namespace Server.Sample

open Signatures

def identityKey : Bytes := [
  103, 14, 224, 69, 153, 38, 52, 219, 29, 246, 26, 242, 253, 3, 66, 74, 69, 138, 5, 242, 115, 97, 43, 60, 145, 51, 23,
  72, 167, 191, 32, 74]

def identitySignature : Bytes := [
  70, 99, 102, 36, 202, 246, 135, 58, 190, 170, 4, 12, 113, 15, 157, 47, 141, 117, 201, 195, 214, 147, 125, 54, 145,
  128, 82, 179, 48, 219, 212, 238, 169, 69, 238, 132, 137, 34, 37, 71, 5, 164, 76, 166, 91, 44, 52, 218, 150, 55, 173,
  148, 26, 133, 106, 112, 12, 251, 218, 142, 193, 48, 75, 12]

def ownClaims : Cose.Claims := claims owner owner "app" 50 (List.replicate tokenIdLength 0) "Namespace.*:vault"

theorem ownClaims_signed : Ed25519.verify identityKey ((issued ownClaims []).signedPart owner.raw)
    identitySignature = true := by
  rw [← Ed25519.verifyWith_strictMultiply]
  decide +kernel

/-- A signer with one key, who only gives a signature for what it is a signature of. -/
def vouching : Request → Reply
  | .publicKey _ _ => .ok identityKey
  | .sign _ _ message =>
    if Ed25519.verify identityKey message identitySignature then .ok identitySignature else .error (.failed "")
  | _ => .error .notConfigured

theorem vouching_vouches : Vouches vouching := by
  intro label path key message signature hKey hSignature
  cases hKey
  rw [vouching] at hSignature
  split at hSignature
  · next hVerified =>
    cases hSignature
    exact hVerified
  · cases hSignature

theorem owner_gets_token :
    ((Operation.signIdentity owner "vault" "app").perform owner 50 configured.world).run vouching
      (List.replicate · 0) configured.world =
        (configured.world, .ok (.bytes (issued ownClaims identitySignature).toBytes)) := by
  have hName : IsName "vault" := by
    rw [← Name.check_eq_ok_iff]
    decide
  refine run_signIdentity_iff.mpr ⟨by decide, hName, rfl, "Namespace.*:vault", identitySignature, rfl, ?_, rfl⟩
  rw [vouching]
  exact if_pos ownClaims_signed

/-- The owner of a namespace is told to be its manager, and can show it to whoever knows the key. -/
theorem owner_shows_role : Reachable owner configured ∧ ∃ token m claims,
    (Operation.identityPublicKey.perform owner 40 configured.world).run vouching (List.replicate · 0)
        configured.world = (configured.world, .ok (.bytes identityKey)) ∧
      Vouches vouching ∧
      ((Operation.signIdentity owner "vault" "app").perform owner 50 configured.world).run vouching
        (List.replicate · 0) configured.world = (configured.world, .ok (.bytes token)) ∧
      token.length ≤ maxLength ∧
      Cose.Signed.verify token owner.raw [List.replicate 32 0, identityKey] = .ok m ∧
      Cose.Claims.decode m.payload 3900 = .ok claims ∧ Cose.Claims.decode m.payload 3901 ≠ .ok claims ∧
      Cose.Claims.scopeOf claims = .ok (Role.manager.scope "vault") := by
  have hKey : (Operation.identityPublicKey.perform owner 40 configured.world).run vouching (List.replicate · 0)
      configured.world = (configured.world, .ok (.bytes identityKey)) :=
    run_identityPublicKey_iff.mpr ⟨rfl, rfl⟩
  have hLength : (issued ownClaims identitySignature).toBytes.length ≤ maxLength := by
    decide +kernel
  have hManager : Access.tokenScope configured.world.tables owner "vault" = .ok (Role.manager.scope "vault") := rfl
  have hKeys : ∀ k ∈ [List.replicate 32 0, identityKey], k.length = Ed25519.keyLength := by
    simp [Ed25519.keyLength, identityKey]
  obtain ⟨m, claims, scope, role, row, hVerified, hDecoded, -, -, -, -, hScope, hGranted, -, -, -⟩ :=
    identity_token_verifies hKey vouching_vouches owner_gets_token hLength
  refine ⟨⟨_, _, rfl⟩, _, m, claims, hKey, vouching_vouches, owner_gets_token, hLength,
    hVerified _ hKeys (by simp), ?_, ?_, ?_⟩
  · exact (hDecoded 3900 claims).mpr ⟨rfl, by decide, by decide⟩
  · intro hLate
    obtain ⟨-, -, hUntil⟩ := (hDecoded 3901 claims).mp hLate
    exact absurd hUntil (by decide)
  · rw [hManager] at hGranted
    cases hGranted
    exact hScope

end Server.Sample

end TenantVault
