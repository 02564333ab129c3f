import TenantVault.Proofs.Server
import TenantVault.Proofs.Strings

/-! # Every tenant has keys of its own

The signer derives a key from its seed and from the encoding of a label and a path. Labels tell apart what
a key is used for, and the path tells apart for whom. Parts of a path are chosen by callers, octet by octet,
so the encoding has to show where each part ends: no two uses may share a key because the parts of one,
run together, look like the parts of the other.
-/

namespace TenantVault

/-! ## The key behind an answer -/

/-- The label and the path of the key that the signer is asked to use. -/
def Request.key? : Request → Option (Bytes × List Bytes)
  | .sign label path _ => some (label, path)
  | .publicKey label path => some (label, path)
  | .servicePublicKey _ => none
  | .serviceKey _ _ _ => none

def Request.info? (q : Request) : Option Bytes := q.key?.map fun key => Signer.info key.1 key.2

namespace Signer

variable {label label' : Bytes} {path path' : List Bytes}

/-- The private key that a signer uses for a request. -/
def keyFor? (s : Signer) (q : Request) : Option Bytes := q.key?.map fun key => s.privateKey key.1 key.2

/-- What a signer answers is made with a private key. -/
def AnswersWith (s : Signer) : Request → Bytes → Prop
  | .sign label path message, key => s.sign label path message = Ed25519.sign key message
  | .publicKey label path, key => s.publicKey label path = Ed25519.publicKey key
  | .servicePublicKey _, _ => False
  | .serviceKey _ _ _, _ => False

/-- Two strings are different, but the derivation makes the same key of them. -/
def Collides (s : Signer) (info info' : Bytes) : Prop :=
  info ≠ info' ∧ HashFunction.sha256.hkdf s.seed info [] 32 = HashFunction.sha256.hkdf s.seed info' [] 32

theorem answersWith_privateKey (s : Signer) {q : Request} (h : q.key? = some (label, path)) :
    s.AnswersWith q (s.privateKey label path) := by
  cases q with
  | sign | publicKey =>
    cases h
    rfl
  | servicePublicKey | serviceKey => cases h

theorem privateKey_eq_iff (s : Signer) : s.privateKey label path = s.privateKey label' path' ↔
    info label path = info label' path' ∨ s.Collides (info label path) (info label' path') := by
  unfold privateKey
  constructor
  · intro hSame
    by_cases hInfo : info label path = info label' path'
    · exact .inl hInfo
    · exact .inr ⟨hInfo, hSame⟩
  · rintro (hInfo | ⟨-, hSame⟩)
    · rw [hInfo]
    · exact hSame

end Signer

/-- What a key of the signer is for: the settings of one owner, the callers of a namespace under a path of their
choice, the tokens of the service, or the delegations of one identity. -/
inductive KeyUse where
  | setting (subject : Principal) (scope : UInt8) (ns : String)
  | ofNamespace (ns : String) (path : List Bytes)
  | identity
  | delegation (seed : Bytes)

namespace KeyUse

def label : KeyUse → Bytes
  | setting _ _ _ => Signer.settingLabel
  | ofNamespace _ _ => Signer.namespaceLabel
  | identity => Signer.identityLabel
  | delegation _ => Signer.delegationLabel

def path : KeyUse → List Bytes
  | setting subject scope ns => [subject.raw, [scope], Bytes.ofText ns]
  | ofNamespace ns path => Bytes.ofText ns :: path
  | identity => []
  | delegation seed => [seed]

def info (u : KeyUse) : Bytes := Signer.info u.label u.path

/-- The number of the parts and their lengths can be written in a head, which holds 64 bits. No list or string
in the memory of a machine is longer. -/
structure Sized (u : KeyUse) : Prop where
  count : u.path.length + 1 < 2 ^ 64
  each : ∀ part ∈ u.path, part.length < 2 ^ 64

theorem length_label (u : KeyUse) : u.label.length < 2 ^ 64 := by
  cases u <;>
    simp only [label, Signer.settingLabel, Signer.namespaceLabel, Signer.identityLabel, Signer.delegationLabel,
      Bytes.length_ofText] <;> decide

theorem Sized.count_items {u : KeyUse} (h : u.Sized) :
    (Cbor.Value.bytes u.label :: u.path.map .bytes).length < 2 ^ 64 := by
  rw [List.length_cons, List.length_map]
  exact h.count

theorem Sized.isString {u : KeyUse} (h : u.Sized) :
    ∀ v ∈ Cbor.Value.bytes u.label :: u.path.map .bytes, Cbor.IsString v := by
  rw [List.forall_mem_cons, List.forall_mem_map]
  exact ⟨.bytes u.length_label, fun part hMem => .bytes (h.each part hMem)⟩

theorem eq_of_label_of_path {u v : KeyUse} (hLabel : u.label = v.label) (hPath : u.path = v.path) :
    u = v := by
  -- Uses of different kinds have different labels, which leaves the four cases of one kind.
  cases u <;> cases v <;>
    simp [label, Signer.settingLabel, Signer.namespaceLabel, Signer.identityLabel, Signer.delegationLabel,
      Bytes.ofText_inj] at hLabel <;>
    simp [path, Bytes.ofText_inj] at hPath
  · next subject scope ns subject' scope' ns' =>
    obtain ⟨hSubject, rfl, rfl⟩ := hPath
    rw [Principal.ext hSubject]
  · next ns path ns' path' =>
    obtain ⟨rfl, rfl⟩ := hPath
    rfl
  · rfl
  · next seed seed' => rw [hPath]

theorem info_inj {u v : KeyUse} (hu : u.Sized) (hv : v.Sized) : u.info = v.info ↔ u = v := by
  constructor
  · intro hSame
    rw [info, info, Signer.info, Signer.info] at hSame
    have hItems := Cbor.encode_list_inj hu.count_items hv.count_items hu.isString hv.isString hSame
    obtain ⟨hLabel, hPath⟩ := List.cons.inj hItems
    rw [Cbor.Value.bytes.injEq] at hLabel
    exact eq_of_label_of_path hLabel ((List.map_inj_right fun _ _ => Cbor.Value.bytes.inj).mp hPath)
  · rintro rfl
    rfl

end KeyUse

/-! ## The requests of a call -/

namespace Outcome

variable {α β : Type}

/-- A request that a call makes at some point, depending on the replies and on what others do. -/
def Makes (q : Request) : Outcome α → Prop
  | done _ _ => False
  | ask asked resume => asked = q ∨ ∃ w reply, (resume w reply).Makes q
  | draw _ resume => ∃ w octets, (resume w octets).Makes q

variable {q : Request} {w : World}

@[simp] theorem not_makes_fail (why : Failure) : ¬ (fail w why : Outcome α).Makes q := id

@[simp] theorem not_makes_finish (a : α) : ¬ (finish w a).Makes q := id

@[simp] theorem makes_map_iff (f : α → β) (o : Outcome α) : (o.map f).Makes q ↔ o.Makes q := by
  induction o with
  | done w r => cases r <;> rfl
  | ask asked resume ih =>
    exact or_congr_right (exists_congr fun w => exists_congr fun reply => ih w reply)
  | draw size resume ih => exact exists_congr fun w => exists_congr fun octets => ih w octets

@[simp] theorem makes_after_iff {r : Result β} {next : β → Outcome α} :
    (after w r next).Makes q ↔ ∃ b, r = .ok b ∧ (next b).Makes q := by
  cases r <;> simp [after]

@[simp] theorem makes_request_iff {asked : Request} {next : World → Bytes → Outcome α} :
    (request asked next).Makes q ↔ asked = q ∨ ∃ w octets, (next w octets).Makes q := by
  refine or_congr_right (exists_congr fun w => ?_)
  constructor
  · rintro ⟨octets | octets, hMakes⟩
    · exact absurd hMakes (not_makes_fail _)
    · exact ⟨octets, hMakes⟩
  · rintro ⟨octets, hMakes⟩
    exact ⟨.ok octets, hMakes⟩

@[simp] theorem makes_draw_iff {size : Nat} {resume : World → Bytes → Outcome α} :
    (draw size resume).Makes q ↔ ∃ w octets, (resume w octets).Makes q := Iff.rfl

@[simp] theorem not_makes_query (f : Tables → Result α) : ¬ (Call.query f w).Makes q := by
  simp [Call.query]

@[simp] theorem not_makes_update (f : Tables → Result (Tables × α)) : ¬ (Call.update f w).Makes q := by
  simp [Call.update]

@[simp] theorem not_makes_settle (f : Tables → Result (Tables × Result α)) :
    ¬ (Call.settle f w).Makes q := by
  rw [Call.settle, makes_after_iff]
  rintro ⟨_, _, hMakes⟩
  exact hMakes

end Outcome

namespace KeyUse

/-- The requests that are made for a use. -/
inductive Requests : KeyUse → Request → Prop
  | settingKey {key : SettingKey} {keyId : Bytes} {w : World} {q : Request} {scope : UInt8}
    (scope_eq : key.scope = scope.toNat) (makes : (Keys.settingKey key keyId w .finish).Makes q) :
    Requests (setting key.subject scope key.ns) q
  | namespacePublicKey {caller : Principal} {ns : String} {path : List Bytes} {w : World} {q : Request}
    (makes : (Signatures.namespacePublicKey caller ns path w).Makes q) : Requests (ofNamespace ns path) q
  | namespaceSign {caller : Principal} {ns : String} {path : List Bytes} {message : Bytes} {w : World}
    {q : Request} (makes : (Signatures.namespaceSign caller ns path message w).Makes q) :
    Requests (ofNamespace ns path) q
  | identityPublicKey {w : World} {q : Request} (makes : (Signatures.identityPublicKey w).Makes q) :
    Requests identity q
  | signIdentity {service caller : Principal} {ns audience : String} {now : Int} {w : World} {q : Request}
    (makes : (Signatures.signIdentity service caller ns audience now w).Makes q) : Requests identity q
  | delegationPublicKey {seed : Bytes} {w : World} {q : Request}
    (makes : (Signatures.delegationPublicKey seed w).Makes q) : Requests (delegation seed) q
  | signDelegation {service caller : Principal} {input : DelegationRequest} {now : Int} {w : World}
    {q : Request} (makes : (Signatures.signDelegation service caller input now w).Makes q) :
    Requests (delegation (Identity.seed input.ns input.name)) q

theorem tenantOf_eq {key : SettingKey} {scope : UInt8} (h : key.scope = scope.toNat) :
    Keys.tenantOf key = .ok (setting key.subject scope key.ns).path := by
  have hFits : 0 ≤ key.scope ∧ key.scope < 256 := by
    have := scope.toNat_lt
    omega
  rw [Keys.tenantOf, SettingKey.tenant?, if_pos hFits, h, Int.toNat_natCast, UInt8.ofNat_toNat]
  rfl

theorem Requests.key?_eq {u : KeyUse} {q : Request} (h : u.Requests q) :
    q.key? = some (u.label, u.path) := by
  cases h with
  | settingKey scope_eq makes =>
    simp only [Keys.settingKey, Outcome.makes_after_iff, tenantOf_eq scope_eq, Outcome.makes_request_iff,
      Except.ok.injEq, exists_eq_left', Outcome.not_makes_finish, exists_false, or_false] at makes
    obtain ⟨ns, -, rfl⟩ := makes
    rfl
  | namespacePublicKey makes =>
    simp [Signatures.namespacePublicKey] at makes
    rw [← makes.2]
    rfl
  | namespaceSign makes =>
    simp [Signatures.namespaceSign] at makes
    rw [← makes.2]
    rfl
  | identityPublicKey makes =>
    simp [Signatures.identityPublicKey] at makes
    rw [← makes]
    rfl
  | signIdentity makes =>
    simp [Signatures.signIdentity] at makes
    obtain ⟨scope, -, -, id, rfl⟩ := makes
    rfl
  | delegationPublicKey makes =>
    simp [Signatures.delegationPublicKey] at makes
    rw [← makes]
    rfl
  | signDelegation makes =>
    simp only [Signatures.signDelegation, Outcome.makes_after_iff, Outcome.makes_request_iff] at makes
    obtain ⟨begun, -, rfl | ⟨w', signature, -, -, hMakes⟩⟩ := makes
    · rfl
    · split at hMakes <;> exact absurd hMakes (Outcome.not_makes_finish _)

/-- Two requests are answered with keys that are derived from the same octets only if they are made for the same
use: by the settings of one subject in one scope of one namespace, by one namespace under one path, by the tokens
of the service, or by one seed of delegations. Requests for different uses are answered with different keys,
unless the derivation makes the same of different octets. -/
theorem Requests.share_key_iff {u v : KeyUse} {q q' : Request} (hu : u.Requests q) (hv : v.Requests q')
    (hSized : u.Sized) (hSized' : v.Sized) :
    (q.info? = q'.info? ↔ u = v) ∧
    ∀ s : Signer, ∃ key key', s.keyFor? q = some key ∧ s.keyFor? q' = some key' ∧
      s.AnswersWith q key ∧ s.AnswersWith q' key' ∧
      (key = key' ↔ u = v ∨ s.Collides u.info v.info) := by
  have hInfo : u.info = v.info ↔ u = v := info_inj hSized hSized'
  constructor
  · rw [Request.info?, Request.info?, hu.key?_eq, hv.key?_eq, Option.map_some, Option.map_some, Option.some_inj]
    exact hInfo
  · intro s
    refine ⟨s.privateKey u.label u.path, s.privateKey v.label v.path, ?_, ?_, ?_, ?_, ?_⟩
    · rw [Signer.keyFor?, hu.key?_eq, Option.map_some]
    · rw [Signer.keyFor?, hv.key?_eq, Option.map_some]
    · exact s.answersWith_privateKey hu.key?_eq
    · exact s.answersWith_privateKey hv.key?_eq
    · rw [s.privateKey_eq_iff, ← hInfo]
      rfl

open Server.Sample in
/-- One part of two octets and two parts of one octet, signed with by the same manager of the same namespace. -/
theorem Requests.cut_shows :
    let u := ofNamespace "vault" [[0x41, 0x41]]
    let v := ofNamespace "vault" [[0x41], [0x41]]
    let q := Request.sign Signer.namespaceLabel u.path [1]
    let q' := Request.sign Signer.namespaceLabel v.path [1]
    u.Requests q ∧ v.Requests q' ∧ u.Sized ∧ v.Sized ∧ q.info? ≠ q'.info? ∧
      ∀ s : Signer, s.keyFor? q = s.keyFor? q' → s.Collides u.info v.info := by
  intro u v q q'
  have hSigning (path : List Bytes) : (ofNamespace "vault" path).Requests
      (.sign Signer.namespaceLabel (Signatures.namespacePath "vault" path) [1]) := by
    have hMakes : (Signatures.namespaceSign owner "vault" path [1] final.1.world).Makes
        (.sign Signer.namespaceLabel (Signatures.namespacePath "vault" path) [1]) := by
      rw [Signatures.namespaceSign, Outcome.makes_after_iff]
      exact ⟨_, rfl, .inl rfl⟩
    exact .namespaceSign hMakes
  have hNs : (Bytes.ofText "vault").length < 2 ^ 64 := by
    rw [Bytes.length_ofText]
    decide
  have hSized : u.Sized := ⟨by decide, List.forall_mem_cons.mpr ⟨hNs, by simp⟩⟩
  have hSized' : v.Sized := ⟨by decide, List.forall_mem_cons.mpr ⟨hNs, by simp⟩⟩
  have hDifferent : u ≠ v := by simp [u, v]
  obtain ⟨hInfo, hKeys⟩ := Requests.share_key_iff (hSigning _) (hSigning _) hSized hSized'
  refine ⟨hSigning _, hSigning _, hSized, hSized', mt hInfo.mp hDifferent, ?_⟩
  intro s hSame
  obtain ⟨key, key', hKey, hKey', -, -, hShared⟩ := hKeys s
  have hEqual : key = key' := Option.some_inj.mp (hKey.symm.trans (hSame.trans hKey'))
  exact (hShared.mp hEqual).resolve_left hDifferent

end KeyUse

/-! ## Every operation -/

namespace Keys

open Outcome

variable {α : Type} {q : Request}

theorem requests_of_makes {key : SettingKey} {keyId : Bytes} {w : World} {next : World → Bytes → Outcome α}
    (h : (settingKey key keyId w next).Makes q) :
    (∃ u : KeyUse, u.Requests q) ∨ ∃ w secret, (next w secret).Makes q := by
  simp only [settingKey, makes_after_iff, makes_request_iff] at h
  obtain ⟨tenant, hTenant, ns, hPart, hAsked | ⟨w', signature, hNext⟩⟩ := h
  · left
    have hScope : key.scope = (UInt8.ofNat key.scope.toNat).toNat := by
      rw [tenantOf, SettingKey.tenant?] at hTenant
      by_cases hFits : 0 ≤ key.scope ∧ key.scope < 256
      · rw [UInt8.toNat_ofNat']
        omega
      · rw [if_neg hFits] at hTenant
        cases hTenant
    have hMakes : (settingKey key keyId w .finish).Makes q := by
      rw [settingKey, makes_after_iff]
      exact ⟨tenant, hTenant, makes_after_iff.mpr ⟨ns, hPart, makes_request_iff.mpr (.inl hAsked)⟩⟩
    exact ⟨_, .settingKey hScope hMakes⟩
  · exact .inr ⟨w', _, hNext⟩

theorem exists_of_makes_exchange {input : ExchangeRequest} {w : World}
    {next : World → KeyExchange.Agreement → Outcome α} (h : (exchange input w next).Makes q) :
    ∃ w agreement, (next w agreement).Makes q := by
  simp only [exchange, makes_after_iff, makes_draw_iff] at h
  obtain ⟨-, -, w', random, agreement, -, hNext⟩ := h
  exact ⟨w', agreement, hNext⟩

theorem requests_of_makes_encryptedKey {caller : Principal} {path : SettingPath} {input : ExchangeRequest}
    {w : World} (h : (encryptedKey caller path input w).Makes q) : ∃ u : KeyUse, u.Requests q := by
  simp only [encryptedKey, makes_after_iff] at h
  obtain ⟨-, -, -, -, h⟩ := h
  rcases requests_of_makes h with hRequests | ⟨w', secret, h⟩
  · exact hRequests
  · obtain ⟨w', agreement, h⟩ := exists_of_makes_exchange h
    simp at h

theorem requests_of_makes_plainPayload {caller : Principal} {key : SettingKey} {payload : Bytes}
    {dataKey : Option Bytes} {w : World} {next : World → Bytes → Outcome α}
    (h : (plainPayload caller key payload dataKey w next).Makes q) :
    (∃ u : KeyUse, u.Requests q) ∨ ∃ w plain, (next w plain).Makes q := by
  cases dataKey with
  | none => exact .inr ⟨w, payload, h⟩
  | some dataKey =>
    simp only [plainPayload, makes_after_iff] at h
    obtain ⟨-, -, h⟩ := h
    rcases requests_of_makes h with hRequests | ⟨w', secret, h⟩
    · exact .inl hRequests
    · obtain ⟨plain, -, hNext⟩ := makes_after_iff.mp h
      exact .inr ⟨w', plain, hNext⟩

theorem requests_of_makes_encryptedSetting {caller : Principal} {path : SettingPath} {input : ExchangeRequest}
    {w : World} (h : (encryptedSetting caller path input w).Makes q) : ∃ u : KeyUse, u.Requests q := by
  simp only [encryptedSetting, makes_after_iff] at h
  obtain ⟨-, -, info, -, h⟩ := h
  cases hPayload : info.payload with
  | none =>
    rw [hPayload] at h
    exact absurd h (not_makes_fail _)
  | some payload =>
    rw [hPayload] at h
    rcases requests_of_makes_plainPayload h with hRequests | ⟨w', plain, h⟩
    · exact hRequests
    · obtain ⟨w', agreement, h⟩ := exists_of_makes_exchange h
      simp at h

end Keys

namespace Operation

open Outcome

/-- The signer is asked for nothing but the uses that are told apart. -/
theorem requests_of_makes (service : Principal) (now : Int) (o : Operation) (w : World) {q : Request}
    {key : Bytes × List Bytes} (h : (o.perform service now w).Makes q) (hKey : q.key? = some key) :
    ∃ u : KeyUse, u.Requests q := by
  cases o with
  | namespacePublicKey caller ns path => exact ⟨_, .namespacePublicKey ((makes_map_iff _ _).mp h)⟩
  | namespaceSign caller ns path message => exact ⟨_, .namespaceSign ((makes_map_iff _ _).mp h)⟩
  | identityPublicKey => exact ⟨_, .identityPublicKey (w := w) ((makes_map_iff _ _).mp h)⟩
  | signIdentity caller ns audience => exact ⟨_, .signIdentity ((makes_map_iff _ _).mp h)⟩
  | signDelegation caller input => exact ⟨_, .signDelegation ((makes_map_iff _ _).mp h)⟩
  | encryptedKey caller path input => exact Keys.requests_of_makes_encryptedKey ((makes_map_iff _ _).mp h)
  | encryptedSetting caller path input =>
    exact Keys.requests_of_makes_encryptedSetting ((makes_map_iff _ _).mp h)
  | servicePublicKey caller path =>
    simp [perform, Keys.servicePublicKey] at h
    obtain ⟨-, context, -, rfl⟩ := h
    cases hKey
  | serviceKey caller path transportKey =>
    simp [perform, Keys.serviceKey] at h
    obtain ⟨-, -, context, -, rfl⟩ := h
    cases hKey
  | changeDelegators caller d input => cases d <;> simp [perform, changeDelegatorsCall, change] at h
  | _ => simp [perform, change, write, Signatures.getDelegation] at h

end Operation

end TenantVault
