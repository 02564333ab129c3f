import Mathlib.Data.List.Nodup
import TenantVault.Identity
import TenantVault.Proofs.Access

/-! # What the hash of a delegation stands for

A delegation is kept and signed under a hash of hashes. The record that is hashed in between has its
fields in the order of their hashes, which is the same for all delegations. As long as no two of the
strings that are hashed have the same hash, it stands for one session key and one expiry.
-/

namespace TenantVault

open Access

/-- No two of some strings have the same hash. -/
def CollisionFree (strings : List Bytes) : Prop :=
  ∀ x ∈ strings, ∀ y ∈ strings, Sha256.sha256 x = Sha256.sha256 y → x = y

theorem CollisionFree.mono {strings strings' : List Bytes} (h : CollisionFree strings)
    (hSubset : strings' ⊆ strings) : CollisionFree strings' := by
  intro x hx y hy
  exact h x (hSubset hx) y (hSubset hy)

theorem collisionFree_of_nodup {strings : List Bytes} (h : (strings.map Sha256.sha256).Nodup) :
    CollisionFree strings := fun _ hx _ hy => List.inj_on_of_nodup_map h hx hy

namespace Identity

/-- A field of a record as it is hashed with the others: its name and its value, each of them hashed. -/
def hashedField (name value : Bytes) : Bytes := Sha256.sha256 name ++ Sha256.sha256 value

def pubkeyName : Bytes := Bytes.ofText "pubkey"

def expirationName : Bytes := Bytes.ofText "expiration"

def expirationValue (expiration : Int) : Bytes := Leb128.encode expiration.toNat

/-- The fields of a delegation in the order in which they are hashed. -/
def delegationFields (sessionKey : Bytes) (expiration : Int) : List Bytes :=
  [hashedField pubkeyName sessionKey, hashedField expirationName (expirationValue expiration)].mergeSort
    fun a b => decide (a ≤ b)

def delegationRecord (sessionKey : Bytes) (expiration : Int) : Bytes :=
  (delegationFields sessionKey expiration).flatten

/-- The hash of the record behind the domain that it belongs to. -/
def delegationStatement (sessionKey : Bytes) (expiration : Int) : Bytes :=
  UInt8.ofNat delegationDomain.length :: delegationDomain ++
    Sha256.sha256 (delegationRecord sessionKey expiration)

/-- All that is hashed to keep the signature of a delegation and to find it again. -/
def hashed (seed sessionKey : Bytes) (expiration : Int) : List Bytes :=
  [seed, sessionKey, expirationValue expiration, delegationRecord sessionKey expiration,
    delegationStatement sessionKey expiration]

theorem hash_int (n : Int) :
    (FieldValue.int n).hash =
      if n < 0 then .error (.breakdown .endlessInteger) else .ok (Sha256.sha256 (expirationValue n)) := by
  rw [FieldValue.hash]
  rfl

theorem delegationMessage_none (sessionKey : Bytes) (expiration : Int) :
    delegationMessage sessionKey expiration none =
      if expiration < 0 then .error (.breakdown .endlessInteger)
      else .ok (Sha256.sha256 (delegationStatement sessionKey expiration)) := by
  have hKey : fieldHash ("pubkey", .bytes sessionKey) = .ok (hashedField pubkeyName sessionKey) := rfl
  unfold delegationMessage recordHash
  dsimp only
  rw [List.append_nil, List.mapM_cons, List.mapM_cons, List.mapM_nil, hKey, fieldHash, hash_int]
  by_cases hNegative : expiration < 0
  · rw [if_pos hNegative, if_pos hNegative]
    rfl
  · rw [if_neg hNegative, if_neg hNegative]
    rfl

theorem delegationMessage_eq_ok_iff (sessionKey : Bytes) (expiration : Int) (message : Bytes) :
    delegationMessage sessionKey expiration none = .ok message ↔
      0 ≤ expiration ∧ message = Sha256.sha256 (delegationStatement sessionKey expiration) := by
  rw [delegationMessage_none]
  by_cases hNegative : expiration < 0
  · rw [if_pos hNegative]
    refine ⟨nofun, ?_⟩
    rintro ⟨hThere, -⟩
    omega
  · rw [if_neg hNegative, Except.ok.injEq, eq_comm]
    exact ⟨fun hSame => ⟨by omega, hSame⟩, And.right⟩

theorem length_hashedField (name value : Bytes) : (hashedField name value).length = 64 := by
  simp [hashedField]

theorem hash_eq_of_hashedField_eq {name value value' : Bytes}
    (h : hashedField name value = hashedField name value') :
    Sha256.sha256 value = Sha256.sha256 value' :=
  List.append_cancel_left h

/-- The order of the fields depends on their names only: their hashes begin with different octets. -/
theorem delegationFields_eq (sessionKey : Bytes) (expiration : Int) :
    delegationFields sessionKey expiration =
      [hashedField expirationName (expirationValue expiration), hashedField pubkeyName sessionKey] := by
  have hOrder : hashedField expirationName (expirationValue expiration) <
      hashedField pubkeyName sessionKey := by
    have hFirst : (Sha256.sha256 expirationName).head? = some 46 := by decide +kernel
    have hSecond : (Sha256.sha256 pubkeyName).head? = some 184 := by decide +kernel
    obtain ⟨rest, hExpiration⟩ := List.head?_eq_some_iff.mp hFirst
    obtain ⟨rest', hPubkey⟩ := List.head?_eq_some_iff.mp hSecond
    unfold hashedField
    rw [hExpiration, hPubkey, List.cons_append, List.cons_append]
    exact List.cons_lt_cons_iff.mpr (Or.inl (by decide))
  have hNot : ¬ hashedField pubkeyName sessionKey ≤
      hashedField expirationName (expirationValue expiration) := List.not_le.mpr hOrder
  unfold delegationFields
  simp [List.mergeSort, List.MergeSort.Internal.splitInTwo, hNot]

theorem delegationRecord_eq (sessionKey : Bytes) (expiration : Int) :
    delegationRecord sessionKey expiration =
      hashedField expirationName (expirationValue expiration) ++ hashedField pubkeyName sessionKey := by
  rw [delegationRecord, delegationFields_eq]
  simp

theorem expirationValue_inj {e e' : Int} (hFirst : 0 ≤ e) (hSecond : 0 ≤ e')
    (h : expirationValue e = expirationValue e') : e = e' := by
  have hDecoded := congrArg (fun octets => Leb128.decode? (octets ++ [])) h
  unfold expirationValue at hDecoded
  rw [Leb128.decode_encode, Leb128.decode_encode] at hDecoded
  cases hNumber : e.toNat
  all_goals
    rw [Option.some.injEq, Prod.mk.injEq] at hDecoded
    omega

/-- A delegation is known from its hash. -/
theorem delegation_unique {strings : List Bytes} {seed seed' sessionKey sessionKey' : Bytes} {e e' : Int}
    (hFree : CollisionFree strings) (hMem : hashed seed sessionKey e ⊆ strings)
    (hMem' : hashed seed' sessionKey' e' ⊆ strings) (hFirst : 0 ≤ e) (hSecond : 0 ≤ e')
    (h : Sha256.sha256 (delegationStatement sessionKey e) =
      Sha256.sha256 (delegationStatement sessionKey' e')) : sessionKey = sessionKey' ∧ e = e' := by
  simp only [hashed, List.cons_subset] at hMem hMem'
  obtain ⟨-, hKey, hValue, hRecord, hStatement, -⟩ := hMem
  obtain ⟨-, hKey', hValue', hRecord', hStatement', -⟩ := hMem'
  have hSameRecord : delegationRecord sessionKey e = delegationRecord sessionKey' e' :=
    hFree _ hRecord _ hRecord' (List.append_cancel_left (hFree _ hStatement _ hStatement' h))
  rw [delegationRecord_eq, delegationRecord_eq] at hSameRecord
  have hLength : (hashedField expirationName (expirationValue e)).length =
      (hashedField expirationName (expirationValue e')).length := by
    rw [length_hashedField, length_hashedField]
  obtain ⟨hExpirationField, hKeyField⟩ := List.append_inj hSameRecord hLength
  have hSameKey : sessionKey = sessionKey' :=
    hFree _ hKey _ hKey' (hash_eq_of_hashedField_eq hKeyField)
  have hSameValue : expirationValue e = expirationValue e' :=
    hFree _ hValue _ hValue' (hash_eq_of_hashedField_eq hExpirationField)
  exact ⟨hSameKey, expirationValue_inj hFirst hSecond hSameValue⟩

end Identity

end TenantVault
