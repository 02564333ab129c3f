import Mathlib.Data.List.Basic
import TenantVault.Proofs.Fingerprint

/-! # What the hash of a record stands for

The fields of a record are hashed, sorted and run together without anything between them. All hashes have one
length, so the parts can be told apart again: apart from collisions, a record is known from its hash, whichever way
its fields were given.
-/

namespace TenantVault

/-! ## Lists of hashes -/

/-- Blocks of one length are known from what they are run together to. -/
theorem Bytes.eq_of_flatten_eq {width : Nat} (hWidth : 0 < width) {blocks blocks' : List Bytes}
    (h : ∀ block ∈ blocks, block.length = width) (h' : ∀ block ∈ blocks', block.length = width)
    (hSame : blocks.flatten = blocks'.flatten) : blocks = blocks' := by
  induction blocks generalizing blocks' with
  | nil =>
    cases blocks' with
    | nil => rfl
    | cons block' rest' =>
      have hLength := congrArg List.length hSame
      have hFirst := h' block' List.mem_cons_self
      simp only [List.flatten_nil, List.flatten_cons, List.length_nil, List.length_append] at hLength
      omega
  | cons block rest ih =>
    obtain ⟨hFirst, hRest⟩ := List.forall_mem_cons.mp h
    cases blocks' with
    | nil =>
      have hLength := congrArg List.length hSame
      simp only [List.flatten_nil, List.flatten_cons, List.length_nil, List.length_append] at hLength
      omega
    | cons block' rest' =>
      obtain ⟨hFirst', hRest'⟩ := List.forall_mem_cons.mp h'
      rw [List.flatten_cons, List.flatten_cons] at hSame
      obtain ⟨rfl, hOthers⟩ := List.append_inj hSame (hFirst.trans hFirst'.symm)
      rw [ih hRest hRest' hOthers]

/-- Strings are known from their hashes run together. -/
theorem CollisionFree.eq_of_hashes {strings xs ys : List Bytes} (hFree : CollisionFree strings)
    (hx : xs ⊆ strings) (hy : ys ⊆ strings)
    (hSame : (xs.map Sha256.sha256).flatten = (ys.map Sha256.sha256).flatten) : xs = ys := by
  have hBlock (zs : List Bytes) : ∀ block ∈ zs.map Sha256.sha256, block.length = 32 := by
    simp
  have hHashes := Bytes.eq_of_flatten_eq (by decide) (hBlock xs) (hBlock ys) hSame
  clear hSame
  induction xs generalizing ys with
  | nil => exact (List.map_eq_nil_iff.mp hHashes.symm).symm
  | cons x xs ih =>
    cases ys with
    | nil => cases hHashes
    | cons y ys =>
      obtain ⟨hFirst, hRest⟩ := List.cons.inj hHashes
      rw [List.cons_subset] at hx hy
      rw [hFree x hx.1 y hy.1 hFirst, ih hx.2 hy.2 hRest]

namespace Identity

/-! ## The order of the fields -/

def sorted (hashes : List Bytes) : List Bytes := hashes.mergeSort fun a b => decide (a ≤ b)

theorem sorted_of_perm {hashes hashes' : List Bytes} (h : hashes.Perm hashes') : sorted hashes = sorted hashes' := by
  have hAscending (items : List Bytes) : (sorted items).Pairwise fun a b => decide (a ≤ b) = true := by
    apply List.pairwise_mergeSort
    · intro a b c hab hbc
      simp only [decide_eq_true_eq] at hab hbc ⊢
      exact Std.le_trans hab hbc
    · intro a b
      simp only [Bool.or_eq_true, decide_eq_true_eq]
      exact Std.le_total
  refine List.Perm.eq_of_pairwise ?_ (hAscending hashes) (hAscending hashes') ?_
  · intro a b _ _ hab hba
    simp only [decide_eq_true_eq] at hab hba
    exact Std.le_antisymm hab hba
  · exact ((List.mergeSort_perm _ _).trans h).trans (List.mergeSort_perm _ _).symm

theorem recordHash_eq_ok_iff {fields : List (String × FieldValue)} {digest : Bytes} :
    recordHash fields = .ok digest ↔
      ∃ hashes, fields.mapM fieldHash = .ok hashes ∧ Sha256.sha256 (sorted hashes).flatten = digest := by
  rw [recordHash, bind_eq_ok_iff]
  simp only [pure_eq_ok_iff]
  rfl

theorem mapM_of_perm {α β : Type} {f : α → Result β} {items items' : List α} {results : List β}
    (hPerm : items.Perm items') (h : items.mapM f = .ok results) :
    ∃ results', items'.mapM f = .ok results' ∧ results.Perm results' := by
  induction hPerm generalizing results with
  | nil => exact ⟨results, h, .refl _⟩
  | cons a hPerm ih =>
    simp only [List.mapM_cons, bind_eq_ok_iff, pure_eq_ok_iff] at h ⊢
    obtain ⟨b, hFirst, bs, hRest, rfl⟩ := h
    obtain ⟨bs', hRest', hSame⟩ := ih hRest
    exact ⟨b :: bs', ⟨b, hFirst, bs', hRest', rfl⟩, hSame.cons b⟩
  | swap a a' items =>
    simp only [List.mapM_cons, bind_eq_ok_iff, pure_eq_ok_iff] at h ⊢
    obtain ⟨b', hFirst', _, ⟨b, hFirst, bs, hRest, rfl⟩, rfl⟩ := h
    exact ⟨b :: b' :: bs, ⟨b, hFirst, b' :: bs, ⟨b', hFirst', bs, hRest, rfl⟩, rfl⟩, .swap b b' bs⟩
  | trans _ _ ih ih' =>
    obtain ⟨results', h', hSame⟩ := ih h
    obtain ⟨results'', h'', hSame'⟩ := ih' h'
    exact ⟨results'', h'', hSame.trans hSame'⟩

/-- It does not matter in which order the fields of a record are given. -/
theorem recordHash_of_perm {fields fields' : List (String × FieldValue)} (hPerm : fields.Perm fields')
    {digest : Bytes} (h : recordHash fields = .ok digest) : recordHash fields' = .ok digest := by
  rw [recordHash_eq_ok_iff] at h ⊢
  obtain ⟨hashes, hHashes, hDigest⟩ := h
  obtain ⟨hashes', hHashes', hSame⟩ := mapM_of_perm hPerm hHashes
  refine ⟨hashes', hHashes', ?_⟩
  rw [← sorted_of_perm hSame, hDigest]

/-! ## Records -/

/-- What is hashed of some fields, each given by the strings that its name and its value are hashed as. -/
def record (rows : List (Bytes × Bytes)) : Bytes := (sorted (rows.map fun row => hashedField row.1 row.2)).flatten

/-- The names and the values of some fields. -/
def parts (rows : List (Bytes × Bytes)) : List Bytes := rows.flatMap fun row => [row.1, row.2]

theorem subset_of_record_eq {rows rows' : List (Bytes × Bytes)} (hFree : CollisionFree (parts rows ++ parts rows'))
    (hSame : record rows = record rows') : rows ⊆ rows' := by
  have hWidth (items : List (Bytes × Bytes)) :
      ∀ block ∈ sorted (items.map fun row => hashedField row.1 row.2), block.length = 64 := by
    intro block hBlock
    rw [sorted, List.mem_mergeSort, List.mem_map] at hBlock
    obtain ⟨row, -, rfl⟩ := hBlock
    exact length_hashedField row.1 row.2
  have hSorted := Bytes.eq_of_flatten_eq (by decide) (hWidth rows) (hWidth rows') hSame
  intro row hRow
  have hField : hashedField row.1 row.2 ∈ sorted (rows.map fun row => hashedField row.1 row.2) :=
    List.mem_mergeSort.mpr (List.mem_map_of_mem hRow)
  rw [hSorted, sorted, List.mem_mergeSort, List.mem_map] at hField
  obtain ⟨row', hRow', hHashes⟩ := hField
  have hLength : (Sha256.sha256 row'.1).length = (Sha256.sha256 row.1).length := by simp
  obtain ⟨hName, hValue⟩ := List.append_inj hHashes hLength
  have hParts {items : List (Bytes × Bytes)} {item : Bytes × Bytes} (hItem : item ∈ items) :
      item.1 ∈ parts items ∧ item.2 ∈ parts items := by
    constructor <;> exact List.mem_flatMap.mpr ⟨item, hItem, by simp⟩
  have hSameName :=
    hFree _ (List.mem_append_right _ (hParts hRow').1) _ (List.mem_append_left _ (hParts hRow).1) hName
  have hSameValue :=
    hFree _ (List.mem_append_right _ (hParts hRow').2) _ (List.mem_append_left _ (hParts hRow).2) hValue
  have hSameRow : row' = row := Prod.ext hSameName hSameValue
  rwa [← hSameRow]

/-! ## Delegations -/

variable {sessionKey sessionKey' : Bytes} {e e' : Int} {targets targets' : Option (List Bytes)}

def targetsName : Bytes := Bytes.ofText "targets"

def targetsValue (targets : List Bytes) : Bytes := (targets.map Sha256.sha256).flatten

def delegationRows (sessionKey : Bytes) (expiration : Int) (targets : Option (List Bytes)) : List (Bytes × Bytes) :=
  [(pubkeyName, sessionKey), (expirationName, expirationValue expiration)] ++
    (targets.map fun items => (targetsName, targetsValue items)).toList

/-- The record of a delegation. -/
def restrictedRecord (sessionKey : Bytes) (expiration : Int) (targets : Option (List Bytes)) : Bytes :=
  record (delegationRows sessionKey expiration targets)

/-- The hash of the record behind the domain that it belongs to. -/
def restrictedStatement (sessionKey : Bytes) (expiration : Int) (targets : Option (List Bytes)) : Bytes :=
  UInt8.ofNat delegationDomain.length :: delegationDomain ++
    Sha256.sha256 (restrictedRecord sessionKey expiration targets)

/-- All that is hashed for the message of a delegation. -/
def messageStrings (sessionKey : Bytes) (expiration : Int) (targets : Option (List Bytes)) : List Bytes :=
  parts (delegationRows sessionKey expiration targets) ++ targets.getD [] ++
    [restrictedRecord sessionKey expiration targets, restrictedStatement sessionKey expiration targets]

theorem hashes_bytes (items : List Bytes) : FieldValue.hashes (items.map .bytes) = .ok (targetsValue items) := by
  induction items with
  | nil => rfl
  | cons item items ih =>
    rw [List.map_cons, FieldValue.hashes, ih, FieldValue.hash]
    rfl

theorem delegationMessage_of_nonneg (h : 0 ≤ e) :
    delegationMessage sessionKey e targets = .ok (Sha256.sha256 (restrictedStatement sessionKey e targets)) := by
  have hKey : fieldHash ("pubkey", .bytes sessionKey) = .ok (hashedField pubkeyName sessionKey) := rfl
  have hExpiration : fieldHash ("expiration", .int e) = .ok (hashedField expirationName (expirationValue e)) := by
    rw [fieldHash, hash_int, if_neg (by omega)]
    rfl
  have hTargets (items : List Bytes) : fieldHash ("targets", .list (items.map .bytes)) =
      .ok (hashedField targetsName (targetsValue items)) := by
    rw [fieldHash, FieldValue.hash, hashes_bytes]
    rfl
  cases targets with
  | none =>
    simp only [delegationMessage, recordHash, List.append_nil, List.mapM_cons, List.mapM_nil, hKey, hExpiration]
    rfl
  | some items =>
    simp only [delegationMessage, recordHash, List.cons_append, List.nil_append, List.mapM_cons, List.mapM_nil, hKey,
      hExpiration, hTargets]
    rfl

/-- The names of the fields are different, and so a row shows which field it is of. -/
theorem names_differ :
    pubkeyName ≠ expirationName ∧ pubkeyName ≠ targetsName ∧ expirationName ≠ targetsName := by
  simp only [pubkeyName, expirationName, targetsName, ne_eq, Bytes.ofText_inj]
  decide

theorem mem_delegationRows_iff {row : Bytes × Bytes} : row ∈ delegationRows sessionKey e targets ↔
    row = (pubkeyName, sessionKey) ∨ row = (expirationName, expirationValue e) ∨
      ∃ items, targets = some items ∧ row = (targetsName, targetsValue items) := by
  cases targets <;> simp [delegationRows]

theorem pubkey_mem_iff {value : Bytes} :
    (pubkeyName, value) ∈ delegationRows sessionKey e targets ↔ value = sessionKey := by
  simp [mem_delegationRows_iff, names_differ]

theorem expiration_mem_iff {value : Bytes} :
    (expirationName, value) ∈ delegationRows sessionKey e targets ↔ value = expirationValue e := by
  simp [mem_delegationRows_iff, names_differ, names_differ.1.symm]

theorem targets_mem_iff {value : Bytes} :
    (targetsName, value) ∈ delegationRows sessionKey e targets ↔
      ∃ items, targets = some items ∧ value = targetsValue items := by
  simp [mem_delegationRows_iff, names_differ.2.1.symm, names_differ.2.2.symm]

/-- A delegation that is restricted is told from one that is not, even if it is restricted to nothing. -/
theorem targets_of_subset {strings : List Bytes} (hFree : CollisionFree strings)
    (hItems : targets.getD [] ⊆ strings) (hItems' : targets'.getD [] ⊆ strings)
    (h : delegationRows sessionKey e targets ⊆ delegationRows sessionKey' e' targets')
    (h' : delegationRows sessionKey' e' targets' ⊆ delegationRows sessionKey e targets) : targets = targets' := by
  cases targets with
  | none =>
    cases targets' with
    | none => rfl
    | some items' =>
      obtain ⟨items, hNone, -⟩ := targets_mem_iff.mp (h' (targets_mem_iff.mpr ⟨items', rfl, rfl⟩))
      cases hNone
  | some items =>
    obtain ⟨items', rfl, hValue⟩ := targets_mem_iff.mp (h (targets_mem_iff.mpr ⟨items, rfl, rfl⟩))
    exact congrArg some (hFree.eq_of_hashes hItems hItems' hValue)

theorem delegation_of_statement_eq (hFirst : 0 ≤ e) (hSecond : 0 ≤ e')
    (hFree : CollisionFree
      (messageStrings sessionKey e targets ++ messageStrings sessionKey' e' targets'))
    (hSame : Sha256.sha256 (restrictedStatement sessionKey e targets) =
      Sha256.sha256 (restrictedStatement sessionKey' e' targets')) :
    sessionKey = sessionKey' ∧ e = e' ∧ targets = targets' := by
  have hStatement : restrictedStatement sessionKey e targets = restrictedStatement sessionKey' e' targets' :=
    hFree _ (by simp [messageStrings]) _ (by simp [messageStrings]) hSame
  have hRecord : restrictedRecord sessionKey e targets = restrictedRecord sessionKey' e' targets' :=
    hFree _ (by simp [messageStrings]) _ (by simp [messageStrings]) (List.append_cancel_left hStatement)
  have hParts : CollisionFree (parts (delegationRows sessionKey e targets) ++
      parts (delegationRows sessionKey' e' targets')) := by
    apply hFree.mono
    intro x hx
    simp only [messageStrings, List.mem_append] at hx ⊢
    tauto
  have hRows := subset_of_record_eq hParts hRecord
  have hRows' := subset_of_record_eq (hParts.mono (by simp)) hRecord.symm
  have hKey := pubkey_mem_iff.mp (hRows (pubkey_mem_iff.mpr rfl))
  have hExpiration := expiration_mem_iff.mp (hRows (expiration_mem_iff.mpr rfl))
  refine ⟨hKey, expirationValue_inj hFirst hSecond hExpiration, targets_of_subset hFree ?_ ?_ hRows hRows'⟩
  · simp [messageStrings]
  · intro item hItem
    simp [messageStrings, hItem]

/-- The message of a delegation stands for all of its fields. It does not depend on the order in which they are
given, and for two delegations to have one message, two of the strings that are hashed must collide. -/
theorem delegation_message_binds (sessionKey sessionKey' : Bytes) (targets targets' : Option (List Bytes))
    (hFirst : 0 ≤ e) (hSecond : 0 ≤ e') :
    (∀ fields fields' : List (String × FieldValue), fields.Perm fields' →
      ∀ digest, recordHash fields = .ok digest ↔ recordHash fields' = .ok digest) ∧
    ∃ message message', delegationMessage sessionKey e targets = .ok message ∧
      delegationMessage sessionKey' e' targets' = .ok message' ∧
      (message = message' → (sessionKey = sessionKey' ∧ e = e' ∧ targets = targets') ∨
        ∃ x ∈ messageStrings sessionKey e targets ++ messageStrings sessionKey' e' targets',
          ∃ y ∈ messageStrings sessionKey e targets ++ messageStrings sessionKey' e' targets',
            x ≠ y ∧ Sha256.sha256 x = Sha256.sha256 y) := by
  constructor
  · intro fields fields' hPerm digest
    exact ⟨recordHash_of_perm hPerm, recordHash_of_perm hPerm.symm⟩
  · refine ⟨_, _, delegationMessage_of_nonneg hFirst, delegationMessage_of_nonneg hSecond, fun hSame => ?_⟩
    by_cases hFree : CollisionFree (messageStrings sessionKey e targets ++ messageStrings sessionKey' e' targets')
    · exact .inl (delegation_of_statement_eq hFirst hSecond hFree hSame)
    · simp only [CollisionFree, not_forall] at hFree
      obtain ⟨x, hx, y, hy, hHashes, hOther⟩ := hFree
      exact .inr ⟨x, hx, y, hy, hOther, hHashes⟩

theorem empty_restriction_told_apart : ∃ message message', delegationMessage [0x30] 1 none = .ok message ∧
    delegationMessage [0x30] 1 (some []) = .ok message' ∧
      (message = message' → ∃ x ∈ messageStrings [0x30] 1 none ++ messageStrings [0x30] 1 (some []),
        ∃ y ∈ messageStrings [0x30] 1 none ++ messageStrings [0x30] 1 (some []),
          x ≠ y ∧ Sha256.sha256 x = Sha256.sha256 y) := by
  obtain ⟨-, message, message', hMessage, hMessage', hBinds⟩ :=
    delegation_message_binds [0x30] [0x30] none (some []) (by decide : (0 : Int) ≤ 1) (by decide : (0 : Int) ≤ 1)
  refine ⟨message, message', hMessage, hMessage', fun hSame => ?_⟩
  obtain ⟨-, -, hTargets⟩ | hCollision := hBinds hSame
  · cases hTargets
  · exact hCollision

end Identity

end TenantVault
