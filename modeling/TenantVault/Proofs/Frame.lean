import TenantVault.Proofs.Commit

/-! # What a write leaves alone

Five operations write settings, each of them those under one key. As long as the byte counts of
namespaces are whole numbers they stay so, and no write fails after it has begun.
-/

namespace TenantVault

/-- The key of the setting that an operation writes, if it writes one. -/
def Operation.settingKey? : Operation → Option SettingKey
  | createSetting caller path _ | updatePayload caller path _ | updateSetting caller path _
  | changeReaders caller path _ _ | deleteSetting caller path => some (path.toKey caller)
  | _ => none

@[simp] theorem SettingKey.current_withVersion (key : SettingKey) (version : Int) :
    (key.withVersion version).current = key.current := rfl

@[simp] theorem Tables.current_versionKey (key : SettingKey) (version : Json) :
    (Tables.versionKey key version).current = key.current.stored := rfl

namespace Tables

variable {α : Type} (t : Tables) (name : String) (ns : Namespace) (payloadBytes : Result Json)
  (a : α)

@[simp] theorem settings_settle : (t.settle name ns payloadBytes a).1.settings = t.settings := by
  cases payloadBytes <;> rfl

@[simp] theorem archived_settle : (t.settle name ns payloadBytes a).1.archived = t.archived := by
  cases payloadBytes <;> rfl

@[simp] theorem governance_settle :
    (t.settle name ns payloadBytes a).1.governance = t.governance := by
  cases payloadBytes <;> rfl

@[simp] theorem settings_archivePayload (key : SettingKey) (s : Setting) (deprecated : Bool)
    (now : Int) :
    (t.archivePayload key s deprecated now).settings = t.settings := by
  unfold archivePayload
  split <;> rfl

@[simp] theorem namespaces_archivePayload (key : SettingKey) (s : Setting) (deprecated : Bool)
    (now : Int) :
    (t.archivePayload key s deprecated now).namespaces = t.namespaces := by
  unfold archivePayload
  split <;> rfl

@[simp] theorem governance_archivePayload (key : SettingKey) (s : Setting) (deprecated : Bool)
    (now : Int) :
    (t.archivePayload key s deprecated now).governance = t.governance := by
  unfold archivePayload
  split <;> rfl

end Tables

/-! ## Settings under other keys -/

/-- The live and the archived row under a key are the same. -/
structure SameRows (k : StoredKey) (t t' : Tables) : Prop where
  live : t'.settings.get? k = t.settings.get? k
  archived : t'.archived.get? k = t.archived.get? k

namespace SameRows

variable {k : StoredKey} {t t' t'' : Tables} {key : SettingKey}

theorem trans (h : SameRows k t t') (h' : SameRows k t' t'') : SameRows k t t'' :=
  ⟨h'.live.trans h.live, h'.archived.trans h.archived⟩

/-- A key with another current key is another key, whatever its version. -/
theorem ne_of_current_ne (k' : StoredKey) (hCurrent : k'.current = key.current.stored)
    (hApart : (key.current.stored == k.current) = false) : (k' == k) = false := by
  cases h : k' == k
  · rfl
  · rw [← hCurrent, StoredKey.current_beq_current h] at hApart
    cases hApart

theorem putSetting (t : Tables) (s : Setting) (hApart : (key.current.stored == k.current) = false) :
    SameRows k t (t.putSetting key s) := by
  refine ⟨?_, rfl⟩
  rw [Tables.putSetting]
  dsimp only
  rw [Table.get?_put, ne_of_current_ne key.current.stored rfl hApart]
  rfl

theorem archivePayload (t : Tables) (s : Setting) (deprecated : Bool) (now : Int)
    (hApart : (key.current.stored == k.current) = false) :
    SameRows k t (t.archivePayload key s deprecated now) := by
  refine ⟨by rw [Tables.settings_archivePayload], ?_⟩
  unfold Tables.archivePayload
  split
  · dsimp only
    rw [Table.get?_put, ne_of_current_ne _ (Tables.current_versionKey key s.version) hApart]
    rfl
  · rfl

theorem removeSetting (t : Tables) (hApart : (key.current.stored == k.current) = false) :
    SameRows k t (t.removeSetting key) := by
  constructor
  · rw [Tables.removeSetting]
    dsimp only
    rw [Table.get?_erase, ne_of_current_ne key.current.stored rfl hApart]
    rfl
  · rw [Tables.removeSetting]
    dsimp only
    rw [Table.get?_filterKeys]
    · rw [BEq.comm] at hApart
      simp [bne, hApart]
    · intro k' h
      simp only [bne, BEq.congr_left (StoredKey.current_beq_current h)]

theorem settle {α : Type} (t : Tables) (name : String) (ns : Namespace)
    (payloadBytes : Result Json) (a : α) :
    SameRows k t (t.settle name ns payloadBytes a).1 :=
  ⟨by rw [Tables.settings_settle], by rw [Tables.archived_settle]⟩

end SameRows

/-- An operation changes no row of any setting but the one that it writes. -/
theorem Commit.sameRows {now : Int} {t t' : Tables} {o : Operation} {r : Result Answer}
    (h : Commit now t o t' r) (k : StoredKey)
    (hApart : ∀ key, o.settingKey? = some key → (key.current.stored == k.current) = false) :
    SameRows k t t' := by
  cases h with
  | createSetting => exact (SameRows.putSetting t _ (hApart _ rfl)).trans (.settle ..)
  | updatePayload =>
    have hKey := hApart _ rfl
    exact ((SameRows.archivePayload t _ _ now hKey).trans (.putSetting _ _ hKey)).trans (.settle ..)
  | updateSetting => exact .putSetting t _ (hApart _ rfl)
  | changeReaders => exact .putSetting t _ (hApart _ rfl)
  | deleteSetting => exact (SameRows.removeSetting t (hApart _ rfl)).trans (.settle ..)
  | _ => exact ⟨rfl, rfl⟩

theorem Commit.sameRows_of_apart {now : Int} {t t' : Tables} {o : Operation} {r : Result Answer}
    (h : Commit now t o t' r) {key : SettingKey} (hWritten : o.settingKey? = some key)
    {k : StoredKey} (hApart : (key.current.stored == k.current) = false) : SameRows k t t' := by
  apply h.sameRows
  intro key' hWritten'
  rw [hWritten] at hWritten'
  cases hWritten'
  exact hApart

/-! ## Byte counts -/

/-- A byte count that can be added to, and stays one. -/
def Json.IsCount (v : Json) : Prop := ∃ m : Int, ∀ n, v.plus n = .ok (.int (m + n))

theorem Json.isCount_int (m : Int) : (Json.int m).IsCount := ⟨m, fun _ => rfl⟩

def Tables.Counted (t : Tables) : Prop :=
  ∀ name ns, t.namespaces.get? name = some ns → ns.payloadBytes.IsCount

namespace Tables.Counted

variable {t : Tables}

theorem of_namespaces_eq {t' : Tables} (h : t.Counted) (same : t'.namespaces = t.namespaces) :
    t'.Counted := by
  unfold Counted
  rw [same]
  exact h

theorem putNamespace (h : t.Counted) (name : String) {ns : Namespace}
    (hCount : ns.payloadBytes.IsCount) :
    (t.putNamespace name ns).Counted := by
  intro name' ns' hFound
  rw [Tables.putNamespace] at hFound
  dsimp only at hFound
  rw [Table.get?_put] at hFound
  split at hFound
  · cases hFound
    exact hCount
  · exact h name' ns' hFound

/-- A namespace row is replaced by one with the same byte count. -/
theorem updateNamespace (h : t.Counted) {name : String} {ns ns' : Namespace}
    (hFound : t.namespaces.get? (.text name) = some ns)
    (hSame : ns'.payloadBytes = ns.payloadBytes) :
    (t.putNamespace name ns').Counted := h.putNamespace name (hSame ▸ h _ ns hFound)

theorem eraseNamespace (h : t.Counted) (name : Scalar) :
    { t with namespaces := t.namespaces.erase name }.Counted := by
  intro name' ns' hFound
  dsimp only at hFound
  rw [Table.get?_erase] at hFound
  split at hFound
  · cases hFound
  · exact h name' ns' hFound

end Tables.Counted

/-- With whole byte counts a write that has begun succeeds, and leaves whole byte counts. -/
theorem Commit.counted {now : Int} {t t' : Tables} {o : Operation} {r : Result Answer}
    (h : Commit now t o t' r) (hCounted : t.Counted) : t'.Counted ∧ ∃ a, r = .ok a := by
  cases h with
  | changeGovernors => exact ⟨hCounted, _, rfl⟩
  | setAllowedApis => exact ⟨hCounted, _, rfl⟩
  | createNamespace => exact ⟨hCounted.putNamespace _ (Json.isCount_int 0), _, rfl⟩
  | updateNamespace admits manages => exact ⟨hCounted.updateNamespace manages.found rfl, _, rfl⟩
  | deleteNamespace => exact ⟨hCounted.eraseNamespace _, _, rfl⟩
  | @changeMembers caller name kind d ps ns admits proper manages =>
    exact ⟨hCounted.updateNamespace manages.found (by cases kind <;> rfl), _, rfl⟩
  | topUp admits positive found => exact ⟨hCounted.updateNamespace found rfl, _, rfl⟩
  | addDelegators admits manages => exact ⟨hCounted.updateNamespace manages.found rfl, _, rfl⟩
  | removeDelegators admits manages => exact ⟨hCounted.updateNamespace manages.found rfl, _, rfl⟩
  | createSetting admits writes =>
    obtain ⟨m, hPlus⟩ := hCounted _ _ writes.found
    rw [hPlus]
    exact ⟨(hCounted.of_namespaces_eq rfl).putNamespace _ (Json.isCount_int _), _, rfl⟩
  | updatePayload admits writes =>
    obtain ⟨m, hPlus⟩ := hCounted _ _ writes.found
    rw [hPlus]
    refine ⟨.putNamespace (.of_namespaces_eq hCounted ?_) _ (Json.isCount_int _), _, rfl⟩
    exact Tables.namespaces_archivePayload ..
  | updateSetting => exact ⟨hCounted.of_namespaces_eq rfl, _, rfl⟩
  | changeReaders => exact ⟨hCounted.of_namespaces_eq rfl, _, rfl⟩
  | deleteSetting admits writes =>
    obtain ⟨m, hPlus⟩ := hCounted _ _ writes.found
    rw [hPlus]
    simp only [Except.map, Json.atLeastZero_int]
    exact ⟨(hCounted.of_namespaces_eq rfl).putNamespace _ (Json.isCount_int _), _, rfl⟩

end TenantVault
