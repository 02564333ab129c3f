import TenantVault.Proofs.Deletion
import TenantVault.Proofs.Saving

/-! # Rows in their ranges

Requests are checked where they are read, and some fields are filled in or worked out where rows are written:
defaults, counts, names in lowercase, sets that are dropped when they are empty. In a service that has begun
with a valid configuration no row leaves the ranges of its fields, whatever it has been asked for.
-/

namespace TenantVault

/-! ## Ranges -/

/-- A word of lowercase letters, digits and underscores. -/
def IsName (s : String) : Prop := s ≠ "" ∧ ∀ c ∈ s.toList, Name.isNameChar c = true

def IsStatus (n : Int) : Prop := -1 ≤ n ∧ n ≤ 1

def IsFlag (n : Int) : Prop := n = 0 ∨ n = 1

/-- The major types that a payload can be declared to have. -/
def IsItemType (n : Int) : Prop := 2 ≤ n ∧ n ≤ 6

/-- An integer that satisfies a condition. -/
def Json.Within (P : Int → Prop) (v : Json) : Prop := ∃ n, v = .int n ∧ P n

/-- Named sets with a member each. -/
def Named (delegators : Table String Principals) : Prop :=
  ∀ name ps, delegators.get? name = some ps → IsName name ∧ ∃ p, p ∈ ps

structure Namespace.InRange (ns : Namespace) : Prop where
  name : ∃ text, ns.name = .text text ∧ IsName text
  maxPayloadSize : ns.maxPayloadSize.Within IsPayloadLimit
  status : ns.status.Within IsStatus
  visibility : ns.visibility.Within IsFlag
  sessionLifetime : IsLifetime ns.sessionLifetime
  gasBalance : 0 ≤ ns.gasBalance
  delegators : Named ns.delegators

/-- Tags under names. -/
def IsTags (v : Json) : Prop := ∃ members, v = .object members ∧ ∀ m ∈ members, IsName m.1

structure Setting.InRange (s : Setting) : Prop where
  status : s.status.Within IsStatus
  tags : IsTags s.tags
  contentType : s.contentType = .null ∨ s.contentType.Within IsItemType

structure SettingKey.InRange (key : SettingKey) : Prop where
  scope : IsFlag key.scope
  key : key.key.length ≤ maxKeyLength

/-! ## Fields that were read -/

open Entry Form

theorem Name.check_eq_ok_iff (s : String) : check s = .ok () ↔ IsName s := by
  rw [IsName, ← fault?_eq_none_iff, check]
  cases fault? s <;> simp

theorem Form.nameFault?_eq_none_iff (s : String) : nameFault? s = none ↔ IsName s := by
  rw [nameFault?, Option.map_eq_none_iff]
  exact Name.fault?_eq_none_iff s

theorem Form.isName_of_readName {v : Entry} {s : String} (h : readName v = .good s) : IsName s :=
  (nameFault?_eq_none_iff s).mp ((Checked.refine_eq_good_iff _ _ _).mp h).2

theorem Form.isName_of_readFoldedName {v : Entry} {s : String} (h : readFoldedName v = .good s) :
    IsName s :=
  (nameFault?_eq_none_iff s).mp ((Checked.refine_eq_good_iff _ _ _).mp h).2

theorem SortedSet.exists_mem_of_isEmpty {ps : Principals} (h : ps.isEmpty = false) : ∃ p, p ∈ ps :=
  List.exists_mem_of_ne_nil ps.toList (List.isEmpty_eq_false_iff.mp h)

theorem Form.exists_mem_of_readGrantees {v : Entry} {ps : Principals} (h : readGrantees v = .good ps) :
    ∃ p, p ∈ ps := by
  obtain ⟨-, hFault⟩ := (Checked.refine_eq_good_iff _ _ _).mp h
  rw [Option.map_eq_none_iff, Principals.fault?_eq_none_iff] at hFault
  exact SortedSet.exists_mem_of_isEmpty hFault.1

theorem isTags_tagObject {tags : Table String String} (h : ∀ name ∈ tags.keys, IsName name) :
    IsTags (tagObject tags) := by
  refine ⟨_, rfl, ?_⟩
  intro m hMem
  obtain ⟨row, hRow, rfl⟩ := List.mem_map.mp hMem
  exact h row.1 (List.mem_map_of_mem hRow)

theorem Form.isTags_of_readTags {fields : Fields} {name : String} {tags? : Option (Table String String)}
    (h : withDefault fields name none readTags = .good tags?) :
    ∀ tags, tags? = some tags → IsTags (tagObject tags) := by
  intro tags hTags
  have hFault := fault?_of_onSome h tags hTags
  rw [List.findSome?_eq_none_iff] at hFault
  exact isTags_tagObject fun name hMem => (nameFault?_eq_none_iff name).mp (hFault name hMem)

section Records

variable {fields : Fields}

theorem NewNamespace.isName_of_fields {input : NewNamespace} (h : ofFields fields = .good input) :
    IsName input.name := by
  rw [ofFields, Checked.seq_eq_good_iff] at h
  simp only [Checked.exists_seq_iff, Checked.exists_map_iff] at h
  obtain ⟨lifetime, -, users, -, auditors, -, managers, -, limit, -, desc, -, visibility, -, name, hName,
    rfl⟩ := h
  obtain ⟨v, hRead⟩ := exists_of_required hName
  exact isName_of_readName hRead

theorem DelegatorChange.named_of_fields {input : DelegatorChange} (h : ofFields fields = .good input) :
    IsName input.name ∧ ∃ p, p ∈ input.delegators := by
  rw [ofFields, Checked.seq_eq_good_iff] at h
  simp only [Checked.exists_seq_iff, Checked.exists_map_iff] at h
  obtain ⟨delegators, hDelegators, name, hName, ns, -, rfl⟩ := h
  obtain ⟨v, hNameRead⟩ := exists_of_required hName
  obtain ⟨v', hRead⟩ := exists_of_required hDelegators
  exact ⟨isName_of_readFoldedName hNameRead, exists_mem_of_readGrantees hRead⟩

theorem NewSetting.isTags_of_fields {input : NewSetting} (h : ofFields fields = .good input) :
    ∀ tags, input.tags = some tags → IsTags (tagObject tags) := by
  rw [ofFields, Checked.refine_eq_good_iff, Checked.seq_eq_good_iff] at h
  obtain ⟨h, -⟩ := h
  simp only [Checked.exists_seq_iff, Checked.exists_map_iff] at h
  obtain ⟨dataKey, -, contentType, -, tags, hTags, status, -, desc, -, payload, -, rfl⟩ := h
  exact isTags_of_readTags hTags

theorem SettingChange.isTags_of_fields {input : SettingChange} (h : ofFields fields = .good input) :
    ∀ tags, input.tags = some tags → IsTags (tagObject tags) := by
  rw [ofFields, Checked.seq_eq_good_iff] at h
  simp only [Checked.exists_seq_iff, Checked.exists_map_iff] at h
  obtain ⟨tags, hTags, status, -, desc, -, rfl⟩ := h
  exact isTags_of_readTags hTags

end Records

/-! ## Rows that are written -/

/-- A number that may be replaced. -/
theorem Json.Within.getD {P : Int → Prop} {v : Json} {given : Option Int} (h : v.Within P)
    (hGiven : ∀ n, given = some n → P n) : ((given.map Json.int).getD v).Within P := by
  cases given with
  | none => exact h
  | some n => exact ⟨n, rfl, hGiven n rfl⟩

section Rows

variable {now : Int} {ns : Namespace} {s : Setting}

theorem NewNamespace.inRange_row {input : NewNamespace} (hFit : input.Fit) (hName : IsName input.name)
    (now : Int) : (input.row now).InRange where
  name := ⟨input.name, rfl, hName⟩
  maxPayloadSize := by
    refine ⟨_, rfl, ?_⟩
    cases hSize : input.maxPayloadSize with
    | none => exact ⟨by decide, le_rfl⟩
    | some n => exact hFit.maxPayloadSize n hSize
  status := ⟨0, rfl, by decide, by decide⟩
  visibility := ⟨input.visibility, rfl, hFit.visibility⟩
  sessionLifetime := hFit.lifetime_row now
  gasBalance := le_rfl
  delegators := nofun

theorem NamespaceChange.inRange_row {input : NamespaceChange} (h : ns.InRange) (hFit : input.Fit)
    (now : Int) : (input.row ns now).InRange where
  name := h.name
  maxPayloadSize := h.maxPayloadSize.getD hFit.maxPayloadSize
  status := h.status.getD hFit.status
  visibility := h.visibility.getD hFit.visibility
  sessionLifetime := hFit.lifetime_row h.sessionLifetime now
  gasBalance := h.gasBalance
  delegators := h.delegators

/-- A change of what has no range. -/
theorem Namespace.InRange.touched {ns' : Namespace} (h : ns.InRange)
    (hSame : ns' = { ns with
      updatedAt := ns'.updatedAt, payloadBytes := ns'.payloadBytes, managers := ns'.managers,
      auditors := ns'.auditors, users := ns'.users }) : ns'.InRange := by
  rw [hSame]
  exact { h with }

theorem DelegatorChange.named_joined {input : DelegatorChange} (h : Named ns.delegators)
    (hName : IsName input.name) (hSome : ∃ p, p ∈ input.delegators) : Named (input.joined ns) := by
  intro name ps hFound
  rw [joined, Table.get?_put] at hFound
  split at hFound
  · next hSame =>
    rw [← eq_of_beq hSame]
    cases hFound
    obtain ⟨p, hMem⟩ := hSome
    exact ⟨hName, p, SortedSet.mem_union.mpr (.inr hMem)⟩
  · exact h name ps hFound

/-- A set that is emptied goes with its name. -/
theorem DelegatorChange.named_left {input : DelegatorChange} (h : Named ns.delegators) :
    Named (input.left ns) := by
  intro name ps hFound
  unfold left at hFound
  split at hFound
  · exact h name ps hFound
  · next before hBefore =>
    dsimp only at hFound
    split at hFound
    · rw [Table.get?_erase] at hFound
      split at hFound
      · cases hFound
      · exact h name ps hFound
    · next hLeft =>
      rw [Table.get?_put] at hFound
      split at hFound
      · next hSame =>
        rw [← eq_of_beq hSame]
        cases hFound
        obtain ⟨hName, -⟩ := h input.name before hBefore
        rw [Bool.not_eq_true] at hLeft
        exact ⟨hName, SortedSet.exists_mem_of_isEmpty hLeft⟩
      · exact h name ps hFound

theorem NewSetting.inRange_row {input : NewSetting} (hFit : input.Fit)
    (hTags : ∀ tags, input.tags = some tags → IsTags (tagObject tags)) (now : Int) :
    (input.row now).InRange where
  status := by
    refine ⟨_, rfl, ?_⟩
    cases hStatus : input.status with
    | none => exact ⟨by decide, by decide⟩
    | some n =>
      obtain ⟨hLow, hHigh⟩ := hFit.status n hStatus
      exact ⟨by dsimp only [Option.getD_some]; omega, hHigh⟩
  tags := by
    rw [row]
    cases hGiven : input.tags with
    | none => exact isTags_tagObject fun _ hMem => absurd hMem List.not_mem_nil
    | some tags => exact hTags tags hGiven
  contentType := by
    rw [row, declaredType]
    cases hType : input.contentType with
    | none => exact .inl rfl
    | some n => exact .inr ⟨n, rfl, hFit.contentType n hType⟩

theorem PayloadChange.inRange_row {input : PayloadChange} (h : s.InRange)
    (hStatus : ∀ n, input.status = some n → IsStatus n) (version : Json) (now : Int) :
    (input.row s version now).InRange where
  status := h.status.getD hStatus
  tags := h.tags
  contentType := h.contentType

theorem SettingChange.inRange_row {input : SettingChange} (h : s.InRange)
    (hStatus : ∀ n, input.status = some n → IsStatus n)
    (hTags : ∀ tags, input.tags = some tags → IsTags (tagObject tags)) (now : Int) :
    (input.row s now).InRange where
  status := h.status.getD hStatus
  tags := by
    rw [row]
    cases hGiven : input.tags with
    | none => exact h.tags
    | some tags => exact hTags tags hGiven
  contentType := h.contentType

end Rows

/-! ## Tables -/

structure Tables.InRange (t : Tables) : Prop where
  namespaces : ∀ name ns, t.namespaces.get? name = some ns → ns.InRange
  live : ∀ k s, t.settings.get? k = some s → s.InRange
  keys : ∀ key s, t.getSetting? key = some s → key.InRange

theorem World.inRange_ofConfig (c : Config) : (World.ofConfig c).tables.InRange where
  namespaces := by
    intro name ns hFound
    cases hFound
  live := by
    intro k s hFound
    cases hFound
  keys := by
    intro key s hFound
    cases hFound

section Preservation

variable {now : Int} {t t' : Tables} {o : Operation} {r : Result Answer}

theorem NamespaceWrite.inRange {name : Scalar} {ns : Namespace} (h : NamespaceWrite now t name o ns)
    (hAccepted : o.Accepted) (hRows : ∀ ns, t.namespaces.get? name = some ns → ns.InRange) :
    ns.InRange := by
  cases h with
  | created =>
    obtain ⟨fields, hRead⟩ := hAccepted
    have hName := NewNamespace.isName_of_fields hRead
    exact NewNamespace.inRange_row (NewNamespace.fit_of_fields hRead) hName now
  | changed found =>
    obtain ⟨fields, hRead⟩ := hAccepted
    exact NamespaceChange.inRange_row (hRows _ found) (NamespaceChange.fit_of_fields hRead) now
  | @regrouped _ _ kind _ _ _ _ found => cases kind <;> exact (hRows _ found).touched rfl
  | toppedUp positive found =>
    have hBefore := hRows _ found
    exact { hBefore with gasBalance := Int.add_nonneg hBefore.gasBalance (Int.le_of_lt positive) }
  | joined found =>
    obtain ⟨fields, hRead⟩ := hAccepted
    obtain ⟨hName, hSome⟩ := DelegatorChange.named_of_fields hRead
    have hBefore := hRows _ found
    exact { hBefore with delegators := DelegatorChange.named_joined hBefore.delegators hName hSome }
  | left found =>
    have hBefore := hRows _ found
    exact { hBefore with delegators := DelegatorChange.named_left hBefore.delegators }
  | counted _ found => exact (hRows _ found).touched rfl

theorem SettingWrite.inRange {k : StoredKey} {s : Setting} (h : SettingWrite now t k o s)
    (hAccepted : o.Accepted) (hRows : ∀ s, t.settings.get? k = some s → s.InRange) : s.InRange := by
  cases h with
  | created =>
    obtain ⟨-, fields, hRead⟩ := hAccepted
    have hTags := NewSetting.isTags_of_fields hRead
    exact NewSetting.inRange_row (NewSetting.fit_of_fields hRead) hTags now
  | updated at_ found =>
    obtain ⟨-, fields, hRead⟩ := hAccepted
    exact PayloadChange.inRange_row (hRows _ found) (PayloadChange.status_of_fields hRead) _ now
  | described found =>
    obtain ⟨-, fields, hRead⟩ := hAccepted
    have hTags := SettingChange.isTags_of_fields hRead
    exact SettingChange.inRange_row (hRows _ found) (SettingChange.status_of_fields hRead) hTags now
  | regrouped proper found =>
    have hBefore := hRows _ found
    exact ⟨hBefore.status, hBefore.tags, hBefore.contentType⟩

theorem SettingWrite.key_inRange {key : SettingKey} {s : Setting}
    (h : SettingWrite now t key.current.stored o s) (hAccepted : o.Accepted)
    (hKeys : ∀ s, t.getSetting? key = some s → key.InRange) : key.InRange := by
  cases h with
  | @created caller path input ns at_ =>
    obtain ⟨⟨fields, hRead⟩, -⟩ := hAccepted
    rw [StoredKey.stored_beq_stored, decide_eq_true_iff] at at_
    have hScope : (path.toKey caller).scope = key.scope := congrArg (·.scope) at_
    have hKey : path.key = key.key := congrArg (·.key) at_
    constructor
    · rw [← hScope]
      exact path.scope_toKey caller
    · rw [← hKey]
      exact SettingPath.length_key hRead
  | updated at_ found | described found | regrouped _ found => exact hKeys _ found

theorem Commit.inRange (h : Commit now t o t' r) (hAccepted : o.Accepted) (hRange : t.InRange) :
    t'.InRange where
  namespaces := by
    intro name ns hFound
    rcases h.namespace_cases hFound with hBefore | hWrite
    · exact hRange.namespaces name ns hBefore
    · exact hWrite.inRange hAccepted (hRange.namespaces name)
  live := by
    intro k s hFound
    rcases h.setting_cases hFound with hBefore | hWrite
    · exact hRange.live k s hBefore
    · exact hWrite.inRange hAccepted (hRange.live k)
  keys := by
    intro key s hFound
    rcases h.setting_cases hFound with hBefore | hWrite
    · exact hRange.keys key s hBefore
    · exact hWrite.key_inRange hAccepted (hRange.keys key)

theorem Snapshot.SameContents.inRange (h : SameContents t t') (hRange : t.InRange) : t'.InRange where
  namespaces := by
    rw [h.namespaces]
    exact hRange.namespaces
  live := by
    intro k s hFound
    rw [Table.get?_of_perm h.settings] at hFound
    exact hRange.live k s hFound
  keys := by
    intro key s hFound
    rw [Tables.getSetting?, Table.get?_of_perm h.settings] at hFound
    exact hRange.keys key s hFound

/-- The versions of a setting are counted from one. -/
theorem Tables.Whole.version (hWhole : t.Whole) {key : SettingKey} {s : Setting}
    (hFound : t.getSetting? key = some s) : s.version.Within (1 ≤ ·) := by
  obtain ⟨past, hKept⟩ := hWhole.history key
  cases hKept with
  | absent live =>
    rw [live] at hFound
    cases hFound
  | @present h _ live row filled =>
    rw [live] at hFound
    cases hFound
    refine ⟨h.number, row.version, ?_⟩
    unfold History.number
    omega

end Preservation

/-! ## States of a service -/

namespace Server

variable {service : Principal} {begun : Config → Prop} {asked : Int → Operation → Prop} {s : Server}

theorem Lived.inRange (hAccepted : ∀ now o, asked now o → o.Accepted) (h : Lived service begun asked s) :
    s.world.tables.InRange := by
  refine h.holds (fun c _ => World.inRange_ofConfig c) ?_ fun t t' hSame => hSame.inRange
  intro now o t t' r hAsked _ commit
  exact commit.inRange (hAccepted now o hAsked)

/-- No row of a service that has begun with a valid configuration leaves the ranges of its fields. -/
theorem rows_in_range (hAccepted : ∀ now o, asked now o → o.Accepted)
    (h : Lived service Config.Valid asked s) :
    (∀ row ∈ s.world.tables.namespaces.rows, ∃ name, row.1 = .text name ∧ row.2.name = .text name ∧
      IsName name ∧ row.2.InRange ∧ row.2.payloadBytes.Within (0 ≤ ·)) ∧
    ∀ row ∈ s.world.tables.settings.rows, ∃ key : SettingKey, row.1 = key.stored ∧ key.InRange ∧
      row.2.InRange ∧ row.2.version.Within (1 ≤ ·) := by
  have hRange := h.inRange hAccepted
  obtain ⟨surplus, hCovered⟩ := h.fromEmpty.covered
  constructor
  · rintro ⟨k, ns⟩ hRow
    obtain ⟨name, rfl⟩ := h.whole.native.names k (Table.keys_of_mem hRow)
    have hFound := Table.get?_of_mem hRow
    have hNative := h.whole.native.namespaces name ns hFound
    have hRowRange := hRange.namespaces _ ns hFound
    obtain ⟨n, hBytes⟩ := hNative.payloadBytes
    obtain ⟨text, hText, hName⟩ := hRowRange.name
    have hSame : text = name := Json.text.inj (hText.symm.trans hNative.name)
    have hCount := hCovered name ns n hFound hBytes
    exact ⟨name, rfl, hNative.name, hSame ▸ hName, hRowRange, n, hBytes, by omega⟩
  · intro row hRow
    obtain ⟨key, hKey, -, hFound⟩ := h.whole.row_live hRow
    exact ⟨key, hKey, hRange.keys key row.2 hFound, hRange.live _ row.2 hFound, h.whole.version hFound⟩

namespace Sample

theorem configured_in_range :
    (∀ now o, (fun _ o => Operation.Accepted o) (now : Int) o → o.Accepted) ∧
      Lived owner Config.Valid (fun _ o => o.Accepted) configured ∧
      (∀ row ∈ configured.world.tables.namespaces.rows, ∃ name, row.1 = .text name ∧
        row.2.name = .text name ∧ IsName name ∧ row.2.InRange ∧ row.2.payloadBytes.Within (0 ≤ ·)) ∧
      ∀ row ∈ configured.world.tables.settings.rows, ∃ key : SettingKey, row.1 = key.stored ∧
        key.InRange ∧ row.2.InRange ∧ row.2.version.Within (1 ≤ ·) := by
  have hAccepted : ∀ now o, (fun _ o => Operation.Accepted o) (now : Int) o → o.Accepted :=
    fun _ _ h => h
  exact ⟨hAccepted, configured_lived, rows_in_range hAccepted configured_lived⟩

end Sample

end Server

end TenantVault
