import TenantVault.Proofs.Lifetime
import TenantVault.Proofs.RoundTrip

/-! # Tables that the service has written itself

A service that begins empty puts nothing into its tables but texts, whole numbers, flags, nulls and tags,
all under keys that callers can give. Tables of this kind come back from their snapshot with the same rows
as soon as there is one: what does not fit into a document has kept it from being written.
-/

namespace TenantVault

open Snapshot (governanceFields namespaceFields settingFields archivedFields Regular SameContents)

/-- A document that the service itself puts into a field. -/
inductive Json.Native : Json → Prop
  | null : Native null
  | bool (b : Bool) : Native (bool b)
  | int (n : Int) : Native (int n)
  | text (s : String) : Native (text s)
  | tags (t : Table String String) : Native (tagObject t)

theorem Json.Native.getD {α : Type} {f : α → Json} (hNew : ∀ a, (f a).Native) {v : Json}
    (h : v.Native) (o : Option α) : ((o.map f).getD v).Native := by
  cases o with
  | none => exact h
  | some a => exact hNew a

structure Namespace.Native (ns : Namespace) (name : String) : Prop where
  name : ns.name = .text name
  fields : ∀ v ∈ namespaceFields ns, v.Native
  payloadBytes : ∃ n, ns.payloadBytes = .int n

structure Setting.Native (s : Setting) : Prop where
  fields : ∀ v ∈ settingFields s, v.Native
  version : ∃ n, s.version = .int n

structure Tables.Native (t : Tables) : Prop where
  governance : ∀ v ∈ governanceFields t.governance, v.Native
  apis : ∀ api ∈ t.governance.allowedApis.keys, ∃ s : String, Scalar.text s = api
  names : ∀ name ∈ t.namespaces.keys, ∃ s : String, name = .text s
  namespaces : ∀ name ns, t.namespaces.get? (.text name) = some ns → ns.Native name
  live : ∀ k ∈ t.settings.keys, ∃ key : SettingKey, k = key.stored ∧ key.version = 0
  settings : ∀ k s, t.settings.get? k = some s → s.Native
  past : ∀ k ∈ t.archived.keys, ∃ key : SettingKey, k = key.stored
  archived : ∀ k a, t.archived.get? k = some a → ∀ v ∈ archivedFields a, v.Native

/-! ## Rows that are written -/

section Rows

variable {now : Int} {name : String} {ns : Namespace} {s : Setting}

theorem NewNamespace.native_row (input : NewNamespace) (now : Int) :
    (input.row now).Native input.name where
  name := rfl
  fields := by
    simp only [namespaceFields, row, List.forall_mem_cons]
    exact ⟨.text _, .text _, .int _, .int _, .int _, .int _, .int _, .int _, .int _,
      List.forall_mem_nil _⟩
  payloadBytes := ⟨0, rfl⟩

theorem NamespaceChange.native_row (h : ns.Native name) (input : NamespaceChange) (now : Int) :
    (input.row ns now).Native name where
  name := h.name
  fields := by
    have hFields := h.fields
    simp only [namespaceFields, row, List.forall_mem_cons] at hFields ⊢
    obtain ⟨hName, hDesc, hCreated, -, hMax, hTotal, hStatus, hVisibility, hLifetime, -⟩ := hFields
    exact ⟨hName, .getD .text hDesc _, hCreated, .int _, .getD .int hMax _, hTotal,
      .getD .int hStatus _, .getD .int hVisibility _, .getD .int hLifetime _, List.forall_mem_nil _⟩
  payloadBytes := h.payloadBytes

/-- A change of what is not a field of a document, at some time. -/
theorem Namespace.Native.touched {ns' : Namespace} (h : ns.Native name)
    (hSame : ns' = { ns with
      managers := ns'.managers, auditors := ns'.auditors, users := ns'.users,
      delegators := ns'.delegators, gasBalance := ns'.gasBalance, updatedAt := .int now }) :
    ns'.Native name := by
  rw [hSame]
  refine ⟨h.name, ?_, h.payloadBytes⟩
  have hFields := h.fields
  simp only [namespaceFields, List.forall_mem_cons] at hFields ⊢
  obtain ⟨hName, hDesc, hCreated, -, hRest⟩ := hFields
  exact ⟨hName, hDesc, hCreated, .int _, hRest⟩

theorem Namespace.Native.counted (h : ns.Native name) (n : Int) :
    { ns with payloadBytes := .int n }.Native name := by
  refine ⟨h.name, ?_, n, rfl⟩
  have hFields := h.fields
  simp only [namespaceFields, List.forall_mem_cons] at hFields ⊢
  obtain ⟨hName, hDesc, hCreated, hUpdated, hMax, -, hRest⟩ := hFields
  exact ⟨hName, hDesc, hCreated, hUpdated, hMax, .int _, hRest⟩

theorem NewSetting.native_row (input : NewSetting) (now : Int) : (input.row now).Native where
  fields := by
    simp only [settingFields, row, declaredType, List.forall_mem_cons]
    exact ⟨.text _, .int _, .int _, .int _, .int _, .tags _, .getD .int .null _,
      List.forall_mem_nil _⟩
  version := ⟨1, rfl⟩

theorem PayloadChange.native_row (h : s.Native) (input : PayloadChange) (version now : Int) :
    (input.row s (.int version) now).Native where
  fields := by
    have hFields := h.fields
    simp only [settingFields, row, List.forall_mem_cons] at hFields ⊢
    obtain ⟨hDesc, hCreated, -, hStatus, -, hTags, hType, -⟩ := hFields
    exact ⟨hDesc, hCreated, .int _, .getD .int hStatus _, .int _, hTags, hType,
      List.forall_mem_nil _⟩
  version := ⟨version, rfl⟩

theorem SettingChange.native_row (h : s.Native) (input : SettingChange) (now : Int) :
    (input.row s now).Native where
  fields := by
    have hFields := h.fields
    simp only [settingFields, row, List.forall_mem_cons] at hFields ⊢
    obtain ⟨hDesc, hCreated, -, hStatus, hVersion, hTags, hType, -⟩ := hFields
    exact ⟨.getD .text hDesc _, hCreated, .int _, .getD .int hStatus _, hVersion,
      .getD .tags hTags _, hType, List.forall_mem_nil _⟩
  version := h.version

theorem Setting.Native.regrouped (h : s.Native) (readers : Principals) (now : Int) :
    { s with readers, updatedAt := .int now }.Native := by
  refine ⟨?_, h.version⟩
  have hFields := h.fields
  simp only [settingFields, List.forall_mem_cons] at hFields ⊢
  obtain ⟨hDesc, hCreated, -, hRest⟩ := hFields
  exact ⟨hDesc, hCreated, .int _, hRest⟩

end Rows

/-! ## Writes -/

namespace Tables.Native

variable {t : Tables} {name : String} {ns : Namespace} {key : SettingKey} {s : Setting} {now : Int}

theorem withGovernance (h : t.Native) {g : Governance} (hFields : ∀ v ∈ governanceFields g, v.Native)
    (hApis : ∀ api ∈ g.allowedApis.keys, ∃ s : String, Scalar.text s = api) :
    { t with governance := g }.Native :=
  { h with governance := hFields, apis := hApis }

theorem putNamespace (h : t.Native) (hRow : ns.Native name) : (t.putNamespace name ns).Native := by
  refine { h with names := ?_, namespaces := ?_ }
  · intro name' hMem
    rcases Table.mem_keys_put hMem with hBefore | rfl
    · exact h.names name' hBefore
    · exact ⟨name, rfl⟩
  · intro name' ns' hFound
    rw [Tables.get?_putNamespace] at hFound
    split at hFound
    · next hName =>
      rw [Scalar.text_beq_text, decide_eq_true_iff] at hName
      cases hFound
      exact hName ▸ hRow
    · exact h.namespaces name' ns' hFound

theorem eraseNamespace (h : t.Native) (name : Scalar) :
    { t with namespaces := t.namespaces.erase name }.Native := by
  refine { h with names := ?_, namespaces := ?_ }
  · intro name' hMem
    exact h.names name' (Table.mem_keys_erase hMem)
  · intro name' ns' hFound
    dsimp only at hFound
    rw [Table.get?_erase] at hFound
    split at hFound
    · cases hFound
    · exact h.namespaces name' ns' hFound

theorem putSetting (h : t.Native) (hRow : s.Native) (key : SettingKey) :
    (t.putSetting key s).Native := by
  refine { h with live := ?_, settings := ?_ }
  · intro k hMem
    rcases Table.mem_keys_put hMem with hBefore | rfl
    · exact h.live k hBefore
    · exact ⟨key.current, rfl, rfl⟩
  · intro k s' hFound
    rw [Tables.putSetting] at hFound
    dsimp only at hFound
    rw [Table.get?_put] at hFound
    split at hFound
    · cases hFound
      exact hRow
    · exact h.settings k s' hFound

theorem archivePayload (h : t.Native) (hRow : s.Native) (key : SettingKey) (deprecated : Bool)
    (now : Int) : (t.archivePayload key s deprecated now).Native := by
  obtain ⟨n, hVersion⟩ := hRow.version
  rw [Tables.archivePayload, hVersion, Tables.versionKey_int]
  split
  · refine { h with past := ?_, archived := ?_ }
    · intro k hMem
      rcases Table.mem_keys_put hMem with hBefore | rfl
      · exact h.past k hBefore
      · exact ⟨_, rfl⟩
    · intro k a hFound
      dsimp only at hFound
      rw [Table.get?_put] at hFound
      split at hFound
      · cases hFound
        simp only [archivedFields, List.forall_mem_cons]
        exact ⟨.int _, .bool _, List.forall_mem_nil _⟩
      · exact h.archived k a hFound
  · exact h

theorem removeSetting (h : t.Native) (key : SettingKey) : (t.removeSetting key).Native := by
  refine { h with live := ?_, settings := ?_, past := ?_, archived := ?_ }
  · intro k hMem
    exact h.live k (Table.mem_keys_erase hMem)
  · intro k s hFound
    rw [Tables.removeSetting] at hFound
    dsimp only at hFound
    rw [Table.get?_erase] at hFound
    split at hFound
    · cases hFound
    · exact h.settings k s hFound
  · intro k hMem
    exact h.past k ((Table.mem_keys_filterKeys _ _ k).mp hMem).1
  · intro k a hFound
    rw [Tables.removeSetting] at hFound
    dsimp only at hFound
    rw [Table.get?_filterKeys] at hFound
    · split at hFound
      · exact h.archived k a hFound
      · cases hFound
    · intro k' hSame
      simp only [bne, BEq.congr_left (StoredKey.current_beq_current hSame)]

theorem settle {α : Type} (h : t.Native) (hRow : ns.Native name) {count : Result Json} {n : Int}
    (hCount : count = .ok (.int n)) (a : α) : (t.settle name ns count a).1.Native := by
  rw [hCount, Tables.settle_ok]
  exact h.putNamespace (hRow.counted n)

theorem namespace_of_writes {caller : Principal} {path : SettingPath} (h : t.Native)
    (hWrites : Writes t caller (path.toKey caller) ns) : ns.Native path.ns :=
  h.namespaces path.ns ns hWrites.found

end Tables.Native

theorem Tables.keys_apiSet (apis : SortedSet String) :
    ∀ api ∈ (apiSet apis).keys, ∃ s : String, Scalar.text s = api := by
  intro api hMem
  have hListed := Table.mem_keys_ofRows hMem
  rw [List.map_map] at hListed
  obtain ⟨s, -, hText⟩ := List.mem_map.mp hListed
  exact ⟨s, hText⟩

theorem Tables.native_ofGovernance {g : Governance} (hFields : ∀ v ∈ governanceFields g, v.Native)
    (hApis : ∀ api ∈ g.allowedApis.keys, ∃ s : String, Scalar.text s = api) :
    (Tables.ofGovernance g).Native where
  governance := hFields
  apis := hApis
  names := fun _ hMem => (List.not_mem_nil hMem).elim
  namespaces := by
    intro name ns hFound
    cases hFound
  live := fun _ hMem => (List.not_mem_nil hMem).elim
  settings := by
    intro k s hFound
    cases hFound
  past := fun _ hMem => (List.not_mem_nil hMem).elim
  archived := by
    intro k a hFound
    cases hFound

theorem World.native_ofConfig (c : Config) : (World.ofConfig c).tables.Native := by
  refine Tables.native_ofGovernance ?_ (Tables.keys_apiSet c.allowedApis)
  simp only [governanceFields, List.forall_mem_cons]
  exact ⟨.text _, .text _, .text _, List.forall_mem_nil _⟩

theorem Commit.native {now : Int} {t t' : Tables} {o : Operation} {r : Result Answer}
    (h : Commit now t o t' r) (hNative : t.Native) : t'.Native := by
  have hManaged {caller : Principal} {name : String} {ns : Namespace}
      (manages : Manages t caller name ns) : ns.Native name :=
    hNative.namespaces name ns manages.found
  cases h with
  | @changeGovernors caller kind d ps =>
    cases kind <;> exact hNative.withGovernance hNative.governance hNative.apis
  | setAllowedApis => exact hNative.withGovernance hNative.governance (Tables.keys_apiSet _)
  | createNamespace => exact hNative.putNamespace (NewNamespace.native_row _ now)
  | updateNamespace admits manages =>
    exact hNative.putNamespace (NamespaceChange.native_row (hManaged manages) _ now)
  | deleteNamespace => exact hNative.eraseNamespace _
  | @changeMembers caller name kind d ps ns admits proper manages =>
    exact hNative.putNamespace ((hManaged manages).touched (by cases kind <;> rfl))
  | topUp admits positive found =>
    exact hNative.putNamespace ((hNative.namespaces _ _ found).touched rfl)
  | addDelegators admits manages => exact hNative.putNamespace ((hManaged manages).touched rfl)
  | removeDelegators admits manages => exact hNative.putNamespace ((hManaged manages).touched rfl)
  | createSetting admits writes =>
    have hRow := hNative.namespace_of_writes writes
    obtain ⟨n, hBytes⟩ := hRow.payloadBytes
    rw [hBytes, Json.plus_int]
    exact (hNative.putSetting (NewSetting.native_row _ now) _).settle hRow rfl _
  | updatePayload admits writes found readWrite expected next =>
    have hRow := hNative.namespace_of_writes writes
    have hSetting := hNative.settings _ _ found
    obtain ⟨n, hBytes⟩ := hRow.payloadBytes
    obtain ⟨m, hVersion⟩ := hSetting.version
    rw [hVersion, Json.plus_int] at next
    cases next
    rw [hBytes, Json.plus_int]
    exact ((hNative.archivePayload hSetting _ _ now).putSetting
      (PayloadChange.native_row hSetting _ _ now) _).settle hRow rfl _
  | updateSetting admits writes found =>
    exact hNative.putSetting (SettingChange.native_row (hNative.settings _ _ found) _ now) _
  | changeReaders admits proper writes found =>
    exact hNative.putSetting ((hNative.settings _ _ found).regrouped _ now) _
  | deleteSetting admits writes =>
    have hRow := hNative.namespace_of_writes writes
    obtain ⟨n, hBytes⟩ := hRow.payloadBytes
    rw [hBytes, Json.plus_int]
    have hCount (m : Int) : (Except.ok (.int m) : Result Json).map Json.atLeastZero =
        .ok (.int (max 0 m)) := congrArg Except.ok (Json.atLeastZero_int m)
    exact (hNative.removeSetting _).settle hRow (hCount _) _

theorem Tables.Native.toCounted {t : Tables} (h : t.Native) : t.Counted := by
  intro name ns hFound
  obtain ⟨k, hMem, hName⟩ := Table.exists_of_get? hFound
  obtain ⟨s, rfl⟩ := h.names k (Table.keys_of_mem hMem)
  rw [← Table.get?_congr _ hName] at hFound
  obtain ⟨n, hBytes⟩ := (h.namespaces s ns hFound).payloadBytes
  rw [hBytes]
  exact Json.isCount_int n

/-! ## Snapshots -/

namespace Snapshot

open Json (Lossless)

theorem allFit_iff (vs : List Json) : allFit vs = true ↔ ∀ v ∈ vs, fits v = true := by
  induction vs with
  | nil => simp [allFit]
  | cons v rest ih => rw [allFit, Bool.and_eq_true, ih, List.forall_mem_cons]

theorem allMembersFit_iff (members : List (String × Json)) :
    allMembersFit members = true ↔ ∀ m ∈ members, fits m.2 = true := by
  induction members with
  | nil => simp [allMembersFit]
  | cons m rest ih => rw [allMembersFit, Bool.and_eq_true, ih, List.forall_mem_cons]

theorem fits_list_iff (vs : List Json) : fits (.list vs) = true ↔ ∀ v ∈ vs, fits v = true := by
  rw [fits, allFit_iff]

theorem fits_object_iff (members : List (String × Json)) :
    fits (.object members) = true ↔ ∀ m ∈ members, fits m.2 = true := by
  rw [fits, allMembersFit_iff]

theorem fits_int_iff (n : Int) : fits (.int n) = true ↔ Narrow n := by
  rw [fits, Bool.and_eq_true, decide_eq_true_iff, decide_eq_true_iff]
  rfl

theorem lossless_of_native {depth : Nat} {v : Json} (h : v.Native) (hFits : fits v = true) :
    Lossless (depth + 1) v := by
  cases h with
  | null => exact .null
  | bool b => exact .bool b
  | int n => exact .int ((fits_int_iff n).mp hFits).1 ((fits_int_iff n).mp hFits).2
  | text s => exact .text s
  | tags t => exact lossless_tagObject t

theorem exists_of_mapM {α β : Type} {write : α → Result β} {items : List α} {written : List β}
    (h : items.mapM write = .ok written) : ∀ a ∈ items, ∃ b ∈ written, write a = .ok b := by
  induction items generalizing written with
  | nil => exact nofun
  | cons a rest ih =>
    simp only [List.mapM_cons, bind_eq_ok_iff, pure_eq_ok_iff] at h
    obtain ⟨b, hFirst, others, hRest, rfl⟩ := h
    rw [List.forall_mem_cons]
    refine ⟨⟨b, List.mem_cons_self, hFirst⟩, ?_⟩
    intro a' hMem
    obtain ⟨b', hMem', hWrite⟩ := ih hRest a' hMem
    exact ⟨b', List.mem_cons_of_mem b hMem', hWrite⟩

/-- Every row is in the document of its table. -/
theorem fits_of_ofRows {α : Type} {name : String} {ofRow : α → Json} {t : Table StoredKey α}
    {v : Json} (h : ofRows name ofRow t = .ok v) (hFits : fits v = true) :
    ∀ row ∈ t.rows, fits (ofKey row.1) = true ∧ fits (ofRow row.2) = true := by
  simp only [ofRows, bind_eq_ok_iff, pure_eq_ok_iff] at h
  obtain ⟨rows, hSorted, rfl⟩ := h
  have hPerm : rows.Perm t.rows := by
    unfold StoredKey.sort? TenantVault.sort? at hSorted
    dsimp only at hSorted
    split at hSorted
    · cases hSorted
      exact List.mergeSort_perm _ _
    · cases hSorted
  intro row hRow
  rw [fits_list_iff, List.forall_mem_map] at hFits
  have hItem := hFits row (hPerm.mem_iff.mpr hRow)
  simp only [fits_object_iff, List.forall_mem_cons] at hItem
  exact ⟨hItem.1, hItem.2.1⟩

theorem narrow_of_ofKey {key : SettingKey} (h : fits (ofKey key.stored) = true) :
    Narrow key.scope ∧ Narrow key.version := by
  simp only [ofKey, SettingKey.stored, Json.ofScalar, fits_object_iff, List.forall_mem_cons,
    fits_int_iff] at h
  exact ⟨h.2.1, h.2.2.2.2.1⟩

theorem fits_governanceFields {g : Governance} {v : Json} (h : ofGovernance g = .ok v)
    (hFits : fits v = true) : ∀ v ∈ governanceFields g, fits v = true := by
  simp only [ofGovernance, bind_eq_ok_iff, pure_eq_ok_iff] at h
  obtain ⟨apis, -, rfl⟩ := h
  simp only [governanceFields, fits_object_iff, List.forall_mem_cons] at hFits ⊢
  exact ⟨hFits.1, hFits.2.1, hFits.2.2.1, List.forall_mem_nil _⟩

theorem fits_namespaceFields {ns : Namespace} {v : Json} (h : ofNamespace ns = .ok v)
    (hFits : fits v = true) :
    (∀ v ∈ namespaceFields ns, fits v = true) ∧ ns.gasBalance.natAbs < 10 ^ Text.maxDigits := by
  have hLimit : Cbor.Value.unprintable = 10 ^ Text.maxDigits := by
    rw [Cbor.Value.unprintable, Text.maxDigits]
  simp only [ofNamespace, bind_eq_ok_iff, pure_eq_ok_iff] at h
  obtain ⟨balance, hBalance, rfl⟩ := h
  constructor
  · simp only [namespaceFields, fits_object_iff, List.forall_mem_cons] at hFits ⊢
    obtain ⟨hName, hDesc, hCreated, hUpdated, hMax, hTotal, hStatus, hVisibility, hRest⟩ := hFits
    obtain ⟨-, -, -, -, hLifetime, -⟩ := hRest
    exact ⟨hName, hDesc, hCreated, hUpdated, hMax, hTotal, hStatus, hVisibility, hLifetime,
      List.forall_mem_nil _⟩
  · unfold ofBalance at hBalance
    split at hBalance
    · next hSmall => exact hLimit ▸ hSmall
    · cases hBalance

theorem fits_settingFields {s : Setting} (h : fits (ofSetting s) = true) :
    ∀ v ∈ settingFields s, fits v = true := by
  simp only [ofSetting, settingFields, fits_object_iff, List.forall_mem_cons] at h ⊢
  obtain ⟨hDesc, hCreated, hUpdated, hStatus, hVersion, -, hTags, hType, -⟩ := h
  exact ⟨hDesc, hCreated, hUpdated, hStatus, hVersion, hTags, hType, List.forall_mem_nil _⟩

theorem fits_archivedFields {a : ArchivedPayload} (h : fits (ofArchived a) = true) :
    ∀ v ∈ archivedFields a, fits v = true := by
  simp only [ofArchived, archivedFields, fits_object_iff, List.forall_mem_cons] at h ⊢
  exact ⟨h.1, h.2.1, List.forall_mem_nil _⟩

/-- What the service has written itself is regular as far as its numbers fit. -/
theorem regular_of_fields {t : Tables} (hNative : t.Native)
    (hGovernance : ∀ v ∈ governanceFields t.governance, fits v = true)
    (hNamespaces : ∀ row ∈ t.namespaces.rows, (∀ v ∈ namespaceFields row.2, fits v = true) ∧
      row.2.gasBalance.natAbs < 10 ^ Text.maxDigits)
    (hSettings : ∀ (key : SettingKey) (s : Setting), (key.stored, s) ∈ t.settings.rows →
      Narrow key.scope ∧ ∀ v ∈ settingFields s, fits v = true)
    (hArchived : ∀ (key : SettingKey) (a : ArchivedPayload), (key.stored, a) ∈ t.archived.rows →
      (Narrow key.scope ∧ Narrow key.version) ∧ ∀ v ∈ archivedFields a, fits v = true) :
    Regular t := by
  have hLossless {vs : List Json} (hAll : ∀ v ∈ vs, v.Native) (hFit : ∀ v ∈ vs, fits v = true) :
      ∀ v ∈ vs, Lossless fieldNesting v :=
    fun v hMem => lossless_of_native (hAll v hMem) (hFit v hMem)
  have hNames : ∀ row ∈ t.namespaces.rows, ∃ name : String, row.1 = .text name ∧
      row.2.Native name := by
    rintro ⟨k, ns⟩ hRow
    obtain ⟨name, rfl⟩ := hNative.names k (Table.keys_of_mem hRow)
    exact ⟨name, rfl, hNative.namespaces name ns (Table.get?_of_mem hRow)⟩
  constructor
  case governance => exact hLossless hNative.governance hGovernance
  case apis => exact hNative.apis
  case namespaces =>
    intro row hRow
    obtain ⟨name, hKey, hRowNative⟩ := hNames row hRow
    exact ⟨name, hKey, hRowNative.name⟩
  case namespaceFields =>
    intro row hRow
    obtain ⟨name, -, hRowNative⟩ := hNames row hRow
    exact hLossless hRowNative.fields (hNamespaces row hRow).1
  case balances => exact fun row hRow => (hNamespaces row hRow).2
  case settings =>
    rintro ⟨k, s⟩ hRow
    obtain ⟨key, rfl, hVersion⟩ := hNative.live k (Table.keys_of_mem hRow)
    exact ⟨key, rfl, (hSettings key s hRow).1, hVersion⟩
  case settingFields =>
    rintro ⟨k, s⟩ hRow
    obtain ⟨key, rfl, -⟩ := hNative.live k (Table.keys_of_mem hRow)
    have hRowNative := hNative.settings key.stored s (Table.get?_of_mem hRow)
    exact hLossless hRowNative.fields (hSettings key s hRow).2
  case archived =>
    rintro ⟨k, a⟩ hRow
    obtain ⟨key, rfl⟩ := hNative.past k (Table.keys_of_mem hRow)
    exact ⟨key, rfl, (hArchived key a hRow).1⟩
  case archivedFields =>
    rintro ⟨k, a⟩ hRow
    obtain ⟨key, rfl⟩ := hNative.past k (Table.keys_of_mem hRow)
    have hRowNative := hNative.archived key.stored a (Table.get?_of_mem hRow)
    exact hLossless hRowNative (hArchived key a hRow).2

theorem regular_of_native {t : Tables} (hNative : t.Native)
    (hGovernance : ∀ v ∈ governanceFields t.governance, fits v = true)
    (hNamespaces : ∀ row ∈ t.namespaces.rows, (∀ v ∈ namespaceFields row.2, fits v = true) ∧
      row.2.gasBalance.natAbs < 10 ^ Text.maxDigits)
    (hSettings : ∀ row ∈ t.settings.rows, fits (ofKey row.1) = true ∧ fits (ofSetting row.2) = true)
    (hArchived : ∀ row ∈ t.archived.rows,
      fits (ofKey row.1) = true ∧ fits (ofArchived row.2) = true) : Regular t := by
  refine regular_of_fields hNative hGovernance hNamespaces ?_ ?_
  · intro key s hRow
    obtain ⟨hKey, hFields⟩ := hSettings _ hRow
    exact ⟨(narrow_of_ofKey hKey).1, fits_settingFields hFields⟩
  · intro key a hRow
    obtain ⟨hKey, hFields⟩ := hArchived _ hRow
    exact ⟨narrow_of_ofKey hKey, fits_archivedFields hFields⟩

/-- What has been written is regular, since its numbers have been found to fit. -/
theorem regular_of_ofTables {t : Tables} {v : Json} (hNative : t.Native) (h : ofTables t = .ok v)
    (hFits : fits v = true) : Regular t := by
  simp only [ofTables, bind_eq_ok_iff, pure_eq_ok_iff] at h
  obtain ⟨state, hState, namespaces, hNamespaces, settings, hSettings, archived, hArchived, rfl⟩ := h
  simp only [fits_object_iff, List.forall_mem_cons, fits_list_iff namespaces] at hFits
  obtain ⟨-, hStateFits, hNamespacesFit, hSettingsFit, hArchivedFit, -⟩ := hFits
  refine regular_of_native hNative (fits_governanceFields hState hStateFits) ?_
    (fits_of_ofRows hSettings hSettingsFit) (fits_of_ofRows hArchived hArchivedFit)
  intro row hRow
  obtain ⟨v, hMem, hWrite⟩ := exists_of_mapM hNamespaces row.2 (List.mem_map_of_mem hRow)
  exact fits_namespaceFields hWrite (hNamespacesFit v hMem)

theorem Regular.exists_render {t : Tables} (h : Regular t) : ∃ text, render t = .ok text := by
  obtain ⟨v, -, hDocument, hLossless, -⟩ := tables_round_trip h
  exact ⟨v.render, render_eq hDocument hLossless⟩

theorem SameContents.native {t t' : Tables} (h : SameContents t t') (hNative : t.Native) :
    t'.Native where
  governance := by
    have hFields := hNative.governance
    rw [← h.governance] at hFields
    exact hFields
  apis := by
    intro api hMem
    exact hNative.apis api ((h.apis.map Prod.fst).mem_iff.mp hMem)
  names := by
    rw [h.namespaces]
    exact hNative.names
  namespaces := by
    rw [h.namespaces]
    exact hNative.namespaces
  live := by
    intro k hMem
    exact hNative.live k ((h.settings.map Prod.fst).mem_iff.mp hMem)
  settings := by
    intro k s hFound
    rw [Table.get?_of_perm h.settings] at hFound
    exact hNative.settings k s hFound
  past := by
    intro k hMem
    exact hNative.past k ((h.archived.map Prod.fst).mem_iff.mp hMem)
  archived := by
    intro k a hFound
    rw [Table.get?_of_perm h.archived] at hFound
    exact hNative.archived k a hFound

/-- A snapshot of tables that the service has written itself is read as these tables. -/
theorem parse_of_native {t : Tables} {text : String} (hNative : t.Native) (h : render t = .ok text) :
    ∃ t', parse text = .ok t' ∧ SameContents t t' ∧ t'.Native := by
  simp only [render, bind_eq_ok_iff] at h
  obtain ⟨document, hDocument, hWritten⟩ := h
  split at hWritten
  · next hGuard =>
    cases hWritten
    rw [Bool.and_eq_true] at hGuard
    obtain ⟨v, t', hAgain, hLossless, hRead, -, hSame⟩ :=
      tables_round_trip (regular_of_ofTables hNative hDocument hGuard.1)
    rw [hDocument] at hAgain
    cases hAgain
    have hText : Json.parse? document.render = some document :=
      (hLossless.mono (by decide)).parse?_render
    refine ⟨t', ?_, hSame, hSame.native hNative⟩
    rw [parse, hText]
    exact hRead
  · cases hWritten

end Snapshot

end TenantVault
