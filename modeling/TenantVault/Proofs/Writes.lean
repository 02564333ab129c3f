import TenantVault.Proofs.Lifetime

/-! # Rows after a write

A row that is in the tables after a write was there before, or it is the one row that the write is
about. What is said of all rows of a table is therefore preserved as soon as it is preserved by each way
in which one row can be written.
-/

namespace TenantVault

/-- The row that a write has left in the table of namespaces under a name. -/
inductive NamespaceWrite (now : Int) (t : Tables) (name : Scalar) : Operation → Namespace → Prop
  | created {caller : Principal} {input : NewNamespace} (at_ : (Scalar.text input.name == name) = true)
      (fresh : t.namespaces.get? name = none) :
      NamespaceWrite now t name (.createNamespace caller input) (input.row now)
  | changed {caller : Principal} {input : NamespaceChange} {ns : Namespace}
      (found : t.namespaces.get? name = some ns) :
      NamespaceWrite now t name (.updateNamespace caller input) (input.row ns now)
  | regrouped {caller : Principal} {text : String} {kind : MemberKind} {d : Direction}
      {ps : Principals} {ns : Namespace} (proper : ps.fault? = none)
      (found : t.namespaces.get? name = some ns) :
      NamespaceWrite now t name (.changeMembers caller text kind d ps) (kind.row d ps ns now)
  | toppedUp {caller : Principal} {text : String} {amount : Int} {ns : Namespace}
      (positive : 0 < amount) (found : t.namespaces.get? name = some ns) :
      NamespaceWrite now t name (.topUp caller text amount)
        { ns with gasBalance := ns.gasBalance + amount, updatedAt := .int now }
  | joined {caller : Principal} {input : DelegatorChange} {ns : Namespace}
      (found : t.namespaces.get? name = some ns) :
      NamespaceWrite now t name (.changeDelegators caller .add input)
        { ns with delegators := input.joined ns, updatedAt := .int now }
  | left {caller : Principal} {input : DelegatorChange} {ns : Namespace}
      (found : t.namespaces.get? name = some ns) :
      NamespaceWrite now t name (.changeDelegators caller .remove input)
        { ns with delegators := input.left ns, updatedAt := .int now }
  | counted {o : Operation} {key : SettingKey} {ns : Namespace} {count : Json}
      (writes : o.settingKey? = some key) (found : t.namespaces.get? name = some ns) :
      NamespaceWrite now t name o { ns with payloadBytes := count }

/-- The row that a write has left in the table of live settings under a key. -/
inductive SettingWrite (now : Int) (t : Tables) (k : StoredKey) : Operation → Setting → Prop
  | created {caller : Principal} {path : SettingPath} {input : NewSetting} {ns : Namespace}
      (at_ : ((path.toKey caller).current.stored == k) = true) (fresh : t.settings.get? k = none)
      (housed : t.namespaces.get? (.text path.ns) = some ns)
      (keyFits : Tables.checkDataKey input.dataKey = .ok ())
      (payloadFits : ∀ payload, input.payload = some payload →
        Tables.checkPayload ns.maxPayloadSize payload input.dataKey.isSome input.declaredType =
          .ok ()) :
      SettingWrite now t k (.createSetting caller path input) (input.row now)
  | updated {caller : Principal} {path : SettingPath} {input : PayloadChange} {ns : Namespace}
      {s : Setting} {version : Json} (at_ : ((path.toKey caller).current.stored == k) = true)
      (found : t.settings.get? k = some s) (housed : t.namespaces.get? (.text path.ns) = some ns)
      (next : s.version.plus 1 = .ok version) (keyFits : Tables.checkDataKey input.dataKey = .ok ())
      (payloadFits : Tables.checkPayload ns.maxPayloadSize input.payload
        (input.dataKey.or s.dataKey).isSome s.contentType = .ok ()) :
      SettingWrite now t k (.updatePayload caller path input) (input.row s version now)
  | described {caller : Principal} {path : SettingPath} {input : SettingChange} {s : Setting}
      (found : t.settings.get? k = some s) :
      SettingWrite now t k (.updateSetting caller path input) (input.row s now)
  | regrouped {caller : Principal} {path : SettingPath} {d : Direction} {readers : Principals}
      {s : Setting} (proper : readers.fault? = none) (found : t.settings.get? k = some s) :
      SettingWrite now t k (.changeReaders caller path d readers)
        { s with readers := d.apply s.readers readers, updatedAt := .int now }

/-- The row that an update has left in the archive under a key: what was live until then. -/
structure ArchivedWrite (now : Int) (t : Tables) (k : StoredKey) (o : Operation)
    (a : ArchivedPayload) : Prop where
  updates : ∃ caller path input, o = .updatePayload caller path input
  superseded : ∃ (s : Setting) (deprecated : Bool), t.settings.get? k.current = some s ∧
    a = ⟨.int now, .bool deprecated, s.payload, s.dataKey⟩

section Inversion

variable {now : Int} {t t' : Tables} {o : Operation} {r : Result Answer} {name : Scalar}
  {ns : Namespace} {k : StoredKey} {s : Setting}

theorem Tables.cases_putNamespace {n : String} {row : Namespace}
    (h : (t.putNamespace n row).namespaces.get? name = some ns) :
    t.namespaces.get? name = some ns ∨ (Scalar.text n == name) = true ∧ row = ns := by
  rw [Tables.get?_putNamespace] at h
  split at h
  · next hName => exact Or.inr ⟨hName, Option.some.inj h⟩
  · exact Or.inl h

theorem Tables.cases_settle {α : Type} {base : Tables} {n : String} {row : Namespace}
    {count : Result Json} {a : α} (hBase : base.namespaces = t.namespaces)
    (h : (base.settle n row count a).1.namespaces.get? name = some ns) :
    t.namespaces.get? name = some ns ∨
      (Scalar.text n == name) = true ∧ ∃ total, ns = { row with payloadBytes := total } := by
  rw [← hBase]
  cases count with
  | error why => exact Or.inl h
  | ok count =>
    rcases Tables.cases_putNamespace h with hBefore | ⟨hName, rfl⟩
    · exact Or.inl hBefore
    · exact Or.inr ⟨hName, count, rfl⟩

theorem Commit.namespace_cases (h : Commit now t o t' r) (hFound : t'.namespaces.get? name = some ns) :
    t.namespaces.get? name = some ns ∨ NamespaceWrite now t name o ns := by
  have hAt {n : String} {row : Namespace} (hName : (Scalar.text n == name) = true)
      (hRow : t.namespaces.get? (.text n) = some row) : t.namespaces.get? name = some row :=
    (Table.get?_congr _ hName).symm.trans hRow
  cases h with
  | changeGovernors | setAllowedApis | updateSetting | changeReaders => exact Or.inl hFound
  | createNamespace known governs fresh =>
    refine (Tables.cases_putNamespace hFound).imp_right ?_
    rintro ⟨hName, rfl⟩
    exact .created hName ((Table.get?_congr _ hName).symm.trans fresh)
  | updateNamespace admits manages =>
    refine (Tables.cases_putNamespace hFound).imp_right ?_
    rintro ⟨hName, rfl⟩
    exact .changed (hAt hName manages.found)
  | deleteNamespace =>
    dsimp only at hFound
    rw [Table.get?_erase] at hFound
    split at hFound
    · cases hFound
    · exact Or.inl hFound
  | changeMembers admits proper manages =>
    refine (Tables.cases_putNamespace hFound).imp_right ?_
    rintro ⟨hName, rfl⟩
    exact .regrouped proper (hAt hName manages.found)
  | topUp admits positive found =>
    refine (Tables.cases_putNamespace hFound).imp_right ?_
    rintro ⟨hName, rfl⟩
    exact .toppedUp positive (hAt hName found)
  | addDelegators admits manages =>
    refine (Tables.cases_putNamespace hFound).imp_right ?_
    rintro ⟨hName, rfl⟩
    exact .joined (hAt hName manages.found)
  | removeDelegators admits manages =>
    refine (Tables.cases_putNamespace hFound).imp_right ?_
    rintro ⟨hName, rfl⟩
    exact .left (hAt hName manages.found)
  | createSetting admits writes | deleteSetting admits writes =>
    refine (Tables.cases_settle (by rfl) hFound).imp_right ?_
    rintro ⟨hName, total, rfl⟩
    exact .counted rfl (hAt hName writes.found)
  | updatePayload admits writes =>
    refine (Tables.cases_settle (by exact Tables.namespaces_archivePayload ..) hFound).imp_right ?_
    rintro ⟨hName, total, rfl⟩
    exact .counted rfl (hAt hName writes.found)

theorem Tables.cases_putSetting {key : SettingKey} {row : Setting}
    (h : (t.putSetting key row).settings.get? k = some s) :
    t.settings.get? k = some s ∨ (key.current.stored == k) = true ∧ row = s := by
  unfold Tables.putSetting at h
  dsimp only at h
  rw [Table.get?_put] at h
  split at h
  · next hKey => exact Or.inr ⟨hKey, Option.some.inj h⟩
  · exact Or.inl h

theorem Commit.setting_cases (h : Commit now t o t' r) (hFound : t'.settings.get? k = some s) :
    t.settings.get? k = some s ∨ SettingWrite now t k o s := by
  have hAt {key : SettingKey} {row : Option Setting} (hKey : (key.current.stored == k) = true)
      (hRow : t.getSetting? key = row) : t.settings.get? k = row :=
    (Table.get?_congr _ hKey).symm.trans hRow
  cases h with
  | createSetting admits writes live fresh keyFits payloadFits =>
    rw [Tables.settings_settle] at hFound
    refine (Tables.cases_putSetting hFound).imp_right ?_
    rintro ⟨hKey, rfl⟩
    exact .created hKey (hAt hKey fresh) writes.found keyFits payloadFits
  | updatePayload admits writes found readWrite expected next keyFits payloadFits =>
    rw [Tables.settings_settle] at hFound
    rcases Tables.cases_putSetting hFound with hBefore | ⟨hKey, rfl⟩
    · rw [Tables.settings_archivePayload] at hBefore
      exact Or.inl hBefore
    · exact Or.inr (.updated hKey (hAt hKey found) writes.found next keyFits payloadFits)
  | updateSetting admits writes found =>
    refine (Tables.cases_putSetting hFound).imp_right ?_
    rintro ⟨hKey, rfl⟩
    exact .described (hAt hKey found)
  | changeReaders admits proper writes found =>
    refine (Tables.cases_putSetting hFound).imp_right ?_
    rintro ⟨hKey, rfl⟩
    exact .regrouped proper (hAt hKey found)
  | deleteSetting =>
    rw [Tables.settings_settle, Tables.removeSetting] at hFound
    dsimp only at hFound
    rw [Table.get?_erase] at hFound
    split at hFound
    · cases hFound
    · exact Or.inl hFound
  | _ => exact Or.inl hFound

theorem Commit.archived_cases (h : Commit now t o t' r) {a : ArchivedPayload}
    (hFound : t'.archived.get? k = some a) :
    t.archived.get? k = some a ∨ ArchivedWrite now t k o a := by
  cases h with
  | createSetting =>
    rw [Tables.archived_settle] at hFound
    exact Or.inl hFound
  | @updatePayload caller path input _ s _ admits writes found =>
    rw [Tables.archived_settle, Tables.putSetting] at hFound
    unfold Tables.archivePayload at hFound
    split at hFound
    · dsimp only at hFound
      rw [Table.get?_put] at hFound
      split at hFound
      · next hKey =>
        have hCurrent := StoredKey.current_beq_current hKey
        rw [Tables.current_versionKey] at hCurrent
        have hLive : t.settings.get? k.current = some s :=
          (Table.get?_congr _ hCurrent).symm.trans found
        exact Or.inr ⟨⟨caller, path, input, rfl⟩, s, input.deprecateCurrent, hLive,
          (Option.some.inj hFound).symm⟩
      · exact Or.inl hFound
    · exact Or.inl hFound
  | deleteSetting =>
    rw [Tables.archived_settle, Tables.removeSetting] at hFound
    dsimp only at hFound
    rw [Table.get?_filterKeys] at hFound
    · split at hFound
      · exact Or.inl hFound
      · cases hFound
    · intro k' hSame
      simp only [bne, BEq.congr_left (StoredKey.current_beq_current hSame)]
  | _ => exact Or.inl hFound

end Inversion

end TenantVault
