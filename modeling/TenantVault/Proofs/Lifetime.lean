import TenantVault.Proofs.Authority

/-! # What becomes of a setting

A setting that is there can be described anew, given other readers, given a new payload or deleted. Any
other write leaves all its rows as they are, and its namespace stays as long as it does.
-/

namespace TenantVault

/-- The archived rows of the setting under a key are the same. -/
def SameArchive (k : StoredKey) (t t' : Tables) : Prop :=
  ∀ k', (k'.current == k.current) = true → t'.archived.get? k' = t.archived.get? k'

theorem SameArchive.trans {k : StoredKey} {t t' t'' : Tables} (h : SameArchive k t t')
    (h' : SameArchive k t' t'') : SameArchive k t t'' :=
  fun k' hCurrent => (h' k' hCurrent).trans (h k' hCurrent)

/-- What an operation has done to the setting under a key, which was there before. -/
inductive Fate (now : Int) (k : StoredKey) (s : Setting) (t t' : Tables) : Operation → Prop
  | untouched {o : Operation}
      (apart : ∀ key, o.settingKey? = some key → (key.current.stored == k.current) = false)
      (rows : ∀ k', (k'.current == k.current) = true → SameRows k' t t') : Fate now k s t t' o
  | described {caller : Principal} {path : SettingPath} {input : SettingChange}
      (at_ : ((path.toKey caller).current.stored == k.current) = true)
      (open_ : s.isReadOnly = true → ∀ status, input.status = some status →
        s.status.isInt status = true)
      (live : t'.settings.get? k.current = some (input.row s now))
      (archive : SameArchive k t t') : Fate now k s t t' (.updateSetting caller path input)
  | regrouped {caller : Principal} {path : SettingPath} {d : Direction} {readers : Principals}
      (at_ : ((path.toKey caller).current.stored == k.current) = true)
      (open_ : s.isReadOnly = false)
      (live : t'.settings.get? k.current =
        some { s with readers := d.apply s.readers readers, updatedAt := .int now })
      (archive : SameArchive k t t') : Fate now k s t t' (.changeReaders caller path d readers)
  | updated {caller : Principal} {path : SettingPath} {input : PayloadChange} {version : Json}
      (at_ : ((path.toKey caller).current.stored == k.current) = true)
      (readWrite : s.isReadWrite = true) (expected : s.version.isInt input.version = true)
      (next : s.version.plus 1 = .ok version)
      (live : t'.settings.get? k.current = some (input.row s version now)) :
      Fate now k s t t' (.updatePayload caller path input)
  | deleted {caller : Principal} {path : SettingPath}
      (at_ : ((path.toKey caller).current.stored == k.current) = true)
      (open_ : s.isReadOnly = false) (gone : t'.settings.get? k.current = none) :
      Fate now k s t t' (.deleteSetting caller path)

section Settings

variable {now : Int} {t t' : Tables} {o : Operation} {r : Result Answer} {k : StoredKey}
  {key : SettingKey} {s : Setting}

theorem Tables.getSetting?_at (t : Tables) (hAt : (key.current.stored == k.current) = true) :
    t.getSetting? key = t.settings.get? k.current :=
  Table.get?_congr t.settings hAt

theorem getSetting?_congr (h : t'.settings = t.settings) (key : SettingKey) :
    t'.getSetting? key = t.getSetting? key := by
  unfold Tables.getSetting?
  rw [h]

theorem getSetting?_settle {α : Type} (t : Tables) (name : String) (ns : Namespace)
    (payloadBytes : Result Json) (a : α) (key : SettingKey) :
    (t.settle name ns payloadBytes a).1.getSetting? key = t.getSetting? key :=
  getSetting?_congr (Tables.settings_settle ..) key

theorem Tables.get?_putSetting_at (t : Tables) (s : Setting)
    (hAt : (key.current.stored == k.current) = true) :
    (t.putSetting key s).settings.get? k.current = some s := by
  rw [Tables.putSetting]
  dsimp only
  rw [Table.get?_put, if_pos hAt]

theorem Tables.get?_removeSetting_at (t : Tables)
    (hAt : (key.current.stored == k.current) = true) :
    (t.removeSetting key).settings.get? k.current = none := by
  rw [Tables.removeSetting]
  dsimp only
  rw [Table.get?_erase, if_pos hAt]

theorem Commit.fate_of_written (h : Commit now t o t' r) (hWritten : o.settingKey? = some key)
    (hAt : (key.current.stored == k.current) = true) (hLive : t.settings.get? k.current = some s) :
    Fate now k s t t' o := by
  -- Keys with the same current row are the same to a lookup, so the call has found this record.
  have hSame {key' : SettingKey} {s' : Setting}
      (hAt : (key'.current.stored == k.current) = true) (found : t.getSetting? key' = some s') :
      s' = s := by
    rw [t.getSetting?_at hAt, hLive] at found
    exact (Option.some.inj found).symm
  cases h with
  | createSetting admits writes live fresh =>
    cases hWritten
    rw [t.getSetting?_at hAt, hLive] at fresh
    cases fresh
  | updatePayload admits writes found readWrite expected next =>
    cases hWritten
    cases hSame hAt found
    refine .updated hAt readWrite expected next ?_
    rw [Tables.settings_settle]
    exact Tables.get?_putSetting_at _ _ hAt
  | updateSetting admits writes found fits open_ =>
    cases hWritten
    cases hSame hAt found
    exact .described hAt open_ (Tables.get?_putSetting_at t _ hAt) fun _ _ => rfl
  | changeReaders admits proper writes found fits open_ =>
    cases hWritten
    cases hSame hAt found
    exact .regrouped hAt open_ (Tables.get?_putSetting_at t _ hAt) fun _ _ => rfl
  | deleteSetting admits writes found open_ =>
    cases hWritten
    cases hSame hAt found
    refine .deleted hAt open_ ?_
    rw [Tables.settings_settle]
    exact Tables.get?_removeSetting_at t hAt
  | _ => cases hWritten

theorem Commit.fate (h : Commit now t o t' r) (hLive : t.settings.get? k.current = some s) :
    Fate now k s t t' o := by
  by_cases hAt : ∃ key, o.settingKey? = some key ∧ (key.current.stored == k.current) = true
  · obtain ⟨key, hWritten, hAt⟩ := hAt
    exact h.fate_of_written hWritten hAt hLive
  · have hApart : ∀ key, o.settingKey? = some key → (key.current.stored == k.current) = false := by
      intro key hWritten
      rw [← Bool.not_eq_true]
      intro hKey
      exact hAt ⟨key, hWritten, hKey⟩
    refine .untouched hApart fun k' hCurrent => h.sameRows k' fun key hWritten => ?_
    rw [BEq.congr_right hCurrent]
    exact hApart key hWritten

end Settings

section Namespaces

variable {now : Int} {t t' : Tables} {o : Operation} {r : Result Answer} {k : StoredKey}

theorem StoredKey.ns_beq_of_current {k k' : StoredKey} (h : (k' == k.current) = true) :
    (k'.ns == k.ns) = true := by
  rw [StoredKey.beq_iff] at h
  simp only [StoredKey.content, Prod.mk.injEq] at h
  exact Scalar.beq_iff.mpr h.1

theorem Tables.isSome_putNamespace {name : Scalar} (h : (t.namespaces.get? name).isSome = true)
    (n : String) (ns : Namespace) : ((t.putNamespace n ns).namespaces.get? name).isSome = true := by
  rw [Tables.get?_putNamespace]
  split
  · rfl
  · exact h

theorem Tables.isSome_settle {α : Type} {base : Tables} {name : Scalar}
    (h : (t.namespaces.get? name).isSome = true) (hBase : base.namespaces = t.namespaces)
    (n : String) (ns : Namespace) (count : Result Json) (a : α) :
    ((base.settle n ns count a).1.namespaces.get? name).isSome = true := by
  rw [← hBase] at h
  cases count with
  | ok count => exact base.isSome_putNamespace h n _
  | error why => exact h

theorem Tables.countSettings_ne_zero {name : String} {s : Setting}
    (hLive : t.settings.get? k.current = some s) (hName : (Scalar.text name == k.ns) = true) :
    t.countSettings (.text name) none ≠ 0 := by
  obtain ⟨k', hMem, hKey⟩ := Table.exists_of_get? hLive
  have hContent : k'.ns.content = k.ns.content := Scalar.beq_iff.mp (StoredKey.ns_beq_of_current hKey)
  intro hNone
  unfold Tables.countSettings at hNone
  rw [List.countP_eq_zero] at hNone
  apply hNone k' (Table.keys_of_mem hMem)
  rw [Bool.and_eq_true, decide_eq_true_iff, hContent, ← Scalar.beq_iff.mp hName]
  exact ⟨rfl, rfl⟩

/-- A namespace goes only when it is deleted, and then no setting is in it. -/
theorem Commit.namespace_stays {name : Scalar} (h : Commit now t o t' r)
    (hThere : (t.namespaces.get? name).isSome = true)
    (hKept : ∀ caller n, o = .deleteNamespace caller n → (Scalar.text n == name) = true →
      t.countSettings (.text n) none ≠ 0) : (t'.namespaces.get? name).isSome = true := by
  cases h with
  | createNamespace | updateNamespace | changeMembers | topUp | addDelegators | removeDelegators =>
    exact t.isSome_putNamespace hThere _ _
  | deleteNamespace admits manages bare =>
    dsimp only
    rw [Table.get?_erase]
    split
    · next hName => exact (hKept _ _ rfl hName bare).elim
    · exact hThere
  | createSetting | deleteSetting =>
    refine Tables.isSome_settle hThere ?_ _ _ _ _
    rfl
  | updatePayload =>
    refine Tables.isSome_settle hThere ?_ _ _ _ _
    exact Tables.namespaces_archivePayload ..
  | _ => exact hThere

theorem Commit.namespace_of_live {s : Setting} (h : Commit now t o t' r)
    (hLive : t.settings.get? k.current = some s) (hThere : (t.namespaces.get? k.ns).isSome = true) :
    (t'.namespaces.get? k.ns).isSome = true :=
  h.namespace_stays hThere fun _ _ _ hName => Tables.countSettings_ne_zero hLive hName

end Namespaces

end TenantVault
