import TenantVault.Proofs.Authority
import TenantVault.Proofs.History
import TenantVault.Proofs.Projection
import TenantVault.Proofs.Rebuild
import TenantVault.Proofs.Roles

/-! # Tables without the contents of one setting

The veil takes the octets of payload and data key from the live row of a setting and from its archived
rows, and leaves everything else, also that they were there. An operation of somebody who cannot read
the setting does the same under the veil: it gives the same answer, and the tables that it leaves are
those that it would leave without the veil, veiled.
-/

namespace TenantVault

open Access

/-! ## Tables with changed values -/

namespace Table

variable {κ α : Type} [BEq κ]

def mapRows (f : κ → α → α) (t : Table κ α) : Table κ α where
  rows := t.rows.map fun row => (row.1, f row.1 row.2)
  distinct := by
    rw [List.map_map]
    exact t.distinct

theorem keys_mapRows (f : κ → α → α) (t : Table κ α) : (t.mapRows f).keys = t.keys :=
  List.map_map ..

theorem lookup_map {f : κ → α → α} {k : κ} (same : ∀ k', k' == k → f k' = f k)
    (rows : List (κ × α)) :
    lookup k (rows.map fun row => (row.1, f row.1 row.2)) = (lookup k rows).map (f k) := by
  induction rows with
  | nil => rfl
  | cons row rest ih =>
    rw [List.map_cons, lookup, lookup]
    split
    · next hKey => rw [same row.1 hKey, Option.map_some]
    · exact ih

/-- The change has to be the same for the keys that are the same as `k`. -/
theorem get?_mapRows {f : κ → α → α} (t : Table κ α) {k : κ} (same : ∀ k', k' == k → f k' = f k) :
    (t.mapRows f).get? k = (t.get? k).map (f k) := lookup_map same t.rows

theorem putRow_map {f : κ → α → α} {k : κ} (same : ∀ k', k' == k → f k' = f k) (a : α)
    (rows : List (κ × α)) :
    putRow k (f k a) (rows.map fun row => (row.1, f row.1 row.2)) =
      (putRow k a rows).map fun row => (row.1, f row.1 row.2) := by
  induction rows with
  | nil => rfl
  | cons row rest ih =>
    rw [List.map_cons, putRow, putRow]
    split
    · next hKey => rw [List.map_cons, same row.1 hKey]
    · rw [List.map_cons, ih]

theorem put_mapRows {f : κ → α → α} (t : Table κ α) {k : κ} (same : ∀ k', k' == k → f k' = f k)
    (a : α) : (t.mapRows f).put k (f k a) = (t.put k a).mapRows f :=
  Table.ext (putRow_map same a t.rows)

theorem filterKeys_mapRows (f : κ → α → α) (t : Table κ α) (p : κ → Bool) :
    (t.mapRows f).filterKeys p = (t.filterKeys p).mapRows f := by
  apply Table.ext
  change (t.rows.map _).filter _ = (t.rows.filter _).map _
  rw [List.filter_map]
  rfl

end Table

/-! ## The veil -/

/-- Something that is there, with nothing in it. -/
def emptied (bs : Option Bytes) : Option Bytes := bs.map fun _ => []

def Setting.veiled (s : Setting) : Setting :=
  { s with payload := emptied s.payload, dataKey := emptied s.dataKey }

def ArchivedPayload.veiled (a : ArchivedPayload) : ArchivedPayload :=
  { a with payload := emptied a.payload, dataKey := emptied a.dataKey }

/-- A change of the rows of one setting, whatever their versions. -/
def SettingKey.onRows {α : Type} (key : SettingKey) (change : α → α) (k : StoredKey) (a : α) : α :=
  if k.current == key.current.stored then change a else a

theorem SettingKey.onRows_congr {α : Type} (key : SettingKey) (change : α → α) {k k' : StoredKey}
    (h : k' == k) : key.onRows change k' = key.onRows change k := by
  unfold onRows
  rw [BEq.congr_left (StoredKey.current_beq_current h)]

/-- The rows of other settings stay as they are. -/
theorem SettingKey.onRows_of_ne {α : Type} {key key' : SettingKey} (change : α → α) {k : StoredKey}
    (hCurrent : k.current = key'.current.stored) (hOther : key'.current ≠ key.current) (a : α) :
    key.onRows change k a = a := by
  unfold onRows
  rw [hCurrent, StoredKey.stored_beq_stored, decide_eq_false hOther]
  rfl

/-- What the veil leaves of a row is left under every key. -/
theorem SettingKey.onRows_veiled {α : Type} (key : SettingKey) (f : Setting → α)
    (h : ∀ s, f s.veiled = f s) (k : StoredKey) (s : Setting) : f (key.onRows Setting.veiled k s) = f s := by
  unfold onRows
  split
  · exact h s
  · rfl

namespace Tables

/-- The tables without the octets of a setting and of its archived versions. -/
def veil (key : SettingKey) (t : Tables) : Tables :=
  { t with
    settings := t.settings.mapRows (key.onRows Setting.veiled)
    archived := t.archived.mapRows (key.onRows ArchivedPayload.veiled) }

variable {X key : SettingKey} (t : Tables)

theorem getSetting?_veil (key : SettingKey) :
    (t.veil X).getSetting? key =
      (t.getSetting? key).map (X.onRows Setting.veiled key.current.stored) :=
  Table.get?_mapRows t.settings fun _ => X.onRows_congr Setting.veiled

theorem getSetting?_veil_of_ne (hOther : key.current ≠ X.current) :
    (t.veil X).getSetting? key = t.getSetting? key := by
  rw [getSetting?_veil]
  cases t.getSetting? key with
  | none => rfl
  | some s => exact congrArg some (SettingKey.onRows_of_ne Setting.veiled rfl hOther s)

theorem archivedPayload_veil_of_ne (hOther : key.current ≠ X.current) :
    (t.veil X).archivedPayload key = t.archivedPayload key := by
  have hRow : (t.veil X).archived.get? key.stored = t.archived.get? key.stored := by
    refine (Table.get?_mapRows t.archived fun _ => X.onRows_congr _).trans ?_
    cases t.archived.get? key.stored with
    | none => rfl
    | some a =>
      have hCurrent : key.stored.current = key.current.stored := StoredKey.current_stored key
      exact congrArg some (SettingKey.onRows_of_ne _ hCurrent hOther a)
  unfold archivedPayload
  rw [hRow]

theorem putSetting_veil (hOther : key.current ≠ X.current) (s : Setting) :
    (t.veil X).putSetting key s = (t.putSetting key s).veil X := by
  have hSame : ∀ k, k == key.current.stored →
      X.onRows Setting.veiled k = X.onRows Setting.veiled key.current.stored :=
    fun _ => X.onRows_congr Setting.veiled
  have hPut := Table.put_mapRows t.settings hSame s
  rw [SettingKey.onRows_of_ne Setting.veiled rfl hOther] at hPut
  unfold putSetting veil
  dsimp only
  rw [hPut]

/-- The row of the veiled setting itself is veiled as it is put. -/
theorem veil_putSetting (key : SettingKey) (s : Setting) :
    (t.putSetting key s).veil key = (t.veil key).putSetting key s.veiled := by
  have hSame : ∀ k, k == key.current.stored →
      key.onRows Setting.veiled k = key.onRows Setting.veiled key.current.stored :=
    fun _ => key.onRows_congr Setting.veiled
  have hVeiled : key.onRows Setting.veiled key.current.stored s = s.veiled := if_pos BEq.rfl
  have hPut := Table.put_mapRows t.settings hSame s
  rw [hVeiled] at hPut
  unfold putSetting veil
  dsimp only
  rw [hPut]

theorem archivePayload_veil (hOther : key.current ≠ X.current) (s : Setting) (deprecated : Bool)
    (now : Int) :
    (t.veil X).archivePayload key s deprecated now =
      (t.archivePayload key s deprecated now).veil X := by
  unfold archivePayload
  split
  · have hSame : ∀ k, k == versionKey key s.version →
        X.onRows ArchivedPayload.veiled k = X.onRows _ (versionKey key s.version) :=
      fun _ => X.onRows_congr ArchivedPayload.veiled
    have hPut := Table.put_mapRows t.archived hSame ⟨.int now, .bool deprecated, s.payload, s.dataKey⟩
    rw [SettingKey.onRows_of_ne _ (current_versionKey key s.version) hOther] at hPut
    unfold veil
    dsimp only
    rw [hPut]
  · rfl

theorem removeSetting_veil (key : SettingKey) :
    (t.veil X).removeSetting key = (t.removeSetting key).veil X := by
  unfold removeSetting veil Table.erase
  dsimp only
  rw [Table.filterKeys_mapRows, Table.filterKeys_mapRows]

theorem settle_veil {α : Type} (name : String) (ns : Namespace) (payloadBytes : Result Json) (a : α) :
    (t.veil X).settle name ns payloadBytes a =
      Prod.map (veil X) id (t.settle name ns payloadBytes a) := by
  cases payloadBytes <;> rfl

theorem countSettings_veil (ns : Json) (scope : Option Int) :
    (t.veil X).countSettings ns scope = t.countSettings ns scope := by
  unfold countSettings veil
  rw [Table.keys_mapRows]

end Tables

/-! ## Who can read a setting -/

/-- The role of the caller lets him read a setting, or he is among its readers where no role decides. -/
def Reads (t : Tables) (caller : Principal) (key : SettingKey) : Prop :=
  ∃ ns, t.namespaces.get? (.text key.ns) = some ns ∧
    (ns.readAccess caller key = .ok .granted ∨ ns.readAccess caller key = .ok .readersOnly ∧
      ∃ s, t.getSetting? key = some s ∧ caller ∈ s.readers)

section Permissions

variable {X key : SettingKey} {t : Tables} {caller : Principal}

theorem same_of_current_eq (hKey : key.current = X.current) :
    key.ns = X.ns ∧ key.subject = X.subject := by
  injection hKey with hName _ hSubject
  exact ⟨hName, hSubject⟩

theorem readAccess_congr (ns : Namespace) (hSubject : key.subject = X.subject) :
    ns.readAccess caller key = ns.readAccess caller X := by
  unfold Namespace.readAccess
  rw [hSubject]

theorem reads_of_writes (hKey : key.current = X.current) {ns : Namespace}
    (h : settingNamespace t caller key = .ok ns) : Reads t caller X := by
  obtain ⟨hFound, hWrite⟩ := (settingNamespace_eq_ok_iff t caller key ns).mp h
  have hAccess := Namespace.readAccess_of_canHaveKey (Namespace.canHaveKey_of_canWriteSetting hWrite)
  obtain ⟨hName, hSubject⟩ := same_of_current_eq hKey
  rw [readAccess_congr ns hSubject] at hAccess
  exact ⟨ns, hName ▸ hFound, Or.inl hAccess⟩

theorem reads_of_readable (hKey : key.current = X.current) {s : Setting}
    (h : readableSetting t caller key = .ok s) : Reads t caller X := by
  obtain ⟨hSetting, ⟨ns, hFound, hAccess⟩, -⟩ := (readableSetting_eq_ok_iff t caller key s).mp h
  obtain ⟨hName, hSubject⟩ := same_of_current_eq hKey
  rw [readAccess_congr ns hSubject] at hAccess
  rw [History.getSetting?_eq hKey] at hSetting
  exact ⟨ns, hName ▸ hFound, hAccess.imp id fun hReader => ⟨hReader.1, s, hSetting, hReader.2⟩⟩

/-- Where no role decides, somebody who is not among the readers cannot read. -/
theorem not_reads_of_not_reader {ns : Namespace} {s : Setting}
    (hFound : t.namespaces.get? (.text X.ns) = some ns)
    (hAccess : ns.readAccess caller X = .ok .readersOnly) (hSetting : t.getSetting? X = some s)
    (hReader : caller ∉ s.readers) : ¬ Reads t caller X := by
  rintro ⟨ns', hFound', hReads⟩
  rw [hFound] at hFound'
  cases hFound'
  rcases hReads with hGranted | ⟨-, s', hSetting', hReader'⟩
  · rw [hAccess] at hGranted
    cases hGranted
  · rw [hSetting] at hSetting'
    cases hSetting'
    exact hReader hReader'

theorem reads_veil_iff (X : SettingKey) (t : Tables) (caller : Principal) (key : SettingKey) :
    Reads (t.veil X) caller key ↔ Reads t caller key := by
  have hReaders : (∃ s, (t.veil X).getSetting? key = some s ∧ caller ∈ s.readers) ↔
      ∃ s, t.getSetting? key = some s ∧ caller ∈ s.readers := by
    rw [Tables.getSetting?_veil]
    cases t.getSetting? key with
    | none => exact ⟨nofun, nofun⟩
    | some s =>
      have hSame : (X.onRows Setting.veiled key.current.stored s).readers = s.readers :=
        X.onRows_veiled (·.readers) (fun _ => rfl) _ s
      simp only [Option.map_some, Option.some.injEq, exists_eq_left', hSame]
  unfold Reads
  simp only [hReaders]
  rfl

theorem not_reads_of_veil_eq {t' : Tables} (h : t.veil X = t'.veil X)
    (hReads : ¬ Reads t' caller X) : ¬ Reads t caller X := by
  rw [← reads_veil_iff X] at hReads ⊢
  rw [h]
  exact hReads

end Permissions

/-! ## Operations under the veil -/

section Operations

variable {X key : SettingKey} {t : Tables} {caller : Principal} {now : Int}

namespace Tables

theorem readableSetting_veil (X : SettingKey) (t : Tables) (caller : Principal) (key : SettingKey) :
    readableSetting (t.veil X) caller key =
      (readableSetting t caller key).map (X.onRows Setting.veiled key.current.stored) := by
  unfold readableSetting getSetting
  rw [getSetting?_veil]
  change (lookup t key.ns >>= _) = (lookup t key.ns >>= _).map _
  cases lookup t key.ns with
  | error why => rfl
  | ok ns =>
    change (ns.readAccess caller key >>= _) = (ns.readAccess caller key >>= _).map _
    cases ns.readAccess caller key with
    | error why => rfl
    | ok access =>
      change (demand (access != .refused) _ >>= _) = (demand (access != .refused) _ >>= _).map _
      cases demand (access != .refused) (.denied .noPermission) with
      | error why => rfl
      | ok =>
        cases t.getSetting? key with
        | none => rfl
        | some s =>
          have hReaders : (X.onRows Setting.veiled key.current.stored s).readers = s.readers :=
            X.onRows_veiled (·.readers) (fun _ => rfl) _ s
          have hVersion : (X.onRows Setting.veiled key.current.stored s).version = s.version :=
            X.onRows_veiled (·.version) (fun _ => rfl) _ s
          simp only [bind, Except.bind, Option.map_some, hReaders, hVersion]
          cases demand (access == .granted || decide (caller ∈ s.readers)) (.denied .noPermission) with
          | error why => rfl
          | ok =>
            cases s.version.less key.version with
            | error why => rfl
            | ok less => cases less <;> rfl

/-- The view of a setting without its payload shows nothing that is veiled. -/
theorem getSettingInfo_blind (X : SettingKey) (t : Tables) (caller : Principal) (key : SettingKey) :
    Blind (veil X) (·.getSettingInfo caller key) t := by
  unfold Blind getSettingInfo
  dsimp only
  rw [readableSetting_veil]
  cases readableSetting t caller key with
  | error why => rfl
  | ok s => exact X.onRows_veiled (·.info key) (fun _ => rfl) _ s

/-- Who cannot read the setting reads only others, which are not veiled. -/
theorem readableSetting_blind (hReads : ¬ Reads t caller X) :
    Blind (veil X) (readableSetting · caller key) t := by
  unfold Blind
  dsimp only
  rw [readableSetting_veil]
  cases hReadable : readableSetting t caller key with
  | error why => rfl
  | ok s =>
    have hOther : key.current ≠ X.current := fun hKey => hReads (reads_of_readable hKey hReadable)
    exact congrArg Except.ok (SettingKey.onRows_of_ne _ rfl hOther s)

/-- Who cannot read the setting does not get at its archived versions. -/
theorem keepsReadable_veil (hReads : ¬ Reads t caller X) : KeepsReadable (veil X) caller key t where
  look := readableSetting_blind hReads
  archived _ hReadable :=
    archivedPayload_veil_of_ne t fun hKey => hReads (reads_of_readable hKey hReadable)

/-- Other settings are not veiled. -/
theorem keeps_veil (hOther : key.current ≠ X.current) : Keeps (veil X) key where
  live t := getSetting?_veil_of_ne t hOther
  put t := putSetting_veil t hOther
  archive t := archivePayload_veil t hOther
  remove t := removeSetting_veil t key
  settle t := settle_veil t key.ns

/-- Who cannot read the setting writes only others. -/
theorem keepsWritable_veil (hReads : ¬ Reads t caller X) : KeepsWritable (veil X) caller key t where
  look := rfl
  keeps _ hNamespace := keeps_veil fun hKey => hReads (reads_of_writes hKey hNamespace)

/-! ### Operations that look at no contents -/

theorem scan_veil (X : SettingKey) (t : Tables) (ns : String) (scope : Option Int)
    (subject : Option Principal) :
    (t.veil X).scan ns scope subject = (t.scan ns scope subject).map
      (List.map fun row => (row.1, X.onRows Setting.veiled row.1 row.2)) := by
  have hRows : StoredKey.sort? ((t.veil X).settings.rows.filter fun row => row.1.ns == .text ns) =
      (StoredKey.sort? (t.settings.rows.filter fun row => row.1.ns == .text ns)).map
        (List.map fun row => (row.1, X.onRows Setting.veiled row.1 row.2)) := by
    refine (congrArg StoredKey.sort? List.filter_map).trans ?_
    exact sort?_map (fun row : StoredKey × Setting => (row.1, X.onRows Setting.veiled row.1 row.2))
      (t.settings.rows.filter fun row => row.1.ns == .text ns)
  unfold scan
  rw [hRows]
  cases StoredKey.sort? (t.settings.rows.filter fun row => row.1.ns == .text ns) with
  | none => rfl
  | some rows => exact congrArg Except.ok List.filter_map

theorem listSettings_blind (caller : Principal) (name : String) (userOwned : Bool)
    (subject : Option Principal) : Blind (veil X) (·.listSettings caller name userOwned subject) t := by
  unfold listSettings
  refine Blind.bind rfl fun ns _ => ?_
  have hScan (scope : Option Int) (subject : Option Principal) : Blind (veil X) (fun t => do
      return (← t.scan name scope subject).map fun row : StoredKey × Setting =>
        (row.1.subject, row.1.key)) t := by
    unfold Blind
    dsimp only
    rw [scan_veil]
    cases t.scan name scope subject with
    | error why => rfl
    | ok rows => exact congrArg Except.ok (List.map_map ..)
  cases ns.hasFullRead caller with
  | true => exact hScan _ subject
  | false => exact Blind.bind rfl fun _ _ => Blind.bind rfl fun _ _ => hScan _ (some caller)

theorem namespaceInfo_veil (X : SettingKey) (t : Tables) (ns : Namespace) :
    (t.veil X).namespaceInfo ns = t.namespaceInfo ns := by
  unfold namespaceInfo
  rw [countSettings_veil, countSettings_veil]

theorem namespacePage_blind (caller : Principal) (before : Option String) (count : Option Int) :
    Blind (veil X) (·.namespacePage caller before count) t := by
  unfold namespacePage
  refine Blind.bind rfl fun _ _ => ?_
  dsimp only
  split
  · rfl
  · refine Blind.bind rfl fun page _ => ?_
    exact congrArg Except.ok (List.map_congr_left fun ns _ => namespaceInfo_veil X t ns)

theorem getNamespaceInfo_blind (caller : Principal) (name : String) :
    Blind (veil X) (·.getNamespaceInfo caller name) t :=
  Blind.bind rfl fun ns _ => congrArg Except.ok (namespaceInfo_veil X t ns)

theorem createNamespace_commutes (creator : Principal) (input : NewNamespace) :
    Commutes (veil X) (·.createNamespace creator input now) t := by
  unfold createNamespace
  refine Commutes.bind rfl fun _ _ => Commutes.bind rfl fun _ _ => Commutes.pure ?_
  exact Prod.ext rfl (namespaceInfo_veil X (t.putNamespace input.name _) _)

theorem deleteNamespace_commutes (caller : Principal) (name : String) :
    Commutes (veil X) (·.deleteNamespace caller name) t := by
  unfold deleteNamespace
  refine Commutes.bind rfl fun _ _ => Commutes.bind ?_ fun _ _ => Commutes.pure rfl
  unfold Blind
  dsimp only
  rw [countSettings_veil]

end Tables

end Operations

end TenantVault
