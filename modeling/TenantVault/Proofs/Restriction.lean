import TenantVault.Proofs.Frame
import TenantVault.Proofs.Projection

/-! # Tables of some namespaces only

The restriction of tables to a set of names keeps the rows of the namespaces that have one of these names,
of their settings and of their archived payloads. An operation on a namespace in the set does the same in
the restricted tables; one on another namespace leaves them as they are.
-/

namespace TenantVault

open Access

/-! ## Tables with fewer rows -/

namespace Table

variable {κ α : Type} [BEq κ] {p : κ → Bool} {k : κ} {a : α}

theorem filter_putRow (same : ∀ k', k' == k → p k' = p k) (hKept : p k = true) (rows : List (κ × α)) :
    (putRow k a rows).filter (fun row => p row.1) = putRow k a (rows.filter fun row => p row.1) := by
  induction rows with
  | nil => simp [putRow, hKept]
  | cons row rest ih =>
    cases hKey : row.1 == k
    · by_cases hRow : p row.1 <;> simp [putRow, hKey, hRow, ih]
    · simp [putRow, hKey, same row.1 hKey, hKept]

theorem filter_putRow_of_not (same : ∀ k', k' == k → p k' = p k) (hDropped : p k = false)
    (rows : List (κ × α)) :
    (putRow k a rows).filter (fun row => p row.1) = rows.filter fun row => p row.1 := by
  induction rows with
  | nil => simp [putRow, hDropped]
  | cons row rest ih =>
    cases hKey : row.1 == k
    · simp [putRow, hKey, List.filter_cons, ih]
    · simp [putRow, hKey, same row.1 hKey, hDropped]

theorem put_filterKeys (t : Table κ α) (same : ∀ k', k' == k → p k' = p k) (hKept : p k = true) :
    (t.filterKeys p).put k a = (t.put k a).filterKeys p :=
  ext (filter_putRow same hKept t.rows).symm

theorem filterKeys_put_of_not (t : Table κ α) (same : ∀ k', k' == k → p k' = p k)
    (hDropped : p k = false) : (t.put k a).filterKeys p = t.filterKeys p :=
  ext (filter_putRow_of_not same hDropped t.rows)

theorem rows_filterKeys (t : Table κ α) (p : κ → Bool) :
    (t.filterKeys p).rows = t.rows.filter fun row => p row.1 := rfl

theorem keys_filterKeys (t : Table κ α) (p : κ → Bool) : (t.filterKeys p).keys = t.keys.filter p := by
  unfold keys
  rw [rows_filterKeys, List.filter_map]
  rfl

theorem filterKeys_comm (t : Table κ α) (p q : κ → Bool) :
    (t.filterKeys p).filterKeys q = (t.filterKeys q).filterKeys p := by
  apply ext
  simp only [rows_filterKeys, List.filter_filter, Bool.and_comm]

/-- A test that everything passes that passes another one drops nothing after it. -/
theorem filterKeys_of_imp (t : Table κ α) {q : κ → Bool} (h : ∀ k, p k = true → q k = true) :
    (t.filterKeys q).filterKeys p = t.filterKeys p := by
  apply ext
  simp only [rows_filterKeys, List.filter_filter]
  refine List.filter_congr fun row _ => ?_
  cases hRow : p row.1
  · rfl
  · simp [h row.1 hRow]

/-- A key that passes is not the same as one that does not. -/
theorem bne_of_kept (same : ∀ k', k' == k → p k' = p k) (hDropped : p k = false) (k' : κ)
    (hKept : p k' = true) : (k' != k) = true := by
  cases hSame : k' == k
  · simp [bne, hSame]
  · rw [same k' hSame, hDropped] at hKept
    cases hKept

theorem filterKeys_erase_of_not (t : Table κ α) (same : ∀ k', k' == k → p k' = p k)
    (hDropped : p k = false) : (t.erase k).filterKeys p = t.filterKeys p :=
  filterKeys_of_imp t (bne_of_kept same hDropped)

end Table

/-! ## The restriction -/

/-- The names of namespaces that pass a test on their contents. -/
def Scalar.passes (p : Scalar.Content → Bool) (name : Scalar) : Bool := p name.content

/-- The keys of settings whose namespaces pass. -/
def StoredKey.passes (p : Scalar.Content → Bool) (k : StoredKey) : Bool := k.ns.passes p

namespace Tables

/-- The tables with the rows of those namespaces only that pass a test. -/
def within (p : Scalar.Content → Bool) (t : Tables) : Tables where
  governance := t.governance
  namespaces := t.namespaces.filterKeys (Scalar.passes p)
  settings := t.settings.filterKeys (StoredKey.passes p)
  archived := t.archived.filterKeys (StoredKey.passes p)

variable {p : Scalar.Content → Bool} {t : Tables} {name : String} {key : SettingKey} {ns : Namespace}

theorem passes_of_name_beq (name : Scalar) :
    ∀ name', name' == name → Scalar.passes p name' = name.passes p := by
  intro name' h
  unfold Scalar.passes
  rw [Scalar.beq_iff.mp h]

theorem passes_of_key_beq (k : StoredKey) :
    ∀ k', k' == k → StoredKey.passes p k' = k.passes p := by
  intro k' h
  have hContent := StoredKey.beq_iff.mp h
  injection hContent with hName
  unfold StoredKey.passes Scalar.passes
  rw [hName]

theorem namespace_within (t : Tables) (p : Scalar.Content → Bool) (name : Scalar) :
    (t.within p).namespaces.get? name = if name.passes p then t.namespaces.get? name else none :=
  Table.get?_filterKeys t.namespaces _ name (passes_of_name_beq name)

theorem live_within (t : Tables) (p : Scalar.Content → Bool) (k : StoredKey) :
    (t.within p).settings.get? k = if k.passes p then t.settings.get? k else none :=
  Table.get?_filterKeys t.settings _ k (passes_of_key_beq k)

theorem archived_within (t : Tables) (p : Scalar.Content → Bool) (k : StoredKey) :
    (t.within p).archived.get? k = if k.passes p then t.archived.get? k else none :=
  Table.get?_filterKeys t.archived _ k (passes_of_key_beq k)

/-! ### Writes to rows that are kept -/

theorem putNamespace_within (hName : p (.text name) = true) :
    (t.within p).putNamespace name ns = (t.putNamespace name ns).within p :=
  congrArg (fun rows => { t.within p with namespaces := rows })
    (Table.put_filterKeys t.namespaces (passes_of_name_beq (.text name)) hName)

theorem eraseNamespace_within (p : Scalar.Content → Bool) (name : Scalar) :
    { t.within p with namespaces := (t.within p).namespaces.erase name } =
      { t with namespaces := t.namespaces.erase name }.within p :=
  congrArg (fun rows => { t.within p with namespaces := rows }) (Table.filterKeys_comm ..)

theorem putSetting_within (hKey : p (.text key.ns) = true) (s : Setting) :
    (t.within p).putSetting key s = (t.putSetting key s).within p :=
  congrArg (fun rows => { t.within p with settings := rows })
    (Table.put_filterKeys t.settings (passes_of_key_beq key.current.stored) hKey)

theorem archivePayload_within (hKey : p (.text key.ns) = true) (s : Setting) (deprecated : Bool)
    (now : Int) :
    (t.within p).archivePayload key s deprecated now = (t.archivePayload key s deprecated now).within p := by
  unfold archivePayload
  split
  · exact congrArg (fun rows => { t.within p with archived := rows })
      (Table.put_filterKeys t.archived (passes_of_key_beq (versionKey key s.version)) hKey)
  · rfl

theorem removeSetting_within (p : Scalar.Content → Bool) (key : SettingKey) :
    (t.within p).removeSetting key = (t.removeSetting key).within p := by
  unfold removeSetting within Table.erase
  dsimp only
  rw [Table.filterKeys_comm t.settings, Table.filterKeys_comm t.archived]

theorem settle_within {α : Type} (hName : p (.text name) = true) (count : Result Json) (a : α) :
    (t.within p).settle name ns count a = Prod.map (within p) id (t.settle name ns count a) := by
  cases count with
  | error why => rfl
  | ok count => exact Prod.ext (putNamespace_within hName) rfl

/-! ### Writes to rows that are dropped -/

theorem within_putNamespace (hName : p (.text name) = false) :
    (t.putNamespace name ns).within p = t.within p :=
  congrArg (fun rows => { t.within p with namespaces := rows })
    (Table.filterKeys_put_of_not t.namespaces (passes_of_name_beq (.text name)) hName)

theorem within_eraseNamespace (hName : p (.text name) = false) :
    { t with namespaces := t.namespaces.erase (.text name) }.within p = t.within p :=
  congrArg (fun rows => { t.within p with namespaces := rows })
    (Table.filterKeys_erase_of_not t.namespaces (passes_of_name_beq (.text name)) hName)

theorem within_putSetting (hKey : p (.text key.ns) = false) (s : Setting) :
    (t.putSetting key s).within p = t.within p :=
  congrArg (fun rows => { t.within p with settings := rows })
    (Table.filterKeys_put_of_not t.settings (passes_of_key_beq key.current.stored) hKey)

theorem within_archivePayload (hKey : p (.text key.ns) = false) (s : Setting) (deprecated : Bool)
    (now : Int) : (t.archivePayload key s deprecated now).within p = t.within p := by
  unfold archivePayload
  split
  · exact congrArg (fun rows => { t.within p with archived := rows })
      (Table.filterKeys_put_of_not t.archived (passes_of_key_beq (versionKey key s.version)) hKey)
  · rfl

theorem within_removeSetting (hKey : p (.text key.ns) = false) :
    (t.removeSetting key).within p = t.within p := by
  have hSame := passes_of_key_beq (p := p) key.current.stored
  have hLive := Table.filterKeys_erase_of_not t.settings hSame hKey
  have hArchived := Table.filterKeys_of_imp (p := StoredKey.passes p) t.archived
    (q := fun k => k.current != key.current.stored) fun k hKept =>
      Table.bne_of_kept hSame hKey k.current hKept
  unfold removeSetting within
  dsimp only
  rw [hLive, hArchived]

theorem within_settle {α : Type} (hName : p (.text name) = false) (count : Result Json) (a : α) :
    (t.settle name ns count a).1.within p = t.within p := by
  cases count with
  | error why => rfl
  | ok count => exact within_putNamespace hName

end Tables

/-! ## Looks at rows that are kept -/

section Looks

variable {p : Scalar.Content → Bool} {t : Tables} {name : String} {key : SettingKey} {caller : Principal}

namespace Access

theorem lookup_within (hName : p (.text name) = true) : Blind (Tables.within p) (lookup · name) t := by
  have hRow := (Tables.namespace_within t p (.text name)).trans (if_pos hName)
  unfold Blind lookup
  dsimp only
  rw [hRow]

theorem namespaceWhere_within (hName : p (.text name) = true) (condition : Namespace → Result Bool) :
    Blind (Tables.within p) (namespaceWhere · name condition) t :=
  Blind.bind (lookup_within hName) fun _ _ => rfl

theorem readable_within (hName : p (.text name) = true) :
    Blind (Tables.within p) (readable · caller name) t := namespaceWhere_within hName _

theorem writable_within (hName : p (.text name) = true) :
    Blind (Tables.within p) (writable · caller name) t := namespaceWhere_within hName _

theorem keyHolder_within (hKey : p (.text key.ns) = true) :
    Blind (Tables.within p) (keyHolder · caller key) t := namespaceWhere_within hKey _

theorem signing_within (hName : p (.text name) = true) :
    Blind (Tables.within p) (signing · caller name) t := namespaceWhere_within hName _

theorem settingNamespace_within (hKey : p (.text key.ns) = true) :
    Blind (Tables.within p) (settingNamespace · caller key) t := namespaceWhere_within hKey _

theorem tokenScope_within (hName : p (.text name) = true) :
    Blind (Tables.within p) (tokenScope · caller name) t :=
  Blind.bind (lookup_within hName) fun _ _ => rfl

end Access

namespace Tables

theorem getSetting?_within (hKey : p (.text key.ns) = true) :
    Blind (within p) (·.getSetting? key) t :=
  (live_within t p key.current.stored).trans (if_pos hKey)

theorem getSetting_within (hKey : p (.text key.ns) = true) :
    Blind (within p) (getSetting · key) t := by
  have hRow : (t.within p).getSetting? key = t.getSetting? key := getSetting?_within hKey
  unfold Blind getSetting
  dsimp only
  rw [hRow]

theorem readableSetting_within (hKey : p (.text key.ns) = true) :
    Blind (within p) (readableSetting · caller key) t := by
  unfold readableSetting
  refine Blind.bind (lookup_within hKey) fun ns _ => Blind.bind rfl fun access _ => ?_
  refine Blind.bind rfl fun _ _ => Blind.bind (getSetting_within hKey) fun s _ => rfl

theorem archivedPayload_within (hKey : p (.text key.ns) = true) :
    Blind (within p) (·.archivedPayload key) t := by
  have hRow := (archived_within t p key.stored).trans (if_pos hKey)
  unfold Blind archivedPayload
  dsimp only
  rw [hRow]

theorem keeps_within (hKey : p (.text key.ns) = true) : Keeps (within p) key where
  live _ := getSetting?_within hKey
  put _ := putSetting_within hKey
  archive _ := archivePayload_within hKey
  remove _ := removeSetting_within p key
  settle _ _ := settle_within hKey

theorem keepsWritable_within (hKey : p (.text key.ns) = true) :
    KeepsWritable (within p) caller key t where
  look := settingNamespace_within hKey
  keeps _ _ := keeps_within hKey

theorem keepsReadable_within (hKey : p (.text key.ns) = true) :
    KeepsReadable (within p) caller key t where
  look := readableSetting_within hKey
  archived _ _ := archivedPayload_within hKey

/-- The settings that are counted are among the rows that are kept. -/
theorem countSettings_within {ns : Json} (hNs : ∀ c, ns.content? = some c → p c = true)
    (scope : Option Int) : (t.within p).countSettings ns scope = t.countSettings ns scope := by
  unfold countSettings within
  dsimp only
  rw [Table.keys_filterKeys, List.countP_filter]
  refine List.countP_congr fun k _ => ?_
  cases hName : decide (ns.content? = some k.ns.content)
  · simp
  · have hKept : k.passes p = true := hNs _ (of_decide_eq_true hName)
    simp [hKept]

theorem scan_within (hName : p (.text name) = true) (scope : Option Int) (subject : Option Principal) :
    Blind (within p) (·.scan name scope subject) t := by
  have hRows : (t.within p).settings.rows.filter (fun row => row.1.ns == .text name) =
      t.settings.rows.filter fun row => row.1.ns == .text name := by
    refine List.filter_filter.trans (List.filter_congr fun row _ => ?_)
    cases hSame : row.1.ns == .text name
    · rfl
    · have hKept := passes_of_name_beq (p := p) (.text name) row.1.ns hSame
      exact hKept.trans hName
  unfold Blind scan
  dsimp only
  rw [hRows]

theorem namespaceInfo_within {ns : Namespace} (hNs : ∀ c, ns.name.content? = some c → p c = true) :
    (t.within p).namespaceInfo ns = t.namespaceInfo ns := by
  unfold namespaceInfo
  rw [countSettings_within hNs, countSettings_within hNs]

theorem getSettingInfo_within (hKey : p (.text key.ns) = true) :
    Blind (within p) (·.getSettingInfo caller key) t :=
  Blind.bind (readableSetting_within hKey) fun _ _ => rfl

end Tables

end Looks

/-! ## Operations on a namespace that is kept -/

/-- A namespace stands under the name that it bears. -/
def Tables.KeyedAt (t : Tables) (name : Scalar) : Prop :=
  ∀ ns, t.namespaces.get? name = some ns → ns.name.content? = some name.content

section Operations

variable {p : Scalar.Content → Bool} {t : Tables} {name : String} {caller : Principal} {now : Int}

namespace Tables

/-- A row that stands under its own name is counted by rows that are kept. -/
theorem passes_of_keyed {ns : Namespace} (hKeyed : t.KeyedAt (.text name)) (hName : p (.text name) = true)
    (hFound : t.namespaces.get? (.text name) = some ns) : ∀ c, ns.name.content? = some c → p c = true := by
  intro c hContent
  rw [hKeyed ns hFound] at hContent
  cases hContent
  exact hName

theorem getNamespaceInfo_within (hKeyed : t.KeyedAt (.text name)) (hName : p (.text name) = true) :
    Blind (within p) (·.getNamespaceInfo caller name) t := by
  refine Blind.bind (readable_within hName) fun ns hReadable => ?_
  have hFound := ((namespaceWhere_eq_ok_iff t name _ ns).mp hReadable).1
  exact congrArg Except.ok (namespaceInfo_within (passes_of_keyed hKeyed hName hFound))

theorem createNamespace_within {input : NewNamespace} (hName : p (.text input.name) = true) :
    Commutes (within p) (·.createNamespace caller input now) t := by
  unfold createNamespace
  refine Commutes.bind rfl fun _ _ => Commutes.bind ?_ fun _ _ => Commutes.pure ?_
  · have hRow := (namespace_within t p (.text input.name)).trans (if_pos hName)
    unfold Blind Table.contains
    dsimp only
    rw [hRow]
  · rw [putNamespace_within hName]
    refine Prod.ext rfl (namespaceInfo_within ?_)
    rintro c ⟨⟩
    exact hName

theorem deleteNamespace_within (hName : p (.text name) = true) :
    Commutes (within p) (·.deleteNamespace caller name) t := by
  have hCount : (t.within p).countSettings (.text name) none = t.countSettings (.text name) none := by
    refine countSettings_within ?_ none
    rintro c ⟨⟩
    exact hName
  unfold deleteNamespace
  refine Commutes.bind (writable_within hName) fun _ _ => Commutes.bind ?_ fun _ _ => Commutes.pure ?_
  · unfold Blind
    dsimp only
    rw [hCount]
  · rw [eraseNamespace_within]
    rfl

/-- The row of a namespace is replaced by one that is made from it. -/
theorem replaceRow_within {α : Type} {look : Tables → Result Namespace} (hLook : Blind (within p) look t)
    (hName : p (.text name) = true) (row : Namespace → Namespace) (answer : Namespace → α) :
    Commutes (within p) (fun t => look t >>= fun ns => pure (t.putNamespace name (row ns), answer ns)) t := by
  refine Commutes.bind hLook fun ns _ => Commutes.pure ?_
  rw [putNamespace_within hName]
  rfl

theorem updateNamespace_within {input : NamespaceChange} (hName : p (.text input.name) = true) :
    Commutes (within p) (·.updateNamespace caller input now) t :=
  replaceRow_within (writable_within hName) hName _ _

theorem changeMembers_within (hName : p (.text name) = true) (kind : MemberKind) (d : Direction)
    (ps : Principals) : Commutes (within p) (·.changeMembers caller name kind d ps now) t :=
  Commutes.bind rfl fun _ _ => replaceRow_within (writable_within hName) hName _ _

theorem topUp_within (hName : p (.text name) = true) (amount : Int) :
    Commutes (within p) (·.topUp name amount now) t :=
  Commutes.bind rfl fun _ _ => replaceRow_within (lookup_within hName) hName _ _

theorem addDelegators_within {input : DelegatorChange} (hName : p (.text input.ns) = true) :
    Commutes (within p) (·.addDelegators caller input now) t :=
  replaceRow_within (writable_within hName) hName _ _

theorem removeDelegators_within {input : DelegatorChange} (hName : p (.text input.ns) = true) :
    Commutes (within p) (·.removeDelegators caller input now) t :=
  replaceRow_within (writable_within hName) hName _ _

theorem listSettings_within (hName : p (.text name) = true) (userOwned : Bool)
    (subject : Option Principal) : Blind (within p) (·.listSettings caller name userOwned subject) t := by
  unfold listSettings
  refine Blind.bind (lookup_within hName) fun ns _ => ?_
  have hScan (scope : Option Int) (subject : Option Principal) : Blind (within p) (fun t => do
      return (← t.scan name scope subject).map fun row : StoredKey × Setting =>
        (row.1.subject, row.1.key)) t :=
    Blind.bind (scan_within hName scope subject) fun _ _ => rfl
  cases ns.hasFullRead caller with
  | true => exact hScan _ subject
  | false => exact Blind.bind rfl fun _ _ => Blind.bind rfl fun _ _ => hScan _ (some caller)

end Tables

end Operations

end TenantVault
