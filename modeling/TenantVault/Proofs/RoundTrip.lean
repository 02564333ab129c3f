import TenantVault.Proofs.JsonText

/-! # Snapshots lose nothing

Tables of the declared kinds are written, what is written is read back as the same tables, and these are
written as the same text.
-/

namespace TenantVault

namespace Snapshot

open Json (Lossless)

/-! ## Readers and writers of fields -/

theorem ok_bind {α β : Type} (a : α) (f : α → Result β) : (Except.ok a >>= f) = f a := rfl

theorem mapM_write {α β : Type} {write : α → β} {read : β → Result α} {items : List α}
    (h : ∀ a ∈ items, read (write a) = .ok a) : (items.map write).mapM read = .ok items := by
  induction items with
  | nil => rfl
  | cons a rest ih =>
    obtain ⟨hFirst, hOthers⟩ := List.forall_mem_cons.mp h
    rw [List.map_cons, List.mapM_cons, hFirst, ih hOthers]
    rfl

theorem readList_write {α : Type} {write : α → Json} {read : Reader α} {items : List α}
    (h : ∀ a ∈ items, read (write a) = .ok a) :
    readList read (.list (items.map write)) = .ok items :=
  mapM_write h

@[simp] theorem readOctets_octets (octets : Option Bytes) :
    readOptional readOctets (Snapshot.octets octets) = .ok octets := by
  cases octets with
  | none => rfl
  | some bs =>
    have hDecoded := Base64.decode_render bs
    rw [Snapshot.octets, readOptional, readOctets, hDecoded]
    · rfl
    · exact nofun

@[simp] theorem readPrincipals_principals (ps : Principals) : readPrincipals (principals ps) = .ok ps := by
  have hTexts : readList readPrincipal (.list (ps.texts.map .text)) = .ok ps.toList := by
    rw [Principals.texts, List.map_map]
    exact readList_write fun p _ => Config.principalOf_toText p
  rw [readPrincipals, principals, hTexts]
  exact congrArg Except.ok (SortedSet.ofList_toList ps)

@[simp] theorem readScalar_ofScalar (s : Scalar) : readScalar (.ofScalar s) = .ok s := by
  rw [readScalar, Json.scalar?_ofScalar]

@[simp] theorem readPrincipal_toText (p : Principal) : readPrincipal (.text p.toText) = .ok p :=
  Config.principalOf_toText p

theorem readBalance_intText {n : Int} (h : n.natAbs < 10 ^ Text.maxDigits) :
    readBalance (.text (SettingKey.intText n)) = .ok n := by
  rw [readBalance, Text.readInteger?_intText h]

@[simp] theorem readRows_principals (t : Table String Principals) :
    readRows readPrincipals (.object (t.rows.map fun row => (row.1, principals row.2))) = .ok t := by
  have hRows : (t.rows.map fun row => (row.1, principals row.2)).mapM
      (fun m => do return (m.1, ← readPrincipals m.2)) =
        (.ok t.rows : Result (List (String × Principals))) := by
    apply mapM_write
    intro row _
    rw [readPrincipals_principals]
    rfl
  rw [readRows, hRows]
  exact congrArg Except.ok (Table.ofRows_rows t)

/-! ## Documents of the fields -/

section Lossless

variable {depth : Nat}

theorem lossless_octets (bs : Option Bytes) : Lossless depth (octets bs) := by
  cases bs with
  | none => exact .null
  | some bs => exact .text _

theorem lossless_principals (ps : Principals) : Lossless (depth + 1) (principals ps) := by
  refine .list (List.forall_mem_map.mpr ?_)
  intro s _
  exact .text s

theorem lossless_table {α : Type} (t : Table String α) {f : α → Json} (h : ∀ a, Lossless depth (f a)) :
    Lossless (depth + 1) (.object (t.rows.map fun row => (row.1, f row.2))) := by
  have hNames : (t.rows.map fun row => (row.1, f row.2)).map Prod.fst = t.rows.map Prod.fst := by
    rw [List.map_map]
    rfl
  refine .object ?_ (List.forall_mem_map.mpr fun row _ => h row.2)
  rw [hNames]
  refine List.Pairwise.imp ?_ t.distinct
  intro a b hab
  exact beq_eq_false_iff_ne.mp hab

theorem lossless_tagObject (t : Table String String) : Lossless (depth + 1) (tagObject t) :=
  lossless_table t .text

/-- Whether a number fits into 64 bits, signed or not. -/
def Narrow (n : Int) : Prop := -(2 ^ 63) ≤ n ∧ n < 2 ^ 64

theorem lossless_key {k : SettingKey} (hScope : Narrow k.scope) (hVersion : Narrow k.version) :
    Lossless (depth + 1) (ofKey k.stored) := by
  refine .object (by simp) ?_
  simp only [List.forall_mem_cons]
  exact ⟨.text _, .int hScope.1 hScope.2, .text _, lossless_octets _, .int hVersion.1 hVersion.2, nofun⟩

end Lossless

/-! ## Records -/

/-- The fields of a governing record that are kept as they stand. -/
def governanceFields (g : Governance) : List Json := [g.name, g.signingKeyName, g.derivationKeyName]

def namespaceFields (ns : Namespace) : List Json :=
  [ns.name, ns.desc, ns.createdAt, ns.updatedAt, ns.maxPayloadSize, ns.payloadBytes, ns.status, ns.visibility,
    ns.sessionLifetime]

def settingFields (s : Setting) : List Json :=
  [s.desc, s.createdAt, s.updatedAt, s.status, s.version, s.tags, s.contentType]

def archivedFields (a : ArchivedPayload) : List Json := [a.archivedAt, a.deprecated]

section Records

variable {depth : Nat}

theorem governance_round_trip {g : Governance} (hFields : ∀ v ∈ governanceFields g, Lossless (depth + 2) v)
    (hApis : ∀ api ∈ g.allowedApis.keys, ∃ s : String, Scalar.text s = api) :
    ∃ v g', ofGovernance g = .ok v ∧ Lossless (depth + 3) v ∧ readGovernance v = .ok g' ∧
      ofGovernance g' = .ok v ∧ { g' with allowedApis := g.allowedApis } = g ∧
      g'.allowedApis.rows.Perm g.allowedApis.rows := by
  obtain ⟨apis, hSorted, hPerm, hAgain⟩ := Scalar.exists_sort? hApis
  obtain ⟨hKeys, hRows⟩ := Table.ofRows_members hPerm
  have hTexts : ∀ api ∈ apis, Lossless (depth + 1) (.ofScalar api) := by
    intro api hApi
    obtain ⟨s, rfl⟩ := hApis api (hPerm.mem_iff.mp hApi)
    exact .text s
  have hRead : readList readScalar (.list (apis.map .ofScalar)) = .ok apis :=
    readList_write fun s _ => readScalar_ofScalar s
  apply Exists.intro
  refine ⟨{ g with allowedApis := .ofRows (apis.map fun api => (api, ())) }, ?written, ?lossless, ?read, ?again,
    rfl, hRows⟩
  case written =>
    rw [ofGovernance, hSorted]
    rfl
  case lossless =>
    refine .object (by simp) ?_
    simp only [List.forall_mem_cons, governanceFields] at hFields ⊢
    obtain ⟨hName, hSigning, hDerivation, -⟩ := hFields
    exact ⟨hName, hSigning, hDerivation, lossless_principals _, lossless_principals _, lossless_principals _,
      .list (List.forall_mem_map.mpr hTexts), nofun⟩
  case read =>
    simp only [readGovernance, withDefault, Table.lookup, BEq.rfl, ↓reduceIte, String.reduceBEq,
      Bool.false_eq_true, readPrincipals_principals, hRead]
    rfl
  case again =>
    rw [ofGovernance, hKeys, hAgain]
    rfl

theorem namespace_round_trip {ns : Namespace} {name : String} (hName : ns.name = .text name)
    (hFields : ∀ v ∈ namespaceFields ns, Lossless (depth + 2) v)
    (hBalance : ns.gasBalance.natAbs < 10 ^ Text.maxDigits) :
    ∃ v, ofNamespace ns = .ok v ∧ Lossless (depth + 3) v ∧ readNamespaceRow v = .ok (.text name, ns) := by
  have hLimit : Cbor.Value.unprintable = 10 ^ Text.maxDigits := by
    rw [Cbor.Value.unprintable, Text.maxDigits]
  have hText : ofBalance ns.gasBalance = .ok (.text (SettingKey.intText ns.gasBalance)) := by
    rw [ofBalance, hLimit, if_pos hBalance]
  have hRead := readBalance_intText hBalance
  apply Exists.intro
  refine ⟨?written, ?lossless, ?read⟩
  case written =>
    rw [ofNamespace, hText]
    rfl
  case lossless =>
    refine .object (by simp) ?_
    simp only [List.forall_mem_cons, namespaceFields] at hFields ⊢
    obtain ⟨hText, hDesc, hCreated, hUpdated, hMax, hTotal, hStatus, hVisibility, hLifetime, -⟩ := hFields
    exact ⟨hText, hDesc, hCreated, hUpdated, hMax, hTotal, hStatus, hVisibility, lossless_principals _,
      lossless_principals _, lossless_principals _, lossless_table _ lossless_principals, hLifetime,
      .text _, nofun⟩
  case read =>
    have hScalar : readScalar ns.name = .ok (.text name) := by
      rw [hName]
      rfl
    simp only [readNamespaceRow, readNamespace, required, withDefault, Table.lookup, BEq.rfl, ↓reduceIte,
      String.reduceBEq, Bool.false_eq_true, readPrincipals_principals, readRows_principals, hRead]
    exact congrArg (fun key => key >>= fun a => Except.ok (a, ns)) hScalar

theorem readPath_ofKey (k : SettingKey) : readPath (ofKey k.stored) =
    .ok ⟨.text k.ns, .int k.scope, k.subject, some k.key, .int k.version⟩ := by
  simp only [readPath, ofKey, SettingKey.stored, required, Table.lookup, BEq.rfl, ↓reduceIte, String.reduceBEq,
    Bool.false_eq_true, readPrincipal_toText, readOctets_octets]
  rfl

theorem readSetting_ofSetting (s : Setting) : readSetting (ofSetting s) = .ok s := by
  simp only [readSetting, ofSetting, withDefault, Table.lookup, BEq.rfl, ↓reduceIte, String.reduceBEq,
    Bool.false_eq_true, readPrincipals_principals, readOctets_octets]
  rfl

theorem readArchived_ofArchived (a : ArchivedPayload) : readArchived (ofArchived a) = .ok a := by
  simp only [readArchived, ofArchived, withDefault, required, Table.lookup, BEq.rfl, ↓reduceIte,
    String.reduceBEq, Bool.false_eq_true, readOctets_octets]
  rfl

theorem readSettingRow_object {k : SettingKey} (hCurrent : k.version = 0) (s : Setting) :
    readSettingRow (.object [("path", ofKey k.stored), ("setting", ofSetting s)]) = .ok (k.stored, s) := by
  have hKey : k.stored = ⟨.text k.ns, .int k.scope, k.subject, some k.key, .int 0⟩ := by
    rw [SettingKey.stored, hCurrent]
  simp only [readSettingRow, required, Table.lookup, BEq.rfl, ↓reduceIte, String.reduceBEq,
    Bool.false_eq_true, readPath_ofKey, readSetting_ofSetting]
  rw [hKey]
  rfl

theorem readArchivedRow_object (k : SettingKey) (a : ArchivedPayload) :
    readArchivedRow (.object [("path", ofKey k.stored), ("archived", ofArchived a)]) = .ok (k.stored, a) := by
  simp only [readArchivedRow, required, Table.lookup, BEq.rfl, ↓reduceIte, String.reduceBEq,
    Bool.false_eq_true, readPath_ofKey, readArchived_ofArchived]
  rfl

theorem lossless_setting {s : Setting} (hFields : ∀ v ∈ settingFields s, Lossless (depth + 1) v) :
    Lossless (depth + 2) (ofSetting s) := by
  refine .object (by simp) ?_
  simp only [List.forall_mem_cons, settingFields] at hFields ⊢
  obtain ⟨hDesc, hCreated, hUpdated, hStatus, hVersion, hTags, hType, -⟩ := hFields
  exact ⟨hDesc, hCreated, hUpdated, hStatus, hVersion, lossless_principals _, hTags, hType, lossless_octets _,
    lossless_octets _, nofun⟩

theorem lossless_archived {a : ArchivedPayload} (hFields : ∀ v ∈ archivedFields a, Lossless (depth + 1) v) :
    Lossless (depth + 2) (ofArchived a) := by
  refine .object (by simp) ?_
  simp only [List.forall_mem_cons, archivedFields] at hFields ⊢
  obtain ⟨hArchived, hDeprecated, -⟩ := hFields
  exact ⟨hArchived, hDeprecated, lossless_octets _, lossless_octets _, nofun⟩

/-- Rows are written in the order of their keys and read back in this order. -/
theorem rows_round_trip {α : Type} {name : String} {ofRow : α → Json} {readRow : Reader (StoredKey × α)}
    {t : Table StoredKey α} (h : ∀ row ∈ t.rows, ∃ k : SettingKey, row.1 = k.stored ∧
      Lossless depth (.object [("path", ofKey k.stored), (name, ofRow row.2)]) ∧
      readRow (.object [("path", ofKey k.stored), (name, ofRow row.2)]) = .ok (k.stored, row.2)) :
    ∃ v rows, ofRows name ofRow t = .ok v ∧ Lossless (depth + 1) v ∧ readList readRow v = .ok rows ∧
      ofRows name ofRow (.ofRows rows) = .ok v ∧ (Table.ofRows rows).rows.Perm t.rows := by
  have hKeys : ∀ row ∈ t.rows, ∃ k : SettingKey, row.1 = k.stored := by
    intro row hRow
    obtain ⟨k, hKey, -, -⟩ := h row hRow
    exact ⟨k, hKey⟩
  obtain ⟨rows, hSorted, hPerm, hAgain⟩ := StoredKey.exists_sort? hKeys
  have hTable : (Table.ofRows rows).rows = rows := Table.rows_ofRows (Table.distinct_of_perm hPerm t.distinct)
  apply Exists.intro
  refine ⟨rows, ?written, ?lossless, ?read, ?again, ?perm⟩
  case written =>
    rw [ofRows, hSorted]
    rfl
  case lossless =>
    refine .list (List.forall_mem_map.mpr ?_)
    intro row hRow
    obtain ⟨k, hKey, hLossless, -⟩ := h row (hPerm.mem_iff.mp hRow)
    rw [hKey]
    exact hLossless
  case read =>
    apply readList_write
    intro row hRow
    obtain ⟨k, hKey, -, hRead⟩ := h row (hPerm.mem_iff.mp hRow)
    rw [hKey, hRead, ← hKey]
  case again =>
    rw [ofRows, hTable, hAgain]
    rfl
  case perm =>
    rw [hTable]
    exact hPerm

theorem lossless_row {k : SettingKey} {name : String} {v : Json} (hName : "path" ≠ name)
    (hScope : Narrow k.scope) (hVersion : Narrow k.version) (h : Lossless (depth + 1) v) :
    Lossless (depth + 2) (.object [("path", ofKey k.stored), (name, v)]) := by
  refine .object (by simpa using hName) ?_
  simp only [List.forall_mem_cons]
  exact ⟨lossless_key hScope hVersion, h, nofun⟩

/-- Items are written and read back one by one if each of them is. -/
theorem mapM_round_trip {α β : Type} {write : α → Result Json} {read : Reader β} {value : β → α}
    {items : List β} (h : ∀ b ∈ items, ∃ v, write (value b) = .ok v ∧ Lossless depth v ∧ read v = .ok b) :
    ∃ vs, (items.map value).mapM write = .ok vs ∧ Lossless (depth + 1) (.list vs) ∧
      readList read (.list vs) = .ok items := by
  have hItems : ∃ vs, (items.map value).mapM write = .ok vs ∧ (∀ v ∈ vs, Lossless depth v) ∧
      vs.mapM read = .ok items := by
    induction items with
    | nil => exact ⟨[], rfl, nofun, rfl⟩
    | cons b rest ih =>
      obtain ⟨hFirst, hOthers⟩ := List.forall_mem_cons.mp h
      obtain ⟨v, hWrite, hLossless, hRead⟩ := hFirst
      obtain ⟨vs, hWrites, hEach, hReads⟩ := ih hOthers
      refine ⟨v :: vs, ?_, List.forall_mem_cons.mpr ⟨hLossless, hEach⟩, ?_⟩
      · rw [List.map_cons, List.mapM_cons, hWrite, hWrites]
        rfl
      · rw [List.mapM_cons, hRead, hReads]
        rfl
  obtain ⟨vs, hWrites, hEach, hReads⟩ := hItems
  exact ⟨vs, hWrites, .list hEach, hReads⟩

end Records

/-! ## The whole -/

/-- How deep a field may be nested: four lists and objects surround the fields of a setting. -/
def fieldNesting : Nat := 250

/-- Tables of the declared kinds: every namespace is filed under its name, live settings are at version 0,
balances have at most `maxDigits` digits, and nothing else is outside what a document holds exactly. -/
structure Regular (t : Tables) : Prop where
  governance : ∀ v ∈ governanceFields t.governance, Lossless fieldNesting v
  apis : ∀ api ∈ t.governance.allowedApis.keys, ∃ s : String, Scalar.text s = api
  namespaces : ∀ row ∈ t.namespaces.rows, ∃ name : String, row.1 = .text name ∧ row.2.name = .text name
  namespaceFields : ∀ row ∈ t.namespaces.rows, ∀ v ∈ namespaceFields row.2, Lossless fieldNesting v
  balances : ∀ row ∈ t.namespaces.rows, row.2.gasBalance.natAbs < 10 ^ Text.maxDigits
  settings : ∀ row ∈ t.settings.rows, ∃ k : SettingKey, row.1 = k.stored ∧ Narrow k.scope ∧ k.version = 0
  settingFields : ∀ row ∈ t.settings.rows, ∀ v ∈ settingFields row.2, Lossless fieldNesting v
  archived : ∀ row ∈ t.archived.rows, ∃ k : SettingKey, row.1 = k.stored ∧ Narrow k.scope ∧ Narrow k.version
  archivedFields : ∀ row ∈ t.archived.rows, ∀ v ∈ archivedFields row.2, Lossless fieldNesting v

/-- Tables with the same rows. Those of namespaces are in the same order too. -/
structure SameContents (t t' : Tables) : Prop where
  governance : { t'.governance with allowedApis := t.governance.allowedApis } = t.governance
  apis : t'.governance.allowedApis.rows.Perm t.governance.allowedApis.rows
  namespaces : t'.namespaces = t.namespaces
  settings : t'.settings.rows.Perm t.settings.rows
  archived : t'.archived.rows.Perm t.archived.rows

theorem tables_round_trip {t : Tables} (h : Regular t) :
    ∃ v t', ofTables t = .ok v ∧ Lossless maxNesting v ∧ readTables v = .ok t' ∧ ofTables t' = .ok v ∧
      SameContents t t' := by
  obtain ⟨state, g', hState, hStateLossless, hStateRead, hStateAgain, hGovernance, hApis⟩ :=
    governance_round_trip h.governance h.apis
  have hNamespaceRows : ∀ row ∈ t.namespaces.rows, ∃ v, ofNamespace row.2 = .ok v ∧
      Lossless (fieldNesting + 1) v ∧ readNamespaceRow v = .ok row := by
    rintro ⟨key, ns⟩ hRow
    obtain ⟨name, hKey, hName⟩ := h.namespaces _ hRow
    cases hKey
    exact namespace_round_trip hName (h.namespaceFields _ hRow) (h.balances _ hRow)
  obtain ⟨namespaces, hNamespaces, hNamespacesLossless, hNamespacesRead⟩ := mapM_round_trip hNamespaceRows
  have hSettingRows : ∀ row ∈ t.settings.rows, ∃ k : SettingKey, row.1 = k.stored ∧
      Lossless (fieldNesting + 2) (.object [("path", ofKey k.stored), ("setting", ofSetting row.2)]) ∧
      readSettingRow (.object [("path", ofKey k.stored), ("setting", ofSetting row.2)]) =
        .ok (k.stored, row.2) := by
    intro row hRow
    obtain ⟨k, hKey, hScope, hVersion⟩ := h.settings row hRow
    have hNarrow : Narrow k.version := by
      rw [hVersion]
      exact ⟨by decide, by decide⟩
    exact ⟨k, hKey, lossless_row (by decide) hScope hNarrow (lossless_setting (h.settingFields row hRow)),
      readSettingRow_object hVersion row.2⟩
  have hArchivedRows : ∀ row ∈ t.archived.rows, ∃ k : SettingKey, row.1 = k.stored ∧
      Lossless (fieldNesting + 2) (.object [("path", ofKey k.stored), ("archived", ofArchived row.2)]) ∧
      readArchivedRow (.object [("path", ofKey k.stored), ("archived", ofArchived row.2)]) =
        .ok (k.stored, row.2) := by
    intro row hRow
    obtain ⟨k, hKey, hScope, hVersion⟩ := h.archived row hRow
    exact ⟨k, hKey, lossless_row (by decide) hScope hVersion (lossless_archived (h.archivedFields row hRow)),
      readArchivedRow_object k row.2⟩
  obtain ⟨settings, settingRows, hSettings, hSettingsLossless, hSettingsRead, hSettingsAgain, hSettingsPerm⟩ :=
    rows_round_trip hSettingRows
  obtain ⟨archived, archivedRows, hArchived, hArchivedLossless, hArchivedRead, hArchivedAgain, hArchivedPerm⟩ :=
    rows_round_trip hArchivedRows
  have hNamespacesTable : Table.ofRows t.namespaces.rows = t.namespaces := Table.ofRows_rows t.namespaces
  apply Exists.intro
  refine ⟨⟨g', t.namespaces, .ofRows settingRows, .ofRows archivedRows⟩, ?written, ?lossless, ?read, ?again,
    ⟨hGovernance, hApis, rfl, hSettingsPerm, hArchivedPerm⟩⟩
  case written =>
    rw [ofTables, hState, Table.values, hNamespaces, hSettings, hArchived]
    rfl
  case lossless =>
    refine (Lossless.object ?names ?each : Lossless (253 + 1) _)
    case names => simp
    simp only [List.forall_mem_cons]
    exact ⟨.int (by decide) (by decide), hStateLossless.mono (by decide), hNamespacesLossless.mono (by decide),
      hSettingsLossless.mono (by decide), hArchivedLossless.mono (by decide), nofun⟩
  case read =>
    have hVersion : isSupported (.int formatVersion) = true := by
      rw [isSupported, Json.isInt_int, decide_eq_true rfl]
    simp only [readTables, withDefault, Table.lookup, BEq.rfl, ↓reduceIte, String.reduceBEq, Bool.false_eq_true,
      ok_bind, hVersion, Bool.not_true, hStateRead, hNamespacesRead, hSettingsRead, hArchivedRead,
      hNamespacesTable]
    rfl
  case again =>
    rw [ofTables, hStateAgain, Table.values, hNamespaces, hSettingsAgain, hArchivedAgain]
    rfl

theorem render_eq {t : Tables} {v : Json} (hDocument : ofTables t = .ok v) (hLossless : Lossless maxNesting v) :
    render t = .ok v.render := by
  rw [render, hDocument]
  have hWritten : (fits v && decide (nesting v ≤ maxNesting)) = true := by
    rw [hLossless.fits, decide_eq_true hLossless.nesting_le]
    rfl
  exact if_pos hWritten

/-- Snapshots lose nothing: the text of regular tables is read as tables with the same rows, and these have
the same text. -/
theorem parse_render {t : Tables} (h : Regular t) :
    ∃ text t', render t = .ok text ∧ parse text = .ok t' ∧ SameContents t t' ∧ render t' = .ok text := by
  obtain ⟨v, t', hDocument, hLossless, hRead, hAgain, hSame⟩ := tables_round_trip h
  have hText : Json.parse? v.render = some v := (hLossless.mono (by decide)).parse?_render
  refine ⟨v.render, t', render_eq hDocument hLossless, ?_, hSame, render_eq hAgain hLossless⟩
  rw [parse, hText]
  exact hRead

namespace Sample

def owner : Principal := ⟨[1, 2, 3], by decide⟩

/-- A principal may have no octets at all. -/
def nobody : Principal := ⟨[], by decide⟩

def liveKey : SettingKey := { ns := "app", scope := 1, subject := owner, key := [0, 255], version := 0 }

def governance : Governance where
  name := .text "vault"
  signingKeyName := .text "signing"
  derivationKeyName := .text "derivation"
  controllers := .empty
  managers := .ofList [owner, nobody]
  auditors := .empty
  allowedApis := ⟨[(.text "setting_create", ()), (.text "namespace_list", ())], by decide⟩

def space : Namespace where
  name := .text "app"
  desc := .text "tabs\tand \"quotes\""
  createdAt := .int 1
  updatedAt := .int 18446744073709551615
  maxPayloadSize := .int 1000
  payloadBytes := .int 3
  status := .int (-1)
  visibility := .int 0
  managers := .ofList [owner]
  auditors := .empty
  users := .ofList [nobody]
  delegators := ⟨[("bot", .ofList [owner])], by decide⟩
  sessionLifetime := .int 60
  gasBalance := -1180591620717411303424

/-- A payload of no octets and no encrypted key. -/
def live : Setting where
  desc := .text ""
  createdAt := .int 1
  updatedAt := .int 2
  status := .int 0
  version := .int 2
  readers := .ofList [nobody]
  tags := tagObject ⟨[("env", "prod"), ("", "é")], by decide⟩
  contentType := .null
  payload := some []
  dataKey := none

def first : ArchivedPayload where
  archivedAt := .int 10
  deprecated := .bool true
  payload := some [1]
  dataKey := some []

def tables : Tables where
  governance := governance
  namespaces := ⟨[(.text "app", space)], List.pairwise_singleton _ _⟩
  settings := ⟨[(liveKey.stored, live)], List.pairwise_singleton _ _⟩
  archived := ⟨[((liveKey.withVersion 1).stored, first)], List.pairwise_singleton _ _⟩

theorem tables_regular : Regular tables := by
  have hNamespaces : tables.namespaces.rows = [(.text "app", space)] := rfl
  have hSettings : tables.settings.rows = [(liveKey.stored, live)] := rfl
  have hArchived : tables.archived.rows = [((liveKey.withVersion 1).stored, first)] := rfl
  have hSmall : space.gasBalance.natAbs < 10 ^ 30 := by decide
  have hWide : 10 ^ 30 ≤ 10 ^ Text.maxDigits := Nat.pow_le_pow_right (by decide) (by decide)
  have hTags : Lossless (249 + 1) live.tags := lossless_tagObject _
  constructor
  case governance =>
    simp only [governanceFields, List.forall_mem_cons]
    exact ⟨.text _, .text _, .text _, nofun⟩
  case apis =>
    have hKeys : tables.governance.allowedApis.keys = [.text "setting_create", .text "namespace_list"] := rfl
    simp only [hKeys, List.forall_mem_cons]
    exact ⟨⟨_, rfl⟩, ⟨_, rfl⟩, nofun⟩
  case namespaces =>
    rw [hNamespaces, List.forall_mem_singleton]
    exact ⟨"app", rfl, rfl⟩
  case namespaceFields =>
    rw [hNamespaces, List.forall_mem_singleton]
    simp only [namespaceFields, List.forall_mem_cons]
    exact ⟨.text _, .text _, .int (by decide) (by decide), .int (by decide) (by decide),
      .int (by decide) (by decide), .int (by decide) (by decide), .int (by decide) (by decide),
      .int (by decide) (by decide), .int (by decide) (by decide), nofun⟩
  case balances =>
    rw [hNamespaces, List.forall_mem_singleton]
    exact Nat.lt_of_lt_of_le hSmall hWide
  case settings =>
    rw [hSettings, List.forall_mem_singleton]
    exact ⟨liveKey, rfl, ⟨by decide, by decide⟩, rfl⟩
  case settingFields =>
    rw [hSettings, List.forall_mem_singleton]
    simp only [settingFields, List.forall_mem_cons]
    exact ⟨.text _, .int (by decide) (by decide), .int (by decide) (by decide), .int (by decide) (by decide),
      .int (by decide) (by decide), hTags, .null, nofun⟩
  case archived =>
    rw [hArchived, List.forall_mem_singleton]
    exact ⟨liveKey.withVersion 1, rfl, ⟨by decide, by decide⟩, ⟨by decide, by decide⟩⟩
  case archivedFields =>
    rw [hArchived, List.forall_mem_singleton]
    simp only [archivedFields, List.forall_mem_cons]
    exact ⟨.int (by decide) (by decide), .bool true, nofun⟩

theorem tables_kept : Regular tables ∧ ∃ text t', render tables = .ok text ∧ parse text = .ok t' ∧
    SameContents tables t' ∧ render t' = .ok text :=
  ⟨tables_regular, parse_render tables_regular⟩

end Sample

end Snapshot

end TenantVault
