import TenantVault.Proofs.Accounting

/-! # What keeps a state from being saved

A number outside 64 bits has no place in a snapshot, and a balance of too many digits has no text. Numbers
come into the tables from the clock, from the requests and from counting. Those that requests give are
bounded when they are read, but for the lifetime of sessions, and a balance may be topped up at will.
-/

namespace TenantVault

open Snapshot (fits fits_int_iff Narrow governanceFields archivedFields)

/-- What a clock shows in milliseconds. -/
def IsTime (now : Int) : Prop := -(2 ^ 63) ≤ now ∧ now < 2 ^ 63

/-! ## Fields that are bounded -/

/-- The fields of a namespace but for its count and the lifetime of its sessions. -/
def Namespace.boundedFields (ns : Namespace) : List Json :=
  [ns.name, ns.desc, ns.createdAt, ns.updatedAt, ns.maxPayloadSize, ns.status, ns.visibility]

/-- The fields of a setting but for its version. -/
def Setting.boundedFields (s : Setting) : List Json :=
  [s.desc, s.createdAt, s.updatedAt, s.status, s.tags, s.contentType]

structure Namespace.Bounded (ns : Namespace) : Prop where
  fields : ∀ v ∈ ns.boundedFields, fits v = true
  lifetime : ∃ n, ns.sessionLifetime = .int n ∧ 0 ≤ n

def Setting.Bounded (s : Setting) : Prop := ∀ v ∈ s.boundedFields, fits v = true

theorem fits_tagObject (tags : Table String String) : fits (tagObject tags) = true := by
  unfold tagObject
  rw [Snapshot.fits_object_iff, List.forall_mem_map]
  exact fun _ _ => rfl

theorem IsTime.fits {now : Int} (h : IsTime now) : Snapshot.fits (.int now) = true := by
  rw [fits_int_iff]
  exact ⟨h.1, by have := h.2; omega⟩

theorem fits_getD {α : Type} {f : α → Json} {o : Option α} {v : Json}
    (hNew : ∀ a, o = some a → fits (f a) = true) (h : fits v = true) :
    fits ((o.map f).getD v) = true := by
  cases o with
  | none => exact h
  | some a => exact hNew a rfl

theorem fits_of_small {n : Int} (hLow : -1 ≤ n) (hHigh : n ≤ maxPayloadSize) : fits (.int n) = true := by
  rw [fits_int_iff]
  unfold maxPayloadSize at hHigh
  exact ⟨by omega, by omega⟩

section Rows

variable {now : Int} {ns : Namespace} {s : Setting}

theorem NewNamespace.bounded_row {input : NewNamespace} (hFit : input.Fit) (hNow : IsTime now) :
    (input.row now).Bounded where
  fields := by
    simp only [Namespace.boundedFields, row, List.forall_mem_cons]
    refine ⟨rfl, rfl, hNow.fits, hNow.fits, ?_, rfl, ?_, List.forall_mem_nil _⟩
    · cases hSize : input.maxPayloadSize with
      | none => rfl
      | some n =>
        obtain ⟨hLow, hHigh⟩ := hFit.maxPayloadSize n hSize
        exact fits_of_small (n := n) (by omega) hHigh
    · rcases hFit.visibility with hFlag | hFlag <;> rw [hFlag] <;> rfl
  lifetime := hFit.lifetime_row now

theorem NamespaceChange.bounded_row {input : NamespaceChange} (h : ns.Bounded) (hFit : input.Fit)
    (hNow : IsTime now) : (input.row ns now).Bounded where
  fields := by
    have hFields := h.fields
    simp only [Namespace.boundedFields, row, List.forall_mem_cons] at hFields ⊢
    obtain ⟨hName, hDesc, hCreated, -, hMax, hStatus, hVisibility, -⟩ := hFields
    refine ⟨hName, fits_getD (fun _ _ => rfl) hDesc, hCreated, hNow.fits, fits_getD ?_ hMax,
      fits_getD ?_ hStatus, fits_getD ?_ hVisibility, List.forall_mem_nil _⟩
    · intro n hSize
      obtain ⟨hLow, hHigh⟩ := hFit.maxPayloadSize n hSize
      exact fits_of_small (by omega) hHigh
    · intro n hStatus
      obtain ⟨hLow, hHigh⟩ := hFit.status n hStatus
      exact fits_of_small hLow (hHigh.trans (by decide))
    · intro n hVisibility
      rcases hFit.visibility n hVisibility with rfl | rfl <;> rfl
  lifetime := hFit.lifetime_row h.lifetime now

theorem Namespace.Bounded.touched {ns' : Namespace} (h : ns.Bounded) (hNow : IsTime now)
    (hSame : ns' = { ns with
      managers := ns'.managers, auditors := ns'.auditors, users := ns'.users,
      delegators := ns'.delegators, gasBalance := ns'.gasBalance, updatedAt := .int now }) :
    ns'.Bounded where
  fields := by
    have hFields := h.fields
    rw [hSame]
    simp only [boundedFields, List.forall_mem_cons] at hFields ⊢
    obtain ⟨hName, hDesc, hCreated, -, hRest⟩ := hFields
    exact ⟨hName, hDesc, hCreated, hNow.fits, hRest⟩
  lifetime := by
    rw [hSame]
    exact h.lifetime

theorem NewSetting.bounded_row {input : NewSetting} (hFit : input.Fit) (hNow : IsTime now) :
    (input.row now).Bounded := by
  simp only [Setting.Bounded, Setting.boundedFields, row, declaredType, List.forall_mem_cons]
  refine ⟨rfl, hNow.fits, hNow.fits, ?_, fits_tagObject _, fits_getD ?_ rfl, List.forall_mem_nil _⟩
  · cases hStatus : input.status with
    | none => rfl
    | some n =>
      obtain ⟨hLow, hHigh⟩ := hFit.status n hStatus
      exact fits_of_small (n := n) (by omega) (hHigh.trans (by decide))
  · intro n hType
    obtain ⟨hLow, hHigh⟩ := hFit.contentType n hType
    exact fits_of_small (by omega) (hHigh.trans (by decide))

/-- Another status of those that an update can give, at some time. -/
theorem Setting.Bounded.status (h : s.Bounded) {status : Option Int}
    (hStatus : ∀ n, status = some n → -1 ≤ n ∧ n ≤ 1) (hNow : IsTime now) :
    { s with status := (status.map Json.int).getD s.status, updatedAt := .int now }.Bounded := by
  simp only [Bounded, boundedFields, List.forall_mem_cons] at h ⊢
  obtain ⟨hDesc, hCreated, -, hBefore, hRest⟩ := h
  refine ⟨hDesc, hCreated, hNow.fits, fits_getD ?_ hBefore, hRest⟩
  intro n hGiven
  obtain ⟨hLow, hHigh⟩ := hStatus n hGiven
  exact fits_of_small hLow (hHigh.trans (by decide))

theorem PayloadChange.bounded_row {input : PayloadChange} (h : s.Bounded)
    (hStatus : ∀ n, input.status = some n → -1 ≤ n ∧ n ≤ 1) (hNow : IsTime now) (version : Json) :
    (input.row s version now).Bounded := by
  have hBounded := h.status hStatus hNow
  exact hBounded

theorem SettingChange.bounded_row {input : SettingChange} (h : s.Bounded)
    (hStatus : ∀ n, input.status = some n → -1 ≤ n ∧ n ≤ 1) (hNow : IsTime now) :
    (input.row s now).Bounded := by
  have hBounded := h.status hStatus hNow
  simp only [Setting.Bounded, Setting.boundedFields, row, List.forall_mem_cons] at hBounded ⊢
  obtain ⟨hDesc, hCreated, hUpdated, hAfter, hTags, hType, -⟩ := hBounded
  exact ⟨fits_getD (fun _ _ => rfl) hDesc, hCreated, hUpdated, hAfter,
    fits_getD (fun _ _ => fits_tagObject _) hTags, hType, List.forall_mem_nil _⟩

end Rows

/-! ## Writes -/

structure Tables.Bounded (t : Tables) : Prop where
  governance : ∀ v ∈ governanceFields t.governance, fits v = true
  namespaces : ∀ name ns, t.namespaces.get? name = some ns → ns.Bounded
  live : ∀ k s, t.settings.get? k = some s → s.Bounded
  scopes : ∀ key s, t.getSetting? key = some s → key.scope = 0 ∨ key.scope = 1
  archived : ∀ k a, t.archived.get? k = some a → ∀ v ∈ archivedFields a, fits v = true

theorem World.bounded_ofConfig (c : Config) : (World.ofConfig c).tables.Bounded where
  governance := by
    simp only [governanceFields, List.forall_mem_cons]
    exact ⟨rfl, rfl, rfl, List.forall_mem_nil _⟩
  namespaces := by
    intro name ns hFound
    cases hFound
  live := by
    intro k s hFound
    cases hFound
  scopes := by
    intro key s hFound
    cases hFound
  archived := by
    intro k a hFound
    cases hFound

section Writes

variable {now : Int} {t t' : Tables} {o : Operation} {r : Result Answer}

theorem NamespaceWrite.bounded {name : Scalar} {ns : Namespace} (h : NamespaceWrite now t name o ns)
    (hAccepted : o.Accepted) (hNow : IsTime now) (hBounded : t.Bounded) : ns.Bounded := by
  cases h with
  | created =>
    obtain ⟨fields, hRead⟩ := hAccepted
    exact NewNamespace.bounded_row (NewNamespace.fit_of_fields hRead) hNow
  | changed found =>
    obtain ⟨fields, hRead⟩ := hAccepted
    exact NamespaceChange.bounded_row (hBounded.namespaces name _ found)
      (NamespaceChange.fit_of_fields hRead) hNow
  | @regrouped _ _ kind d ps ns _ found =>
    have hBefore := hBounded.namespaces name _ found
    cases kind <;> exact hBefore.touched hNow rfl
  | toppedUp _ found | joined found | left found =>
    exact (hBounded.namespaces name _ found).touched hNow rfl
  | counted writes found =>
    have hBefore := hBounded.namespaces name _ found
    exact ⟨hBefore.fields, hBefore.lifetime⟩

theorem SettingWrite.bounded {k : StoredKey} {s : Setting} (h : SettingWrite now t k o s)
    (hAccepted : o.Accepted) (hNow : IsTime now) (hBounded : t.Bounded) : s.Bounded := by
  cases h with
  | created =>
    obtain ⟨-, fields, hRead⟩ := hAccepted
    exact NewSetting.bounded_row (NewSetting.fit_of_fields hRead) hNow
  | updated at_ found =>
    obtain ⟨-, fields, hRead⟩ := hAccepted
    exact PayloadChange.bounded_row (hBounded.live k _ found) (PayloadChange.status_of_fields hRead)
      hNow _
  | described found =>
    obtain ⟨-, fields, hRead⟩ := hAccepted
    exact SettingChange.bounded_row (hBounded.live k _ found) (SettingChange.status_of_fields hRead)
      hNow
  | regrouped proper found =>
    have hBefore := hBounded.live k _ found
    simp only [Setting.Bounded, Setting.boundedFields, List.forall_mem_cons] at hBefore ⊢
    obtain ⟨hDesc, hCreated, -, hRest⟩ := hBefore
    exact ⟨hDesc, hCreated, hNow.fits, hRest⟩

theorem SettingPath.scope_toKey (path : SettingPath) (caller : Principal) :
    (path.toKey caller).scope = 0 ∨ (path.toKey caller).scope = 1 := by
  unfold toKey
  dsimp only
  split
  · exact Or.inr rfl
  · exact Or.inl rfl

theorem SettingWrite.scope {key : SettingKey} {s : Setting}
    (h : SettingWrite now t key.current.stored o s) (hBounded : t.Bounded) :
    key.scope = 0 ∨ key.scope = 1 := by
  cases h with
  | @created caller path input ns at_ =>
    rw [StoredKey.stored_beq_stored, decide_eq_true_iff] at at_
    have hScope : (path.toKey caller).scope = key.scope := congrArg (·.scope) at_
    rw [← hScope]
    exact path.scope_toKey caller
  | updated at_ found | described found | regrouped _ found => exact hBounded.scopes key _ found

theorem Commit.governanceFields (h : Commit now t o t' r) :
    Snapshot.governanceFields t'.governance = Snapshot.governanceFields t.governance := by
  cases h with
  | @changeGovernors caller kind => cases kind <;> rfl
  | createSetting | updatePayload | deleteSetting => simp [Tables.putSetting, Tables.removeSetting]
  | _ => rfl

theorem Commit.bounded (h : Commit now t o t' r) (hAccepted : o.Accepted) (hNow : IsTime now)
    (hBounded : t.Bounded) : t'.Bounded where
  governance := by
    rw [h.governanceFields]
    exact hBounded.governance
  namespaces := by
    intro name ns hFound
    rcases h.namespace_cases hFound with hBefore | hWrite
    · exact hBounded.namespaces name ns hBefore
    · exact hWrite.bounded hAccepted hNow hBounded
  live := by
    intro k s hFound
    rcases h.setting_cases hFound with hBefore | hWrite
    · exact hBounded.live k s hBefore
    · exact hWrite.bounded hAccepted hNow hBounded
  scopes := by
    intro key s hFound
    rcases h.setting_cases hFound with hBefore | hWrite
    · exact hBounded.scopes key s hBefore
    · exact hWrite.scope hBounded
  archived := by
    intro k a hFound
    rcases h.archived_cases hFound with hBefore | hWrite
    · exact hBounded.archived k a hBefore
    · obtain ⟨s, deprecated, -, rfl⟩ := hWrite.superseded
      simp only [archivedFields, List.forall_mem_cons]
      exact ⟨hNow.fits, rfl, List.forall_mem_nil _⟩

theorem Snapshot.SameContents.bounded (h : SameContents t t') (hBounded : t.Bounded) : t'.Bounded where
  governance := by
    have hFields := hBounded.governance
    rw [← h.governance] at hFields
    exact hFields
  namespaces := by
    rw [h.namespaces]
    exact hBounded.namespaces
  live := by
    intro k s hFound
    rw [Table.get?_of_perm h.settings] at hFound
    exact hBounded.live k s hFound
  scopes := by
    intro key s hFound
    unfold Tables.getSetting? at hFound
    rw [Table.get?_of_perm h.settings] at hFound
    exact hBounded.scopes key s hFound
  archived := by
    intro k a hFound
    rw [Table.get?_of_perm h.archived] at hFound
    exact hBounded.archived k a hFound

end Writes

/-! ## Snapshots -/

section Snapshots

variable {t : Tables}

/-- The balance and the lifetime of sessions of a namespace have a place in a snapshot. -/
structure Namespace.Writable (ns : Namespace) : Prop where
  lifetime : ∀ n, ns.sessionLifetime = .int n → n < 2 ^ 64
  balance : ns.gasBalance.natAbs < 10 ^ Text.maxDigits

theorem Namespace.Bounded.fits_namespaceFields {ns : Namespace} (h : ns.Bounded) (hWritable : ns.Writable)
    (hBytes : fits ns.payloadBytes = true) : ∀ v ∈ Snapshot.namespaceFields ns, fits v = true := by
  have hFields := h.fields
  obtain ⟨n, hLifetime, hPositive⟩ := h.lifetime
  have hBelow := hWritable.lifetime n hLifetime
  simp only [boundedFields, Snapshot.namespaceFields, List.forall_mem_cons] at hFields ⊢
  obtain ⟨hName, hDesc, hCreated, hUpdated, hMax, hStatus, hVisibility, -⟩ := hFields
  refine ⟨hName, hDesc, hCreated, hUpdated, hMax, hBytes, hStatus, hVisibility, ?_,
    List.forall_mem_nil _⟩
  rw [hLifetime, fits_int_iff]
  exact ⟨by omega, hBelow⟩

/-- Every namespace has counted fewer than 2 ^ 63 octets. -/
def Tables.CountsBelow (t : Tables) : Prop :=
  ∀ row ∈ t.namespaces.rows, ∀ n, row.2.payloadBytes = .int n → n < 2 ^ 63

theorem Tables.Accounted.narrow_count {name : String} {ns : Namespace} (hAccounted : t.Accounted)
    (hCounts : t.CountsBelow) (hRow : (.text name, ns) ∈ t.namespaces.rows) {n : Int}
    (hBytes : ns.payloadBytes = .int n) : Narrow n := by
  have hBelow := hCounts _ hRow n hBytes
  have hHeld := hAccounted name ns n (Table.get?_of_mem hRow) hBytes
  exact ⟨by omega, by omega⟩

/-- The version of a live setting fits because its namespace has counted every one. -/
theorem Tables.Accounted.narrow_version {key : SettingKey} {s : Setting} (hAccounted : t.Accounted)
    (hWhole : t.Whole) (hFormed : t.Formed) (hCounts : t.CountsBelow)
    (hFound : t.getSetting? key = some s) : ∃ v, s.version = .int v ∧ Narrow v := by
  obtain ⟨v, hVersion, hFirst, -⟩ := hWhole.paid hFormed hFound
  obtain ⟨ns, hHoused⟩ := Option.isSome_iff_exists.mp (hWhole.housed key s hFound)
  obtain ⟨n, hBytes⟩ := (hWhole.native.namespaces key.ns ns hHoused).payloadBytes
  obtain ⟨k, hRow, -⟩ := Table.exists_of_get? hHoused
  have hCount := hCounts _ hRow n hBytes
  have hVersions := hAccounted.version_le hFound hVersion hHoused hBytes
  exact ⟨v, hVersion, by omega, by omega⟩

theorem SettingKey.stored_injective {a b : SettingKey} (h : a.stored = b.stored) : a = b := by
  have hSame := StoredKey.stored_beq_stored a b
  rw [h, BEq.rfl] at hSame
  exact of_decide_eq_true hSame.symm

theorem Tables.Bounded.narrow_scope {key : SettingKey} {s : Setting} (h : t.Bounded)
    (hFound : t.getSetting? key = some s) : Narrow key.scope := by
  unfold Narrow
  rcases h.scopes key s hFound with hScope | hScope <;> rw [hScope] <;> decide

theorem Tables.Bounded.regular (hBounded : t.Bounded) (hWhole : t.Whole) (hFormed : t.Formed)
    (hAccounted : t.Accounted) (hCounts : t.CountsBelow)
    (hWritable : ∀ row ∈ t.namespaces.rows, row.2.Writable) : Snapshot.Regular t := by
  refine Snapshot.regular_of_fields hWhole.native hBounded.governance ?_ ?_ ?_
  · rintro ⟨k, ns⟩ hRow
    obtain ⟨name, rfl⟩ := hWhole.native.names k (Table.keys_of_mem hRow)
    have hFound := Table.get?_of_mem hRow
    obtain ⟨n, hBytes⟩ := (hWhole.native.namespaces name ns hFound).payloadBytes
    have hRowBounded := hBounded.namespaces _ ns hFound
    refine ⟨hRowBounded.fits_namespaceFields (hWritable _ hRow) ?_, (hWritable _ hRow).balance⟩
    rw [hBytes, fits_int_iff]
    exact hAccounted.narrow_count hCounts hRow hBytes
  · intro key s hRow
    obtain ⟨key', hKey, -, hFound⟩ := hWhole.row_live hRow
    cases SettingKey.stored_injective hKey
    obtain ⟨v, hVersion, hNarrow⟩ := hAccounted.narrow_version hWhole hFormed hCounts hFound
    have hFields := hBounded.live _ s hFound
    rw [← fits_int_iff, ← hVersion] at hNarrow
    simp only [Setting.Bounded, Setting.boundedFields, Snapshot.settingFields,
      List.forall_mem_cons] at hFields ⊢
    obtain ⟨hDesc, hCreated, hUpdated, hStatus, hTags, hType, -⟩ := hFields
    exact ⟨hBounded.narrow_scope hFound, hDesc, hCreated, hUpdated, hStatus, hNarrow, hTags, hType,
      List.forall_mem_nil _⟩
  · intro key a hRow
    obtain ⟨key', s, n, hKey, hFound, hVersion, hFirst, hEarlier⟩ := hWhole.row_archived hRow
    cases SettingKey.stored_injective hKey
    obtain ⟨v, hLive, hNarrow⟩ := hAccounted.narrow_version hWhole hFormed hCounts hFound
    rw [hVersion] at hLive
    cases hLive
    refine ⟨⟨hBounded.narrow_scope hFound, by omega, ?_⟩, hBounded.archived _ a (Table.get?_of_mem hRow)⟩
    have hBelow := hNarrow.2
    omega

/-- A snapshot is written as soon as every row has a place in it, and only then. -/
theorem Snapshot.exists_render_iff {t : Tables} (hNative : t.Native) :
    (∃ text, render t = .ok text) ↔ Regular t := by
  constructor
  · rintro ⟨text, hWritten⟩
    simp only [render, bind_eq_ok_iff] at hWritten
    obtain ⟨document, hDocument, hWritten⟩ := hWritten
    split at hWritten
    · next hGuard =>
      rw [Bool.and_eq_true] at hGuard
      exact regular_of_ofTables hNative hDocument hGuard.1
    · cases hWritten
  · exact Regular.exists_render

theorem Snapshot.Regular.writable (h : Regular t) : ∀ row ∈ t.namespaces.rows, row.2.Writable := by
  intro row hRow
  have hFields := h.namespaceFields row hRow
  simp only [Snapshot.namespaceFields, List.forall_mem_cons] at hFields
  obtain ⟨-, -, -, -, -, -, -, -, hLifetime, -⟩ := hFields
  refine ⟨?_, h.balances row hRow⟩
  intro n hNumber
  rw [hNumber] at hLifetime
  cases hLifetime with
  | int least below => exact below

end Snapshots

/-! ## States of a service -/

namespace Server

variable {service : Principal} {begun : Config → Prop} {asked : Int → Operation → Prop} {s : Server}

theorem Lived.bounded (hAsked : ∀ now o, asked now o → o.Accepted ∧ IsTime now)
    (h : Lived service begun asked s) : s.world.tables.Bounded := by
  refine h.holds (fun c _ => World.bounded_ofConfig c) ?_ fun _ _ hSame => hSame.bounded
  intro now o t t' r hNow hWhole commit
  exact commit.bounded (hAsked now o hNow).1 (hAsked now o hNow).2

/-- A state with counts below 2 ^ 63 can be saved if and only if no session may last for 2 ^ 64
milliseconds or longer and no balance has too many digits to be written. -/
theorem saved_iff_writable (hAsked : ∀ now o, asked now o → o.Accepted ∧ IsTime now)
    (h : Lived service begun asked s) (hCounts : s.world.tables.CountsBelow) :
    (∃ text, Snapshot.render s.world.tables = .ok text) ↔
      ∀ row ∈ s.world.tables.namespaces.rows, row.2.Writable := by
  have hAccepted : ∀ now o, asked now o → o.Accepted := fun now o hThis => (hAsked now o hThis).1
  rw [Snapshot.exists_render_iff h.whole.native]
  constructor
  · exact Snapshot.Regular.writable
  · exact (h.bounded hAsked).regular h.whole (h.formed hAccepted) (h.accounted hAccepted) hCounts

namespace Sample

theorem configured_lived_in_time :
    Lived owner Config.Valid (fun now o => o.Accepted ∧ IsTime now) configured := by
  refine (Lived.start ⟨fields, rfl⟩).run ?_
  intro id task hMem
  have hAccepted := events_accepted id task hMem
  simp only [events, List.mem_cons, List.not_mem_nil, Event.call.injEq, or_false] at hMem
  rcases hMem with ⟨-, rfl⟩ | ⟨-, rfl⟩ | ⟨-, rfl⟩ <;> exact ⟨hAccepted, by decide, by decide⟩

theorem configured_saved :
    (∀ now o, (fun now o => Operation.Accepted o ∧ IsTime now) now o → o.Accepted ∧ IsTime now) ∧
      Lived owner Config.Valid (fun now o => o.Accepted ∧ IsTime now) configured ∧
      configured.world.tables.CountsBelow ∧
      ∃ text, Snapshot.render configured.world.tables = .ok text := by
  have hAsked : ∀ now o, (fun now o => Operation.Accepted o ∧ IsTime now) now o →
      o.Accepted ∧ IsTime now := fun _ _ h => h
  have hRows : configured.world.tables.namespaces.rows =
      [(.text "vault", { newNamespace.row 10 with payloadBytes := .int 2 })] := rfl
  have hCounts : configured.world.tables.CountsBelow := by
    unfold Tables.CountsBelow
    rw [hRows, List.forall_mem_singleton]
    rintro _ ⟨⟩
    decide
  refine ⟨hAsked, configured_lived_in_time, hCounts, ?_⟩
  rw [saved_iff_writable hAsked configured_lived_in_time hCounts, hRows, List.forall_mem_singleton]
  refine ⟨?_, Nat.pow_pos (by decide)⟩
  rintro _ ⟨⟩
  decide

def endlessNamespace : NewNamespace := { newNamespace with sessionLifetime := some (2 ^ 64) }

def endless : Server :=
  ((idle (.ofConfig config)).run owner
    [.call 0 (.operation 10 (.createNamespace owner endlessNamespace))]).1

/-- A namespace with sessions that last for too long keeps the whole state from being saved. -/
theorem endless_not_saved :
    Lived owner Config.Valid (fun now o => o.Accepted ∧ IsTime now) endless ∧
      ¬ ∃ text, Snapshot.render endless.world.tables = .ok text := by
  have hFields : NewNamespace.ofFields [("name", .text "vault"),
      ("managers", .list [.principal owner]), ("session_expires_in_ms", .number (2 ^ 64))] =
        .good endlessNamespace := rfl
  have hLived : Lived owner Config.Valid (fun now o => o.Accepted ∧ IsTime now) endless := by
    refine (Lived.start ⟨fields, rfl⟩).run ?_
    intro id task hMem
    simp only [List.mem_cons, List.not_mem_nil, Event.call.injEq, or_false] at hMem
    obtain ⟨-, rfl⟩ := hMem
    exact ⟨⟨_, hFields⟩, by decide, by decide⟩
  refine ⟨hLived, ?_⟩
  rw [Snapshot.exists_render_iff hLived.whole.native]
  intro hRegular
  have hRows : endless.world.tables.namespaces.rows =
      [(.text "vault", endlessNamespace.row 10)] := rfl
  have hWritable := hRegular.writable
  rw [hRows, List.forall_mem_singleton] at hWritable
  exact absurd (hWritable.lifetime (2 ^ 64) rfl) (by decide)

end Sample

end Server

end TenantVault
