import TenantVault.Proofs.History
import TenantVault.Proofs.Reload
import TenantVault.Proofs.Return

/-! # No orphans

In every state that a service gets into from empty tables, with the snapshots that it has written
itself, each row belongs to others that are there: a setting to its namespace, an earlier version to the
setting whose version it was. So nothing is left of what has been deleted, and what is created later
under the same name or key begins with nothing.
-/

namespace TenantVault

/-- All that holds of the tables in every such state. -/
structure Tables.Whole (t : Tables) : Prop where
  native : t.Native
  housed : ∀ key s, t.getSetting? key = some s → (t.namespaces.get? (.text key.ns)).isSome = true
  history : ∀ key, ∃ h, History.Kept key t h

/-! ## What is preserved -/

section Preservation

variable {now : Int} {t t' : Tables} {o : Operation} {r : Result Answer}

theorem World.whole_ofConfig (c : Config) : (World.ofConfig c).tables.Whole where
  native := World.native_ofConfig c
  housed := by
    intro key s hFound
    cases hFound
  history := fun _ => ⟨none, .absent rfl fun _ => rfl⟩

theorem Commit.housed (h : Commit now t o t' r)
    (hHoused : ∀ key s, t.getSetting? key = some s →
      (t.namespaces.get? (.text key.ns)).isSome = true) :
    ∀ key s, t'.getSetting? key = some s → (t'.namespaces.get? (.text key.ns)).isSome = true := by
  intro key s hFound
  cases hBefore : t.getSetting? key with
  | some before => exact h.namespace_of_live (k := key.stored) hBefore (hHoused key before hBefore)
  | none =>
    -- The setting is new, so the call has looked up its namespace, and it has not deleted one.
    have hDiffer : ¬ SameRows key.stored.current t t' := by
      intro hSame
      have hLive : t'.getSetting? key = t.getSetting? key := hSame.live
      rw [hFound, hBefore] at hLive
      cases hLive
    obtain ⟨-, -, ns, hThere, -⟩ := h.settings_authorised hDiffer
    refine h.namespace_stays (Option.isSome_of_mem hThere) ?_
    rintro caller name rfl
    exact (hDiffer (h.sameRows _ nofun)).elim

theorem Commit.whole (h : Commit now t o t' r) (hWhole : t.Whole) : t'.Whole where
  native := h.native hWhole.native
  housed := h.housed hWhole.housed
  history := by
    intro key
    obtain ⟨past, hKept⟩ := hWhole.history key
    exact ⟨_, hKept.commit h⟩

theorem Snapshot.SameContents.whole (h : Snapshot.SameContents t t') (hWhole : t.Whole) :
    t'.Whole where
  native := h.native hWhole.native
  housed := by
    intro key s hFound
    rw [h.namespaces]
    refine hWhole.housed key s ?_
    rw [← hFound]
    exact (Table.get?_of_perm h.settings _).symm
  history := by
    intro key
    obtain ⟨past, hKept⟩ := hWhole.history key
    exact ⟨past, hKept.of_sameRows fun version =>
      ⟨Table.get?_of_perm h.settings _, Table.get?_of_perm h.archived _⟩⟩

end Preservation

/-! ## States of a service that begins empty -/

namespace Server

/-- A state that a service gets into from empty tables, by calls of any kind in any order and by loading
snapshots, each of which it has written itself in such a state. -/
inductive FromEmpty (service : Principal) : Server → Prop
  | start (c : Config) : FromEmpty service (idle (.ofConfig c))
  | step {s : Server} (reached : FromEmpty service s) (e : Event)
      (operation : ∀ id snapshot, e ≠ .call id (.load snapshot)) :
      FromEmpty service (s.step service e).1
  | reload {s writer : Server} (reached : FromEmpty service s) (wrote : FromEmpty service writer)
      {snapshot : String} (written : Snapshot.render writer.world.tables = .ok snapshot) (id : Nat) :
      FromEmpty service (s.step service (.call id (.load snapshot))).1

section States

variable {service : Principal} {s : Server}

theorem calls_of_operation {e : Event} (h : ∀ id snapshot, e ≠ .call id (.load snapshot)) :
    Calls (fun task => task.isLoad = false) [e] := by
  intro id task hMem
  cases List.mem_singleton.mp hMem
  cases task with
  | operation now o => rfl
  | load snapshot => exact (h id snapshot rfl).elim

theorem FromEmpty.run (h : FromEmpty service s) {events : List Event}
    (hCalls : Calls (fun task => task.isLoad = false) events) :
    FromEmpty service (s.run service events).1 := by
  induction events generalizing s with
  | nil => exact h
  | cons e events ih =>
    refine ih (h.step e ?_) hCalls.tail
    rintro id snapshot rfl
    cases hCalls id _ List.mem_cons_self

theorem FromEmpty.sound (h : FromEmpty service s) : s.Sound fun task => task.isLoad = false := by
  induction h with
  | start c => exact idle_sound _ _
  | step reached e operation ih => exact ih.step_of_operations e
  | reload reached wrote written id ih => exact ih.step_of_operations _

theorem tables_load {snapshot : String} {t : Tables} (s : Server) (id : Nat)
    (h : Snapshot.parse snapshot = .ok t) :
    (s.step service (.call id (.load snapshot))).1.world.tables = t := by
  unfold step Task.start World.load
  dsimp only
  rw [h]
  rfl

theorem FromEmpty.whole (h : FromEmpty service s) : s.world.tables.Whole := by
  induction h with
  | start c => exact World.whole_ofConfig c
  | step reached e operation ih =>
    exact tables_run (fun _ _ _ _ _ commit => commit.whole) service [e] reached.sound
      (calls_of_operation operation) ih
  | @reload s writer reached wrote snapshot written id ih ihWriter =>
    obtain ⟨t, hParsed, hSame, -⟩ := Snapshot.parse_of_native ihWriter.native written
    rw [tables_load s id hParsed]
    exact hSame.whole ihWriter

end States

end Server

/-! ## What follows for the rows -/

namespace History

variable {h : History} {v : Int}

theorem bounds_of_rowAt? {a : ArchivedPayload} (hRow : h.rowAt? v = some a) :
    1 ≤ v ∧ v < h.number := by
  unfold rowAt? at hRow
  split at hRow
  · cases hRow
  · obtain ⟨old, hOld, -⟩ := Option.bind_eq_some_iff.mp hRow
    obtain ⟨hIndex, -⟩ := List.getElem?_eq_some_iff.mp hOld
    unfold number
    omega

theorem exists_rowAt? (hFilled : h.Filled) (hSecond : 2 ≤ v) (hEarlier : v < h.number) :
    ∃ a, h.rowAt? v = some a := by
  unfold number at hEarlier
  have hIndex : v.toNat - 1 < h.past.length := by omega
  have hOld := List.getElem?_eq_getElem hIndex
  cases hPayload : h.past[v.toNat - 1].payload with
  | none =>
    have hFirst := hFilled.past _ _ hOld hPayload
    omega
  | some payload =>
    unfold rowAt?
    rw [if_neg (by omega), hOld, Option.bind_some, Superseded.row?, hPayload]
    exact ⟨_, rfl⟩

end History

/-- Every row belongs to rows that are there, and no version of a setting is missing after the first. -/
structure NoOrphans (t : Tables) : Prop where
  named : ∀ row ∈ t.namespaces.rows, ∃ name : String, row.1 = .text name ∧ row.2.name = .text name
  live : ∀ row ∈ t.settings.rows, ∃ key : SettingKey, row.1 = key.stored ∧ key.version = 0 ∧
    (t.namespaces.get? (.text key.ns)).isSome = true
  archived : ∀ row ∈ t.archived.rows, ∃ (key : SettingKey) (s : Setting) (n : Int),
    row.1 = key.stored ∧ t.getSetting? key = some s ∧ s.version = .int n ∧
    1 ≤ key.version ∧ key.version < n
  complete : ∀ row ∈ t.settings.rows, ∃ n : Int, row.2.version = .int n ∧
    ∀ v, 2 ≤ v → v < n → t.archived.keys.countP (· == row.1.withVersion (.int v)) = 1

structure SettingGone (key : SettingKey) (t : Tables) : Prop where
  live : ∀ row ∈ t.settings.rows, (row.1.current == key.current.stored) = false
  archived : ∀ row ∈ t.archived.rows, (row.1.current == key.current.stored) = false

structure NamespaceGone (name : String) (t : Tables) : Prop where
  row : ∀ row ∈ t.namespaces.rows, (row.1 == .text name) = false
  live : ∀ row ∈ t.settings.rows, (row.1.ns == .text name) = false
  archived : ∀ row ∈ t.archived.rows, (row.1.ns == .text name) = false

/-- The tables hold nothing of what a call has deleted. -/
def Task.LeavesNothing (t : Tables) : Task → Prop
  | operation _ (.deleteSetting caller path) => SettingGone (path.toKey caller) t
  | operation _ (.deleteNamespace _ name) => NamespaceGone name t
  | _ => True

namespace Tables.Whole

variable {t : Tables}

theorem row_live (h : t.Whole) {row : StoredKey × Setting} (hRow : row ∈ t.settings.rows) :
    ∃ key : SettingKey, row.1 = key.stored ∧ key.version = 0 ∧ t.getSetting? key = some row.2 := by
  obtain ⟨key, hKey, hCurrent⟩ := h.native.live row.1 (Table.keys_of_mem hRow)
  refine ⟨key, hKey, hCurrent, ?_⟩
  have hSame : key.current.stored = row.1 := by
    rw [hKey, SettingKey.current, SettingKey.withVersion, ← hCurrent]
  unfold Tables.getSetting?
  rw [hSame]
  exact Table.get?_of_mem hRow

theorem housed_at (h : t.Whole) {k : StoredKey} {s : Setting}
    (hLive : t.settings.get? k.current = some s) : (t.namespaces.get? k.ns).isSome = true := by
  obtain ⟨k', hMem, hKey⟩ := Table.exists_of_get? hLive
  obtain ⟨key, hStored, -, hFound⟩ := h.row_live hMem
  dsimp only at hStored
  subst hStored
  have hName : (Scalar.text key.ns == k.ns) = true := StoredKey.ns_beq_of_current hKey
  rw [← Table.get?_congr _ hName]
  exact h.housed key s hFound

theorem row_archived (h : t.Whole) {row : StoredKey × ArchivedPayload}
    (hRow : row ∈ t.archived.rows) :
    ∃ (key : SettingKey) (s : Setting) (n : Int), row.1 = key.stored ∧ t.getSetting? key = some s ∧
      s.version = .int n ∧ 1 ≤ key.version ∧ key.version < n := by
  obtain ⟨key, hKey⟩ := h.native.past row.1 (Table.keys_of_mem hRow)
  have hFound : t.archived.get? (key.withVersion key.version).stored = some row.2 := by
    have hMem := Table.get?_of_mem hRow
    rw [hKey] at hMem
    exact hMem
  obtain ⟨past, hKept⟩ := h.history key
  cases hKept with
  | absent live archived =>
    rw [archived] at hFound
    cases hFound
  | @present history s live state filled archived =>
    rw [archived] at hFound
    obtain ⟨hFirst, hEarlier⟩ := History.bounds_of_rowAt? hFound
    exact ⟨key, s, history.number, hKey, live, state.version, hFirst, hEarlier⟩

theorem live_of_archived (h : t.Whole) {k : StoredKey} {a : ArchivedPayload}
    (hFound : t.archived.get? k = some a) : ∃ s, t.settings.get? k.current = some s := by
  obtain ⟨k', hMem, hKey⟩ := Table.exists_of_get? hFound
  obtain ⟨key, s, -, hStored, hLive, -⟩ := h.row_archived hMem
  dsimp only at hStored
  subst hStored
  exact ⟨s, (Table.get?_congr _ (StoredKey.current_beq_current hKey)).symm.trans hLive⟩

theorem noOrphans (h : t.Whole) : NoOrphans t where
  named := by
    rintro ⟨k, ns⟩ hRow
    obtain ⟨name, rfl⟩ := h.native.names k (Table.keys_of_mem hRow)
    exact ⟨name, rfl, (h.native.namespaces name ns (Table.get?_of_mem hRow)).name⟩
  live := by
    intro row hRow
    obtain ⟨key, hKey, hCurrent, hFound⟩ := h.row_live hRow
    exact ⟨key, hKey, hCurrent, h.housed key row.2 hFound⟩
  archived := fun _ hRow => h.row_archived hRow
  complete := by
    intro row hRow
    obtain ⟨key, hKey, -, hFound⟩ := h.row_live hRow
    obtain ⟨past, hKept⟩ := h.history key
    obtain ⟨history, rfl, hState⟩ := hKept.found rfl hFound
    refine ⟨history.number, hState.version, ?_⟩
    intro v hSecond hEarlier
    cases hKept with
    | present live state filled archived =>
      obtain ⟨a, hRowAt⟩ := History.exists_rowAt? filled hSecond hEarlier
      rw [← archived] at hRowAt
      rw [hKey]
      exact Table.countP_keys hRowAt

theorem settingGone (h : t.Whole) {key : SettingKey} (hAbsent : t.getSetting? key = none) :
    SettingGone key t := by
  have hOther {key' : SettingKey} {s : Setting} (hFound : t.getSetting? key' = some s) :
      (key'.stored.current == key.current.stored) = false := by
    rw [StoredKey.current_stored, StoredKey.stored_beq_stored, decide_eq_false_iff_not]
    intro hSame
    rw [History.getSetting?_eq hSame, hAbsent] at hFound
    cases hFound
  constructor
  · intro row hRow
    obtain ⟨key', hKey, -, hFound⟩ := h.row_live hRow
    rw [hKey]
    exact hOther hFound
  · intro row hRow
    obtain ⟨key', s, -, hKey, hFound, -⟩ := h.row_archived hRow
    rw [hKey]
    exact hOther hFound

theorem namespaceGone (h : t.Whole) {name : String}
    (hAbsent : t.namespaces.get? (.text name) = none) : NamespaceGone name t := by
  have hOther {key : SettingKey} {s : Setting} (hFound : t.getSetting? key = some s) :
      (key.stored.ns == .text name) = false := by
    have hHoused := h.housed key s hFound
    unfold SettingKey.stored
    dsimp only
    rw [Scalar.text_beq_text, decide_eq_false_iff_not]
    rintro rfl
    rw [hAbsent] at hHoused
    cases hHoused
  constructor
  · intro row hRow
    rw [← Bool.not_eq_true]
    intro hName
    rw [← Table.get?_congr _ hName, Table.get?_of_mem hRow] at hAbsent
    cases hAbsent
  · intro row hRow
    obtain ⟨key, hKey, -, hFound⟩ := h.row_live hRow
    rw [hKey]
    exact hOther hFound
  · intro row hRow
    obtain ⟨key, s, -, hKey, hFound, -⟩ := h.row_archived hRow
    rw [hKey]
    exact hOther hFound

end Tables.Whole

theorem Commit.leavesNothing {now : Int} {t t' : Tables} {o : Operation} {r : Result Answer}
    (h : Commit now t o t' r) (hWhole : t'.Whole) : (Task.operation now o).LeavesNothing t' := by
  cases h with
  | @deleteSetting caller path =>
    refine hWhole.settingGone ?_
    unfold Tables.getSetting?
    rw [Tables.settings_settle]
    exact t.get?_removeSetting_at (k := (path.toKey caller).stored) BEq.rfl
  | deleteNamespace =>
    refine hWhole.namespaceGone ?_
    dsimp only
    rw [Table.get?_erase, if_pos BEq.rfl]
  | _ => trivial

theorem Task.Segment.leavesNothing {task : Task} {w w' : World} {a : Answer}
    (h : task.Segment w w' (.ok a)) (hWhole : w.tables.Whole) : task.LeavesNothing w'.tables := by
  cases h with
  | loaded => trivial
  | @operation now o w w' r segment =>
    cases segment with
    | committed commit => exact commit.leavesNothing (commit.whole hWhole)
    | answered a quiet =>
      cases o with
      | deleteSetting | deleteNamespace => cases quiet
      | _ => trivial
    | recorded asked =>
      cases asked
      trivial

namespace Server

/-- No row is an orphan in any state that a service gets into from empty tables, and a call that has
deleted a setting or a namespace has left nothing of it. -/
theorem no_orphan_rows {service : Principal} {s : Server} (h : FromEmpty service s) :
    NoOrphans s.world.tables ∧
      (∀ key, s.world.tables.getSetting? key = none → SettingGone key s.world.tables) ∧
      (∀ name, s.world.tables.namespaces.get? (.text name) = none →
        NamespaceGone name s.world.tables) ∧
      ∀ e c a, (s.step service e).2 = some c → c.result = .ok a →
        c.task.LeavesNothing (s.step service e).1.world.tables := by
  have hWhole := h.whole
  refine ⟨hWhole.noOrphans, fun _ => hWhole.settingGone, fun _ => hWhole.namespaceGone, ?_⟩
  intro e c a hEnded hAnswer
  have hSegment := h.sound.segment hEnded
  rw [hAnswer] at hSegment
  exact hSegment.leavesNothing hWhole

namespace Sample

theorem configured_from_empty : FromEmpty owner configured :=
  (FromEmpty.start config).run events_call

theorem configured_written : ∃ snapshot, Snapshot.render configured.world.tables = .ok snapshot := by
  refine (Snapshot.regular_of_native configured_from_empty.whole.native ?_ ?_ ?_ ?_).exists_render
  · decide
  · have hRows : configured.world.tables.namespaces.rows =
        [(.text "vault", { newNamespace.row 10 with payloadBytes := .int 2 })] := rfl
    rw [hRows, List.forall_mem_singleton]
    exact ⟨by decide, Nat.pow_pos (by decide)⟩
  · have hRows : configured.world.tables.settings.rows =
        [(((path 0).toKey owner).stored, payloadChange.row (newSetting.row 20) (.int 2) 30)] := rfl
    rw [hRows, List.forall_mem_singleton]
    exact ⟨by decide, by decide⟩
  · have hRows : configured.world.tables.archived.rows =
        [(((path 1).toKey owner).stored, ⟨.int 30, .bool true, some [1], none⟩)] := rfl
    rw [hRows, List.forall_mem_singleton]
    exact ⟨by decide, by decide⟩

theorem reloaded_without_orphans : ∃ snapshot,
    Snapshot.render configured.world.tables = .ok snapshot ∧
    FromEmpty owner (configured.step owner (.call 3 (.load snapshot))).1 ∧
    NoOrphans (configured.step owner (.call 3 (.load snapshot))).1.world.tables := by
  obtain ⟨snapshot, hWritten⟩ := configured_written
  have hReached := FromEmpty.reload configured_from_empty configured_from_empty hWritten 3
  exact ⟨snapshot, hWritten, hReached, (no_orphan_rows hReached).1⟩

end Sample

end Server

end TenantVault
