import TenantVault.Proofs.Updates

/-! # Versions that stay

What has been stored as a version of a setting stays until the setting is deleted: in the live record, in
the archive once another version has superseded it, and in every service that goes on from a snapshot of
these tables.
-/

namespace TenantVault

/-! ## The versions of a history -/

namespace History

variable {h : History} {v : Int} {version : Version}

/-- The first one first. -/
def versions (h : History) : List Version := h.past.map Superseded.toVersion ++ [h.current]

theorem versions_updated (h : History) (input : PayloadChange) (now : Int) :
    (h.updated input now).versions =
      h.versions ++ [⟨some input.payload, input.dataKey.or h.current.dataKey⟩] := by
  simp [versions, updated]

/-- The version of a number, which counts from 1. -/
def Includes (h : History) (v : Int) (version : Version) : Prop :=
  ∃ i : Nat, v = i + 1 ∧ h.versions[i]? = some version

theorem Includes.updated (hIncludes : h.Includes v version) (input : PayloadChange) (now : Int) :
    (h.updated input now).Includes v version := by
  obtain ⟨i, hVersion, hFound⟩ := hIncludes
  obtain ⟨hIndex, -⟩ := List.getElem?_eq_some_iff.mp hFound
  refine ⟨i, hVersion, ?_⟩
  rw [versions_updated, List.getElem?_append_left hIndex]
  exact hFound

theorem includes_current (h : History) : h.Includes h.number h.current := by
  refine ⟨h.past.length, by simp [number], ?_⟩
  simp [versions]

theorem includes_past {i : Nat} {old : Superseded} (hOld : h.past[i]? = some old) :
    h.Includes ((i : Int) + 1) old.toVersion := by
  obtain ⟨hIndex, -⟩ := List.getElem?_eq_some_iff.mp hOld
  refine ⟨i, rfl, ?_⟩
  rw [versions, List.getElem?_append_left (by rw [List.length_map]; exact hIndex), List.getElem?_map,
    hOld]
  rfl

theorem Includes.cases (hIncludes : h.Includes v version) :
    (v = h.number ∧ version = h.current) ∨
      ∃ (i : Nat) (old : Superseded), v = (i : Int) + 1 ∧ h.past[i]? = some old ∧
        version = old.toVersion := by
  obtain ⟨i, hVersion, hFound⟩ := hIncludes
  rw [versions, List.getElem?_append] at hFound
  split at hFound
  · rw [List.getElem?_map, Option.map_eq_some_iff] at hFound
    obtain ⟨old, hOld, hSame⟩ := hFound
    exact Or.inr ⟨i, old, hVersion, hOld, hSame.symm⟩
  · next hBeyond =>
    rw [List.length_map] at hBeyond hFound
    rw [List.getElem?_singleton] at hFound
    split at hFound
    · next hLast =>
      refine Or.inl ⟨?_, (Option.some.inj hFound).symm⟩
      unfold number
      omega
    · cases hFound

end History

/-! ## Versions in the tables -/

/-- A version of a setting is stored with its payload, as the live one or in the archive. -/
inductive Tables.Holds (t : Tables) (key : SettingKey) (v : Int) (payload : Bytes)
    (dataKey : Option Bytes) : Prop
  | live {s : Setting} (found : t.getSetting? key = some s) (version : s.version = .int v)
      (payload : s.payload = some payload) (dataKey : s.dataKey = dataKey)
  | archived {a : ArchivedPayload} (found : t.archived.get? (key.withVersion v).stored = some a)
      (payload : a.payload = some payload) (dataKey : a.dataKey = dataKey)

section Holding

open History (Kept)

variable {key : SettingKey} {t t' : Tables} {v : Int} {payload : Bytes} {dataKey : Option Bytes}

theorem Tables.Holds.congr {key' : SettingKey} (hHolds : t.Holds key v payload dataKey)
    (hKey : key'.current = key.current) : t.Holds key' v payload dataKey := by
  cases hHolds with
  | live found version payload dataKey =>
    rw [← History.getSetting?_eq hKey] at found
    exact .live found version payload dataKey
  | archived found payload dataKey =>
    rw [← History.withVersion_eq hKey] at found
    exact .archived found payload dataKey

theorem Tables.Whole.holds_iff (hWhole : t.Whole) : t.Holds key v payload dataKey ↔
    ∃ h, Kept key t (some h) ∧ h.Includes v ⟨some payload, dataKey⟩ := by
  constructor
  · intro hHolds
    obtain ⟨past, hKept⟩ := hWhole.history key
    cases hHolds with
    | live found version payload dataKey =>
      obtain ⟨h, rfl, hLive⟩ := hKept.found rfl found
      refine ⟨h, hKept, ?_⟩
      have hNumber : v = h.number := Json.int.inj (version.symm.trans hLive.version)
      rw [hNumber, ← payload, ← dataKey, hLive.payload, hLive.dataKey]
      exact h.includes_current
    | @archived a found payload dataKey =>
      cases hKept with
      | absent live archived =>
        rw [archived] at found
        cases found
      | @present h s live row filled archived =>
        rw [archived] at found
        obtain ⟨hFirst, -⟩ := History.bounds_of_rowAt? found
        unfold History.rowAt? at found
        rw [if_neg (by omega), Option.bind_eq_some_iff] at found
        obtain ⟨old, hOld, hRow⟩ := found
        obtain ⟨p, hPayload, rfl⟩ := Option.map_eq_some_iff.mp hRow
        have hVersion : (⟨some p, old.dataKey⟩ : Version) = old.toVersion := by rw [← hPayload]
        have hNumber : v = ((v.toNat - 1 : Nat) : Int) + 1 := by omega
        refine ⟨h, .present live row filled archived, ?_⟩
        rw [← payload, ← dataKey, hVersion, hNumber]
        exact History.includes_past hOld
  · rintro ⟨h, hKept, hIncludes⟩
    cases hKept with
    | present live row filled archived =>
      rcases hIncludes.cases with ⟨rfl, hCurrent⟩ | ⟨i, old, rfl, hOld, hVersion⟩
      · refine .live live row.version (row.payload.trans ?_) (row.dataKey.trans ?_)
        · rw [← hCurrent]
        · rw [← hCurrent]
      · have hRow := (archived _).trans (History.rowAt?_eq hOld)
        have hPayload : old.payload = some payload := (congrArg Version.payload hVersion).symm
        have hDataKey : old.dataKey = dataKey := (congrArg Version.dataKey hVersion).symm
        rw [Superseded.row?, hPayload] at hRow
        exact .archived hRow rfl hDataKey

/-- Only a deletion takes a version away. -/
theorem Commit.holds {now : Int} {o : Operation} {r : Result Answer} (hCommit : Commit now t o t' r)
    (hWhole : t.Whole)
    (hStays : ∀ caller path, o = .deleteSetting caller path →
      (path.toKey caller).current ≠ key.current) (hHolds : t.Holds key v payload dataKey) :
    t'.Holds key v payload dataKey := by
  obtain ⟨h, hKept, hIncludes⟩ := hWhole.holds_iff.mp hHolds
  refine (hCommit.whole hWhole).holds_iff.mpr ?_
  have hAfter := hKept.commit hCommit
  split at hAfter
  · next hWritten =>
    cases hCommit with
    | createSetting admits writes live fresh =>
      obtain ⟨s, hFound⟩ : ∃ s, t.getSetting? key = some s := by
        cases hKept with
        | present live => exact ⟨_, live⟩
      rw [History.getSetting?_eq (Option.some.inj hWritten), hFound] at fresh
      cases fresh
    | updatePayload => exact ⟨_, hAfter, hIncludes.updated _ _⟩
    | deleteSetting => exact (hStays _ _ rfl (Option.some.inj hWritten)).elim
    | _ => exact ⟨h, hAfter, hIncludes⟩
  · exact ⟨h, hAfter, hIncludes⟩

theorem Snapshot.SameContents.holds (h : Snapshot.SameContents t t')
    (hHolds : t.Holds key v payload dataKey) : t'.Holds key v payload dataKey := by
  cases hHolds with
  | live found version payload dataKey =>
    refine .live ?_ version payload dataKey
    rw [← found]
    exact Table.get?_of_perm h.settings _
  | archived found payload dataKey =>
    refine .archived ?_ payload dataKey
    rw [← found]
    exact Table.get?_of_perm h.archived _

end Holding

/-! ## Services that go on -/

namespace Server

/-- What may become of a service after some state, as long as a setting is not deleted: calls of any kind
are made and go on, and a snapshot that the service has written is loaded by itself or by another one. -/
inductive Continued (key : SettingKey) (s : Server) : Server → Prop
  | refl : Continued key s s
  | step {s' : Server} (reached : Continued key s s') (service : Principal) (e : Event)
      (operation : ∀ id snapshot, e ≠ .call id (.load snapshot))
      (stays : ∀ c, (s'.step service e).2 = some c → ¬ c.Deletes key) :
      Continued key s (s'.step service e).1
  | reload {writer reader : Server} (wrote : Continued key s writer) {service : Principal}
      (reads : Reachable service reader) {snapshot : String}
      (written : Snapshot.render writer.world.tables = .ok snapshot) (id : Nat) :
      Continued key s (reader.step service (.call id (.load snapshot))).1

section Retention

variable {key : SettingKey} {s s' : Server} {v : Int} {payload : Bytes} {dataKey : Option Bytes}

theorem holds_step {service : Principal} {e : Event} (hs : s.Sound fun task => task.isLoad = false)
    (hWhole : s.world.tables.Whole) (hOperation : ∀ id snapshot, e ≠ .call id (.load snapshot))
    (hStays : ∀ c, (s.step service e).2 = some c → ¬ c.Deletes key)
    (hHolds : s.world.tables.Holds key v payload dataKey) :
    (s.step service e).1.world.tables.Whole ∧
      (s.step service e).1.world.tables.Holds key v payload dataKey := by
  have hSteps := (step_spec service hs e (calls_of_operation hOperation)).2
  generalize s.step service e = next at hSteps hStays ⊢
  cases hSteps with
  | waits same =>
    rw [same]
    exact ⟨hWhole, hHolds⟩
  | @ends s' c about kind segment =>
    obtain ⟨id, task, result⟩ := c
    cases task with
    | load => cases kind
    | operation now o =>
      cases segment with
      | operation segment =>
        rcases segment.tables with hSame | commit
        · rw [hSame]
          exact ⟨hWhole, hHolds⟩
        · obtain ⟨-, a, hAnswer⟩ := commit.counted hWhole.native.toCounted
          refine ⟨commit.whole hWhole, commit.holds hWhole ?_ hHolds⟩
          rintro caller path rfl hKey
          exact hStays _ rfl ⟨caller, path, Completion.written?_eq_some_iff.mpr
            ⟨now, a, rfl, hAnswer, path.toKey caller, rfl, hKey⟩⟩

theorem Continued.holds (h : Continued key s s') (hs : s.Sound fun task => task.isLoad = false)
    (hWhole : s.world.tables.Whole) (hHolds : s.world.tables.Holds key v payload dataKey) :
    s'.world.tables.Whole ∧ s'.world.tables.Holds key v payload dataKey := by
  suffices h : s'.Sound (fun task => task.isLoad = false) ∧ s'.world.tables.Whole ∧
      s'.world.tables.Holds key v payload dataKey from h.2
  induction h with
  | refl => exact ⟨hs, hWhole, hHolds⟩
  | step reached service e operation stays ih =>
    obtain ⟨hSound, hWhole, hHolds⟩ := ih
    exact ⟨hSound.step_of_operations e, holds_step hSound hWhole operation stays hHolds⟩
  | @reload writer reader wrote service reads snapshot written id ih =>
    obtain ⟨-, hWhole, hHolds⟩ := ih
    obtain ⟨t, hParsed, hSame, -⟩ := Snapshot.parse_of_native hWhole.native written
    refine ⟨reads.sound.step_of_operations _, ?_⟩
    rw [tables_load reader id hParsed]
    exact ⟨hSame.whole hWhole, hSame.holds hHolds⟩

end Retention

end Server

end TenantVault
