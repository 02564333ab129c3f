import TenantVault.Proofs.Frame
import TenantVault.Proofs.Server

/-! # The history of a setting

What has been committed to a setting since it was created can be read off the calls that have ended:
its creation gives the first version, each update of the payload the next one. The tables keep
exactly that history, in the live row and in the archive, whatever else has been done to the setting
and to others in the meantime.
-/

namespace TenantVault

structure Version where
  payload : Option Bytes
  dataKey : Option Bytes

structure Superseded extends Version where
  replacedAt : Int
  deprecated : Bool

/-- The row in the archive for an earlier version; there is none for a version without a payload. -/
def Superseded.row? (old : Superseded) : Option ArchivedPayload :=
  old.payload.map fun payload =>
    ⟨.int old.replacedAt, .bool old.deprecated, some payload, old.dataKey⟩

/-- The versions of a setting since it was created, the first one first. -/
structure History where
  past : List Superseded
  current : Version

/-- A task that brings in nothing about a setting from outside: a snapshot that is loaded has no
rows of it, and counts bytes in whole numbers. -/
def Task.Omits (key : SettingKey) : Task → Prop
  | operation .. => True
  | load snapshot => ∀ t, Snapshot.parse snapshot = .ok t → t.Counted ∧ t.getSetting? key = none ∧
    ∀ version, t.archived.get? (key.withVersion version).stored = none

theorem Task.omits_of_not_load (key : SettingKey) (task : Task) (h : task.isLoad = false) :
    task.Omits key := by
  cases task with
  | operation now o => trivial
  | load snapshot => cases h

namespace History

def number (h : History) : Nat := h.past.length + 1

def created (input : NewSetting) : History := ⟨[], ⟨input.payload, input.dataKey⟩⟩

/-- The history with one more version; a data key that is not given stays the same. -/
def updated (h : History) (input : PayloadChange) (now : Int) : History where
  past := h.past ++ [⟨h.current, now, input.deprecateCurrent⟩]
  current := ⟨some input.payload, input.dataKey.or h.current.dataKey⟩

def next (h : Option History) (now : Int) : Operation → Option History
  | .createSetting _ _ input => some (created input)
  | .updatePayload _ _ input => h.map (·.updated input now)
  | .deleteSetting .. => none
  | _ => h

/-- The history of a setting after a call has ended; a snapshot that is loaded leaves none. -/
def after (key : SettingKey) (h : Option History) (c : Completion) : Option History :=
  match c.task, c.result with
  | .operation now o, .ok _ =>
    if o.settingKey?.map SettingKey.current = some key.current then next h now o else h
  | .load _, .ok _ => none
  | _, .error _ => h

/-- The history of a setting in a run that begins without it, if it does not end without it. -/
def of (key : SettingKey) (completions : List Completion) : Option History :=
  completions.foldl (after key) none

def rowAt? (h : History) (version : Int) : Option ArchivedPayload :=
  if version ≤ 0 then none else (h.past[version.toNat - 1]?).bind Superseded.row?

theorem rowAt?_created (input : NewSetting) (version : Int) :
    (created input).rowAt? version = none := by
  unfold rowAt? created
  split <;> rfl

theorem rowAt?_updated (h : History) (input : PayloadChange) (now version : Int) :
    (h.updated input now).rowAt? version =
      if version = h.number then (Superseded.mk h.current now input.deprecateCurrent).row?
      else h.rowAt? version := by
  unfold rowAt? updated number
  dsimp only
  by_cases hPositive : version ≤ 0
  · rw [if_pos hPositive, if_pos hPositive, if_neg (by omega)]
  · rw [if_neg hPositive, if_neg hPositive]
    by_cases hCurrent : version = (h.past.length + 1 : Nat)
    · have hIndex : version.toNat - 1 = h.past.length := by omega
      rw [if_pos hCurrent, hIndex, List.getElem?_concat_length]
      rfl
    · rw [if_neg hCurrent, List.getElem?_append]
      split
      · rfl
      · next hBeyond =>
        rw [List.getElem?_eq_none (by simp only [List.length_singleton]; omega),
          List.getElem?_eq_none (by omega)]

theorem rowAt?_number (h : History) : h.rowAt? h.number = none := by
  unfold rowAt? number
  rw [if_neg (by omega), List.getElem?_eq_none (by omega)]
  rfl

/-- Only the first version can be without a payload. -/
structure Filled (h : History) : Prop where
  past : ∀ i old, h.past[i]? = some old → old.payload = none → i = 0
  current : h.current.payload = none → h.past = []

theorem filled_created (input : NewSetting) : (created input).Filled where
  past := fun _ _ hOld => nomatch hOld
  current := fun _ => rfl

theorem Filled.updated {h : History} (hFilled : h.Filled) (input : PayloadChange) (now : Int) :
    (h.updated input now).Filled := by
  constructor
  · intro i old hOld hNone
    unfold History.updated at hOld
    dsimp only at hOld
    rw [List.getElem?_append] at hOld
    split at hOld
    · exact hFilled.past i old hOld hNone
    · rw [List.getElem?_singleton] at hOld
      split at hOld
      · next hIndex =>
        -- The last of the earlier versions was the current one, which is empty only if it is alone.
        cases hOld
        rw [hFilled.current hNone, List.length_nil] at hIndex
        exact hIndex
      · cases hOld
  · intro hNone
    cases hNone

structure Live (h : History) (s : Setting) : Prop where
  version : s.version = .int h.number
  payload : s.payload = h.current.payload
  dataKey : s.dataKey = h.current.dataKey
  tagged : ∃ members, s.tags = .object members

/-- The tables keep a history of a setting, or nothing at all if there is none. -/
inductive Kept (key : SettingKey) (t : Tables) : Option History → Prop
  | absent (live : t.getSetting? key = none)
      (archived : ∀ version, t.archived.get? (key.withVersion version).stored = none) :
      Kept key t none
  | present {h : History} {s : Setting} (live : t.getSetting? key = some s) (row : h.Live s)
      (filled : h.Filled)
      (archived : ∀ version, t.archived.get? (key.withVersion version).stored = h.rowAt? version) :
      Kept key t (some h)

section Writes

variable {key : SettingKey} {t t' : Tables} {h : Option History} {now : Int}

theorem Kept.of_sameRows (hKept : Kept key t h)
    (hSame : ∀ version, SameRows (key.withVersion version).stored t t') : Kept key t' h := by
  cases hKept with
  | absent live archived =>
    exact .absent ((hSame 0).live.trans live) fun version =>
      (hSame version).archived.trans (archived version)
  | present live row filled archived =>
    exact .present ((hSame 0).live.trans live) row filled fun version =>
      (hSame version).archived.trans (archived version)

theorem withVersion_eq {key' : SettingKey} (hKey : key'.current = key.current) (version : Int) :
    key'.withVersion version = key.withVersion version :=
  congrArg (·.withVersion version) hKey

theorem getSetting?_eq {key' : SettingKey} (hKey : key'.current = key.current) (t : Tables) :
    t.getSetting? key' = t.getSetting? key := by
  unfold Tables.getSetting?
  rw [hKey]

theorem getSetting?_putSetting {key' : SettingKey} (hKey : key'.current = key.current)
    (t : Tables) (s : Setting) :
    (t.putSetting key' s).getSetting? key = some s := by
  unfold Tables.getSetting? Tables.putSetting
  dsimp only
  rw [Table.get?_put, hKey, BEq.rfl, if_pos rfl]

theorem Live.row {h : History} {s : Setting} (hLive : h.Live s) (input : SettingChange)
    (now : Int) :
    h.Live (input.row s now) := by
  refine ⟨hLive.version, hLive.payload, hLive.dataKey, ?_⟩
  unfold SettingChange.row
  cases input.tags with
  | none => exact hLive.tagged
  | some tags => exact ⟨_, rfl⟩

theorem Kept.putSetting {h : History} {s : Setting} {key' : SettingKey}
    (hKept : Kept key t (some h)) (hKey : key'.current = key.current) (hLive : h.Live s) :
    Kept key (t.putSetting key' s) (some h) := by
  cases hKept with
  | present live row filled archived =>
    exact .present (getSetting?_putSetting hKey t s) hLive filled archived

theorem Kept.create {key' : SettingKey} {input : NewSetting} (hKept : Kept key t h)
    (hKey : key'.current = key.current) (hFresh : t.getSetting? key' = none) :
    Kept key (t.putSetting key' (input.row now)) (some (created input)) := by
  rw [getSetting?_eq hKey] at hFresh
  cases hKept with
  | absent live archived =>
    refine .present (getSetting?_putSetting hKey t _) ⟨rfl, rfl, rfl, _, rfl⟩ (filled_created input)
      fun version => ?_
    rw [rowAt?_created]
    exact archived version
  | present live =>
    rw [live] at hFresh
    cases hFresh

theorem Kept.found {key' : SettingKey} {s : Setting} (hKept : Kept key t h)
    (hKey : key'.current = key.current) (hFound : t.getSetting? key' = some s) :
    ∃ h', h = some h' ∧ h'.Live s := by
  rw [getSetting?_eq hKey] at hFound
  cases hKept with
  | absent live =>
    rw [live] at hFound
    cases hFound
  | present live row =>
    rw [live] at hFound
    cases hFound
    exact ⟨_, rfl, row⟩

/-- What is archived before an update is the row of the version that it supersedes. -/
theorem archived_archivePayload {h : History} {s : Setting} {key' : SettingKey}
    (hKey : key'.current = key.current) (hLive : h.Live s)
    (hArchived : ∀ version, t.archived.get? (key.withVersion version).stored = h.rowAt? version)
    (input : PayloadChange) (version : Int) :
    (t.archivePayload key' s input.deprecateCurrent now).archived.get?
        (key.withVersion version).stored =
      (h.updated input now).rowAt? version := by
  rw [rowAt?_updated]
  unfold Tables.archivePayload Superseded.row?
  rw [hLive.version, hLive.payload, hLive.dataKey, Tables.versionKey_int, withVersion_eq hKey]
  cases hPayload : h.current.payload with
  | none =>
    dsimp only [Option.isSome, Option.map]
    rw [if_neg Bool.false_ne_true, hArchived]
    split
    · next hNumber => rw [hNumber, rowAt?_number]
    · rfl
  | some payload =>
    dsimp only [Option.isSome, Option.map]
    rw [if_pos rfl]
    dsimp only
    rw [Table.get?_put, StoredKey.stored_beq_stored, hArchived]
    by_cases hNumber : version = h.number
    · rw [if_pos hNumber, if_pos (by rw [hNumber, decide_eq_true_iff])]
    · rw [if_neg hNumber, if_neg]
      rw [decide_eq_true_iff]
      exact fun hSame => hNumber (congrArg SettingKey.version hSame).symm

theorem Kept.update {h : Option History} {s : Setting} {key' : SettingKey} {input : PayloadChange}
    {version : Json} (hKept : Kept key t h) (hKey : key'.current = key.current)
    (hFound : t.getSetting? key' = some s) (hNext : s.version.plus 1 = .ok version) :
    Kept key ((t.archivePayload key' s input.deprecateCurrent now).putSetting key'
        (input.row s version now))
      (h.map (·.updated input now)) := by
  rw [getSetting?_eq hKey] at hFound
  cases hKept with
  | absent live =>
    rw [live] at hFound
    cases hFound
  | @present h _ live row filled archived =>
    rw [live] at hFound
    cases hFound
    rw [row.version, Json.plus_int] at hNext
    cases hNext
    refine .present (getSetting?_putSetting hKey _ _) ⟨?_, rfl, ?_, row.tagged⟩
      (filled.updated input now) (archived_archivePayload hKey row archived input)
    · unfold PayloadChange.row updated number
      simp
    · exact congrArg input.dataKey.or row.dataKey

theorem kept_removeSetting {key' : SettingKey} (hKey : key'.current = key.current) (t : Tables) :
    Kept key (t.removeSetting key') none := by
  refine .absent ?_ fun version => ?_
  · unfold Tables.removeSetting Tables.getSetting?
    dsimp only
    rw [Table.get?_erase, hKey, BEq.rfl, if_pos rfl]
  · unfold Tables.removeSetting
    dsimp only
    rw [Table.get?_filterKeys, hKey]
    · simp [bne]
    · intro k' h
      simp only [bne, BEq.congr_left (StoredKey.current_beq_current h)]

theorem Kept.write {o : Operation} {r : Result Answer} {key' : SettingKey} (hKept : Kept key t h)
    (hCommit : Commit now t o t' r) (hWritten : o.settingKey? = some key')
    (hKey : key'.current = key.current) :
    Kept key t' (next h now o) := by
  cases hCommit with
  | createSetting admits writes live fresh =>
    cases hWritten
    exact (hKept.create hKey fresh).of_sameRows fun _ => .settle ..
  | updatePayload admits writes found readWrite expected next =>
    cases hWritten
    exact (hKept.update hKey found next).of_sameRows fun _ => .settle ..
  | updateSetting admits writes found =>
    cases hWritten
    obtain ⟨h', rfl, hLive⟩ := hKept.found hKey found
    exact hKept.putSetting hKey (hLive.row _ now)
  | changeReaders admits proper writes found =>
    cases hWritten
    obtain ⟨h', rfl, hLive⟩ := hKept.found hKey found
    exact hKept.putSetting hKey ⟨hLive.version, hLive.payload, hLive.dataKey, hLive.tagged⟩
  | deleteSetting =>
    cases hWritten
    exact (kept_removeSetting hKey t).of_sameRows fun _ => .settle ..
  | _ => cases hWritten

theorem Kept.commit {o : Operation} {r : Result Answer} (hKept : Kept key t h)
    (hCommit : Commit now t o t' r) :
    Kept key t' (if o.settingKey?.map SettingKey.current = some key.current then next h now o
      else h) := by
  split
  · next hKey =>
    obtain ⟨key', hWritten, hKey⟩ := Option.map_eq_some_iff.mp hKey
    exact hKept.write hCommit hWritten hKey
  · next hOther =>
    refine hKept.of_sameRows fun version => hCommit.sameRows _ fun key' hWritten => ?_
    rw [StoredKey.current_stored, StoredKey.stored_beq_stored, decide_eq_false_iff_not]
    intro hSame
    rw [hWritten, Option.map_some, hSame, SettingKey.current_withVersion] at hOther
    exact hOther rfl

end Writes

/-! ## Runs -/

structure Keeps (key : SettingKey) (w : World) (h : Option History) : Prop where
  counted : w.tables.Counted
  kept : Kept key w.tables h

theorem settingKey?_of_not_writesTables {o : Operation} (h : o.writesTables = false) :
    o.settingKey? = none := by
  cases o <;> first | rfl | cases h

theorem Keeps.segment {key : SettingKey} {w w' : World} {h : Option History} {c : Completion}
    (hOmits : c.task.Omits key) (hKeeps : Keeps key w h) (hSegment : c.task.Segment w w' c.result) :
    Keeps key w' (after key h c) := by
  obtain ⟨id, task, result⟩ := c
  cases hSegment with
  | loaded parsed =>
    obtain ⟨hCounted, hLive, hArchived⟩ := hOmits _ parsed
    exact ⟨hCounted, .absent hLive hArchived⟩
  | notLoaded => exact hKeeps
  | @operation now o w w' r segment =>
    cases segment with
    | refused why => exact hKeeps
    | answered a quiet =>
      unfold after
      simp only [settingKey?_of_not_writesTables quiet]
      exact hKeeps
    | recorded asked known kept =>
      subst asked
      exact ⟨hKeeps.counted, hKeeps.kept⟩
    | @committed t r commit =>
      obtain ⟨hCounted, a, rfl⟩ := commit.counted hKeeps.counted
      exact ⟨hCounted, hKeeps.kept.commit commit⟩

theorem keeps_empty (key : SettingKey) (g : Governance) :
    Keeps key (Server.empty g).world none where
  counted := fun _ _ h => nomatch h
  kept := .absent rfl fun _ => rfl

theorem keeps_run {service : Principal} {g : Governance} {events : List Event} {server : Server}
    {completions : List Completion} {key : SettingKey}
    (hCalls : Server.Calls (Task.Omits key) events)
    (hRun : (Server.empty g).run service events = (server, completions)) :
    Keeps key server.world (of key completions) := by
  have hKeeps := Server.run_preserves (after key) (I := Keeps key)
    (fun _ _ _ _ hOmits hKeeps hSegment => hKeeps.segment hOmits hSegment) service events
    (Server.empty_sound _ g) hCalls (keeps_empty key g)
  rw [hRun] at hKeeps
  exact hKeeps

/-! ## Reading -/

section Reading

variable {key : SettingKey} {t : Tables} {h : History} {s : Setting} {caller : Principal}

theorem readableSetting_of_live (hFound : t.getSetting? key = some s) (hLive : h.Live s)
    (hMay : Access.MayRead t caller key s) :
    Access.readableSetting t caller key =
      if (h.number : Int) < key.version then .error (.naming key (.missing (.version key)))
      else .ok s := by
  rw [Access.readableSetting_of_mayRead hFound hMay, hLive.version, Json.less_int]
  by_cases hBeyond : (h.number : Int) < key.version
  · rw [if_pos hBeyond, decide_eq_true hBeyond]
    rfl
  · rw [if_neg hBeyond, decide_eq_false hBeyond]
    rfl

theorem info_of_live (hLive : h.Live s) (key : SettingKey) :
    ∃ info, s.info key = .ok info ∧ info.version = .int h.number := by
  obtain ⟨members, hTags⟩ := hLive.tagged
  unfold Setting.info
  rw [hTags]
  exact ⟨_, rfl, hLive.version⟩

theorem readSetting_of_reached (hFound : t.getSetting? key = some s) (hLive : h.Live s)
    (hMay : Access.MayRead t caller key s) (hReached : key.version ≤ h.number) {info : SettingInfo}
    (hInfo : s.info key = .ok info) :
    t.readSetting caller key =
      if key.version = 0 ∨ key.version = h.number then
        .ok { info with dataKey := h.current.dataKey, payload := h.current.payload }
      else (t.archivedPayload key).map fun a =>
        { info with
          version := .int key.version, updatedAt := a.archivedAt, payload := a.payload,
          dataKey := a.dataKey } := by
  have hCurrent : s.version.isInt key.version = true ↔ key.version = h.number := by
    rw [hLive.version, Json.isInt_int, decide_eq_true_iff]
    exact eq_comm
  unfold Tables.readSetting Setting.fullInfo
  rw [readableSetting_of_live hFound hLive hMay, if_neg (by omega), ← hLive.payload,
    ← hLive.dataKey]
  simp only [bind, Except.bind, pure, Except.pure, hCurrent, hInfo]
  cases t.archivedPayload key <;> rfl

theorem readArchived_of_earlier (hFound : t.getSetting? key = some s) (hLive : h.Live s)
    (hMay : Access.MayRead t caller key s) (hFirst : 0 < key.version)
    (hEarlier : key.version < h.number) :
    t.readArchived caller key =
      (t.archivedPayload key).map fun a =>
        ⟨key.version, a.archivedAt, a.deprecated, a.payload, a.dataKey⟩ := by
  have hPast : (decide (key.version ≠ 0) && decide (key.version < h.number)) = true := by
    rw [Bool.and_eq_true, decide_eq_true_iff, decide_eq_true_iff]
    exact ⟨by omega, hEarlier⟩
  unfold Tables.readArchived
  rw [readableSetting_of_live hFound hLive hMay, if_neg (by omega)]
  simp only [bind, Except.bind, pure, Except.pure, hLive.version, Json.more_int, hPast,
    Access.demand]
  cases t.archivedPayload key <;> rfl

theorem readSetting_beyond (hFound : t.getSetting? key = some s) (hLive : h.Live s)
    (hMay : Access.MayRead t caller key s) (hBeyond : (h.number : Int) < key.version) :
    t.readSetting caller key = .error (.naming key (.missing (.version key))) ∧
      t.readArchived caller key = .error (.naming key (.missing (.version key))) := by
  unfold Tables.readSetting Tables.readArchived
  rw [readableSetting_of_live hFound hLive hMay, if_pos hBeyond]
  exact ⟨rfl, rfl⟩

theorem rowAt?_eq {i : Nat} {old : Superseded} (hOld : h.past[i]? = some old) :
    h.rowAt? (i + 1) = old.row? := by
  unfold rowAt?
  have hIndex : ((i : Int) + 1).toNat - 1 = i := by omega
  rw [if_neg (by omega), hIndex, hOld]
  rfl

end Reading

/-- What reading a setting with this history gives, the setting itself and the archived version of
it. The refusal of a version beyond the current one shows its number, which is possible up to a limit. -/
structure Served (h : History) (key : SettingKey) (setting archived : Result Answer) : Prop where
  current : key.version = 0 ∨ key.version = h.number → ∃ info, setting = .ok (.setting info) ∧
    info.version = .int h.number ∧ info.payload = h.current.payload ∧
    info.dataKey = h.current.dataKey
  earlier : ∀ (i : Nat) old payload, key.version = (i : Int) + 1 → h.past[i]? = some old →
    old.payload = some payload →
    (∃ info, setting = .ok (.setting info) ∧ info.version = .int key.version ∧
      info.updatedAt = .int old.replacedAt ∧ info.payload = some payload ∧
      info.dataKey = old.dataKey) ∧
    archived = .ok (.archived
      ⟨key.version, .int old.replacedAt, .bool old.deprecated, some payload, old.dataKey⟩)
  unfilled : ∀ (i : Nat) old, key.version = (i : Int) + 1 → h.past[i]? = some old →
    old.payload = none →
    i = 0 ∧ setting = .error (.missing (.storedPayload key)) ∧
    archived = .error (.missing (.storedPayload key))
  beyond : (h.number : Int) < key.version → key.version < Cbor.Value.unprintable →
    setting = .error (.missing (.version key)) ∧ archived = .error (.missing (.version key))

section Serving

variable {key : SettingKey} {t : Tables} {h : History} {s : Setting} {caller : Principal}
variable {i : Nat} {old : Superseded}

theorem bounds_of_past (hVersion : key.version = (i : Int) + 1) (hOld : h.past[i]? = some old) :
    0 < key.version ∧ key.version < h.number := by
  obtain ⟨hIndex, -⟩ := List.getElem?_eq_some_iff.mp hOld
  unfold number
  omega

theorem archivedPayload_of_past
    (hArchived : ∀ version, t.archived.get? (key.withVersion version).stored = h.rowAt? version)
    (hVersion : key.version = (i : Int) + 1) (hOld : h.past[i]? = some old) :
    t.archivedPayload key = match old.row? with
      | some a => .ok a
      | none => .error (.naming key (.missing (.storedPayload key))) := by
  have hRow : t.archived.get? key.stored = old.row? := by
    rw [← rowAt?_eq hOld, ← hVersion, ← hArchived]
    rfl
  unfold Tables.archivedPayload
  cases hOldRow : old.row? with
  | none => simp only [hRow, hOldRow]
  | some a => simp only [hRow, hOldRow]

/-- Reading at the number of an earlier version gives what the archive holds of it. -/
theorem reads_of_past (hFound : t.getSetting? key = some s) (hLive : h.Live s)
    (hArchived : ∀ version, t.archived.get? (key.withVersion version).stored = h.rowAt? version)
    (hMay : Access.MayRead t caller key s) (hVersion : key.version = (i : Int) + 1)
    (hOld : h.past[i]? = some old) {info : SettingInfo} (hInfo : s.info key = .ok info) :
    t.readSetting caller key = (match old.row? with
        | some a => .ok { info with
            version := .int key.version, updatedAt := a.archivedAt, payload := a.payload,
            dataKey := a.dataKey }
        | none => .error (.naming key (.missing (.storedPayload key)))) ∧
      t.readArchived caller key = match old.row? with
        | some a => .ok ⟨key.version, a.archivedAt, a.deprecated, a.payload, a.dataKey⟩
        | none => .error (.naming key (.missing (.storedPayload key))) := by
  obtain ⟨hFirst, hEarlier⟩ := bounds_of_past hVersion hOld
  have hNotLive : ¬ (key.version = 0 ∨ key.version = h.number) := by omega
  rw [readSetting_of_reached hFound hLive hMay (Int.le_of_lt hEarlier) hInfo, if_neg hNotLive,
    readArchived_of_earlier hFound hLive hMay hFirst hEarlier,
    archivedPayload_of_past hArchived hVersion hOld]
  cases old.row? <;> exact ⟨rfl, rfl⟩

theorem Kept.served (hKept : Kept key t (some h)) (hFound : t.getSetting? key = some s)
    (hMay : Access.MayRead t caller key s) :
    h.Served key ((t.readSetting caller key).map .setting)
      ((t.readArchived caller key).map .archived) := by
  cases hKept with
  | @present _ s' hFound' hLive hFilled hArchived =>
    rw [hFound'] at hFound
    cases hFound
    obtain ⟨info, hInfo, hNumber⟩ := info_of_live hLive key
    constructor
    · intro hVersion
      have hReached : key.version ≤ h.number := by
        unfold number at hVersion ⊢
        omega
      rw [readSetting_of_reached hFound' hLive hMay hReached hInfo, if_pos hVersion]
      exact ⟨_, rfl, hNumber, rfl, rfl⟩
    · intro i old payload hVersion hOld hPayload
      obtain ⟨hSetting, hArchive⟩ := reads_of_past hFound' hLive hArchived hMay hVersion hOld hInfo
      rw [hSetting, hArchive, Superseded.row?, hPayload]
      exact ⟨⟨_, rfl, rfl, rfl, rfl, rfl⟩, rfl⟩
    · intro i old hVersion hOld hNone
      obtain ⟨hSetting, hArchive⟩ := reads_of_past hFound' hLive hArchived hMay hVersion hOld hInfo
      have hFirst : i = 0 := hFilled.past i old hOld hNone
      have hShort : key.version.natAbs < Cbor.Value.unprintable := by
        rw [hVersion, hFirst]
        exact Cbor.Value.one_lt_unprintable
      rw [hSetting, hArchive, Superseded.row?, hNone]
      rw [Failure.naming_of_lt hShort]
      exact ⟨hFirst, rfl, rfl⟩
    · intro hBeyond hShort
      obtain ⟨hSetting, hArchive⟩ := readSetting_beyond hFound' hLive hMay hBeyond
      rw [hSetting, hArchive, Failure.naming_of_lt (by omega)]
      exact ⟨rfl, rfl⟩

end Serving

theorem perform_getSetting (service : Principal) (now : Int) (caller : Principal)
    (path : SettingPath) (w : World) :
    (Operation.getSetting caller path).perform service now w =
      .done w ((w.tables.readSetting caller (path.toKey caller)).map .setting) := by
  unfold Operation.perform Call.query
  dsimp only
  cases w.tables.readSetting caller (path.toKey caller) <;> rfl

theorem perform_getArchived (service : Principal) (now : Int) (caller : Principal)
    (path : SettingPath) (w : World) :
    (Operation.getArchived caller path).perform service now w =
      .done w ((w.tables.readArchived caller (path.toKey caller)).map .archived) := by
  unfold Operation.perform Call.query
  dsimp only
  cases w.tables.readArchived caller (path.toKey caller) <;> rfl

end History

namespace Server.Sample

/-- The snapshot of a setting at its first version, with a text in the place of the byte count. -/
def miscounted : String :=
  (Json.object [
    ("version", .int Snapshot.formatVersion),
    ("namespaces", .list [.object [
      ("name", .text "vault"),
      ("payload_bytes_total", .text "many"),
      ("managers", .list [.text "uuc56-gyb"])]]),
    ("settings", .list [.object [
      ("path", .object [("ns", .text "vault"), ("scope", .int 0), ("subject", .text "uuc56-gyb"),
        ("key", .text "Bw=="), ("version", .int 0)]),
      ("setting", .object [("payload", .text "AQ==")])]])]).render

def reloading : List Event := [
  .call 0 (.operation 10 (.createNamespace owner newNamespace)),
  .call 1 (.operation 20 (.createSetting owner (path 0) newSetting)),
  .call 2 (.load miscounted)]

def brokenUpdate : Event := .call 3 (.operation 30 (.updatePayload owner (path 0) payloadChange))

def broken : Server × List Completion := (empty governance).run owner (reloading ++ [brokenUpdate])

end Server.Sample

end TenantVault
