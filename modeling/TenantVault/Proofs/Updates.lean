import Mathlib.Data.List.Nodup
import TenantVault.Proofs.Integrity

/-! # No update is lost

A client updates the payload of a setting by naming the version that he has seen. Between the creation of
the setting and its deletion every version is superseded at most once, the version of the live record
counts the updates that have succeeded, and nothing but an update changes what the versions hold.
-/

namespace TenantVault

open Access

/-! ## Calls that have written a setting -/

namespace Completion

/-- What a call that has succeeded was asked to do to the setting under a key. -/
def written? (key : SettingKey) (c : Completion) : Option Operation :=
  match c.task, c.result with
  | .operation _ o, .ok _ =>
    if o.settingKey?.map SettingKey.current = some key.current then some o else none
  | _, _ => none

def update? (key : SettingKey) (c : Completion) : Option PayloadChange :=
  match c.written? key with
  | some (.updatePayload _ _ input) => some input
  | _ => none

def Creates (key : SettingKey) (c : Completion) : Prop :=
  ∃ caller path input, c.written? key = some (.createSetting caller path input)

def Deletes (key : SettingKey) (c : Completion) : Prop :=
  ∃ caller path, c.written? key = some (.deleteSetting caller path)

/-- The updates of a setting that have succeeded, the first one first. -/
def updates (key : SettingKey) (completions : List Completion) : List PayloadChange :=
  completions.filterMap (update? key)

variable {key : SettingKey} {c : Completion} {o : Operation}

theorem written?_eq_some_iff : c.written? key = some o ↔ ∃ now a, c.task = .operation now o ∧
    c.result = .ok a ∧ ∃ key', o.settingKey? = some key' ∧ key'.current = key.current := by
  obtain ⟨id, task, result⟩ := c
  unfold written?
  cases task with
  | load snapshot => simp
  | operation now o' =>
    cases result with
    | error why => simp
    | ok a =>
      simp only [Option.ite_none_right_eq_some, Option.some.injEq, Option.map_eq_some_iff,
        Task.operation.injEq, Except.ok.injEq]
      constructor
      · rintro ⟨hKey, rfl⟩
        exact ⟨now, a, ⟨rfl, rfl⟩, rfl, hKey⟩
      · rintro ⟨_, _, ⟨-, rfl⟩, -, hKey⟩
        exact ⟨hKey, rfl⟩

theorem written?_at {id : Nat} {now : Int} {a : Answer} {key' : SettingKey}
    (hWritten : o.settingKey? = some key')
    (hAt : (key'.current.stored == key.stored.current) = true) :
    written? key ⟨id, .operation now o, .ok a⟩ = some o := by
  rw [StoredKey.current_stored, StoredKey.stored_beq_stored, decide_eq_true_iff] at hAt
  exact written?_eq_some_iff.mpr ⟨now, a, rfl, rfl, key', hWritten, hAt⟩

theorem update?_of_apart {id : Nat} {now : Int} {r : Result Answer}
    (hApart : ∀ key', o.settingKey? = some key' →
      (key'.current.stored == key.stored.current) = false) :
    update? key ⟨id, .operation now o, r⟩ = none := by
  have hNone : written? key ⟨id, .operation now o, r⟩ = none := by
    rw [Option.eq_none_iff_forall_ne_some]
    intro o' hSome
    obtain ⟨now', a, hTask, -, key', hWritten, hKey⟩ := written?_eq_some_iff.mp hSome
    cases hTask
    have hOther := hApart key' hWritten
    rw [StoredKey.current_stored, StoredKey.stored_beq_stored, decide_eq_false_iff_not] at hOther
    exact hOther hKey
  unfold update?
  rw [hNone]

end Completion

/-! ## What a call does to the versions -/

/-- The live version of a setting, what it holds and all its earlier versions are the same. -/
structure SameVersions (key : SettingKey) (t t' : Tables) : Prop where
  live : ∃ row row', t.getSetting? key = some row ∧ t'.getSetting? key = some row' ∧
    row'.version = row.version ∧ row'.payload = row.payload ∧ row'.dataKey = row.dataKey
  archive : SameArchive key.stored t t'

theorem SameVersions.refl {key : SettingKey} {t : Tables} {row : Setting}
    (hLive : t.getSetting? key = some row) : SameVersions key t t where
  live := ⟨row, row, hLive, hLive, rfl, rfl, rfl⟩
  archive := fun _ _ => rfl

/-- What a call that has ended has done to a setting that was there. -/
inductive VersionEffect (key : SettingKey) (row : Setting) (t t' : Tables) (c : Completion) : Prop
  | deleted (deletes : c.Deletes key)
  | updated {input : PayloadChange} {row' : Setting} (update : c.update? key = some input)
      (expected : row.version.isInt input.version = true)
      (next : row.version.plus 1 = .ok row'.version) (live : t'.getSetting? key = some row')
  | kept (other : c.update? key = none) (same : SameVersions key t t')

section Effects

variable {key : SettingKey} {row : Setting} {w w' : World} {c : Completion}

theorem VersionEffect.of_same {t : Tables} (hLive : t.getSetting? key = some row)
    (hOther : c.update? key = none) : VersionEffect key row t t c :=
  .kept hOther (.refl hLive)

theorem Fate.versionEffect {now : Int} {t t' : Tables} {o : Operation} {id : Nat} {a : Answer}
    (h : Fate now key.stored row t t' o) (hLive : t.getSetting? key = some row) :
    VersionEffect key row t t' ⟨id, .operation now o, .ok a⟩ := by
  cases h with
  | untouched apart rows =>
    refine .kept (Completion.update?_of_apart apart) ⟨⟨row, row, hLive, ?_, rfl, rfl, rfl⟩, ?_⟩
    · rw [← hLive]
      exact (rows key.stored.current BEq.rfl).live
    · intro k hCurrent
      exact (rows k hCurrent).archived
  | described at_ open_ live archive =>
    refine .kept ?_ ⟨⟨row, _, hLive, live, rfl, rfl, rfl⟩, archive⟩
    rw [Completion.update?, Completion.written?_at rfl at_]
  | regrouped at_ open_ live archive =>
    refine .kept ?_ ⟨⟨row, _, hLive, live, rfl, rfl, rfl⟩, archive⟩
    rw [Completion.update?, Completion.written?_at rfl at_]
  | updated at_ readWrite expected next live =>
    refine .updated ?_ expected next live
    rw [Completion.update?, Completion.written?_at rfl at_]
  | deleted at_ => exact .deleted ⟨_, _, Completion.written?_at rfl at_⟩

theorem Task.Segment.versionEffect (h : c.task.Segment w w' c.result)
    (hTask : c.task.isLoad = false) (hCounted : w.tables.Counted)
    (hLive : w.tables.getSetting? key = some row) :
    VersionEffect key row w.tables w'.tables c := by
  obtain ⟨id, task, result⟩ := c
  cases h with
  | loaded | notLoaded => cases hTask
  | operation segment =>
    cases segment with
    | refused why => exact .of_same hLive rfl
    | answered a quiet =>
      refine .of_same hLive (Completion.update?_of_apart ?_)
      rw [History.settingKey?_of_not_writesTables quiet]
      exact nofun
    | recorded asked =>
      subst asked
      exact .of_same hLive (Completion.update?_of_apart nofun)
    | committed commit =>
      obtain ⟨-, a, rfl⟩ := commit.counted hCounted
      exact (commit.fate (k := key.stored) hLive).versionEffect hLive

theorem Task.Segment.of_operation_counted {task : Task} {r : Result Answer}
    (h : task.Segment w w' r) (hTask : task.isLoad = false) (hCounted : w.tables.Counted) :
    w'.tables.Counted :=
  h.preserves (fun _ _ _ _ _ commit hCounted => (commit.counted hCounted).1) hTask hCounted

end Effects

/-! ## Updates since the creation -/

/-- A setting since whose creation some updates have succeeded. -/
structure Updated (key : SettingKey) (inputs : List PayloadChange) (t : Tables) : Prop where
  counted : t.Counted
  live : ∃ row, t.getSetting? key = some row ∧ row.version = .int (1 + inputs.length)
  expected : ∀ (i : Nat) input, inputs[i]? = some input → input.version = 1 + i

section Updates

variable {key : SettingKey} {inputs : List PayloadChange} {w w' : World} {c : Completion}

theorem Updated.segment (h : Updated key inputs w.tables) (hTask : c.task.isLoad = false)
    (hKept : ¬ c.Deletes key) (hSegment : c.task.Segment w w' c.result) :
    Updated key (inputs ++ (c.update? key).toList) w'.tables := by
  obtain ⟨row, hLive, hVersion⟩ := h.live
  have hCounted := hSegment.of_operation_counted hTask h.counted
  cases hSegment.versionEffect hTask h.counted hLive with
  | deleted deletes => exact (hKept deletes).elim
  | kept other same =>
    rw [other, Option.toList_none, List.append_nil]
    obtain ⟨before, row', hBefore, hLive', hSame, -⟩ := same.live
    cases hLive.symm.trans hBefore
    exact ⟨hCounted, ⟨row', hLive', hSame.trans hVersion⟩, h.expected⟩
  | @updated input row' update expected next live =>
    rw [update, Option.toList_some]
    rw [hVersion, Json.isInt_int, decide_eq_true_iff] at expected
    rw [hVersion, Json.plus_int] at next
    refine ⟨hCounted, ⟨row', live, ?_⟩, ?_⟩
    -- The number that follows a number is one, so nothing is left of how a version may be spelled.
    · cases hNext : row'.version
      all_goals rw [hNext] at next
      all_goals cases next
      rw [List.length_append, List.length_singleton]
      exact congrArg Json.int (by omega)
    · intro i input' hInput
      rw [List.getElem?_append] at hInput
      split at hInput
      · exact h.expected i input' hInput
      · rw [List.getElem?_singleton] at hInput
        split at hInput
        · cases hInput
          omega
        · cases hInput

/-- No two updates have named the same version. -/
theorem Updated.once {t : Tables} (h : Updated key inputs t) (n : Int) :
    inputs.countP (fun input => input.version = n) ≤ 1 := by
  have hNodup : (inputs.map PayloadChange.version).Nodup := by
    rw [List.Nodup, List.pairwise_map, List.pairwise_iff_getElem]
    intro i j hi hj hLess hSame
    rw [h.expected i _ (List.getElem?_eq_getElem hi),
      h.expected j _ (List.getElem?_eq_getElem hj)] at hSame
    omega
  have hCount := List.nodup_iff_count_le_one.mp hNodup n
  rw [List.count_eq_countP, List.countP_map] at hCount
  exact hCount

theorem Updated.created (hSegment : c.task.Segment w w' c.result) (hCreates : c.Creates key)
    (hCounted : w.tables.Counted) : Updated key [] w'.tables := by
  obtain ⟨id, task, result⟩ := c
  obtain ⟨caller, path, input, hWritten⟩ := hCreates
  obtain ⟨now, a, hTask, hResult, key', hKey', hKey⟩ := Completion.written?_eq_some_iff.mp hWritten
  dsimp only at hTask hResult
  subst hTask hResult
  cases hKey'
  have hAfter := hSegment.of_operation_counted rfl hCounted
  cases hSegment with
  | operation segment =>
    cases segment with
    | answered a quiet => cases quiet
    | recorded asked => cases asked
    | committed commit =>
      generalize hAnswer : (Except.ok a : Result Answer) = r at commit
      cases commit
      refine ⟨hAfter, ⟨input.row now, ?_, rfl⟩, nofun⟩
      exact (getSetting?_settle ..).trans (History.getSetting?_putSetting hKey _ _)

theorem foldl_updates (completions : List Completion) (inputs : List PayloadChange) :
    completions.foldl (fun inputs c => inputs ++ (c.update? key).toList) inputs =
      inputs ++ Completion.updates key completions := by
  induction completions generalizing inputs with
  | nil => exact (List.append_nil inputs).symm
  | cons c rest ih =>
    rw [List.foldl_cons, ih, Completion.updates, Completion.updates, List.filterMap_cons,
      List.append_assoc]
    cases c.update? key <;> rfl

end Updates

/-! ## Updates that come too late -/

theorem perform_updatePayload_late {now : Int} {service caller : Principal} {path : SettingPath}
    {input : PayloadChange} {ns : Namespace} {row : Setting} {w : World}
    (hAdmits : Admits w.tables "setting_update_payload" caller)
    (hWrites : Writes w.tables caller (path.toKey caller) ns)
    (hRow : w.tables.getSetting? (path.toKey caller) = some row) (hReadWrite : row.isReadWrite = true)
    (hLate : row.version.isInt input.version = false) :
    (Operation.updatePayload caller path input).perform service now w =
      .done w (.error (Tables.mismatch row input.version)) := by
  have hRefused : Operation.guarded caller "setting_update_payload"
      (·.updatePayload caller (path.toKey caller) input now) w.tables =
        .error (Tables.mismatch row input.version) := by
    have hAllowed := (allowed_eq_ok_iff w.tables caller "setting_update_payload").mpr hAdmits
    have hWritable := (writableSetting_eq_ok_iff w.tables caller (path.toKey caller) ns row).mpr
      ⟨hWrites.found, hWrites.permitted, hRow⟩
    simp only [Operation.guarded, Tables.updatePayload, hAllowed, hWritable, bind, Except.bind, demand,
      hReadWrite, hLate, if_true, Bool.false_eq_true, if_false]
  unfold Operation.perform Operation.write Call.settle
  dsimp only
  rw [hRefused]
  rfl

/-! ## Runs -/

open Server

/-- How a setting stands after a run, with the calls that have ended in the run. The refusal of an update that
comes too late shows both numbers, which is possible up to a limit. -/
structure NoLostUpdate (service : Principal) (key : SettingKey) (s : Server)
    (completions : List Completion) : Prop where
  counts : ∃ row, s.world.tables.getSetting? key = some row ∧
    row.version = .int (1 + (Completion.updates key completions).length)
  once : ∀ n, (Completion.updates key completions).countP (fun input => input.version = n) ≤ 1
  others : ∀ e, (∀ id snapshot, e ≠ .call id (.load snapshot)) →
    (∀ c, (s.step service e).2 = some c → c.update? key = none ∧ ¬ c.Deletes key) →
    SameVersions key s.world.tables (s.step service e).1.world.tables
  late : ∀ id now caller path input ns row, (path.toKey caller).current = key.current →
    Admits s.world.tables "setting_update_payload" caller →
    Writes s.world.tables caller (path.toKey caller) ns →
    s.world.tables.getSetting? key = some row → row.isReadWrite = true →
    row.version ≠ .int input.version →
    row.version.isPrintable = true → (Json.int input.version).isPrintable = true →
    s.step service (.call id (.operation now (.updatePayload caller path input))) =
      (s.hold id none, some ⟨id, .operation now (.updatePayload caller path input),
        .error (.conflict (.expected row.version.display input.version))⟩)

namespace Updated

variable {service : Principal} {s : Server} {key : SettingKey} {inputs : List PayloadChange}

theorem run (h : Updated key inputs s.world.tables) (hs : s.Sound fun task => task.isLoad = false)
    {events : List Event} (hCalls : Calls (fun task => task.isLoad = false) events)
    (hKept : ∀ c ∈ (s.run service events).2, ¬ c.Deletes key) :
    Updated key (inputs ++ Completion.updates key (s.run service events).2)
      (s.run service events).1.world.tables := by
  have hRun := run_preserves_of (I := fun w inputs => Updated key inputs w.tables)
    (fun inputs c => inputs ++ (c.update? key).toList)
    (fun _ _ _ _ hTask hKept h segment => h.segment hTask hKept segment) service events hs hCalls
    hKept h
  rw [foldl_updates] at hRun
  exact hRun

theorem others (h : Updated key inputs s.world.tables)
    (hs : s.Sound fun task => task.isLoad = false) {e : Event}
    (hOperation : ∀ id snapshot, e ≠ .call id (.load snapshot))
    (hOther : ∀ c, (s.step service e).2 = some c → c.update? key = none ∧ ¬ c.Deletes key) :
    SameVersions key s.world.tables (s.step service e).1.world.tables := by
  obtain ⟨row, hLive, -⟩ := h.live
  have hSteps := (step_spec service hs e (calls_of_operation hOperation)).2
  generalize s.step service e = next at hSteps hOther ⊢
  cases hSteps with
  | waits same =>
    rw [same]
    exact .refl hLive
  | ends about kind segment =>
    obtain ⟨hNone, hKept⟩ := hOther _ rfl
    cases segment.versionEffect kind h.counted hLive with
    | deleted deletes => exact (hKept deletes).elim
    | updated update =>
      rw [hNone] at update
      cases update
    | kept other same => exact same

theorem late (h : Updated key inputs s.world.tables) {id : Nat} {now : Int} {caller : Principal}
    {path : SettingPath} {input : PayloadChange} {ns : Namespace} {row : Setting}
    (hKey : (path.toKey caller).current = key.current)
    (hAdmits : Admits s.world.tables "setting_update_payload" caller)
    (hWrites : Writes s.world.tables caller (path.toKey caller) ns)
    (hRow : s.world.tables.getSetting? key = some row) (hReadWrite : row.isReadWrite = true)
    (hVersion : row.version ≠ .int input.version) (hShown : row.version.isPrintable = true)
    (hGiven : (Json.int input.version).isPrintable = true) :
    s.step service (.call id (.operation now (.updatePayload caller path input))) =
      (s.hold id none, some ⟨id, .operation now (.updatePayload caller path input),
        .error (.conflict (.expected row.version.display input.version))⟩) := by
  obtain ⟨live, hLive, hCount⟩ := h.live
  cases hLive.symm.trans hRow
  have hLate : row.version.isInt input.version = false := by
    rw [hCount] at hVersion ⊢
    rw [Json.isInt_int, decide_eq_false_iff_not]
    intro hSame
    exact hVersion (congrArg Json.int hSame)
  rw [← History.getSetting?_eq hKey] at hRow
  unfold step Task.start
  dsimp only
  rw [perform_updatePayload_late hAdmits hWrites hRow hReadWrite hLate, Tables.mismatch,
    Failure.showing_of_isPrintable hShown, Failure.showing_of_isPrintable hGiven]
  rfl

theorem noLostUpdate {completions : List Completion}
    (h : Updated key (Completion.updates key completions) s.world.tables)
    (hs : s.Sound fun task => task.isLoad = false) : NoLostUpdate service key s completions where
  counts := h.live
  once := h.once
  others := by
    intro e hOperation hOther
    exact h.others hs hOperation hOther
  late := by
    intro id now caller path input ns row hKey hAdmits hWrites hRow hReadWrite hVersion hShown hGiven
    exact h.late hKey hAdmits hWrites hRow hReadWrite hVersion hShown hGiven

end Updated

namespace Server

namespace Sample

def founding : List Event := [.call 0 (.operation 10 (.createNamespace owner newNamespace))]

def founded : Server := ((idle (.ofConfig config)).run owner founding).1

def creation : Event := .call 1 (.operation 20 (.createSetting owner (path 0) newSetting))

def begun : Server := (founded.step owner creation).1

/-- Two clients update the first version; only one of them succeeds. -/
def rivals : List Event := [
  .call 2 (.operation 30 (.updatePayload owner (path 0) payloadChange)),
  .call 3 (.operation 40 (.updatePayload owner (path 0) payloadChange))]

theorem rivals_call : Calls (fun task => task.isLoad = false) rivals := by
  intro id task hMem
  simp only [rivals, List.mem_cons, List.not_mem_nil, Event.call.injEq, or_false] at hMem
  rcases hMem with ⟨-, rfl⟩ | ⟨-, rfl⟩ <;> rfl

theorem rivals_keep_setting :
    ∀ c ∈ (begun.run owner rivals).2, ¬ c.Deletes ((path 0).toKey owner) := by
  have hEnded : (begun.run owner rivals).2.map Completion.task =
      [.operation 30 (.updatePayload owner (path 0) payloadChange),
        .operation 40 (.updatePayload owner (path 0) payloadChange)] := rfl
  rintro c hMem ⟨caller, path', hWritten⟩
  obtain ⟨now, a, hTask, -⟩ := Completion.written?_eq_some_iff.mp hWritten
  have hListed := List.mem_map_of_mem (f := Completion.task) hMem
  rw [hEnded, hTask] at hListed
  simp at hListed

example : Completion.updates ((path 0).toKey owner) (begun.run owner rivals).2 = [payloadChange] := rfl

def reloaded : Server := ((empty governance).run owner reloading).1

theorem step_late_update {input : PayloadChange} (hLate : (Json.int 1).isInt input.version = false) :
    (begun.step owner (.call 2 (.operation 30 (.updatePayload owner (path 0) input)))).2 =
      some ⟨2, .operation 30 (.updatePayload owner (path 0) input),
        .error (Tables.mismatch (newSetting.row 20) input.version)⟩ := by
  have hWrites : Writes begun.world.tables owner ((path 0).toKey owner)
      { newNamespace.row 10 with payloadBytes := .int 1 } := ⟨rfl, rfl⟩
  have hRow : begun.world.tables.getSetting? ((path 0).toKey owner) = some (newSetting.row 20) := rfl
  rw [step_of_perform (perform_updatePayload_late ⟨rfl, rfl⟩ hWrites hRow rfl hLate)]

/-- An update whose number is too long to be shown. -/
def unprintableUpdate : PayloadChange := { payloadChange with version := Cbor.Value.unprintable }

end Sample

end Server

end TenantVault
