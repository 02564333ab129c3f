import TenantVault.Proofs.Accepted
import TenantVault.Proofs.Finality
import TenantVault.Proofs.Updates
import TenantVault.Proofs.Writes

/-! # Read-only settings without a payload

No setting is created read-only without a payload, and an update of the payload leaves one. What makes a
setting read-only afterwards is a change of its status, which asks for no payload: a setting that has
none is left with none, and nobody can give it one any more.
-/

namespace TenantVault

/-- A setting that is read-only and has no payload. -/
def Setting.Hollow (s : Setting) : Prop := s.isReadOnly = true ∧ s.payload = none

/-- The setting under a key is read-only and has no payload. -/
def Tables.HollowAt (t : Tables) (key : SettingKey) : Prop :=
  ∃ s, t.getSetting? key = some s ∧ s.Hollow

/-- An operation names the status read-only for the setting under a key. -/
def Operation.Seals (key : SettingKey) (o : Operation) : Prop :=
  ∃ caller path input, o = .updateSetting caller path input ∧
    (path.toKey caller).current = key.current ∧ input.status = some Setting.readOnly

/-! ## Writes -/

section Writes

variable {now : Int} {t t' : Tables} {o : Operation} {r : Result Answer} {key : SettingKey}
  {s : Setting}

theorem NewSetting.Fit.not_hollow {input : NewSetting} (h : input.Fit) (now : Int) :
    ¬ (input.row now).Hollow := by
  rintro ⟨hReadOnly, hNone⟩
  have hStatus : input.status = some Setting.readOnly := by
    have hNumber : (Json.int (input.status.getD Setting.readWrite)).isInt Setting.readOnly = true :=
      hReadOnly
    rw [Json.isInt_int, decide_eq_true_iff] at hNumber
    cases hInput : input.status with
    | none =>
      rw [hInput] at hNumber
      cases hNumber
    | some n =>
      rw [hInput] at hNumber
      exact congrArg some hNumber
  have hPayload : input.payload.isSome = true := h.readOnly hStatus
  have hAbsent : input.payload = none := hNone
  rw [hAbsent] at hPayload
  cases hPayload

/-- A setting that was not read-only is after a change of its status that names read-only. -/
theorem SettingChange.status_of_readOnly {input : SettingChange} (now : Int)
    (hBefore : s.isReadOnly = false) (hAfter : (input.row s now).isReadOnly = true) :
    input.status = some Setting.readOnly := by
  unfold row Setting.isReadOnly at hAfter
  dsimp only at hAfter
  cases hInput : input.status with
  | none =>
    rw [hInput] at hAfter
    rw [Setting.isReadOnly] at hBefore
    cases hBefore.symm.trans hAfter
  | some n =>
    rw [hInput, Option.map_some, Option.getD_some, Json.isInt_int, decide_eq_true_iff] at hAfter
    exact congrArg some hAfter

theorem SettingChange.hollow_row {input : SettingChange} (now : Int)
    (hStatus : input.status = some Setting.readOnly) (hNone : s.payload = none) :
    (input.row s now).Hollow := by
  refine ⟨?_, hNone⟩
  unfold row Setting.isReadOnly
  rw [hStatus, Option.map_some, Option.getD_some, Json.isInt_int]
  exact decide_eq_true rfl

/-- What was not hollow and is after a write has been described anew as read-only. -/
theorem Commit.of_hollow (h : Commit now t o t' r) (hAccepted : o.Accepted)
    (hBefore : ¬ t.HollowAt key) (hAfter : t'.HollowAt key) :
    o.Seals key ∧ ∃ s, t.getSetting? key = some s ∧ s.payload = none ∧ s.isReadOnly = false := by
  obtain ⟨s', hLive', hHollow⟩ := hAfter
  cases hLive : t.getSetting? key with
  | none =>
    -- The setting is new, and what is created read-only has a payload.
    rcases h.setting_cases hLive' with hSame | hWrite
    · cases hLive.symm.trans hSame
    · cases hWrite with
      | @created caller path input =>
        obtain ⟨-, fields, hFields⟩ := hAccepted
        exact ((NewSetting.fit_of_fields hFields).not_hollow now hHollow).elim
      | updated at_ found | described found | regrouped proper found =>
        cases hLive.symm.trans found
  | some s =>
    have hNotHollow : ¬ s.Hollow := fun hHollow => hBefore ⟨s, hLive, hHollow⟩
    cases h.fate (k := key.stored) hLive with
    | untouched apart rows =>
      have hSame := (rows key.stored.current BEq.rfl).live
      cases (hLive.symm.trans hSame.symm).trans hLive'
      exact (hNotHollow hHollow).elim
    | @described caller path input at_ open_ live =>
      cases live.symm.trans hLive'
      have hOpen : s.isReadOnly = false := by
        rw [← Bool.not_eq_true]
        exact fun hReadOnly => hNotHollow ⟨hReadOnly, hHollow.2⟩
      rw [StoredKey.current_stored, StoredKey.stored_beq_stored, decide_eq_true_iff] at at_
      exact ⟨⟨caller, path, input, rfl, at_, input.status_of_readOnly now hOpen hHollow.1⟩,
        s, rfl, hHollow.2, hOpen⟩
    | regrouped at_ open_ live =>
      cases live.symm.trans hLive'
      exact (hNotHollow hHollow).elim
    | updated at_ readWrite expected next live =>
      cases live.symm.trans hLive'
      cases hHollow.2
    | deleted at_ open_ gone => cases gone.symm.trans hLive'

/-- A setting without a payload that is described anew as read-only is hollow. -/
theorem Commit.hollowAt (h : Commit now t o t' r) (hSeals : o.Seals key)
    (hLive : t.getSetting? key = some s) (hNone : s.payload = none) : t'.HollowAt key := by
  obtain ⟨caller, path, input, rfl, hKey, hStatus⟩ := hSeals
  cases h with
  | updateSetting admits writes found =>
    rw [History.getSetting?_eq hKey, hLive] at found
    cases found
    exact ⟨_, History.getSetting?_putSetting hKey t _, input.hollow_row now hStatus hNone⟩

theorem Commit.answers_of_seals (h : Commit now t o t' r) (hSeals : o.Seals key) :
    ∃ a, r = .ok a := by
  obtain ⟨caller, path, input, rfl, -⟩ := hSeals
  cases h with
  | updateSetting => exact ⟨_, rfl⟩

/-- What is hollow stays hollow. -/
theorem Commit.hollow_stays (h : Commit now t o t' r) (hHollow : t.HollowAt key) :
    t'.HollowAt key := by
  obtain ⟨s, hLive, hReadOnly, hNone⟩ := hHollow
  have hFinal : Finalised key.stored s t t' := h.finalised hReadOnly (.refl hLive)
  obtain ⟨s', hLive', hSame⟩ := hFinal.live
  refine ⟨s', hLive', hSame.isReadOnly hReadOnly, ?_⟩
  rw [hSame.only]
  exact hNone

theorem Tables.Whole.version_of_empty (hWhole : t.Whole) (hLive : t.getSetting? key = some s)
    (hNone : s.payload = none) : s.version = .int 1 := by
  obtain ⟨past, hKept⟩ := hWhole.history key
  cases hKept with
  | absent live => cases live.symm.trans hLive
  | present live row filled =>
    cases live.symm.trans hLive
    have hAlone := filled.current (row.payload.symm.trans hNone)
    rw [row.version, History.number, hAlone]
    rfl

theorem Snapshot.SameContents.hollowAt (h : SameContents t t') (hHollow : t'.HollowAt key) :
    t.HollowAt key := by
  obtain ⟨s, hLive, hHollow⟩ := hHollow
  exact ⟨s, (Table.get?_of_perm h.settings _).symm.trans hLive, hHollow⟩

end Writes

/-! ## Calls -/

/-- A call has made a setting without a payload read-only, which it was not. -/
def Completion.Hollows (key : SettingKey) (t : Tables) (c : Completion) : Prop :=
  ∃ now o a, c.task = .operation now o ∧ c.result = .ok a ∧ o.Seals key ∧
    ∃ s, t.getSetting? key = some s ∧ s.payload = none ∧ s.isReadOnly = false

section Calls

variable {asked : Int → Operation → Prop} {w w' : World} {c : Completion} {key : SettingKey}

theorem Server.Sound.kind {service : Principal} {s : Server} {e : Event}
    (hs : s.Sound (Task.Asks asked)) (hCalls : Server.Calls (Task.Asks asked) [e])
    (hEnded : (s.step service e).2 = some c) : c.task.Asks asked := by
  have hSteps := (Server.step_spec service hs e hCalls).2
  generalize s.step service e = next at hSteps hEnded
  cases hSteps with
  | waits same => cases hEnded
  | ends about kind segment =>
    cases hEnded
    exact kind

theorem Completion.Hollows.of_segment (hAccepted : ∀ now o, asked now o → o.Accepted)
    (hTask : c.task.Asks asked) (h : c.task.Segment w w' c.result)
    (hBefore : ¬ w.tables.HollowAt key) (hAfter : w'.tables.HollowAt key) :
    c.Hollows key w.tables := by
  obtain ⟨id, task, result⟩ := c
  cases h with
  | loaded | notLoaded => cases hTask
  | @operation now o w w' r segment =>
    rcases segment.tables with hSame | commit
    · rw [hSame] at hAfter
      exact (hBefore hAfter).elim
    · obtain ⟨hSeals, hRow⟩ := commit.of_hollow (hAccepted now o hTask) hBefore hAfter
      obtain ⟨a, rfl⟩ := commit.answers_of_seals hSeals
      exact ⟨now, o, a, rfl, rfl, hSeals, hRow⟩

theorem Completion.Hollows.hollowAt (hHollows : c.Hollows key w.tables)
    (h : c.task.Segment w w' c.result) :
    ¬ w.tables.HollowAt key ∧ w'.tables.HollowAt key := by
  obtain ⟨id, task, result⟩ := c
  obtain ⟨now, o, a, hTask, hResult, hSeals, s, hLive, hNone, hOpen⟩ := hHollows
  dsimp only at hTask hResult h
  subst hTask hResult
  constructor
  · rintro ⟨s', hLive', hReadOnly, -⟩
    cases hLive.symm.trans hLive'
    rw [hOpen] at hReadOnly
    cases hReadOnly
  · obtain ⟨caller, path, input, rfl, hRest⟩ := hSeals
    cases h with
    | operation segment =>
      cases segment with
      | answered _ quiet => cases quiet
      | recorded asked => cases asked
      | committed commit => exact commit.hollowAt ⟨caller, path, input, rfl, hRest⟩ hLive hNone

end Calls

/-! ## States of a service -/

namespace Server

variable {service : Principal} {begun : Config → Prop} {asked : Int → Operation → Prop} {s : Server}

theorem Lived.sealed_of_hollow (hAccepted : ∀ now o, asked now o → o.Accepted)
    (h : Lived service begun asked s) :
    ∀ key, s.world.tables.HollowAt key → ∃ now o, asked now o ∧ o.Seals key := by
  refine h.holds (I := fun t => ∀ key, t.HollowAt key → ∃ now o, asked now o ∧ o.Seals key) ?_ ?_ ?_
  · rintro c _ key ⟨s, hLive, -⟩
    cases hLive
  · intro now o t t' r hAsked _ commit hBefore key hHollow
    by_cases hStill : t.HollowAt key
    · exact hBefore key hStill
    · obtain ⟨hSeals, -⟩ := commit.of_hollow (hAccepted now o hAsked) hStill hHollow
      exact ⟨now, o, hAsked, hSeals⟩
  · intro t t' hSame hBefore key hHollow
    exact hBefore key (hSame.hollowAt hHollow)

/-- A read-only setting has a payload, or it has never had one and has been made read-only by a change
of its status. Such changes, and no other calls, make a setting read-only without a payload, and it
remains so. -/
theorem read_only_without_payload (hAccepted : ∀ now o, asked now o → o.Accepted)
    (h : Lived service begun asked s) :
    (∀ row ∈ s.world.tables.settings.rows, row.2.isReadOnly = true →
      row.2.payload.isSome = true ∨ row.2.version = .int 1 ∧
        ∃ key now o, row.1 = key.stored ∧ asked now o ∧ o.Seals key) ∧
    (∀ e c key, Calls (Task.Asks asked) [e] → (s.step service e).2 = some c →
      (¬ s.world.tables.HollowAt key ∧ (s.step service e).1.world.tables.HollowAt key ↔
        c.Hollows key s.world.tables)) ∧
    ∀ events key, Calls (fun task => task.isLoad = false) events → s.world.tables.HollowAt key →
      (s.run service events).1.world.tables.HollowAt key := by
  refine ⟨?_, ?_, ?_⟩
  · intro row hRow hReadOnly
    obtain ⟨key, hKey, -, hLive⟩ := h.whole.row_live hRow
    cases hPayload : row.2.payload with
    | some payload => exact Or.inl rfl
    | none =>
      obtain ⟨now, o, hAsked, hSeals⟩ :=
        h.sealed_of_hollow hAccepted key ⟨row.2, hLive, hReadOnly, hPayload⟩
      exact Or.inr ⟨h.whole.version_of_empty hLive hPayload, key, now, o, hKey, hAsked, hSeals⟩
  · intro e c key hCalls hEnded
    have hSegment := h.sound.segment hEnded
    constructor
    · rintro ⟨hBefore, hAfter⟩
      exact .of_segment hAccepted (h.sound.kind hCalls hEnded) hSegment hBefore hAfter
    · exact fun hHollows => hHollows.hollowAt hSegment
  · intro events key hCalls hHollow
    exact tables_run (fun _ _ _ _ _ commit => commit.hollow_stays) service events
      (h.fromEmpty.sound) hCalls hHollow

namespace Sample

def emptySetting : NewSetting := { newSetting with payload := none }

/-- A setting is created without a payload and then made read-only. -/
def omission : List Event := founding ++
  [.call 1 (.operation 20 (.createSetting owner (path 0) emptySetting))]

def unfilled : Server := ((idle (.ofConfig config)).run owner omission).1

theorem omission_accepted : Calls (Task.Asks fun _ o => o.Accepted) omission := by
  have hPath : SettingPath.ofFields [("ns", .text "vault"), ("key", .bytes [7])] = .good (path 0) := rfl
  have hNamespace : NewNamespace.ofFields [("name", .text "vault"), ("managers",
      .list [.principal owner])] = .good newNamespace := rfl
  have hSetting : NewSetting.ofFields [] = .good emptySetting := rfl
  intro id task hMem
  simp only [omission, founding, List.cons_append, List.nil_append, List.mem_cons, List.not_mem_nil,
    Event.call.injEq, or_false] at hMem
  rcases hMem with ⟨-, rfl⟩ | ⟨-, rfl⟩
  · exact ⟨_, hNamespace⟩
  · exact ⟨⟨_, hPath⟩, _, hSetting⟩

theorem sealing_accepted : Calls (Task.Asks fun _ o => o.Accepted) [sealing] := by
  have hPath : SettingPath.ofFields [("ns", .text "vault"), ("key", .bytes [7])] = .good (path 0) := rfl
  have hChange : SettingChange.ofFields [("status", .number 1)] = .good ⟨none, some 1, none⟩ := rfl
  intro id task hMem
  cases List.mem_singleton.mp hMem
  exact ⟨⟨_, hPath⟩, _, hChange⟩

theorem unfilled_setting_sealed :
    Lived owner Config.Valid (fun _ o => o.Accepted) unfilled ∧
      Calls (Task.Asks fun _ o => o.Accepted) [sealing] ∧
      ¬ unfilled.world.tables.HollowAt ((path 0).toKey owner) ∧
      (unfilled.step owner sealing).1.world.tables.HollowAt ((path 0).toKey owner) ∧
      Calls (fun task => task.isLoad = false) attempts ∧
      ((unfilled.step owner sealing).1.run owner attempts).1.world.tables.HollowAt
        ((path 0).toKey owner) := by
  have hAccepted : ∀ (now : Int) (o : Operation), o.Accepted → o.Accepted := fun _ _ h => h
  have hLived : Lived owner Config.Valid (fun _ o => o.Accepted) unfilled :=
    (Lived.start ⟨fields, rfl⟩).run omission_accepted
  obtain ⟨-, hOnly, -⟩ := read_only_without_payload hAccepted hLived
  have hHollows : Completion.Hollows ((path 0).toKey owner) unfilled.world.tables
      ⟨3, .operation 40 (.updateSetting owner (path 0) ⟨none, some 1, none⟩),
        .ok (.stamp ⟨.int 20, .int 40, .int 1⟩)⟩ :=
    ⟨40, _, _, rfl, rfl, ⟨owner, path 0, _, rfl, rfl, rfl⟩, _, rfl, rfl, rfl⟩
  obtain ⟨hBefore, hAfter⟩ := (hOnly sealing _ _ sealing_accepted rfl).mpr hHollows
  obtain ⟨-, -, hStays⟩ := read_only_without_payload hAccepted (hLived.step sealing sealing_accepted)
  exact ⟨hLived, sealing_accepted, hBefore, hAfter, attempts_call,
    hStays attempts _ attempts_call hAfter⟩

end Sample

end Server

end TenantVault
