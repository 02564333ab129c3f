import TenantVault.Proofs.Accounting

/-! # What a deletion gives back

The count of a namespace is what its live settings hold and a surplus. A deletion takes off what the live
row holds, and it always finds that much in the count. What an update has replaced stays in the surplus:
it is not taken off when the setting is deleted together with its earlier versions.
-/

namespace TenantVault

/-! ## Live settings and what is counted beside them -/

/-- The octets of a version that are not live any more after an update; a data key stays if none is
given. -/
def Version.replaced (v : Version) (input : PayloadChange) : Nat :=
  (v.payload.getD []).length + if input.dataKey.isSome then (v.dataKey.getD []).length else 0

/-- What is counted beside the live settings of a namespace after an operation that succeeds, where
`current` gives the live versions before it. -/
def Operation.surplus (current : SettingKey → Option Version) (surplus : String → Nat)
    (o : Operation) (name : String) : Nat :=
  match o with
  | createNamespace _ input => if input.name = name then 0 else surplus name
  | updatePayload caller path input =>
    if path.ns = name then
      surplus name + ((current (path.toKey caller)).map (·.replaced input)).getD 0
    else surplus name
  | _ => surplus name

theorem Operation.surplus_of_quiet {o : Operation} (h : o.writesTables = false)
    (current : SettingKey → Option Version) (surplus : String → Nat) :
    o.surplus current surplus = surplus := by
  cases o with
  | createNamespace | updatePayload => cases h
  | _ => rfl

theorem Operation.surplus_updatePayload {current : SettingKey → Option Version} {caller : Principal}
    {path : SettingPath} {v : Version} (hLive : current (path.toKey caller) = some v)
    (surplus : String → Nat) (input : PayloadChange) :
    (updatePayload caller path input).surplus current surplus path.ns =
      surplus path.ns + v.replaced input := by
  unfold Operation.surplus
  dsimp only
  rw [if_pos rfl, hLive, Option.map_some, Option.getD_some]

namespace Tables

/-- The version of a setting that is live. -/
def version? (t : Tables) (key : SettingKey) : Option Version :=
  (t.getSetting? key).map fun s => ⟨s.payload, s.dataKey⟩

/-- The octets that the live settings of a namespace hold. -/
def octets (t : Tables) (name : String) : Nat := t.total Setting.size name

/-- Every namespace counts what its live settings hold, and a surplus. -/
def Covered (t : Tables) (surplus : String → Nat) : Prop :=
  t.Counts fun name n => n = t.octets name + surplus name

variable {t t' : Tables} {surplus surplus' : String → Nat}

theorem octets_settle {α : Type} (base : Tables) (n : String) (ns : Namespace) (count : Result Json)
    (a : α) (name : String) : (base.settle n ns count a).1.octets name = base.octets name :=
  total_congr _ (settings_settle ..) name

theorem Covered.settle {α : Type} {base : Tables} {name : String} {m : Int} (h : t.Covered surplus)
    (hBase : base.namespaces = t.namespaces) (hHere : m = base.octets name + surplus' name)
    (hOther : ∀ other, name ≠ other →
      base.octets other = t.octets other ∧ surplus' other = surplus other)
    (row : Namespace) (a : α) : (base.settle name row (.ok (.int m)) a).1.Covered surplus' := by
  refine Counts.settle h hBase ?_ ?_ row a
  · rw [octets_settle]
    exact hHere
  · intro other n hName hBefore
    obtain ⟨hOctets, hSurplus⟩ := hOther other hName
    rw [octets_settle, hOctets, hSurplus]
    exact hBefore

theorem Covered.putSetting {key : SettingKey} {s s' : Setting} (h : t.Covered surplus)
    (hFound : t.getSetting? key = some s) (hSame : s'.size = s.size) :
    (t.putSetting key s').Covered surplus := by
  refine Counts.mono h (by rfl) ?_
  intro name n hBefore
  have hPut := total_putSetting Setting.size hFound s' name
  rw [hSame] at hPut
  unfold octets at hBefore ⊢
  omega

end Tables

/-! ## Writes -/

section Writes

variable {now : Int} {t t' : Tables} {o : Operation} {r : Result Answer} {surplus : String → Nat}

/-- A count from which no more is taken than it has. -/
theorem Json.taken_int {m n : Int} (h : n ≤ m) :
    ((Json.int m).plus (-n)).map Json.atLeastZero = .ok (.int (m - n)) := by
  rw [Json.plus_int]
  refine congrArg Except.ok ((Json.atLeastZero_int _).trans ?_)
  rw [max_eq_right (by omega), Int.sub_eq_add_neg]

/-- An update adds all that it writes to the count, and replaces a part of what was live. -/
theorem PayloadChange.size_row (input : PayloadChange) (s : Setting) (version : Json) (now : Int) :
    (input.row s version now).size + Version.replaced ⟨s.payload, s.dataKey⟩ input =
      s.size + input.written := by
  unfold Setting.size row Version.replaced written
  cases input.dataKey with
  | none =>
    simp only [Option.none_or, Option.isSome_none, Option.getD_some, Option.getD_none,
      Bool.false_eq_true, if_false, List.length_nil]
    omega
  | some d =>
    simp only [Option.some_or, Option.isSome_some, Option.getD_some, if_true]
    omega

theorem Commit.covered (h : Commit now t o t' r) (hWhole : t.Whole) (hCovered : t.Covered surplus) :
    t'.Covered (o.surplus t.version? surplus) := by
  have hElsewhere (hNone : o.settingKey? = none) (hNotFounding : ∀ name,
      (t.namespaces.get? (.text name)).isSome = true →
        o.surplus t.version? surplus name = surplus name)
      (hFounding : ∀ caller input, o = .createNamespace caller input →
        o.surplus t.version? surplus input.name = 0) :
      t'.Covered (o.surplus t.version? surplus) := by
    have hSettings := Tables.total_congr Setting.size (h.settings_of_elsewhere hNone)
    refine Tables.Counts.elsewhere hCovered h hNone ?_ ?_
    · intro name n hThere hBefore
      rw [Tables.octets, hSettings, hNotFounding name hThere]
      exact hBefore
    · intro caller input hNew hAbsent
      rw [Tables.octets, hSettings, hWhole.total_of_absent _ hAbsent, hFounding caller input hNew]
      rfl
  have hCount {caller : Principal} {path : SettingPath} {ns : Namespace}
      (writes : Writes t caller (path.toKey caller) ns) :
      ns.payloadBytes = .int (t.octets path.ns + surplus path.ns) := by
    obtain ⟨m, hBytes⟩ := (hWhole.native.namespace_of_writes writes).payloadBytes
    rw [hBytes, hCovered path.ns ns m writes.found hBytes]
  cases h with
  | @createNamespace caller input known governs fresh =>
    refine hElsewhere rfl ?_ ?_
    · intro name hThere
      refine if_neg ?_
      rintro rfl
      rw [fresh] at hThere
      cases hThere
    · rintro _ _ ⟨⟩
      exact if_pos rfl
  | @createSetting caller path input ns admits writes live fresh =>
    have hPut (name : String) : (t.putSetting (path.toKey caller) (input.row now)).octets name =
        t.octets name + if path.ns = name then (input.row now).size else 0 :=
      Tables.total_putSetting_fresh Setting.size fresh (input.row now) name
    rw [hCount writes, Json.plus_int]
    refine hCovered.settle (by rfl) ?_ ?_ ns _
    · have hSame : (Operation.createSetting caller path input).surplus t.version? surplus path.ns =
          surplus path.ns := rfl
      rw [hPut, if_pos rfl, hSame]
      omega
    · intro name hName
      rw [hPut, if_neg hName]
      exact ⟨rfl, rfl⟩
  | @updatePayload caller path input ns s version admits writes found _ _ next =>
    have hSettings := t.settings_archivePayload (path.toKey caller) s input.deprecateCurrent now
    have hPut (name : String) : ((t.archivePayload (path.toKey caller) s input.deprecateCurrent
          now).putSetting (path.toKey caller) (input.row s version now)).octets name +
          (if path.ns = name then s.size else 0) =
        t.octets name + if path.ns = name then (input.row s version now).size else 0 := by
      have hTotal := Tables.total_putSetting Setting.size
        ((getSetting?_congr hSettings _).trans found) (input.row s version now) name
      rw [Tables.total_congr _ hSettings] at hTotal
      exact hTotal
    have hSize := input.size_row s version now
    have hLive : t.version? (path.toKey caller) = some ⟨s.payload, s.dataKey⟩ := by
      unfold Tables.version?
      rw [found]
      rfl
    rw [hCount writes, Json.plus_int]
    refine hCovered.settle (by exact t.namespaces_archivePayload ..) ?_ ?_ ns _
    · have hHere := hPut path.ns
      rw [if_pos rfl, if_pos rfl] at hHere
      rw [Operation.surplus_updatePayload hLive]
      omega
    · intro name hName
      have hThere := hPut name
      rw [if_neg hName, if_neg hName] at hThere
      exact ⟨hThere, if_neg hName⟩
  | updateSetting admits writes found => exact hCovered.putSetting found rfl
  | changeReaders admits proper writes found => exact hCovered.putSetting found rfl
  | @deleteSetting caller path ns s admits writes found =>
    have hRemoved (name : String) : (t.removeSetting (path.toKey caller)).octets name +
        (if path.ns = name then s.size else 0) = t.octets name :=
      Tables.total_removeSetting Setting.size found name
    have hHere := hRemoved path.ns
    rw [if_pos rfl] at hHere
    rw [hCount writes, Json.taken_int (by omega)]
    refine hCovered.settle (by rfl) ?_ ?_ ns _
    · have hSame : (Operation.deleteSetting caller path).surplus t.version? surplus path.ns =
          surplus path.ns := rfl
      rw [hSame]
      omega
    · intro name hName
      have hThere := hRemoved name
      rw [if_neg hName] at hThere
      exact ⟨hThere, rfl⟩
  | _ => exact hElsewhere rfl (fun _ _ => rfl) nofun

theorem Snapshot.SameContents.covered (h : SameContents t t') (hCovered : t.Covered surplus) :
    t'.Covered surplus := by
  refine Tables.Counts.mono hCovered h.namespaces ?_
  intro name n hBefore
  rw [Tables.octets, h.total]
  exact hBefore

/-- A deletion has taken off the count of a namespace what the live row held, and the count had it. -/
def GivesBack (key : SettingKey) (t t' : Tables) : Prop :=
  ∃ (ns : Namespace) (s : Setting) (n : Int), t.namespaces.get? (.text key.ns) = some ns ∧
    t.getSetting? key = some s ∧ ns.payloadBytes = .int n ∧ s.size ≤ n ∧
    t'.namespaces.get? (.text key.ns) = some { ns with payloadBytes := .int (n - s.size) }

theorem Commit.givesBack {caller : Principal} {path : SettingPath}
    (h : Commit now t (.deleteSetting caller path) t' r) (hWhole : t.Whole)
    (hCovered : t.Covered surplus) : GivesBack (path.toKey caller) t t' := by
  cases h with
  | @deleteSetting _ _ ns s admits writes found =>
    obtain ⟨m, hBytes⟩ := (hWhole.native.namespace_of_writes writes).payloadBytes
    have hCount : m = t.octets path.ns + surplus path.ns := hCovered path.ns ns m writes.found hBytes
    have hLive : s.size ≤ t.octets path.ns := Tables.le_total Setting.size found
    have hEnough : (s.size : Int) ≤ m := by omega
    refine ⟨ns, s, m, writes.found, found, hBytes, hEnough, ?_⟩
    rw [hBytes, Json.taken_int hEnough, Tables.settle_ok, Tables.get?_putNamespace]
    exact if_pos BEq.rfl

theorem Task.Segment.givesBack {caller : Principal} {path : SettingPath} {w w' : World} {a : Answer}
    (h : (Task.operation now (.deleteSetting caller path)).Segment w w' (.ok a))
    (hWhole : w.tables.Whole) (hCovered : w.tables.Covered surplus) :
    GivesBack (path.toKey caller) w.tables w'.tables := by
  cases h with
  | operation segment =>
    cases segment with
    | answered _ quiet => cases quiet
    | recorded asked => cases asked
    | committed commit => exact commit.givesBack hWhole hCovered

end Writes

/-! ## States of a service -/

namespace Server

variable {service : Principal} {s : Server}

theorem FromEmpty.covered (h : FromEmpty service s) :
    ∃ surplus, s.world.tables.Covered surplus := by
  refine h.lived.holds (I := fun t => ∃ surplus, t.Covered surplus) ?_ ?_ ?_
  · intro c _
    refine ⟨fun _ => 0, ?_⟩
    intro name ns n hFound
    cases hFound
  · rintro now o t t' r - hWhole commit ⟨surplus, hCovered⟩
    exact ⟨_, commit.covered hWhole hCovered⟩
  · rintro t t' hSame ⟨surplus, hCovered⟩
    exact ⟨surplus, hSame.covered hCovered⟩

/-- In every state that a service gets into from empty tables the count of a namespace is not below what
its live settings hold, and every deletion takes off exactly what the row that it removes held. -/
theorem count_covers_live (h : FromEmpty service s) :
    (∀ row ∈ s.world.tables.namespaces.rows, ∃ (name : String) (n : Int), row.1 = .text name ∧
      row.2.payloadBytes = .int n ∧ s.world.tables.octets name ≤ n) ∧
    ∀ e c now caller path a, (s.step service e).2 = some c →
      c.task = .operation now (.deleteSetting caller path) → c.result = .ok a →
      GivesBack (path.toKey caller) s.world.tables (s.step service e).1.world.tables := by
  have hWhole := h.whole
  obtain ⟨surplus, hCovered⟩ := h.covered
  constructor
  · rintro ⟨k, ns⟩ hRow
    obtain ⟨name, rfl⟩ := hWhole.native.names k (Table.keys_of_mem hRow)
    have hFound := Table.get?_of_mem hRow
    obtain ⟨n, hBytes⟩ := (hWhole.native.namespaces name ns hFound).payloadBytes
    have hCount : n = s.world.tables.octets name + surplus name := hCovered name ns n hFound hBytes
    exact ⟨name, n, rfl, hBytes, by omega⟩
  · rintro e ⟨id, task, result⟩ now caller path a hEnded rfl rfl
    exact (h.sound.segment hEnded).givesBack hWhole hCovered

namespace Sample

def removal : Event := .call 3 (.operation 40 (.deleteSetting owner (path 0)))

theorem removal_gives_back : FromEmpty owner configured ∧
    GivesBack ((path 0).toKey owner) configured.world.tables
      (configured.step owner removal).1.world.tables := by
  have hEnded : (configured.step owner removal).2 =
      some ⟨3, .operation 40 (.deleteSetting owner (path 0)), .ok .nothing⟩ := rfl
  obtain ⟨-, hGivesBack⟩ := count_covers_live configured_from_empty
  exact ⟨configured_from_empty, hGivesBack removal _ 40 owner (path 0) .nothing hEnded rfl rfl⟩

end Sample

end Server

/-! ## What is left of deleted settings -/

theorem History.Kept.version?_eq {key : SettingKey} {t : Tables} {past : Option History}
    (h : Kept key t past) : t.version? key = past.map current := by
  unfold Tables.version?
  cases h with
  | absent live =>
    rw [live]
    rfl
  | present live row =>
    rw [live, Option.map_some, row.payload, row.dataKey]
    rfl

/-- The histories of the settings, and what is counted beside the live ones, as they can be read off the
calls that have ended. -/
structure Ledger where
  histories : SettingKey → Option History
  surplus : String → Nat

namespace Ledger

def blank : Ledger := ⟨fun _ => none, fun _ => 0⟩

def version? (l : Ledger) (key : SettingKey) : Option Version := (l.histories key).map History.current

def after (l : Ledger) (c : Completion) : Ledger where
  histories key := History.after key (l.histories key) c
  surplus :=
    match c.task, c.result with
    | .operation _ o, .ok _ => o.surplus l.version? l.surplus
    | _, _ => l.surplus

def of (completions : List Completion) : Ledger := completions.foldl after blank

/-- The tables keep the histories, and the counts are what is live and the surplus. -/
structure Agrees (l : Ledger) (t : Tables) : Prop where
  whole : t.Whole
  kept : ∀ key, History.Kept key t (l.histories key)
  covered : t.Covered l.surplus

variable {l : Ledger} {t : Tables} {w w' : World} {c : Completion} {name : String}

theorem Agrees.version?_eq (h : l.Agrees t) : t.version? = l.version? := by
  funext key
  exact (h.kept key).version?_eq

theorem agrees_ofConfig (c : Config) : blank.Agrees (World.ofConfig c).tables where
  whole := World.whole_ofConfig c
  kept := fun _ => .absent rfl fun _ => rfl
  covered := by
    intro name ns n hFound
    cases hFound

theorem Agrees.segment (h : l.Agrees w.tables) (hTask : c.task.isLoad = false)
    (hSegment : c.task.Segment w w' c.result) : (l.after c).Agrees w'.tables where
  whole := hSegment.preserves (fun _ _ _ _ _ commit => commit.whole) hTask h.whole
  kept := by
    intro key
    have hKeeps : History.Keeps key w (l.histories key) := ⟨h.whole.native.toCounted, h.kept key⟩
    exact (hKeeps.segment (Task.omits_of_not_load key c.task hTask) hSegment).kept
  covered := by
    obtain ⟨id, task, result⟩ := c
    cases hSegment with
    | loaded | notLoaded => cases hTask
    | @operation now o w w' r segment =>
      unfold after
      cases segment with
      | refused why => exact h.covered
      | answered a quiet =>
        dsimp only
        rw [Operation.surplus_of_quiet quiet]
        exact h.covered
      | recorded asked =>
        subst asked
        exact h.covered
      | committed commit =>
        obtain ⟨-, a, rfl⟩ := commit.counted h.whole.native.toCounted
        dsimp only
        rw [← h.version?_eq]
        exact commit.covered h.whole h.covered

/-- A call has updated the payload of a setting in a namespace. -/
def UpdatesIn (name : String) (c : Completion) : Prop :=
  ∃ now caller path input a, c.task = .operation now (.updatePayload caller path input) ∧
    path.ns = name ∧ c.result = .ok a

theorem surplus_after (hNot : ¬ UpdatesIn name c) (hNone : l.surplus name = 0) :
    (l.after c).surplus name = 0 := by
  obtain ⟨id, task, result⟩ := c
  unfold after
  cases task with
  | load => exact hNone
  | operation now o =>
    cases result with
    | error => exact hNone
    | ok a =>
      cases o with
      | createNamespace caller input =>
        exact (if_congr Iff.rfl rfl hNone).trans (ite_self 0)
      | updatePayload caller path input =>
        have hOther : path.ns ≠ name := by
          intro hName
          exact hNot ⟨now, caller, path, input, a, rfl, hName, rfl⟩
        exact (if_neg hOther).trans hNone
      | _ => exact hNone

theorem surplus_of {completions : List Completion} (hNot : ∀ c ∈ completions, ¬ UpdatesIn name c) :
    (of completions).surplus name = 0 := by
  have hFold (l : Ledger) (hNone : l.surplus name = 0) :
      (completions.foldl after l).surplus name = 0 := by
    induction completions generalizing l with
    | nil => exact hNone
    | cons c rest ih =>
      obtain ⟨hFirst, hRest⟩ := List.forall_mem_cons.mp hNot
      exact ih hRest _ (surplus_after hFirst hNone)
  exact hFold blank rfl

end Ledger

namespace Server

/-- After any run from empty tables a namespace counts what its live settings hold and what updates have
replaced in settings of it, whether or not these have been deleted since. So a namespace in which every
setting has been deleted has a count that is not zero as soon as an update has replaced something. -/
theorem count_is_live_and_replaced {service : Principal} {c : Config} {events : List Event}
    {s : Server} {completions : List Completion} {name : String} {ns : Namespace}
    (hCalls : Calls (fun task => task.isLoad = false) events)
    (hRun : (idle (.ofConfig c)).run service events = (s, completions))
    (hFound : s.world.tables.namespaces.get? (.text name) = some ns) :
    ns.payloadBytes = .int (s.world.tables.octets name + (Ledger.of completions).surplus name) ∧
      ((∀ row ∈ s.world.tables.settings.rows, (row.1.ns == .text name) = false) →
        ns.payloadBytes = .int ((Ledger.of completions).surplus name)) ∧
      ((∀ c ∈ completions, ¬ Ledger.UpdatesIn name c) →
        ns.payloadBytes = .int (s.world.tables.octets name)) := by
  have hAgrees := run_preserves Ledger.after (I := fun w l => Ledger.Agrees l w.tables)
    (fun _ _ _ _ hTask hAgrees hSegment => hAgrees.segment hTask hSegment) service events
    (idle_sound _ (.ofConfig c)) hCalls (Ledger.agrees_ofConfig c)
  rw [hRun] at hAgrees
  obtain ⟨n, hBytes⟩ := (hAgrees.whole.native.namespaces name ns hFound).payloadBytes
  have hCount : n = s.world.tables.octets name + (Ledger.of completions).surplus name :=
    hAgrees.covered name ns n hFound hBytes
  subst hCount
  refine ⟨hBytes, ?_, ?_⟩
  · intro hEmpty
    rw [hBytes, Tables.octets, Tables.total_eq_zero _ hEmpty]
    simp
  · intro hNot
    rw [hBytes, Ledger.surplus_of hNot]
    simp

namespace Sample

/-- A setting is created, updated and deleted. -/
def lifetime : List Event := events ++ [removal]

def emptied : Server × List Completion := (idle (.ofConfig config)).run owner lifetime

theorem lifetime_call : Calls (fun task => task.isLoad = false) lifetime := by
  intro id task hMem
  rcases List.mem_append.mp hMem with hEvent | hRemoval
  · exact events_call id task hEvent
  · cases List.mem_singleton.mp hRemoval
    rfl

theorem octet_not_given_back : Calls (fun task => task.isLoad = false) lifetime ∧
    (idle (.ofConfig config)).run owner lifetime = (emptied.1, emptied.2) ∧
    emptied.1.world.tables.settings.rows = [] ∧ emptied.1.world.tables.archived.rows = [] ∧
    ∃ ns, emptied.1.world.tables.namespaces.get? (.text "vault") = some ns ∧
      ns.payloadBytes = .int 1 := by
  have hRun : (idle (.ofConfig config)).run owner lifetime = (emptied.1, emptied.2) := rfl
  have hEmpty : emptied.1.world.tables.settings.rows = [] := rfl
  have hSurplus : (Ledger.of emptied.2).surplus "vault" = 1 := rfl
  obtain ⟨ns, hFound⟩ : ∃ ns, emptied.1.world.tables.namespaces.get? (.text "vault") = some ns :=
    ⟨_, rfl⟩
  obtain ⟨-, hDeleted, -⟩ := count_is_live_and_replaced lifetime_call hRun hFound
  have hBytes := hDeleted (hEmpty ▸ List.forall_mem_nil _)
  rw [hSurplus] at hBytes
  exact ⟨lifetime_call, hRun, hEmpty, rfl, ns, hFound, hBytes⟩

end Sample

end Server

end TenantVault
