import TenantVault.Proofs.Integrity

/-! # What a service has been asked

The records that operations take are read from fields, and a record that was read satisfies the
conditions of its kind. A service that has begun with a configuration of some kind and has been asked
for operations of some kind only is in a state in which everything holds that held at its beginning
and that every write of such an operation preserves.
-/

namespace TenantVault

/-! ## Fields that were read -/

namespace Entry

variable {α : Type} {fields : Fields} {name : String} {reader : Reader α} {a : α}

theorem exists_of_required (h : required fields name reader = .good a) : ∃ v, reader v = .good a := by
  unfold required at h
  split at h
  · exact ⟨_, (Checked.within_eq_good_iff _ _ _).mp h⟩
  · cases h

theorem exists_of_withDefault {default : α} (h : withDefault fields name default reader = .good a) :
    a = default ∨ ∃ v, reader v = .good a := by
  unfold withDefault at h
  split at h
  · exact Or.inr ⟨_, (Checked.within_eq_good_iff _ _ _).mp h⟩
  · cases h
    exact Or.inl rfl

theorem between_eq_none_iff (low high n : Int) : between low high n = none ↔ low ≤ n ∧ n ≤ high := by
  unfold between
  split
  · exact ⟨nofun, by omega⟩
  · split
    · exact ⟨nofun, by omega⟩
    · exact ⟨fun _ => by omega, fun _ => rfl⟩

theorem atLeast_eq_none_iff (low n : Int) : atLeast low n = none ↔ low ≤ n := by
  unfold atLeast
  split
  · exact ⟨nofun, by omega⟩
  · exact ⟨fun _ => by omega, fun _ => rfl⟩

/-- A value that may be absent, read under a condition, satisfies it. -/
theorem fault?_of_onSome {reader : Reader (Option α)} {fault? : α → Option FieldFault} {a? : Option α}
    (h : withDefault fields name none (fun v => (reader v).refine (onSome fault?)) = .good a?) :
    ∀ a, a? = some a → fault? a = none := by
  rintro a rfl
  rcases exists_of_withDefault h with hAbsent | ⟨v, hRead⟩
  · cases hAbsent
  · exact ((Checked.refine_eq_good_iff _ _ _).mp hRead).2

end Entry

/-! ## Records that were read -/

open Entry Form

/-- The limits that a namespace can set to its payloads. -/
def IsPayloadLimit (n : Int) : Prop := 0 < n ∧ n ≤ maxPayloadSize

theorem Form.payloadSizeFault?_eq_none_iff (n : Int) :
    payloadSizeFault? n = none ↔ IsPayloadLimit n := by
  unfold payloadSizeFault? IsPayloadLimit
  split
  · exact ⟨nofun, by omega⟩
  · split
    · exact ⟨nofun, by omega⟩
    · exact ⟨fun _ => by omega, fun _ => rfl⟩

theorem Form.visibilityFault?_eq_none_iff (n : Int) : visibilityFault? n = none ↔ n = 0 ∨ n = 1 := by
  unfold visibilityFault?
  split
  · next h => exact ⟨fun _ => h, fun _ => rfl⟩
  · next h => exact ⟨nofun, fun hFlag => (h hFlag).elim⟩

theorem Form.anonymous_not_mem_of_readGrantees {v : Entry} {ps : Principals}
    (h : readGrantees v = .good ps) : Principal.anonymous ∉ ps := by
  obtain ⟨-, hFault⟩ := (Checked.refine_eq_good_iff _ _ _).mp h
  rw [Option.map_eq_none_iff, Principals.fault?_eq_none_iff] at hFault
  exact hFault.2

/-- The users and auditors may be anybody. -/
structure NewNamespace.Fit (input : NewNamespace) : Prop where
  visibility : input.visibility = 0 ∨ input.visibility = 1
  maxPayloadSize : ∀ n, input.maxPayloadSize = some n → IsPayloadLimit n
  managers : Principal.anonymous ∉ input.managers
  sessionLifetime : ∀ n, input.sessionLifetime = some n → 0 ≤ n

structure NamespaceChange.Fit (input : NamespaceChange) : Prop where
  maxPayloadSize : ∀ n, input.maxPayloadSize = some n → IsPayloadLimit n
  status : ∀ n, input.status = some n → -1 ≤ n ∧ n ≤ 1
  visibility : ∀ n, input.visibility = some n → n = 0 ∨ n = 1
  sessionLifetime : ∀ n, input.sessionLifetime = some n → 0 ≤ n

structure NewSetting.Fit (input : NewSetting) : Prop where
  status : ∀ n, input.status = some n → 0 ≤ n ∧ n ≤ 1
  contentType : ∀ n, input.contentType = some n → 2 ≤ n ∧ n ≤ 6
  readOnly : input.status = some Setting.readOnly → input.payload.isSome = true

section Records

variable {fields : Fields}

theorem NewNamespace.fit_of_fields {input : NewNamespace} (h : ofFields fields = .good input) :
    input.Fit := by
  rw [ofFields, Checked.seq_eq_good_iff] at h
  simp only [Checked.exists_seq_iff, Checked.exists_map_iff] at h
  obtain ⟨lifetime, hLifetime, users, -, auditors, -, managers, hManagers, limit, hLimit, desc, -,
    visibility, hVisibility, name, -, rfl⟩ := h
  constructor
  case visibility =>
    rcases exists_of_withDefault hVisibility with hDefault | ⟨v, hRead⟩
    · exact Or.inl hDefault
    · exact (visibilityFault?_eq_none_iff _).mp ((Checked.refine_eq_good_iff _ _ _).mp hRead).2
  case maxPayloadSize =>
    intro n hLimit'
    exact (payloadSizeFault?_eq_none_iff n).mp (fault?_of_onSome hLimit n hLimit')
  case managers =>
    obtain ⟨v, hRead⟩ := exists_of_required hManagers
    exact anonymous_not_mem_of_readGrantees hRead
  case sessionLifetime =>
    intro n hLifetime'
    exact (atLeast_eq_none_iff 0 n).mp (fault?_of_onSome hLifetime n hLifetime')

theorem NamespaceChange.fit_of_fields {input : NamespaceChange} (h : ofFields fields = .good input) :
    input.Fit := by
  rw [ofFields, Checked.seq_eq_good_iff] at h
  simp only [Checked.exists_seq_iff, Checked.exists_map_iff] at h
  obtain ⟨lifetime, hLifetime, visibility, hVisibility, status, hStatus, limit, hLimit, desc, -, name, -,
    rfl⟩ := h
  constructor
  case maxPayloadSize =>
    intro n hLimit'
    exact (payloadSizeFault?_eq_none_iff n).mp (fault?_of_onSome hLimit n hLimit')
  case status =>
    intro n hStatus'
    exact (between_eq_none_iff (-1) 1 n).mp (fault?_of_onSome hStatus n hStatus')
  case visibility =>
    intro n hVisibility'
    exact (visibilityFault?_eq_none_iff n).mp (fault?_of_onSome hVisibility n hVisibility')
  case sessionLifetime =>
    intro n hLifetime'
    exact (atLeast_eq_none_iff 0 n).mp (fault?_of_onSome hLifetime n hLifetime')

theorem DelegatorChange.anonymous_not_mem {input : DelegatorChange}
    (h : ofFields fields = .good input) : Principal.anonymous ∉ input.delegators := by
  rw [ofFields, Checked.seq_eq_good_iff] at h
  simp only [Checked.exists_seq_iff, Checked.exists_map_iff] at h
  obtain ⟨delegators, hDelegators, name, -, ns, -, rfl⟩ := h
  obtain ⟨v, hRead⟩ := exists_of_required hDelegators
  exact anonymous_not_mem_of_readGrantees hRead

theorem NewSetting.fit_of_fields {input : NewSetting} (h : ofFields fields = .good input) :
    input.Fit := by
  rw [ofFields, Checked.refine_eq_good_iff, Checked.seq_eq_good_iff] at h
  obtain ⟨h, hFilled⟩ := h
  simp only [Checked.exists_seq_iff, Checked.exists_map_iff] at h
  obtain ⟨dataKey, -, contentType, hContentType, tags, -, status, hStatus, desc, -, payload, -, rfl⟩ := h
  constructor
  case status =>
    intro n hStatus'
    exact (between_eq_none_iff 0 1 n).mp (fault?_of_onSome hStatus n hStatus')
  case contentType =>
    intro n hContentType'
    exact (between_eq_none_iff 2 6 n).mp (fault?_of_onSome hContentType n hContentType')
  case readOnly =>
    rintro hReadOnly
    rw [← Option.ne_none_iff_isSome]
    intro hNone
    rw [if_pos ⟨hReadOnly, hNone⟩] at hFilled
    cases hFilled

theorem PayloadChange.status_of_fields {input : PayloadChange} (h : ofFields fields = .good input) :
    ∀ n, input.status = some n → -1 ≤ n ∧ n ≤ 1 := by
  rw [ofFields, Checked.seq_eq_good_iff] at h
  simp only [Checked.exists_seq_iff, Checked.exists_map_iff] at h
  obtain ⟨deprecated, -, status, hStatus, dataKey, -, payload, -, version, -, rfl⟩ := h
  intro n hStatus'
  exact (between_eq_none_iff (-1) 1 n).mp (fault?_of_onSome hStatus n hStatus')

theorem SettingChange.status_of_fields {input : SettingChange} (h : ofFields fields = .good input) :
    ∀ n, input.status = some n → -1 ≤ n ∧ n ≤ 1 := by
  rw [ofFields, Checked.seq_eq_good_iff] at h
  simp only [Checked.exists_seq_iff, Checked.exists_map_iff] at h
  obtain ⟨tags, -, status, hStatus, desc, -, rfl⟩ := h
  intro n hStatus'
  exact (between_eq_none_iff (-1) 1 n).mp (fault?_of_onSome hStatus n hStatus')

theorem SettingPath.length_key {path : SettingPath} (h : ofFields fields = .good path) :
    path.key.length ≤ maxKeyLength := by
  rw [ofFields, Checked.seq_eq_good_iff] at h
  simp only [Checked.exists_seq_iff, Checked.exists_map_iff] at h
  obtain ⟨version, -, key, hKey, subject, -, userOwned, -, ns, -, rfl⟩ := h
  obtain ⟨v, hRead⟩ := exists_of_required hKey
  obtain ⟨-, hFault⟩ := (Checked.refine_eq_good_iff _ _ _).mp hRead
  dsimp only
  split at hFault
  · cases hFault
  · omega

end Records

/-- A time for which a session can last. -/
def IsLifetime (v : Json) : Prop := ∃ n : Int, v = .int n ∧ 0 ≤ n

theorem NewNamespace.Fit.lifetime_row {input : NewNamespace} (h : input.Fit) (now : Int) :
    IsLifetime (input.row now).sessionLifetime := by
  refine ⟨_, rfl, ?_⟩
  cases hLifetime : input.sessionLifetime with
  | none => decide
  | some n => exact h.sessionLifetime n hLifetime

theorem NamespaceChange.Fit.lifetime_row {input : NamespaceChange} {ns : Namespace} (h : input.Fit)
    (hBefore : IsLifetime ns.sessionLifetime) (now : Int) :
    IsLifetime (input.row ns now).sessionLifetime := by
  rw [row]
  cases hLifetime : input.sessionLifetime with
  | none => exact hBefore
  | some n => exact ⟨n, rfl, h.sessionLifetime n hLifetime⟩

/-! ## Operations that were asked for -/

/-- The records that an operation takes were read from fields. -/
def Operation.Accepted : Operation → Prop
  | createNamespace _ input => ∃ fields, NewNamespace.ofFields fields = .good input
  | updateNamespace _ input => ∃ fields, NamespaceChange.ofFields fields = .good input
  | changeDelegators _ _ input => ∃ fields, DelegatorChange.ofFields fields = .good input
  | signDelegation _ input => ∃ fields, DelegationRequest.ofFields fields = .good input
  | createSetting _ path input =>
    (∃ fields, SettingPath.ofFields fields = .good path) ∧
      ∃ fields, NewSetting.ofFields fields = .good input
  | updatePayload _ path input =>
    (∃ fields, SettingPath.ofFields fields = .good path) ∧
      ∃ fields, PayloadChange.ofFields fields = .good input
  | updateSetting _ path input =>
    (∃ fields, SettingPath.ofFields fields = .good path) ∧
      ∃ fields, SettingChange.ofFields fields = .good input
  | encryptedKey _ path input | encryptedSetting _ path input =>
    (∃ fields, SettingPath.ofFields fields = .good path) ∧
      ∃ fields, ExchangeRequest.ofFields fields = .good input
  | getSetting _ path | getSettingInfo _ path | getArchived _ path | changeReaders _ path _ _
  | deleteSetting _ path | servicePublicKey _ path | serviceKey _ path _ =>
    ∃ fields, SettingPath.ofFields fields = .good path
  | _ => True

/-- A task that is one of the operations that are asked for. -/
def Task.Asks (asked : Int → Operation → Prop) : Task → Prop
  | operation now o => asked now o
  | load _ => False

theorem Task.Asks.isLoad {asked : Int → Operation → Prop} {task : Task} (h : task.Asks asked) :
    task.isLoad = false := by
  cases task with
  | operation now o => rfl
  | load snapshot => exact h.elim

def Config.Valid (c : Config) : Prop := ∃ fields, Config.ofFields fields = .good c

namespace Server

/-- A state that a service gets into from a configuration of some kind, by calls for operations of some
kind and by loading snapshots, each of which it has written itself in such a state. -/
inductive Lived (service : Principal) (begun : Config → Prop) (asked : Int → Operation → Prop) :
    Server → Prop
  | start {c : Config} (valid : begun c) : Lived service begun asked (idle (.ofConfig c))
  | step {s : Server} (reached : Lived service begun asked s) (e : Event)
      (calls : Calls (Task.Asks asked) [e]) : Lived service begun asked (s.step service e).1
  | reload {s writer : Server} (reached : Lived service begun asked s)
      (wrote : Lived service begun asked writer) {snapshot : String}
      (written : Snapshot.render writer.world.tables = .ok snapshot) (id : Nat) :
      Lived service begun asked (s.step service (.call id (.load snapshot))).1

section Lives

variable {service : Principal} {begun : Config → Prop} {asked : Int → Operation → Prop} {s : Server}

theorem Lived.sound (h : Lived service begun asked s) : s.Sound (Task.Asks asked) := by
  induction h with
  | start valid => exact idle_sound _ _
  | step reached e calls ih => exact (step_spec service ih e calls).1
  | reload reached wrote written id ih => exact ih.load id _

theorem Lived.fromEmpty (h : Lived service begun asked s) : FromEmpty service s := by
  induction h with
  | start valid => exact .start _
  | step reached e calls ih =>
    refine ih.step e ?_
    rintro id snapshot rfl
    exact calls id _ List.mem_cons_self
  | reload reached wrote written id ih ihWriter => exact ih.reload ihWriter written id

/-- Every state from empty tables is one that some configuration and some operations lead to. -/
theorem FromEmpty.lived (h : FromEmpty service s) :
    Lived service (fun _ => True) (fun _ _ => True) s := by
  induction h with
  | start c => exact .start trivial
  | step reached e operation ih =>
    refine ih.step e ?_
    intro id task hMem
    cases task with
    | operation now o => trivial
    | load snapshot => exact operation id snapshot (List.mem_singleton.mp hMem).symm
  | reload reached wrote written id ih ihWriter => exact ih.reload ihWriter written id

theorem Lived.whole (h : Lived service begun asked s) : s.world.tables.Whole :=
  h.fromEmpty.whole

theorem Lived.run (h : Lived service begun asked s) {events : List Event}
    (hCalls : Calls (Task.Asks asked) events) : Lived service begun asked (s.run service events).1 := by
  induction events generalizing s with
  | nil => exact h
  | cons e events ih => exact ih (h.step e hCalls.head) hCalls.tail

/-- What holds at the beginning, is preserved by every write of an operation that is asked for and does
not depend on the order of rows holds in all such states. -/
theorem Lived.holds {I : Tables → Prop} (starts : ∀ c, begun c → I (World.ofConfig c).tables)
    (commits : ∀ now o t t' r, asked now o → t.Whole → Commit now t o t' r → I t → I t')
    (reloads : ∀ t t', Snapshot.SameContents t t' → I t → I t') (h : Lived service begun asked s) :
    I s.world.tables := by
  induction h with
  | start valid => exact starts _ valid
  | @step s reached e calls ih =>
    have hSteps := (step_spec service reached.sound e calls).2
    generalize s.step service e = next at hSteps ⊢
    cases hSteps with
    | waits same =>
      rw [same]
      exact ih
    | @ends s' c about kind segment =>
      obtain ⟨_, task, result⟩ := c
      cases task with
      | load => cases kind
      | operation now o =>
        cases segment with
        | operation segment =>
          rcases segment.tables with hSame | commit
          · rw [hSame]
            exact ih
          · exact commits now o _ _ _ kind reached.whole commit ih
  | @reload s writer reached wrote snapshot written id ih ihWriter =>
    obtain ⟨t, hParsed, hSame, -⟩ := Snapshot.parse_of_native wrote.whole.native written
    rw [tables_load s id hParsed]
    exact reloads _ _ hSame ihWriter

end Lives

/-! ## A small run of operations that were asked for -/

namespace Sample

theorem events_accepted : Calls (Task.Asks fun _ o => o.Accepted) events := by
  have hPath : SettingPath.ofFields [("ns", .text "vault"), ("key", .bytes [7])] = .good (path 0) := rfl
  have hNamespace : NewNamespace.ofFields [("name", .text "vault"), ("managers",
      .list [.principal owner])] = .good newNamespace := rfl
  have hSetting : NewSetting.ofFields [("payload", .bytes [1])] = .good newSetting := rfl
  have hChange : PayloadChange.ofFields [("version", .number 1), ("payload", .bytes [2]),
      ("deprecate_current", .flag true)] = .good payloadChange := rfl
  intro id task hMem
  simp only [events, List.mem_cons, List.not_mem_nil, Event.call.injEq, or_false] at hMem
  rcases hMem with ⟨-, rfl⟩ | ⟨-, rfl⟩ | ⟨-, rfl⟩
  · exact ⟨_, hNamespace⟩
  · exact ⟨⟨_, hPath⟩, _, hSetting⟩
  · exact ⟨⟨_, hPath⟩, _, hChange⟩

theorem configured_lived : Lived owner Config.Valid (fun _ o => o.Accepted) configured :=
  (Lived.start ⟨fields, rfl⟩).run events_accepted

end Sample

end Server

end TenantVault
