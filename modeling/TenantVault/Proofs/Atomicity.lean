import TenantVault.Proofs.Frame
import TenantVault.Proofs.Server

/-! # Calls that fail

A call that fails is as if it had never been made: without its events the run of all other calls is
the same. The one exception is a write of a setting in a namespace whose byte count is not a number,
which only a snapshot can bring about; such a write breaks off when the rows of that setting have
changed already.
-/

namespace TenantVault

/-- A task that brings in no byte counts but whole numbers. -/
def Task.KeepsCounts : Task → Prop
  | operation .. => True
  | load snapshot => ∀ t, Snapshot.parse snapshot = .ok t → t.Counted

/-- The operations that end with bringing a byte count up to date. -/
def Operation.settles : Operation → Bool
  | createSetting .. | updatePayload .. | deleteSetting .. => true
  | _ => false

/-- What is left by a write of a setting that cannot bring the byte count of the namespace up to
date. -/
structure BreaksOff (o : Operation) (key : SettingKey) (why : Failure) (t t' : Tables) : Prop where
  settles : o.settles = true
  written : o.settingKey? = some key
  uncounted : ∃ ns n, t.namespaces.get? (.text key.ns) = some ns ∧
    ns.payloadBytes.plus n = .error why
  governance : t'.governance = t.governance
  namespaces : t'.namespaces = t.namespaces
  others : ∀ k, (key.current.stored == k.current) = false → SameRows k t t'

/-! ## The failure of a segment -/

section Failures

variable {now : Int} {t t' : Tables} {o : Operation} {w w' : World} {why : Failure}

/-- A write that settles fails only over the byte count, and then its rows are written and all else
is as before. -/
theorem breaksOff_of_settle {α β : Type} {f : α → β} {name : String} {key : SettingKey}
    {ns : Namespace} {base : Tables} {count : Result Json} {a : α} (hSettles : o.settles = true)
    (hWritten : o.settingKey? = some key) (hFound : t.namespaces.get? (.text key.ns) = some ns)
    (hCount : count = .error why → ∃ n, ns.payloadBytes.plus n = .error why)
    (hGovernance : base.governance = t.governance) (hNamespaces : base.namespaces = t.namespaces)
    (hOthers : ∀ k, (key.current.stored == k.current) = false →
      SameRows k t (base.settle name ns count a).1)
    (hFailed : (base.settle name ns count a).2.map f = .error why) :
    BreaksOff o key why t (base.settle name ns count a).1 := by
  cases count with
  | ok count => cases hFailed
  | error why' =>
    cases hFailed
    obtain ⟨n, hPlus⟩ := hCount rfl
    exact ⟨hSettles, hWritten, ⟨ns, n, hFound, hPlus⟩, hGovernance, hNamespaces, hOthers⟩

theorem Commit.breaksOff (h : Commit now t o t' (.error why)) :
    ∃ key, BreaksOff o key why t t' := by
  have hOthers {key : SettingKey} (hWritten : o.settingKey? = some key) (k : StoredKey)
      (hApart : (key.current.stored == k.current) = false) : SameRows k t t' :=
    h.sameRows_of_apart hWritten hApart
  generalize hResult : (Except.error why : Result Answer) = r at h
  cases h with
  | createSetting admits writes =>
    refine ⟨_, breaksOff_of_settle rfl rfl writes.found ?_ rfl rfl (hOthers rfl) hResult.symm⟩
    intro hCount
    exact ⟨_, hCount⟩
  | updatePayload admits writes =>
    refine ⟨_, breaksOff_of_settle rfl rfl writes.found ?_ (Tables.governance_archivePayload ..)
      (Tables.namespaces_archivePayload ..) (hOthers rfl) hResult.symm⟩
    intro hCount
    exact ⟨_, hCount⟩
  | deleteSetting admits writes =>
    refine ⟨_, breaksOff_of_settle rfl rfl writes.found ?_ rfl rfl (hOthers rfl) hResult.symm⟩
    intro hCount
    exact ⟨_, (map_eq_error_iff _ _ why).mp hCount⟩
  | _ => cases hResult

/-- A failure changes nothing, or it is that of a write that breaks off. -/
theorem Task.Segment.of_error {task : Task} (h : task.Segment w w' (.error why)) :
    w' = w ∨ ∃ now o key, task = .operation now o ∧ BreaksOff o key why w.tables w'.tables ∧
      w' = w.withTables w'.tables := by
  cases h with
  | notLoaded => exact Or.inl rfl
  | operation segment =>
    cases segment with
    | refused => exact Or.inl rfl
    | committed commit =>
      obtain ⟨key, hBreaks⟩ := commit.breaksOff
      exact Or.inr ⟨_, _, key, rfl, hBreaks, rfl⟩

theorem Task.Segment.counted {task : Task} {r : Result Answer} (h : task.Segment w w' r)
    (hTask : task.KeepsCounts) (hCounted : w.tables.Counted) :
    w'.tables.Counted ∧ (r.isOk = false → w' = w) := by
  cases h with
  | loaded parsed => exact ⟨hTask _ parsed, nofun⟩
  | notLoaded => exact ⟨hCounted, fun _ => rfl⟩
  | operation segment =>
    cases segment with
    | refused => exact ⟨hCounted, fun _ => rfl⟩
    | answered => exact ⟨hCounted, fun _ => rfl⟩
    | recorded => exact ⟨hCounted, nofun⟩
    | committed commit =>
      obtain ⟨hAfter, a, rfl⟩ := commit.counted hCounted
      exact ⟨hAfter, nofun⟩

end Failures

/-! ## Runs without the calls that fail -/

namespace Server

/-- Two servers that differ at most in waiting calls that are left out. -/
structure Agree (dropped : Nat → Bool) (s s' : Server) : Prop where
  world : s'.world = s.world
  waiting : ∀ id, dropped id = false → s'.waiting id = s.waiting id

section Agreement

variable {dropped : Nat → Bool} {s s' : Server}

theorem Agree.hold (h : Agree dropped s s') (w : World) (id : Nat) (p : Option Pending) :
    Agree dropped ({ s with world := w }.hold id p) ({ s' with world := w }.hold id p) := by
  constructor
  · rfl
  · intro i hKept
    rw [waiting_hold, waiting_hold]
    split
    · rfl
    · exact h.waiting i hKept

theorem Agree.advance (h : Agree dropped s s') (id : Nat) (task : Task) (o : Outcome Answer) :
    (s'.advance id task o).2 = (s.advance id task o).2 ∧
      Agree dropped (s.advance id task o).1 (s'.advance id task o).1 := by
  obtain ⟨w, waiting⟩ := s
  obtain ⟨w', waiting'⟩ := s'
  cases h.world
  cases o with
  | done w' r => exact ⟨rfl, h.hold w' id none⟩
  | ask q resume => exact ⟨rfl, h.hold w id _⟩
  | draw size resume => exact ⟨rfl, h.hold w id _⟩

theorem Agree.step (service : Principal) (h : Agree dropped s s') {e : Event}
    (hKept : dropped e.id = false) :
    (s'.step service e).2 = (s.step service e).2 ∧
      Agree dropped (s.step service e).1 (s'.step service e).1 := by
  cases e with
  | call id task =>
    unfold Server.step
    rw [h.world]
    exact h.advance id task _
  | reply id reply =>
    unfold Server.step
    dsimp only
    rw [h.world, h.waiting id hKept]
    split
    · exact h.advance id _ _
    · exact ⟨rfl, h⟩
  | random id octets =>
    unfold Server.step
    dsimp only
    rw [h.world, h.waiting id hKept]
    split
    · exact h.advance id _ _
    · exact ⟨rfl, h⟩

/-- A step for a call that is left out can be left out if it does not change the world. -/
theorem Agree.skip (service : Principal) (h : Agree dropped s s') {e : Event}
    (hDropped : dropped e.id = true) (hSame : (s.step service e).1.world = s.world) :
    Agree dropped (s.step service e).1 s' := by
  constructor
  · exact h.world.trans hSame.symm
  · intro id hKept
    have hOther : id ≠ e.id := by
      rintro rfl
      rw [hKept] at hDropped
      cases hDropped
    rw [waiting_step hOther]
    exact h.waiting id hKept

theorem Steps.counted {e : Event} {s₁ : Server} {ended : Option Completion}
    (h : Steps s e Task.KeepsCounts (s₁, ended)) (hCounted : s.world.tables.Counted) :
    s₁.world.tables.Counted ∧ (∀ c, ended = some c → c.id = e.id) ∧
      ((∀ c, ended = some c → c.result.isOk = false) → s₁.world = s.world) := by
  cases h with
  | waits same =>
    refine ⟨same ▸ hCounted, ?_, fun _ => same⟩
    rintro _ ⟨⟩
  | @ends _ c about kind segment =>
    obtain ⟨hAfter, hSame⟩ := segment.counted kind hCounted
    refine ⟨hAfter, ?_, fun hFails => hSame (hFails c rfl)⟩
    rintro _ ⟨⟩
    exact about

theorem filter_ended {ended : Option Completion} {id : Nat}
    (hAbout : ∀ c, ended = some c → c.id = id) :
    ended.toList.filter (fun c => !dropped c.id) =
      if dropped id = true then [] else ended.toList := by
  cases ended with
  | none => simp
  | some c =>
    rw [← hAbout c rfl]
    cases h : dropped c.id <;> simp [h]

/-- Without some of the calls that fail a run ends in the same world, with the same other calls. -/
theorem Agree.run (service : Principal) {events : List Event} (hAgree : Agree dropped s s')
    (hs : s.Sound Task.KeepsCounts) (hCounted : s.world.tables.Counted)
    (hCalls : Calls Task.KeepsCounts events)
    (hFails : ∀ c ∈ (s.run service events).2, dropped c.id = true → c.result.isOk = false) :
    (s'.run service (events.filter fun e => !dropped e.id)).2 =
        (s.run service events).2.filter (fun c => !dropped c.id) ∧
      Agree dropped (s.run service events).1
        (s'.run service (events.filter fun e => !dropped e.id)).1 := by
  induction events generalizing s s' with
  | nil => exact ⟨rfl, hAgree⟩
  | cons e events ih =>
    obtain ⟨hSound, hSteps⟩ := step_spec service hs e hCalls.head
    obtain ⟨s₁, ended, hStep⟩ : ∃ s₁ ended, s.step service e = (s₁, ended) := ⟨_, _, rfl⟩
    rw [hStep] at hSound hSteps
    obtain ⟨hAfter, hAbout, hSame⟩ := hSteps.counted hCounted
    have hRun : s.run service (e :: events) =
        ((s₁.run service events).1, ended.toList ++ (s₁.run service events).2) := by
      rw [Server.run, hStep]
    rw [hRun] at hFails ⊢
    have hRest : ∀ c ∈ (s₁.run service events).2, dropped c.id = true → c.result.isOk = false := by
      intro c hMem
      exact hFails c (List.mem_append_right _ hMem)
    dsimp only
    rw [List.filter_append, filter_ended hAbout]
    cases hDropped : dropped e.id with
    | true =>
      -- Either the call waits, or it ends here and fails; in both cases nothing has changed.
      have hSilent : s₁.world = s.world := by
        apply hSame
        intro c hEnded
        apply hFails c
        · apply List.mem_append_left
          rw [hEnded]
          exact List.mem_singleton_self c
        · rw [hAbout c hEnded]
          exact hDropped
      have hSkip : Agree dropped s₁ s' := by
        have hSkip := hAgree.skip service hDropped (by rw [hStep]; exact hSilent)
        rw [hStep] at hSkip
        exact hSkip
      rw [if_pos rfl, List.nil_append, List.filter_cons_of_neg (by simp [hDropped])]
      exact ih hSkip hSound hAfter hCalls.tail hRest
    | false =>
      obtain ⟨hEnded, hNext⟩ := hAgree.step service hDropped
      rw [hStep] at hEnded hNext
      obtain ⟨hCompletions, hEnd⟩ := ih hNext hSound hAfter hCalls.tail hRest
      rw [if_neg Bool.false_ne_true, List.filter_cons_of_pos (by simp [hDropped]), Server.run]
      dsimp only
      rw [hEnded, hCompletions]
      exact ⟨rfl, hEnd⟩

end Agreement

theorem Steps.of_failure {s s' : Server} {e : Event} {allowed : Task → Prop} {c : Completion}
    (h : Steps s e allowed (s', some c)) {why : Failure} (hFailed : c.result = .error why) :
    s'.world = s.world ∨ ∃ now o key, c.task = .operation now o ∧
      BreaksOff o key why s.world.tables s'.world.tables ∧
        s'.world = s.world.withTables s'.world.tables := by
  cases h with
  | ends about kind segment =>
    rw [hFailed] at segment
    exact segment.of_error

/-- Calls that fail leave no trace in runs whose snapshots give whole byte counts; and in every run
only a write that breaks off leaves any. -/
theorem failures_leave_no_trace (service : Principal) (g : Governance) (events : List Event) :
    (Calls Task.KeepsCounts events → ∀ dropped : Nat → Bool,
      (∀ c ∈ ((empty g).run service events).2, dropped c.id = true → c.result.isOk = false) →
      ((empty g).run service (events.filter fun e => !dropped e.id)).1.world =
          ((empty g).run service events).1.world ∧
        ((empty g).run service (events.filter fun e => !dropped e.id)).2 =
          ((empty g).run service events).2.filter fun c => !dropped c.id) ∧
    ∀ e s c why, ((empty g).run service events).1.step service e = (s, some c) →
      c.result = .error why →
      s.world = ((empty g).run service events).1.world ∨
      ∃ now o key, c.task = .operation now o ∧
        BreaksOff o key why ((empty g).run service events).1.world.tables s.world.tables ∧
        s.world = ((empty g).run service events).1.world.withTables s.world.tables := by
  constructor
  · intro hCalls dropped hFails
    have hAgree : Agree dropped (empty g) (empty g) := ⟨rfl, fun _ _ => rfl⟩
    have hCounted : (empty g).world.tables.Counted := nofun
    obtain ⟨hCompletions, hEnd⟩ := hAgree.run service (empty_sound _ g) hCounted hCalls hFails
    exact ⟨hEnd.world, hCompletions⟩
  · intro e s c why hStep hFailed
    have hSteps : Steps ((empty g).run service events).1 e (fun _ => True)
        (((empty g).run service events).1.step service e) := steps_after_run service _ events e
    rw [hStep] at hSteps
    exact hSteps.of_failure hFailed

namespace Sample

/-- An update that comes too late, since the version that it is meant to follow is no longer the
current one. -/
def lateUpdate : Event := .call 3 (.operation 40 (.updatePayload owner (path 0) payloadChange))

theorem late_update_leaves_no_trace :
    Calls Task.KeepsCounts (events ++ [lateUpdate]) ∧
      (∀ c ∈ ((empty governance).run owner (events ++ [lateUpdate])).2,
        (c.id == 3) = true → c.result.isOk = false) ∧
      ((empty governance).run owner
          ((events ++ [lateUpdate]).filter fun e => !(e.id == 3))).1.world =
        ((empty governance).run owner (events ++ [lateUpdate])).1.world ∧
      ∃ s c why, ((empty governance).run owner events).1.step owner lateUpdate = (s, some c) ∧
        c.result = .error why ∧
        (s.world = ((empty governance).run owner events).1.world ∨
          ∃ now o key, c.task = .operation now o ∧
            BreaksOff o key why ((empty governance).run owner events).1.world.tables
              s.world.tables ∧
            s.world = ((empty governance).run owner events).1.world.withTables s.world.tables) := by
  have hCalls : Calls Task.KeepsCounts (events ++ [lateUpdate]) := by
    intro id task hMem
    simp only [events, lateUpdate, List.cons_append, List.nil_append, List.mem_cons,
      List.not_mem_nil, Event.call.injEq, or_false] at hMem
    rcases hMem with ⟨-, rfl⟩ | ⟨-, rfl⟩ | ⟨-, rfl⟩ | ⟨-, rfl⟩ <;> trivial
  have hFails : ∀ c ∈ ((empty governance).run owner (events ++ [lateUpdate])).2,
      (c.id == 3) = true → c.result.isOk = false := by decide
  obtain ⟨hErased, -⟩ := failures_leave_no_trace owner governance (events ++ [lateUpdate])
  obtain ⟨-, hStep⟩ := failures_leave_no_trace owner governance events
  exact ⟨hCalls, hFails, (hErased hCalls (· == 3) hFails).1, _, _, _, rfl, rfl,
    hStep lateUpdate _ _ _ rfl rfl⟩

/-- The snapshot of a namespace without a byte count, managed by the principal without octets. -/
def uncounted : String :=
  (Json.object [
    ("version", .int Snapshot.formatVersion),
    ("namespaces", .list [.object [
      ("name", .text "vault"),
      ("payload_bytes_total", .text "many"),
      ("managers", .list [.text "aaaaa-aa"])]])]).render

def interrupted : List Event := [
  .call 0 (.load uncounted),
  .call 1 (.operation 20 (.createSetting ⟨[], Nat.zero_le _⟩ (path 0) newSetting))]

/-- The second call fails, but the setting stays. -/
theorem failure_leaves_setting :
    (∀ c ∈ ((empty governance).run owner interrupted).2, (c.id == 1) = true →
      c.result.isOk = false) ∧
      ((empty governance).run owner (interrupted.filter fun e => !(e.id == 1))).1.world ≠
        ((empty governance).run owner interrupted).1.world := by
  constructor
  · decide +kernel
  · intro hSame
    have hSize := congrArg (fun w : World => w.tables.settings.size) hSame
    revert hSize
    decide +kernel

end Sample

end Server

end TenantVault
