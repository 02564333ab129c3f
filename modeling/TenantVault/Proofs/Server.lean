import TenantVault.Proofs.Commit

/-! # Runs of the service

A server is a world and the calls that wait in it. An event starts a call or lets a waiting one go
on with a reply, so a list of events is a run of any number of calls, each interrupted by others
wherever it waits. What every segment of every call preserves, every run preserves, together with
whatever is recorded about the calls that have ended.
-/

namespace TenantVault

/-- What the service is asked to do: an operation at some time, or to go on from a snapshot. -/
inductive Task where
  | operation (now : Int) (o : Operation)
  | load (snapshot : String)

namespace Task

def isLoad : Task → Bool
  | operation .. => false
  | load _ => true

def start (service : Principal) : Task → Call Answer
  | operation now o => o.perform service now
  | load snapshot => fun w => .after w (w.load snapshot) (.finish · .nothing)

/-- What the segment that ends a task does to the world in which it begins. -/
inductive Segment : Task → World → World → Result Answer → Prop
  | operation {now : Int} {o : Operation} {w w' : World} {r : Result Answer}
      (segment : TenantVault.Segment now o w w' r) : Segment (operation now o) w w' r
  | loaded {snapshot : String} {w : World} {t : Tables} (parsed : Snapshot.parse snapshot = .ok t) :
      Segment (load snapshot) w (w.replaceTables t) (.ok .nothing)
  | notLoaded {snapshot : String} {w : World} (why : Failure) :
      Segment (load snapshot) w w (.error why)

/-- What every write preserves, every segment of an operation preserves. -/
theorem Segment.preserves {I : Tables → Prop}
    (preserves : ∀ now o t t' r, Commit now t o t' r → I t → I t') {task : Task} {w w' : World}
    {r : Result Answer} (hTask : task.isLoad = false) (h : task.Segment w w' r) (hI : I w.tables) :
    I w'.tables := by
  cases h with
  | loaded | notLoaded => cases hTask
  | operation segment =>
    rcases segment.tables with hSame | commit
    · rw [hSame]
      exact hI
    · exact preserves _ _ _ _ _ commit hI

theorem each_start (service : Principal) (task : Task) (w : World) :
    (task.start service w).Each task.Segment w := by
  cases task with
  | operation now o => exact (o.each_perform service now w).mono fun _ _ _ h => .operation h
  | load snapshot =>
    refine Outcome.each_after (fun why _ => .notLoaded why) fun w' h => ?_
    simp only [World.load, bind_eq_ok_iff, pure_eq_ok_iff] at h
    obtain ⟨t, hParsed, rfl⟩ := h
    exact .loaded hParsed

end Task

structure Pending where
  task : Task
  outcome : Outcome Answer

structure Completion where
  id : Nat
  task : Task
  result : Result Answer

inductive Event where
  | call (id : Nat) (task : Task)
  | reply (id : Nat) (reply : Reply)
  | random (id : Nat) (octets : Bytes)

def Event.id : Event → Nat
  | call id _ | reply id _ | random id _ => id

structure Server where
  world : World
  waiting : Nat → Option Pending

namespace Server

def idle (w : World) : Server := ⟨w, fun _ => none⟩

/-- A server that begins with empty tables. -/
def empty (g : Governance) : Server := idle (.ofTables (.ofGovernance g))

def hold (s : Server) (id : Nat) (p : Option Pending) : Server :=
  { s with waiting := fun i => if i = id then p else s.waiting i }

@[simp] theorem waiting_hold (s : Server) (id i : Nat) (p : Option Pending) :
    (s.hold id p).waiting i = if i = id then p else s.waiting i := rfl

def advance (s : Server) (id : Nat) (task : Task) : Outcome Answer → Server × Option Completion
  | .done w r => ({ s with world := w }.hold id none, some ⟨id, task, r⟩)
  | outcome => (s.hold id (some ⟨task, outcome⟩), none)

/-- A call starts, or goes on with a reply; a reply that nobody waits for is lost. -/
def step (service : Principal) (s : Server) : Event → Server × Option Completion
  | .call id task => s.advance id task (task.start service s.world)
  | .reply id reply =>
    match s.waiting id with
    | some ⟨task, .ask _ resume⟩ => s.advance id task (resume s.world reply)
    | _ => (s, none)
  | .random id octets =>
    match s.waiting id with
    | some ⟨task, .draw _ resume⟩ => s.advance id task (resume s.world octets)
    | _ => (s, none)

/-- The server after a run, and the calls that ended in it one after the other. -/
def run (service : Principal) (s : Server) : List Event → Server × List Completion
  | [] => (s, [])
  | e :: events =>
    let next := s.step service e
    let rest := next.1.run service events
    (rest.1, next.2.toList ++ rest.2)

/-- Every waiting call is of an allowed kind, and whatever it does when it goes on is a segment of
it. -/
def Sound (allowed : Task → Prop) (s : Server) : Prop :=
  ∀ id p, s.waiting id = some p → allowed p.task ∧ ∀ w, p.outcome.Each p.task.Segment w

def Calls (allowed : Task → Prop) (events : List Event) : Prop :=
  ∀ id task, Event.call id task ∈ events → allowed task

theorem waiting_advance {id i : Nat} (hOther : i ≠ id) (s : Server) (task : Task)
    (o : Outcome Answer) :
    (s.advance id task o).1.waiting i = s.waiting i := by
  cases o <;> exact if_neg hOther

theorem waiting_step {e : Event} {i : Nat} (hOther : i ≠ e.id) (service : Principal) (s : Server) :
    (s.step service e).1.waiting i = s.waiting i := by
  cases e with
  | call id task => exact waiting_advance hOther s task _
  | reply id reply =>
    unfold Server.step
    dsimp only
    split
    · exact waiting_advance hOther s _ _
    · rfl
  | random id octets =>
    unfold Server.step
    dsimp only
    split
    · exact waiting_advance hOther s _ _
    · rfl

section Steps

variable {allowed : Task → Prop} {s : Server}

theorem idle_sound (allowed : Task → Prop) (w : World) : (idle w).Sound allowed :=
  fun _ _ h => nomatch h

theorem empty_sound (allowed : Task → Prop) (g : Governance) : (empty g).Sound allowed :=
  idle_sound allowed _

theorem Sound.hold_none (hs : s.Sound allowed) (id : Nat) (w : World) :
    ({ s with world := w }.hold id none).Sound allowed := by
  intro i p h
  rw [waiting_hold] at h
  split at h
  · cases h
  · exact hs i p h

theorem Sound.hold_some (hs : s.Sound allowed) {id : Nat} {p : Pending} (hAllowed : allowed p.task)
    (hEach : ∀ w, p.outcome.Each p.task.Segment w) : (s.hold id (some p)).Sound allowed := by
  intro i p' h
  rw [waiting_hold] at h
  split at h
  · cases h
    exact ⟨hAllowed, hEach⟩
  · exact hs i p' h

/-- Either nothing ends and the world stays as it is, or a call ends with one of its segments. -/
inductive Steps (s : Server) (e : Event) (allowed : Task → Prop) : Server × Option Completion → Prop
  | waits {s' : Server} (same : s'.world = s.world) : Steps s e allowed (s', none)
  | ends {s' : Server} {c : Completion} (about : c.id = e.id) (kind : allowed c.task)
      (segment : c.task.Segment s.world s'.world c.result) : Steps s e allowed (s', some c)

theorem advance_sound (hs : s.Sound allowed) {id : Nat} {task : Task} (hAllowed : allowed task)
    {o : Outcome Answer} (h : o.Each task.Segment s.world) :
    (s.advance id task o).1.Sound allowed := by
  cases o with
  | done w r => exact hs.hold_none id w
  | ask q resume => exact hs.hold_some hAllowed fun _ => h
  | draw size resume => exact hs.hold_some hAllowed fun _ => h

theorem advance_steps {e : Event} {id : Nat} {task : Task} (hId : id = e.id)
    (hAllowed : allowed task) {o : Outcome Answer} (h : o.Each task.Segment s.world) :
    Steps s e allowed (s.advance id task o) := by
  cases o with
  | done w r => exact .ends hId hAllowed h
  | ask q resume => exact .waits rfl
  | draw size resume => exact .waits rfl

theorem step_spec (service : Principal) (hs : s.Sound allowed) (e : Event)
    (he : Calls allowed [e]) :
    (s.step service e).1.Sound allowed ∧ Steps s e allowed (s.step service e) := by
  cases e with
  | call id task =>
    have hAllowed : allowed task := he id task List.mem_cons_self
    have hEach := task.each_start service s.world
    exact ⟨advance_sound hs hAllowed hEach, advance_steps rfl hAllowed hEach⟩
  | reply id reply =>
    unfold step
    dsimp only
    split
    · next task q resume hWaiting =>
      obtain ⟨hAllowed, hEach⟩ := hs id _ hWaiting
      have hEach := hEach s.world s.world reply
      exact ⟨advance_sound hs hAllowed hEach, advance_steps rfl hAllowed hEach⟩
    · exact ⟨hs, .waits rfl⟩
  | random id octets =>
    unfold step
    dsimp only
    split
    · next task size resume hWaiting =>
      obtain ⟨hAllowed, hEach⟩ := hs id _ hWaiting
      have hEach := hEach s.world s.world octets
      exact ⟨advance_sound hs hAllowed hEach, advance_steps rfl hAllowed hEach⟩
    · exact ⟨hs, .waits rfl⟩

theorem Sound.mono {allowed' : Task → Prop} (hs : s.Sound allowed)
    (hAllowed : ∀ task, allowed task → allowed' task) : s.Sound allowed' := by
  intro id p hWaits
  obtain ⟨hTask, hEach⟩ := hs id p hWaits
  exact ⟨hAllowed p.task hTask, hEach⟩

/-- A call that ends with an event ends with one of its segments. -/
theorem Sound.segment {service : Principal} {e : Event} {c : Completion} (hs : s.Sound allowed)
    (hEnded : (s.step service e).2 = some c) :
    c.task.Segment s.world (s.step service e).1.world c.result := by
  have hAny : s.Sound fun _ => True := hs.mono fun _ _ => trivial
  have hSteps := (step_spec service hAny e fun _ _ _ => trivial).2
  generalize s.step service e = next at hSteps hEnded ⊢
  cases hSteps with
  | waits same => cases hEnded
  | ends about kind segment =>
    cases hEnded
    exact segment

theorem Calls.head {e : Event} {events : List Event} (h : Calls allowed (e :: events)) :
    Calls allowed [e] := by
  intro id task hMem
  exact h id task (List.mem_cons.mpr (Or.inl (List.mem_singleton.mp hMem)))

theorem Calls.tail {e : Event} {events : List Event} (h : Calls allowed (e :: events)) :
    Calls allowed events := by
  intro id task hMem
  exact h id task (List.mem_cons_of_mem e hMem)

theorem Calls.mono {allowed' : Task → Prop} {events : List Event} (h : Calls allowed events)
    (hAllowed : ∀ task, allowed task → allowed' task) : Calls allowed' events := by
  intro id task hMem
  exact hAllowed task (h id task hMem)

/-- What every segment preserves, together with a record of the calls that have ended, every run
preserves; of the calls that have ended in it something may be known. -/
theorem run_preserves_of {γ : Type} {I : World → γ → Prop} {P : Completion → Prop}
    (record : γ → Completion → γ)
    (preserves : ∀ w w' g c, allowed c.task → P c → I w g → c.task.Segment w w' c.result →
      I w' (record g c)) (service : Principal) (events : List Event) (hs : s.Sound allowed)
    (hCalls : Calls allowed events) (hKnown : ∀ c ∈ (s.run service events).2, P c) {g : γ}
    (hI : I s.world g) :
    I (s.run service events).1.world ((s.run service events).2.foldl record g) := by
  induction events generalizing s g with
  | nil => exact hI
  | cons e events ih =>
    obtain ⟨hSound, hSteps⟩ := step_spec service hs e hCalls.head
    rw [run] at hKnown ⊢
    dsimp only at hKnown ⊢
    rw [List.foldl_append]
    cases hStep : s.step service e with
    | mk s' c =>
      rw [hStep] at hSound hSteps hKnown
      cases hSteps with
      | waits same => exact ih hSound hCalls.tail hKnown (same ▸ hI)
      | @ends _ c about kind segment =>
        obtain ⟨hFirst, hRest⟩ := List.forall_mem_cons.mp hKnown
        exact ih hSound hCalls.tail hRest (preserves _ _ _ _ kind hFirst hI segment)

theorem run_preserves {γ : Type} {I : World → γ → Prop} (record : γ → Completion → γ)
    (preserves : ∀ w w' g c, allowed c.task → I w g → c.task.Segment w w' c.result →
      I w' (record g c)) (service : Principal) (events : List Event) (hs : s.Sound allowed)
    (hCalls : Calls allowed events) {g : γ} (hI : I s.world g) :
    I (s.run service events).1.world ((s.run service events).2.foldl record g) :=
  run_preserves_of (P := fun _ => True) record
    (fun w w' g c hTask _ hI segment => preserves w w' g c hTask hI segment) service events hs hCalls
    (fun _ _ => trivial) hI

theorem run_invariant {I : World → Prop}
    (preserves : ∀ w w' (c : Completion), allowed c.task → I w →
      c.task.Segment w w' c.result → I w') (service : Principal) (events : List Event)
    (hs : s.Sound allowed) (hCalls : Calls allowed events) (hI : I s.world) :
    I (s.run service events).1.world :=
  run_preserves (fun (u : Unit) _ => u) (I := fun w _ => I w) (fun w w' _ c => preserves w w' c)
    service events hs hCalls (g := ()) hI

theorem tables_run {I : Tables → Prop}
    (preserves : ∀ now o t t' r, Commit now t o t' r → I t → I t') (service : Principal)
    (events : List Event) (hs : s.Sound fun task => task.isLoad = false)
    (hCalls : Calls (fun task => task.isLoad = false) events) (hI : I s.world.tables) :
    I (s.run service events).1.world.tables :=
  run_invariant (I := fun w => I w.tables)
    (fun _ _ _ hTask hI segment => segment.preserves preserves hTask hI) service events hs hCalls hI

theorem run_sound (service : Principal) (hs : s.Sound allowed) {events : List Event}
    (hCalls : Calls allowed events) : (s.run service events).1.Sound allowed := by
  induction events generalizing s with
  | nil => exact hs
  | cons e events ih => exact ih (step_spec service hs e hCalls.head).1 hCalls.tail

/-- What a step after any run can be, from any world in which no call waits. -/
theorem steps_after_run (service : Principal) (w : World) (events : List Event) (e : Event) :
    Steps ((idle w).run service events).1 e (fun _ => True)
      (((idle w).run service events).1.step service e) := by
  have hCalls (events : List Event) : Calls (fun _ => True) events := fun _ _ _ => trivial
  have hSound := run_sound service (idle_sound _ w) (hCalls events)
  exact (step_spec service hSound e (hCalls [e])).2

end Steps

theorem step_of_perform {service : Principal} {s : Server} {id : Nat} {now : Int} {o : Operation}
    {w : World} {r : Result Answer}
    (h : o.perform service now s.world = .done w r) :
    s.step service (.call id (.operation now o)) =
      ({ s with world := w }.hold id none, some ⟨id, .operation now o, r⟩) := by
  unfold step Task.start
  dsimp only
  rw [h]
  rfl

/-! ## A small run -/

namespace Sample

def owner : Principal := ⟨[1], by decide⟩

def governance : Governance where
  name := .text Config.defaultName
  signingKeyName := .text Config.defaultKeyName
  derivationKeyName := .text Config.defaultKeyName
  controllers := .empty
  managers := .ofList [owner]
  auditors := .empty
  allowedApis := .empty

def newNamespace : NewNamespace := ⟨"vault", 0, none, none, .ofList [owner], .empty, .empty, none⟩

def path (version : Int) : SettingPath := ⟨"vault", false, none, [7], version⟩

def newSetting : NewSetting := ⟨some [1], none, none, none, none, none⟩

def payloadChange : PayloadChange := ⟨1, [2], none, none, true⟩

def events : List Event := [
  .call 0 (.operation 10 (.createNamespace owner newNamespace)),
  .call 1 (.operation 20 (.createSetting owner (path 0) newSetting)),
  .call 2 (.operation 30 (.updatePayload owner (path 0) payloadChange))]

theorem events_call : Calls (fun task => task.isLoad = false) events := by
  intro id task hMem
  simp only [events, List.mem_cons, List.not_mem_nil, Event.call.injEq, or_false] at hMem
  rcases hMem with ⟨-, rfl⟩ | ⟨-, rfl⟩ | ⟨-, rfl⟩ <;> rfl

def final : Server × List Completion := (empty governance).run owner events

end Sample

end Server

end TenantVault
