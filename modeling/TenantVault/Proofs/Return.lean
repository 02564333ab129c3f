import TenantVault.Proofs.Handover

/-! # Calls that return

A call that waits sees the world only when it begins and when a reply comes. `Concludes` says of a
call what holds when it returns an answer, whatever others have done in between and whatever it has
been told, out of what it can be told; `Returns` is a run in which it does. What a call concludes is
therefore proved once, on the call alone, and holds of every interleaving.
-/

namespace TenantVault

namespace Outcome

variable {α β : Type}

/-- What holds of the segment that returns an answer: the world in which it begins, the reaction that
it begins with if it is not the first one, the world that it leaves and the answer. -/
def Concludes (told : Reaction → Prop) (Q : World → Option Reaction → World → α → Prop) :
    Outcome α → World → Option Reaction → Prop
  | done w' r, w, x => ∀ a, r = .ok a → Q w x w' a
  | ask _ resume, _, _ => ∀ w reply, told (.reply reply) →
    (resume w reply).Concludes told Q w (some (.reply reply))
  | draw _ resume, _, _ => ∀ w octets, told (.random octets) →
    (resume w octets).Concludes told Q w (some (.random octets))

variable {told : Reaction → Prop} {Q : World → Option Reaction → World → α → Prop} {w w' : World}
  {x : Option Reaction}

theorem Concludes.mono {Q' : World → Option Reaction → World → α → Prop}
    (hQ : ∀ w x w' a, Q w x w' a → Q' w x w' a) {o : Outcome α} (h : o.Concludes told Q w x) :
    o.Concludes told Q' w x := by
  induction o generalizing w x with
  | done w' r => exact fun a hAnswer => hQ w x w' a (h a hAnswer)
  | ask q resume ih => exact fun w reply hTold => ih w reply (h w reply hTold)
  | draw size resume ih => exact fun w octets hTold => ih w octets (h w octets hTold)

theorem concludes_of_forall (hQ : ∀ w x w' a, Q w x w' a) (o : Outcome α) (w : World)
    (x : Option Reaction) : o.Concludes told Q w x := by
  induction o generalizing w x with
  | done w' r => exact fun a _ => hQ w x w' a
  | ask q resume ih => exact fun w reply _ => ih w reply w _
  | draw size resume ih => exact fun w octets _ => ih w octets w _

theorem concludes_fail (why : Failure) : (fail w' why).Concludes told Q w x := nofun

theorem concludes_finish {a : α} (h : Q w x w' a) : (finish w' a).Concludes told Q w x := by
  intro a' hSame
  cases hSame
  exact h

theorem concludes_after {r : Result β} {next : β → Outcome α}
    (h : ∀ b, r = .ok b → (next b).Concludes told Q w x) :
    (after w' r next).Concludes told Q w x := by
  cases r with
  | error why => exact concludes_fail why
  | ok b => exact h b rfl

theorem concludes_request {q : Request} {next : World → Bytes → Outcome α}
    (h : ∀ w octets, told (.reply (.ok octets)) →
      (next w octets).Concludes told Q w (some (.reply (.ok octets)))) :
    (request q next).Concludes told Q w x := by
  intro w reply hTold
  cases reply with
  | error refusal => exact concludes_fail _
  | ok octets => exact h w octets hTold

theorem concludes_draw {size : Nat} {resume : World → Bytes → Outcome α}
    (h : ∀ w octets, told (.random octets) →
      (resume w octets).Concludes told Q w (some (.random octets))) :
    (draw size resume).Concludes told Q w x := h

theorem concludes_map_iff (f : α → β) (Q : World → Option Reaction → World → β → Prop)
    (o : Outcome α) (w : World) (x : Option Reaction) :
    (o.map f).Concludes told Q w x ↔
      o.Concludes told (fun w x w' a => Q w x w' (f a)) w x := by
  induction o generalizing w x with
  | done w' r =>
    cases r with
    | error why => exact ⟨fun _ => nofun, fun _ => nofun⟩
    | ok a =>
      constructor
      · intro h a' hSame
        cases hSame
        exact h (f a) rfl
      · intro h
        exact concludes_finish (h a rfl)
  | ask q resume ih =>
    exact forall_congr' fun w => forall_congr' fun reply => forall_congr' fun _ => ih w reply w _
  | draw size resume ih =>
    exact forall_congr' fun w => forall_congr' fun octets => forall_congr' fun _ => ih w octets w _

end Outcome

/-- What a waiting call is told by an event. -/
def Event.reaction? : Event → Option Reaction
  | call .. => none
  | reply _ r => some (.reply r)
  | random _ octets => some (.random octets)

namespace Server

/-- A state that a service can get into from some world in which no call waits. -/
def Reachable (service : Principal) (s : Server) : Prop :=
  ∃ w events, ((idle w).run service events).1 = s

/-- A call that begins in `s` returns an answer with the last of some events, other calls being made
and going on in between. -/
structure Returns (service : Principal) (s : Server) (id : Nat) (task : Task) (events : List Event)
    (last : Event) (before after : Server) (a : Answer) : Prop where
  once : ∀ task', Event.call id task' ∉ events
  course : ∃ earlier, .call id task :: events = earlier ++ [last] ∧
    (s.run service earlier).1 = before ∧
    before.step service last = (after, some ⟨id, task, .ok a⟩)

/-! ## Reachable states -/

section Reachability

variable {service : Principal} {s : Server} {allowed : Task → Prop}

/-- Loading a snapshot never waits. -/
theorem Sound.load (hs : s.Sound allowed) (id : Nat) (snapshot : String) :
    (s.step service (.call id (.load snapshot))).1.Sound allowed := by
  have hDone : ∃ w r, (Task.load snapshot).start service s.world = .done w r := by
    unfold Task.start
    dsimp only
    cases s.world.load snapshot with
    | error why => exact ⟨_, _, rfl⟩
    | ok w => exact ⟨_, _, rfl⟩
  obtain ⟨w, r, hDone⟩ := hDone
  unfold step
  dsimp only
  rw [hDone]
  exact hs.hold_none id w

theorem Sound.step_of_operations (hs : s.Sound fun task => task.isLoad = false) (e : Event) :
    (s.step service e).1.Sound fun task => task.isLoad = false := by
  have hOther (hNoLoad : ∀ id snapshot, e ≠ .call id (.load snapshot)) :
      (s.step service e).1.Sound fun task => task.isLoad = false := by
    refine (step_spec service hs e ?_).1
    intro id task hMem
    cases List.mem_singleton.mp hMem
    cases task with
    | operation now o => rfl
    | load snapshot => exact (hNoLoad id snapshot rfl).elim
  cases e with
  | call id task =>
    cases task with
    | operation now o => exact hOther nofun
    | load snapshot => exact hs.load id snapshot
  | reply id reply => exact hOther nofun
  | random id octets => exact hOther nofun

/-- In a reachable state only operations wait, and each of them goes on as one of its segments. -/
theorem Reachable.sound (h : Reachable service s) : s.Sound fun task => task.isLoad = false := by
  obtain ⟨w, events, rfl⟩ := h
  have hRun : ∀ (events : List Event) (s : Server), (s.Sound fun task => task.isLoad = false) →
      (s.run service events).1.Sound fun task => task.isLoad = false := by
    intro events
    induction events with
    | nil => exact fun _ hs => hs
    | cons e events ih => exact fun s hs => ih _ (hs.step_of_operations e)
  exact hRun events (idle w) (idle_sound _ w)

end Reachability

section Conclusions

variable {service : Principal} {s : Server} {id : Nat} {task : Task} {told : Reaction → Prop}
  {Q : World → Option Reaction → World → Answer → Prop}

/-- Whatever the call with a number does when it goes on, it concludes as it should. -/
def Heading (told : Reaction → Prop) (Q : World → Option Reaction → World → Answer → Prop) (id : Nat)
    (s : Server) : Prop :=
  ∀ p, s.waiting id = some p → ∀ w x, p.outcome.Concludes told Q w x

/-- What the call with a number is told by an event is what it can be told. -/
def Tells (told : Reaction → Prop) (id : Nat) (e : Event) : Prop :=
  e.id = id → ∀ r, e.reaction? = some r → told r

theorem id_of_ended_advance {o : Outcome Answer} {c : Completion}
    (h : (s.advance id task o).2 = some c) : c.id = id := by
  cases o with
  | done w r =>
    cases h
    rfl
  | ask q resume => cases h
  | draw size resume => cases h

theorem id_of_ended {e : Event} {c : Completion} (h : (s.step service e).2 = some c) :
    c.id = e.id := by
  cases e with
  | call id task => exact id_of_ended_advance h
  | reply id reply =>
    unfold step at h
    dsimp only at h
    split at h
    · exact id_of_ended_advance h
    · cases h
  | random id octets =>
    unfold step at h
    dsimp only at h
    split at h
    · exact id_of_ended_advance h
    · cases h

/-- A call that goes on concludes as it should, or waits again on its way there. -/
theorem heading_advance (s : Server) (id : Nat) (task : Task) {o : Outcome Answer}
    {x : Option Reaction} (hEnd : o.Concludes told Q s.world x) :
    Heading told Q id (s.advance id task o).1 ∧ ∀ c, (s.advance id task o).2 = some c →
      ∀ a, c.result = .ok a → Q s.world x (s.advance id task o).1.world a := by
  cases o with
  | done w r =>
    constructor
    · intro p hWaits
      rw [waiting_advance_self] at hWaits
      cases hWaits
    · intro c hEnded a hAnswer
      cases hEnded
      exact hEnd a hAnswer
  | ask q resume =>
    constructor
    · intro p hWaits w x
      rw [waiting_advance_self] at hWaits
      cases hWaits
      exact hEnd
    · intro c hEnded
      cases hEnded
  | draw size resume =>
    constructor
    · intro p hWaits w x
      rw [waiting_advance_self] at hWaits
      cases hWaits
      exact hEnd
    · intro c hEnded
      cases hEnded

theorem heading_step (service : Principal) (hHeading : Heading told Q id s) {e : Event}
    (hNoCall : ∀ task, e ≠ .call id task) (hTells : Tells told id e) :
    Heading told Q id (s.step service e).1 ∧ ∀ c, (s.step service e).2 = some c → c.id = id →
      ∀ a, c.result = .ok a → Q s.world e.reaction? (s.step service e).1.world a := by
  by_cases hId : e.id = id
  · subst hId
    cases e with
    | call id task => exact (hNoCall task rfl).elim
    | reply id reply =>
      unfold step
      dsimp only
      split
      · next task q resume hWaits =>
        have hEnd : (resume s.world reply).Concludes told Q s.world (some (.reply reply)) :=
          hHeading _ hWaits s.world none s.world reply (hTells rfl _ rfl)
        obtain ⟨hNext, hEnded⟩ := heading_advance s id task hEnd
        exact ⟨hNext, fun c hc _ => hEnded c hc⟩
      · refine ⟨hHeading, ?_⟩
        intro c hc
        cases hc
    | random id octets =>
      unfold step
      dsimp only
      split
      · next task size resume hWaits =>
        have hEnd : (resume s.world octets).Concludes told Q s.world (some (.random octets)) :=
          hHeading _ hWaits s.world none s.world octets (hTells rfl _ rfl)
        obtain ⟨hNext, hEnded⟩ := heading_advance s id task hEnd
        exact ⟨hNext, fun c hc _ => hEnded c hc⟩
      · refine ⟨hHeading, ?_⟩
        intro c hc
        cases hc
  · constructor
    · intro p hWaits
      rw [waiting_step (Ne.symm hId)] at hWaits
      exact hHeading p hWaits
    · intro c hEnded hOwn
      exact (hId ((id_of_ended hEnded).symm.trans hOwn)).elim

theorem heading_run (service : Principal) {events : List Event}
    (hOnce : ∀ task, Event.call id task ∉ events) (hTells : ∀ e ∈ events, Tells told id e)
    (hHeading : Heading told Q id s) : Heading told Q id (s.run service events).1 := by
  induction events generalizing s with
  | nil => exact hHeading
  | cons e events ih =>
    have hNoCall : ∀ task, e ≠ .call id task := by
      rintro task rfl
      exact hOnce task List.mem_cons_self
    have hOnce : ∀ task, Event.call id task ∉ events := by
      intro task hMem
      exact hOnce task (List.mem_cons_of_mem e hMem)
    have hRest : ∀ e ∈ events, Tells told id e := by
      intro e' hMem
      exact hTells e' (List.mem_cons_of_mem e hMem)
    exact ih hOnce hRest (heading_step service hHeading hNoCall (hTells e List.mem_cons_self)).1

/-- The call with a number is told something by one of the events. -/
def Told (id : Nat) (events : List Event) (r : Reaction) : Prop :=
  ∃ e ∈ events, e.id = id ∧ e.reaction? = some r

/-- What a call concludes on its own, it concludes in every run in which it returns. -/
theorem Returns.concludes {events : List Event} {last : Event} {before after : Server} {a : Answer}
    (h : Returns service s id task events last before after a)
    (hEnd : (task.start service s.world).Concludes (Told id events) Q s.world none) :
    Q before.world last.reaction? after.world a := by
  obtain ⟨earlier, hEvents, hBefore, hLast⟩ := h.course
  cases earlier with
  | nil =>
    -- The call returns at once.
    cases hEvents
    cases hBefore
    have hEnded := (heading_advance s id task hEnd).2 ⟨id, task, .ok a⟩ (congrArg Prod.snd hLast)
    have hAfter : (s.advance id task (task.start service s.world)).1 = after :=
      congrArg Prod.fst hLast
    rw [hAfter] at hEnded
    exact hEnded a rfl
  | cons e earlier =>
    obtain ⟨hFirst, hRest⟩ := List.cons.inj hEvents
    subst hFirst
    have hMem : ∀ e ∈ earlier, e ∈ events := by
      intro e hMem
      rw [hRest]
      exact List.mem_append_left _ hMem
    have hMemLast : last ∈ events := by
      rw [hRest]
      exact List.mem_append_right _ (List.mem_singleton_self _)
    have hTells : ∀ e ∈ events, Tells (Told id events) id e :=
      fun e hMem hId r hReaction => ⟨e, hMem, hId, hReaction⟩
    have hNoCall : ∀ task, last ≠ .call id task := by
      rintro task rfl
      exact h.once task hMemLast
    have hBegun : Heading (Told id events) Q id (s.step service (.call id task)).1 :=
      (heading_advance s id task hEnd).1
    have hRun : ((s.step service (.call id task)).1.run service earlier).1 = before := hBefore
    have hWaiting : Heading (Told id events) Q id before := by
      rw [← hRun]
      refine heading_run service (fun task hCall => ?_) (fun e he => hTells e (hMem e he)) hBegun
      exact h.once task (hMem _ hCall)
    have hEnded := (heading_step service hWaiting hNoCall (hTells last hMemLast)).2 ⟨id, task, .ok a⟩
    rw [hLast] at hEnded
    exact hEnded rfl rfl a rfl

theorem calls_of_course {allowed : Task → Prop} {events earlier : List Event} {last : Event}
    (hEvents : Event.call id task :: events = earlier ++ [last]) (hTask : allowed task)
    (hCalls : Calls allowed events) : Calls allowed earlier := by
  intro id' task' hMem
  have hMem : Event.call id' task' ∈ Event.call id task :: events := by
    rw [hEvents]
    exact List.mem_append_left _ hMem
  rcases List.mem_cons.mp hMem with hFirst | hRest
  · cases hFirst
    exact hTask
  · exact hCalls id' task' hRest

end Conclusions

end Server

end TenantVault
