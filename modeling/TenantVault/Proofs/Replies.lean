import TenantVault.Proofs.Server

/-! # Replies that can come

What a call does may depend on who replies to it. `EachGiven` says of all segments of a call that end it
what `Each` says, as long as every reply is one that can be given to the request that waits for it. A run
in which only such replies come keeps all calls on their way to such an end.
-/

namespace TenantVault

namespace Outcome

variable {α β : Type}

/-- How the segments that end a call change the world, if the replies are among those that can come. -/
def EachGiven (given : Request → Reply → Prop) (P : World → World → Result α → Prop) :
    Outcome α → World → Prop
  | done w' r, w => P w w' r
  | ask q resume, _ => ∀ w reply, given q reply → (resume w reply).EachGiven given P w
  | draw _ resume, _ => ∀ w octets, (resume w octets).EachGiven given P w

variable {given : Request → Reply → Prop} {P : World → World → Result α → Prop}

theorem eachGiven_of_forall (h : ∀ w w' r, P w w' r) (o : Outcome α) (w : World) :
    o.EachGiven given P w := by
  induction o generalizing w with
  | done w' r => exact h w w' r
  | ask q resume ih => exact fun w reply _ => ih w reply w
  | draw size resume ih => exact fun w octets => ih w octets w

theorem EachGiven.mono {Q : World → World → Result α → Prop} (hPQ : ∀ w w' r, P w w' r → Q w w' r)
    {o : Outcome α} {w : World} (h : o.EachGiven given P w) : o.EachGiven given Q w := by
  induction o generalizing w with
  | done w' r => exact hPQ w w' r h
  | ask q resume ih => exact fun w reply hGiven => ih w reply (h w reply hGiven)
  | draw size resume ih => exact fun w octets => ih w octets (h w octets)

/-- A call that nothing interrupts ends with one of its segments. -/
theorem EachGiven.run {answer : Request → Reply} {o : Outcome α} {w : World}
    (h : o.EachGiven (fun q reply => reply = answer q) P w) (random : Nat → Bytes) :
    P w (o.run answer random w).1 (o.run answer random w).2 := by
  induction o with
  | done w' r => exact h
  | ask q resume ih => exact ih w (answer q) (h w (answer q) rfl)
  | draw size resume ih => exact ih w (random size) (h w (random size))

theorem eachGiven_map_iff (f : α → β) (P : World → World → Result β → Prop) (o : Outcome α) (w : World) :
    (o.map f).EachGiven given P w ↔ o.EachGiven given (fun w w' r => P w w' (r.map f)) w := by
  induction o generalizing w with
  | done w' r => cases r <;> rfl
  | ask q resume ih =>
    exact forall_congr' fun w => forall_congr' fun reply => forall_congr' fun _ => ih w reply w
  | draw size resume ih => exact forall_congr' fun w => forall_congr' fun octets => ih w octets w

theorem eachGiven_after {w : World} {r : Result β} {next : β → Outcome α}
    (hError : ∀ why, r = .error why → P w w (.error why))
    (hOk : ∀ b, r = .ok b → (next b).EachGiven given P w) : (after w r next).EachGiven given P w := by
  cases r with
  | error why => exact hError why rfl
  | ok b => exact hOk b rfl

theorem eachGiven_request {q : Request} {next : World → Bytes → Outcome α} {w : World}
    (hError : ∀ w refusal, P w w (.error (q.failure refusal)))
    (hOk : ∀ w octets, given q (.ok octets) → (next w octets).EachGiven given P w) :
    (request q next).EachGiven given P w := by
  intro w reply hGiven
  cases reply with
  | error refusal => exact hError w _
  | ok octets => exact hOk w octets hGiven

end Outcome

namespace Server

variable {service : Principal} {given : Request → Reply → Prop}
  {P : Task → World → World → Result Answer → Prop} {s : Server} {e : Event}

/-- Every waiting call ends as `P` says of its task, whatever comes that can come. -/
def Heeds (given : Request → Reply → Prop) (P : Task → World → World → Result Answer → Prop)
    (s : Server) : Prop :=
  ∀ id p, s.waiting id = some p → ∀ w, p.outcome.EachGiven given (P p.task) w

/-- If a call waits for the reply that an event brings, it is one that can come. -/
def Given (given : Request → Reply → Prop) (s : Server) (e : Event) : Prop :=
  ∀ id reply task q resume, e = .reply id reply → s.waiting id = some ⟨task, .ask q resume⟩ →
    given q reply

/-- In a run only such replies come as can come. -/
def AllGiven (service : Principal) (given : Request → Reply → Prop) : Server → List Event → Prop
  | _, [] => True
  | s, e :: events => s.Given given e ∧ AllGiven service given (s.step service e).1 events

theorem calls_append_iff (allowed : Task → Prop) (events more : List Event) :
    Calls allowed (events ++ more) ↔ Calls allowed events ∧ Calls allowed more := by
  simp only [Calls, List.mem_append, or_imp, forall_and]

theorem run_append (service : Principal) (s : Server) (events more : List Event) :
    (s.run service (events ++ more)).1 = ((s.run service events).1.run service more).1 := by
  induction events generalizing s with
  | nil => rfl
  | cons e events ih => exact ih _

theorem allGiven_append_iff (service : Principal) (given : Request → Reply → Prop) (s : Server)
    (events more : List Event) :
    s.AllGiven service given (events ++ more) ↔ s.AllGiven service given events ∧
      (s.run service events).1.AllGiven service given more := by
  induction events generalizing s with
  | nil => exact (and_iff_right trivial).symm
  | cons e events ih =>
    rw [List.cons_append, AllGiven, AllGiven, ih, and_assoc]
    rfl

theorem allGiven_of_calls {events : List Event} (h : ∀ e ∈ events, ∃ id task, e = .call id task) :
    s.AllGiven service given events := by
  induction events generalizing s with
  | nil => trivial
  | cons e events ih =>
    obtain ⟨hCall, hRest⟩ := List.forall_mem_cons.mp h
    obtain ⟨id, task, rfl⟩ := hCall
    refine ⟨?_, ih hRest⟩
    intro id reply task q resume hReply
    cases hReply

theorem step_call_of_ask {id : Nat} {task : Task} {q : Request} {resume : World → Reply → Outcome Answer}
    (h : task.start service s.world = .ask q resume) :
    s.step service (.call id task) = (s.hold id (some ⟨task, .ask q resume⟩), none) := by
  rw [step, h]
  rfl

theorem step_call_of_done {id : Nat} {task : Task} {w : World} {r : Result Answer}
    (h : task.start service s.world = .done w r) :
    s.step service (.call id task) = ({ s with world := w }.hold id none, some ⟨id, task, r⟩) := by
  rw [step, h]
  rfl

theorem step_reply_of_done {id : Nat} {task : Task} {q : Request} {reply : Reply}
    {resume : World → Reply → Outcome Answer} {w : World} {r : Result Answer}
    (hWaits : s.waiting id = some ⟨task, .ask q resume⟩) (h : resume s.world reply = .done w r) :
    s.step service (.reply id reply) = ({ s with world := w }.hold id none, some ⟨id, task, r⟩) := by
  rw [step, hWaits]
  dsimp only
  rw [h]
  rfl

theorem heeds_of_idle (hIdle : ∀ id, s.waiting id = none) : s.Heeds given P := by
  intro id p hWaits
  rw [hIdle] at hWaits
  cases hWaits

/-- The world may be any, since what is said of a waiting call is said of every world. -/
theorem Heeds.hold (hHeeds : s.Heeds given P) (id : Nat) (w : World) {p : Option Pending}
    (hOwn : ∀ p', p = some p' → ∀ w, p'.outcome.EachGiven given (P p'.task) w) :
    ({ s with world := w }.hold id p).Heeds given P := by
  intro i p' hWaits
  rw [waiting_hold] at hWaits
  split at hWaits
  · exact hOwn p' hWaits
  · exact hHeeds i p' hWaits

theorem heeds_advance (hHeeds : s.Heeds given P) (id : Nat) (task : Task) {o : Outcome Answer}
    (h : o.EachGiven given (P task) s.world) :
    (s.advance id task o).1.Heeds given P ∧ ∀ c, (s.advance id task o).2 = some c →
      P c.task s.world (s.advance id task o).1.world c.result := by
  cases o with
  | done w r =>
    constructor
    · apply hHeeds.hold id w
      intro p' hNone
      cases hNone
    · intro c hEnded
      cases hEnded
      exact h
  | ask q resume | draw size resume =>
    constructor
    · apply hHeeds.hold id s.world
      intro p' hSome w
      cases hSome
      exact h
    · intro c hEnded
      cases hEnded

/-- A call that ends with an event ends as `P` says of its task. -/
theorem heeds_step (hHeeds : s.Heeds given P) (hGiven : s.Given given e)
    (hStart : ∀ id task, e = .call id task →
      (task.start service s.world).EachGiven given (P task) s.world) :
    (s.step service e).1.Heeds given P ∧ ∀ c, (s.step service e).2 = some c →
      P c.task s.world (s.step service e).1.world c.result := by
  cases e with
  | call id task => exact heeds_advance hHeeds id task (hStart id task rfl)
  | reply id reply =>
    unfold step
    dsimp only
    split
    · next task q resume hWaits =>
      have hReply : given q reply := hGiven id reply task q resume rfl hWaits
      exact heeds_advance hHeeds id task (hHeeds id _ hWaits s.world s.world reply hReply)
    · refine ⟨hHeeds, ?_⟩
      intro c hEnded
      cases hEnded
  | random id octets =>
    unfold step
    dsimp only
    split
    · next task size resume hWaits =>
      exact heeds_advance hHeeds id task (hHeeds id _ hWaits s.world s.world octets)
    · refine ⟨hHeeds, ?_⟩
      intro c hEnded
      cases hEnded

end Server

end TenantVault
