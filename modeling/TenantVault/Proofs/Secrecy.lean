import TenantVault.Proofs.Handover
import TenantVault.Proofs.Veil

/-! # Contents stay with those who can read them

Two services that differ only in the octets of one setting and of its archived versions behave alike
towards everybody who cannot read that setting: the same answers and failures, the same requests to
the signer, and in the end again no other difference. Calls that wait are compared as well, so the
runs may be interleaved in any way.
-/

namespace TenantVault

open Access

/-! ## Worlds that differ in one setting -/

namespace World

/-- The world without the octets of a setting and of its archived versions. -/
def veil (X : SettingKey) (w : World) : World :=
  ⟨w.tables.veil X, w.signatures, w.retired.map (Tables.veil X)⟩

/-- No difference but in the octets of a setting and of its archived versions. -/
def Alike (X : SettingKey) (w w' : World) : Prop := w.veil X = w'.veil X

namespace Alike

variable {X : SettingKey} {w w' : World}

theorem tables (h : w.Alike X w') : w.tables.veil X = w'.tables.veil X := (World.mk.inj h).1

theorem signatures (h : w.Alike X w') : w.signatures = w'.signatures := (World.mk.inj h).2.1

theorem retired (h : w.Alike X w') : w.retired.map (Tables.veil X) = w'.retired.map (Tables.veil X) :=
  (World.mk.inj h).2.2

theorem generation (h : w.Alike X w') : w.generation = w'.generation := by
  have hLength := congrArg List.length h.retired
  rw [List.length_map, List.length_map] at hLength
  exact hLength

theorem tablesOf (h : w.Alike X w') (generation : Nat) :
    (w.tablesOf generation).veil X = (w'.tablesOf generation).veil X := by
  have hRow := congrArg (·[generation]?) h.retired
  rw [List.getElem?_map, List.getElem?_map] at hRow
  unfold World.tablesOf
  cases hFirst : w.retired[generation]? <;> cases hSecond : w'.retired[generation]? <;>
    rw [hFirst, hSecond] at hRow
  · exact h.tables
  · cases hRow
  · cases hRow
  · exact Option.some.inj hRow

/-- What is blind to the octets finds no difference. -/
theorem look {α : Type} (h : w.Alike X w') (f : Tables → α)
    (hFirst : Blind (Tables.veil X) f w.tables) (hSecond : Blind (Tables.veil X) f w'.tables) :
    f w.tables = f w'.tables :=
  hFirst.symm.trans ((congrArg f h.tables).trans hSecond)

theorem allowed (h : w.Alike X w') (caller : Principal) (api : String) :
    Access.allowed w.tables caller api = Access.allowed w'.tables caller api :=
  h.look (Access.allowed · caller api) rfl rfl

theorem keyHolder (h : w.Alike X w') (caller : Principal) (key : SettingKey) :
    Access.keyHolder w.tables caller key = Access.keyHolder w'.tables caller key :=
  h.look (Access.keyHolder · caller key) rfl rfl

theorem readable (h : w.Alike X w') (caller : Principal) (name : String) :
    Access.readable w.tables caller name = Access.readable w'.tables caller name :=
  h.look (Access.readable · caller name) rfl rfl

theorem signing (h : w.Alike X w') (caller : Principal) (name : String) :
    Access.signing w.tables caller name = Access.signing w'.tables caller name :=
  h.look (Access.signing · caller name) rfl rfl

theorem tokenScope (h : w.Alike X w') (caller : Principal) (name : String) :
    Access.tokenScope w.tables caller name = Access.tokenScope w'.tables caller name :=
  h.look (Access.tokenScope · caller name) rfl rfl

theorem activeLifetime (h : w.Alike X w') (generation : Nat) (caller : Principal)
    (ns name : String) :
    Signatures.activeLifetime (w.tablesOf generation) caller ns name =
      Signatures.activeLifetime (w'.tablesOf generation) caller ns name := by
  have hVeiled := congrArg (Signatures.activeLifetime · caller ns name) (h.tablesOf generation)
  exact hVeiled

theorem withTables (h : w.Alike X w') {t t' : Tables} (hTables : t.veil X = t'.veil X) :
    (w.withTables t).Alike X (w'.withTables t') := by
  unfold Alike veil World.withTables
  rw [hTables, h.signatures, h.retired]

theorem withSignatures (h : w.Alike X w') (signatures : TenantVault.Signatures) :
    { w with signatures }.Alike X { w' with signatures } := by
  unfold Alike veil
  rw [h.tables, h.retired]

theorem replaceTables (h : w.Alike X w') (t : Tables) :
    (w.replaceTables t).Alike X (w'.replaceTables t) := by
  unfold Alike veil World.replaceTables
  rw [List.map_append, List.map_append, h.retired, List.map_singleton, List.map_singleton, h.tables]

end Alike

end World

/-! ## Calls that behave alike -/

namespace Outcome

variable {α β : Type} {X : SettingKey}

/-- The same result in worlds that are alike, or the same request and then, whenever both go on with
the same reply in worlds that are alike, again the same. -/
inductive Twin (X : SettingKey) : Outcome α → Outcome α → Prop
  | done {w w' : World} {r : Result α} (worlds : w.Alike X w') : Twin X (done w r) (done w' r)
  | ask {q : Request} {resume resume' : World → Reply → Outcome α}
      (resumes : ∀ w w' reply, w.Alike X w' → Twin X (resume w reply) (resume' w' reply)) :
      Twin X (ask q resume) (ask q resume')
  | draw {size : Nat} {resume resume' : World → Bytes → Outcome α}
      (resumes : ∀ w w' octets, w.Alike X w' → Twin X (resume w octets) (resume' w' octets)) :
      Twin X (draw size resume) (draw size resume')

variable {w w' : World}

theorem congruence_twin (X : SettingKey) : Congruence (World.Alike X) (Twin X) where
  done worlds _ := .done worlds
  ask resumes := .ask resumes
  draw resumes := .draw resumes

theorem twin_fail (hw : w.Alike X w') (why : Failure) :
    Twin X (fail w why : Outcome α) (fail w' why) := .done hw

theorem twin_finish (hw : w.Alike X w') (a : α) : Twin X (finish w a) (finish w' a) := .done hw

theorem Twin.after (hw : w.Alike X w') {r r' : Result β} (hr : r = r') {next next' : β → Outcome α}
    (hNext : ∀ b, Twin X (next b) (next' b)) :
    Twin X (Outcome.after w r next) (Outcome.after w' r' next') :=
  (congruence_twin X).after hw hr hNext

theorem Twin.request {q : Request} {next next' : World → Bytes → Outcome α}
    (hNext : ∀ w w' octets, w.Alike X w' → Twin X (next w octets) (next' w' octets)) :
    Twin X (Outcome.request q next) (Outcome.request q next') :=
  (congruence_twin X).request hNext

theorem Twin.map (f : α → β) {o o' : Outcome α} (h : Twin X o o') : Twin X (o.map f) (o'.map f) := by
  induction h with
  | @done w w' r worlds =>
    cases r with
    | error why => exact twin_fail worlds why
    | ok a => exact twin_finish worlds (f a)
  | ask resumes ih => exact .ask fun w w' reply hw => ih w w' reply hw
  | draw resumes ih => exact .draw fun w w' octets hw => ih w w' octets hw

theorem twin_query (hw : w.Alike X w') {f : Tables → Result α}
    (hf : ∀ t, t.veil X = w.tables.veil X → Blind (Tables.veil X) f t) :
    Twin X (Call.query f w) (Call.query f w') :=
  (congruence_twin X).query hw (hw.look f (hf _ rfl) (hf _ hw.tables.symm))

theorem twin_of_map_eq {γ : Type} (hw : w.Alike X w') {r r' : Result (Tables × γ)}
    (h : r.map (Prod.map (Tables.veil X) id) = r'.map (Prod.map (Tables.veil X) id))
    (next : World → γ → Outcome α) (hNext : ∀ w w' c, w.Alike X w' → Twin X (next w c) (next w' c)) :
    Twin X (Outcome.after w r fun out => next (w.withTables out.1) out.2)
      (Outcome.after w' r' fun out => next (w'.withTables out.1) out.2) := by
  cases r with
  | error why =>
    cases r' with
    | error why' =>
      cases h
      exact twin_fail hw why
    | ok out => cases h
  | ok out =>
    cases r' with
    | error why' => cases h
    | ok out' =>
      obtain ⟨t, c⟩ := out
      obtain ⟨t', c'⟩ := out'
      obtain ⟨hTables, hSame⟩ := Prod.mk.inj (Except.ok.inj h)
      cases hSame
      exact hNext _ _ c (hw.withTables hTables)

/-- What two changes leave, if they do the same under the veil. -/
theorem map_eq_of_commutes (hw : w.Alike X w') {f : Tables → Result (Tables × α)}
    (hf : ∀ t, t.veil X = w.tables.veil X → Commutes (Tables.veil X) f t) :
    (f w.tables).map (Prod.map (Tables.veil X) id) = (f w'.tables).map (Prod.map (Tables.veil X) id) :=
  (hf _ rfl).symm.trans ((congrArg f hw.tables).trans (hf _ hw.tables.symm))

theorem twin_update (hw : w.Alike X w') {f : Tables → Result (Tables × α)}
    (hf : ∀ t, t.veil X = w.tables.veil X → Commutes (Tables.veil X) f t) :
    Twin X (Call.update f w) (Call.update f w') :=
  twin_of_map_eq hw (map_eq_of_commutes hw hf) _ fun _ _ a hw => twin_finish hw a

theorem twin_settle (hw : w.Alike X w') {f : Tables → Result (Tables × Result α)}
    (hf : ∀ t, t.veil X = w.tables.veil X → Commutes (Tables.veil X) f t) :
    Twin X (Call.settle f w) (Call.settle f w') :=
  twin_of_map_eq hw (map_eq_of_commutes hw hf) Outcome.done fun _ _ _ hw => .done hw

end Outcome

/-! ## Every operation -/

section Calls

open Outcome

variable {α : Type} {X : SettingKey} {w w' : World}

namespace Signatures

theorem twin_signDelegation (service caller : Principal) (input : DelegationRequest) (now : Int)
    (hw : w.Alike X w') :
    Twin X (signDelegation service caller input now w) (signDelegation service caller input now w') := by
  have hLifetime := hw.activeLifetime w.generation caller input.ns input.name
  rw [World.tablesOf_generation, hw.generation, World.tablesOf_generation] at hLifetime
  refine .after hw ?_ fun begun => ?_
  · rw [hw.allowed, hLifetime]
  · obtain ⟨expiration, message⟩ := begun
    dsimp only
    rw [hw.generation]
    generalize w'.generation = generation
    refine .request fun w w' signature hw => .after hw (hw.activeLifetime ..) fun _ => ?_
    rw [hw.generation, hw.signatures]
    split
    · exact twin_finish (hw.withSignatures _) _
    · exact twin_finish hw _

theorem twin_getDelegation (seed sessionKey : Bytes) (expiration : Int) (hw : w.Alike X w') :
    Twin X (getDelegation seed sessionKey expiration w) (getDelegation seed sessionKey expiration w') := by
  unfold getDelegation
  rw [hw.signatures]
  exact .after hw rfl fun delegation => twin_finish hw delegation

end Signatures

end Calls

namespace Operation

open Outcome Tables

variable {X : SettingKey} {w w' : World} {caller : Principal} {α : Type}

theorem twin_change {f : Tables → Result (Tables × α)} (api : String) (answer : α → Answer)
    (hw : w.Alike X w') (hf : ∀ t, t.veil X = w.tables.veil X → Commutes (Tables.veil X) f t) :
    Twin X ((change caller api f w).map answer) ((change caller api f w').map answer) :=
  (twin_update hw fun t ht => (hf t ht).guarded rfl).map answer

theorem twin_write {f : Tables → Result (Tables × Result α)} (api : String) (answer : α → Answer)
    (hw : w.Alike X w') (hf : ∀ t, t.veil X = w.tables.veil X → Commutes (Tables.veil X) f t) :
    Twin X ((write caller api f w).map answer) ((write caller api f w').map answer) :=
  (twin_settle hw fun t ht => (hf t ht).guarded rfl).map answer

/-- An operation of somebody who cannot read a setting behaves alike in worlds that differ only in
its octets. -/
theorem twin_perform (service : Principal) (now : Int) (o : Operation) (hw : w.Alike X w')
    (hReads : ∀ caller, o.caller? = some caller → ¬ Reads w.tables caller X) :
    Twin X (o.perform service now w) (o.perform service now w') := by
  have hApart {caller : Principal} (hCaller : o.caller? = some caller) (t : Tables)
      (ht : t.veil X = w.tables.veil X) : ¬ Reads t caller X :=
    not_reads_of_veil_eq ht (hReads caller hCaller)
  have hWritable {caller : Principal} (hCaller : o.caller? = some caller) {key : SettingKey} (t : Tables)
      (ht : t.veil X = w.tables.veil X) : KeepsWritable (veil X) caller key t :=
    keepsWritable_veil (hApart hCaller t ht)
  have hReadable {caller : Principal} (hCaller : o.caller? = some caller) {key : SettingKey} (t : Tables)
      (ht : t.veil X = w.tables.veil X) : KeepsReadable (veil X) caller key t :=
    keepsReadable_veil (hApart hCaller t ht)
  have hT := congruence_twin X
  cases o with
  | changeGovernors caller kind d ps =>
    refine (twin_update hw fun t _ => ?_).map _
    exact Commutes.bind rfl fun _ _ => Commutes.bind rfl fun _ _ => by cases kind <;> rfl
  | setAllowedApis caller apis =>
    refine (twin_update hw fun t _ => ?_).map _
    exact Commutes.bind rfl fun _ _ => Commutes.pure rfl
  | createNamespace caller input =>
    refine (twin_update hw fun t _ => ?_).map _
    exact Commutes.bind rfl fun _ _ => createNamespace_commutes caller input
  | listNamespaces caller before count =>
    exact (twin_query hw fun t _ => namespacePage_blind caller before count).map _
  | getGovernance caller =>
    have hGovernance : w.tables.governance = w'.tables.governance := hw.look _ rfl rfl
    have hNamespaces : w.tables.namespaces = w'.tables.namespaces := hw.look _ rfl rfl
    unfold perform
    dsimp only
    rw [hGovernance, hNamespaces]
    exact twin_finish hw _
  | getNamespace caller ns => exact (twin_query hw fun t _ => getNamespaceInfo_blind caller ns).map _
  | updateNamespace caller input =>
    refine twin_change _ _ hw fun t _ => ?_
    exact Commutes.bind rfl fun _ _ => Commutes.pure rfl
  | deleteNamespace caller ns =>
    exact twin_change _ _ hw fun t _ => deleteNamespace_commutes caller ns
  | changeMembers caller ns kind d ps =>
    refine twin_change _ _ hw fun t _ => ?_
    exact Commutes.bind rfl fun _ _ => Commutes.bind rfl fun _ _ => Commutes.pure rfl
  | isMember caller ns kind user =>
    refine (twin_query hw fun t _ => ?_).map _
    rfl
  | topUp caller ns amount =>
    refine twin_change _ _ hw fun t _ => ?_
    exact Commutes.bind rfl fun _ _ => Commutes.bind rfl fun _ _ => Commutes.pure rfl
  | listSettings caller ns userOwned subject =>
    exact (twin_query hw fun t _ => listSettings_blind caller ns userOwned subject).map _
  | getDelegators caller ns name =>
    refine (twin_query hw fun t _ => ?_).map _
    rfl
  | changeDelegators caller d input =>
    cases d with
    | add =>
      refine twin_change _ _ hw fun t _ => ?_
      exact Commutes.bind rfl fun _ _ => Commutes.pure rfl
    | remove =>
      refine twin_change _ _ hw fun t _ => ?_
      exact Commutes.bind rfl fun _ _ => Commutes.pure rfl
  | fixedIdentity ns name =>
    refine (twin_query hw fun t _ => ?_).map _
    rfl
  | signDelegation caller input =>
    exact (Signatures.twin_signDelegation service caller input now hw).map _
  | getDelegation seed sessionKey expiration =>
    exact (Signatures.twin_getDelegation seed sessionKey expiration hw).map _
  | namespacePublicKey caller ns path =>
    exact (Signatures.related_namespacePublicKey hT path (fun _ _ h => h.readable ..) hw).map _
  | namespaceSign caller ns path message =>
    exact (Signatures.related_namespaceSign hT path message (fun _ _ h => h.signing ..) hw).map _
  | identityPublicKey => exact (Signatures.related_identityPublicKey hT w w').map _
  | signIdentity caller ns audience =>
    exact (Signatures.related_signIdentity hT service audience now (fun _ _ h => h.tokenScope ..) hw).map _
  | createSetting caller path input =>
    exact twin_write _ _ hw fun t ht => (hWritable rfl t ht).createSetting_commutes input
  | updatePayload caller path input =>
    exact twin_write _ _ hw fun t ht => (hWritable rfl t ht).updatePayload_commutes input
  | updateSetting caller path input =>
    exact twin_change _ _ hw fun t ht => (hWritable rfl t ht).updateSetting_commutes input
  | getSetting caller path =>
    exact (twin_query hw fun t ht => (hReadable rfl t ht).readSetting_blind).map _
  | getSettingInfo caller path =>
    exact (twin_query hw fun t _ => getSettingInfo_blind X t caller _).map _
  | getArchived caller path =>
    exact (twin_query hw fun t ht => (hReadable rfl t ht).readArchived_blind).map _
  | changeReaders caller path d readers =>
    exact twin_change _ _ hw fun t ht => (hWritable rfl t ht).changeReaders_commutes d readers
  | deleteSetting caller path =>
    exact twin_write _ _ hw fun t ht => (hWritable rfl t ht).deleteSetting_commutes
  | encryptedKey caller path input =>
    exact (Keys.related_encryptedKey hT path input (fun _ _ h => h.allowed ..)
      (fun _ _ h => h.keyHolder ..) hw).map _
  | encryptedSetting caller path input =>
    have hInfo : SameLook (World.Alike X) (·.getSettingInfo caller (path.toKey caller)) :=
      fun _ _ h => h.look (·.getSettingInfo caller (path.toKey caller)) (getSettingInfo_blind ..)
        (getSettingInfo_blind ..)
    have hRead : w.tables.readSetting caller (path.toKey caller) =
        w'.tables.readSetting caller (path.toKey caller) :=
      hw.look (·.readSetting caller (path.toKey caller)) (hReadable rfl _ rfl).readSetting_blind
        (hReadable rfl _ hw.tables.symm).readSetting_blind
    exact (Keys.related_encryptedSetting hT path input (fun _ _ h => h.allowed ..)
      (fun _ _ h => h.keyHolder ..) hInfo hw hRead).map _
  | servicePublicKey caller path =>
    exact (Keys.related_servicePublicKey hT path (fun _ _ h => h.readable ..) hw).map _
  | serviceKey caller path transportKey =>
    exact (Keys.related_serviceKey hT path transportKey (fun _ _ h => h.allowed ..)
      (fun _ _ h => h.keyHolder ..) hw).map _

end Operation

/-! ## Runs -/

/-- Who makes a task a call; nobody in particular loads a snapshot. -/
def Task.caller? : Task → Option Principal
  | operation _ o => o.caller?
  | load _ => none

theorem Task.twin_start {X : SettingKey} {w w' : World} (service : Principal) (task : Task)
    (hw : w.Alike X w')
    (hReads : ∀ caller, task.caller? = some caller → ¬ Reads w.tables caller X) :
    Outcome.Twin X (task.start service w) (task.start service w') := by
  cases task with
  | operation now o => exact o.twin_perform service now hw hReads
  | load snapshot =>
    unfold start World.load
    dsimp only
    cases Snapshot.parse snapshot with
    | error why => exact Outcome.twin_fail hw why
    | ok t => exact Outcome.twin_finish (hw.replaceTables t) Answer.nothing

namespace Server

open Outcome

/-- Calls that wait under the same number are of the same task and behave alike. -/
inductive PendingAlike (X : SettingKey) : Option Pending → Option Pending → Prop
  | none : PendingAlike X none none
  | some {task : Task} {o o' : Outcome Answer} (twin : Twin X o o') :
      PendingAlike X (some ⟨task, o⟩) (some ⟨task, o'⟩)

/-- No difference but in the octets of a setting and of its archived versions. -/
structure Alike (X : SettingKey) (s s' : Server) : Prop where
  worlds : s.world.Alike X s'.world
  waiting : ∀ id, PendingAlike X (s.waiting id) (s'.waiting id)

/-- Whoever makes a call in a run cannot read a setting when he makes it. -/
def Unread (service : Principal) (X : SettingKey) : Server → List Event → Prop
  | _, [] => True
  | s, e :: events =>
    (∀ id task caller, e = .call id task → task.caller? = some caller →
      ¬ Reads s.world.tables caller X) ∧ Unread service X (s.step service e).1 events

section Runs

variable {X : SettingKey} {s s' : Server} {service : Principal}

theorem idle_alike {w w' : World} (h : w.Alike X w') : (idle w).Alike X (idle w') :=
  ⟨h, fun _ => .none⟩

theorem Alike.hold (h : s.Alike X s') (id : Nat) {p p' : Option Pending} (hp : PendingAlike X p p') :
    (s.hold id p).Alike X (s'.hold id p') := by
  refine ⟨h.worlds, fun i => ?_⟩
  rw [waiting_hold, waiting_hold]
  split
  · exact hp
  · exact h.waiting i

theorem Alike.advance (h : s.Alike X s') (id : Nat) (task : Task) {o o' : Outcome Answer}
    (hTwin : Twin X o o') :
    (s.advance id task o).2 = (s'.advance id task o').2 ∧
      (s.advance id task o).1.Alike X (s'.advance id task o').1 := by
  cases hTwin with
  | @done w w' r worlds =>
    have hEnded : { s with world := w }.Alike X { s' with world := w' } := ⟨worlds, h.waiting⟩
    exact ⟨rfl, hEnded.hold id .none⟩
  | ask resumes => exact ⟨rfl, h.hold id (.some (.ask resumes))⟩
  | draw resumes => exact ⟨rfl, h.hold id (.some (.draw resumes))⟩

/-- A step of both services is the same but for the octets of the setting. -/
theorem Alike.step (service : Principal) (h : s.Alike X s') (e : Event)
    (hUnread : ∀ id task caller, e = .call id task → task.caller? = some caller →
      ¬ Reads s.world.tables caller X) :
    (s.step service e).2 = (s'.step service e).2 ∧
      (s.step service e).1.Alike X (s'.step service e).1 := by
  cases e with
  | call id task =>
    have hReads (caller : Principal) (hCaller : task.caller? = some caller) :
        ¬ Reads s.world.tables caller X := hUnread id task caller rfl hCaller
    exact h.advance id task (task.twin_start service h.worlds hReads)
  | reply id reply =>
    have hPending := h.waiting id
    unfold Server.step
    dsimp only
    generalize s.waiting id = p at hPending ⊢
    generalize s'.waiting id = p' at hPending ⊢
    cases hPending with
    | none => exact ⟨rfl, h⟩
    | @some task o o' twin =>
      cases twin with
      | ask resumes => exact h.advance id task (resumes _ _ reply h.worlds)
      | done => exact ⟨rfl, h⟩
      | draw => exact ⟨rfl, h⟩
  | random id octets =>
    have hPending := h.waiting id
    unfold Server.step
    dsimp only
    generalize s.waiting id = p at hPending ⊢
    generalize s'.waiting id = p' at hPending ⊢
    cases hPending with
    | none => exact ⟨rfl, h⟩
    | @some task o o' twin =>
      cases twin with
      | draw resumes => exact h.advance id task (resumes _ _ octets h.worlds)
      | done => exact ⟨rfl, h⟩
      | ask => exact ⟨rfl, h⟩

/-- A run in which nobody makes a call who can read a setting shows nothing of its contents: the same
calls end in the same way, and the services differ at most in these contents again. -/
theorem unread_contents_stay_hidden (h : s.Alike X s') {events : List Event}
    (hUnread : Unread service X s events) :
    (s.run service events).2 = (s'.run service events).2 ∧
      (s.run service events).1.Alike X (s'.run service events).1 := by
  induction events generalizing s s' with
  | nil => exact ⟨rfl, h⟩
  | cons e events ih =>
    obtain ⟨hFirst, hRest⟩ := hUnread
    obtain ⟨hEnded, hNext⟩ := h.step service e hFirst
    obtain ⟨hCompletions, hFinal⟩ := ih hNext hRest
    refine ⟨?_, hFinal⟩
    rw [run, run]
    dsimp only
    rw [hEnded, hCompletions]

end Runs

namespace Sample

open Keys

/-- A world in which the setting has another payload. -/
def holding (payload : Bytes) : World :=
  final.1.world.withTables (final.1.world.tables.putSetting ((path 0).toKey owner)
    { payloadChange.row (newSetting.row 20) (.int 2) 30 with payload := some payload })

/-- Somebody without a role tries to read and to write a setting, and adds to a balance. -/
def strangersCalls : List Event := [
  .call 4 (.operation 40 (.getSetting auditor ownersPath)),
  .call 5 (.operation 50 (.topUp auditor "vault" 1)),
  .call 6 (.operation 60 (.updatePayload auditor ownersPath ⟨2, [9], none, none, false⟩)),
  .call 7 (.operation 70 (.encryptedSetting auditor ownersPath exchangeRequest))]

theorem strangers_see_no_contents :
    (idle (holding [2])).Alike ((path 0).toKey owner) (idle (holding [3])) ∧
      Unread owner ((path 0).toKey owner) (idle (holding [2])) strangersCalls ∧
      ((idle (holding [2])).run owner strangersCalls).2 =
        ((idle (holding [3])).run owner strangersCalls).2 ∧
      ((idle (holding [2])).run owner strangersCalls).1.Alike ((path 0).toKey owner)
        ((idle (holding [3])).run owner strangersCalls).1 := by
  have hAlike : (holding [2]).Alike ((path 0).toKey owner) (holding [3]) := by
    refine World.Alike.withTables rfl ?_
    rw [Tables.veil_putSetting, Tables.veil_putSetting]
    rfl
  have hUnread : Unread owner ((path 0).toKey owner) (idle (holding [2])) strangersCalls := by
    refine ⟨?_, ?_, ?_, ?_, trivial⟩ <;> rintro id task caller ⟨⟩ ⟨⟩ <;>
      exact not_reads_of_not_reader rfl rfl rfl (by decide)
  exact ⟨idle_alike hAlike, hUnread, unread_contents_stay_hidden (idle_alike hAlike) hUnread⟩

end Sample

end Server

end TenantVault
