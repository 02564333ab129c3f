import TenantVault.Proofs.History
import TenantVault.Proofs.Lifetime
import TenantVault.Proofs.Return

/-! # Handing out the live record

A call that hands out a setting reads it first and waits then. When the random octets have come it
looks at the version of the live record again, and at nothing else of it. Versions only grow as long
as the setting is there, so the same version means the same payload, unless the setting has been
deleted and created anew in the meantime or a snapshot has replaced it: then an old payload goes out
under the version of a new one.
-/

namespace TenantVault

open Access

/-! ## The life of a record -/

/-- A version that an update of the payload makes greater by one. -/
def Json.Counts (v : Json) (n : Int) : Prop :=
  v.content? = some (.whole n) ∧ v.plus 1 = .ok (.int (n + 1))

theorem Json.counts_int (n : Int) : (Json.int n).Counts n := ⟨rfl, rfl⟩

theorem Json.IsCount.counts {v : Json} (h : v.IsCount) : ∃ n, v.Counts n := by
  obtain ⟨m, hPlus⟩ := h
  have hOne := hPlus 1
  cases v with
  | bool b => exact ⟨_, rfl, rfl⟩
  | int n => exact ⟨n, Json.counts_int n⟩
  | float x =>
    unfold Json.plus at hOne
    dsimp only at hOne
    split at hOne <;> cases hOne
  | _ => cases hOne

theorem Json.Counts.unique {v : Json} {m n : Int} (hm : v.Counts m) (hn : v.Counts n) : m = n := by
  have h := hm.1.symm.trans hn.1
  cases h
  rfl

/-- A record as it may be after some changes, none of which has removed it. -/
structure Setting.Later (s s' : Setting) : Prop where
  createdAt : s'.createdAt = s.createdAt
  version : ∃ n n' : Int, s.version.Counts n ∧ s'.version.Counts n' ∧ n ≤ n' ∧
    (n' = n → s'.version = s.version ∧ s'.payload = s.payload ∧ s'.dataKey = s.dataKey)

namespace Setting.Later

variable {s s' s'' : Setting}

theorem of_same {n : Int} (hVersion : s.version.Counts n) (hCreated : s'.createdAt = s.createdAt)
    (hSame : s'.version = s.version ∧ s'.payload = s.payload ∧ s'.dataKey = s.dataKey) :
    s.Later s' :=
  ⟨hCreated, n, n, hVersion, hSame.1 ▸ hVersion, Int.le_refl n, fun _ => hSame⟩

theorem trans (h : s.Later s') (h' : s'.Later s'') : s.Later s'' := by
  obtain ⟨hCreated, n, m, hFirst, hMiddle, hLe, hSame⟩ := h
  obtain ⟨hCreated', m', k, hMiddle', hLast, hLe', hSame'⟩ := h'
  obtain rfl := hMiddle.unique hMiddle'
  refine ⟨hCreated'.trans hCreated, n, k, hFirst, hLast, by omega, ?_⟩
  intro hVersion
  obtain ⟨hVersion₁, hPayload₁, hKey₁⟩ := hSame (by omega)
  obtain ⟨hVersion₂, hPayload₂, hKey₂⟩ := hSame' (by omega)
  exact ⟨hVersion₂.trans hVersion₁, hPayload₂.trans hPayload₁, hKey₂.trans hKey₁⟩

/-- While a record keeps its version, it keeps its payload. -/
theorem same (h : s.Later s') (hVersion : s'.version.content? = s.version.content?) :
    s'.version = s.version ∧ s'.payload = s.payload ∧ s'.dataKey = s.dataKey := by
  obtain ⟨-, n, n', hFirst, hLast, -, hSame⟩ := h
  rw [hFirst.1, hLast.1] at hVersion
  cases hVersion
  exact hSame rfl

end Setting.Later

section Segments

variable {key : SettingKey} {s s' : Setting} {now : Int} {n : Int}

theorem Commit.later {t t' : Tables} {o : Operation} {r : Result Answer} (h : Commit now t o t' r)
    (hBefore : t.getSetting? key = some s) (hAfter : t'.getSetting? key = some s')
    (hVersion : s.version.Counts n) : s.Later s' := by
  have hLive : t'.settings.get? key.stored.current = some s' := hAfter
  cases h.fate (k := key.stored) hBefore with
  | untouched apart rows =>
    rw [(rows key.stored.current BEq.rfl).live] at hLive
    cases hBefore.symm.trans hLive
    exact .of_same hVersion rfl ⟨rfl, rfl, rfl⟩
  | described at_ open_ live | regrouped at_ open_ live =>
    cases live.symm.trans hLive
    exact .of_same hVersion rfl ⟨rfl, rfl, rfl⟩
  | updated at_ readWrite expected next live =>
    cases live.symm.trans hLive
    rw [hVersion.2] at next
    cases next
    exact ⟨rfl, n, n + 1, hVersion, Json.counts_int _, by omega, fun hSame => by omega⟩
  | deleted at_ open_ gone => cases gone.symm.trans hLive

theorem Task.Segment.later {task : Task} {w w' : World} {r : Result Answer}
    (h : task.Segment w w' r) (hGeneration : w'.generation = w.generation)
    (hBefore : w.tables.getSetting? key = some s) (hAfter : w'.tables.getSetting? key = some s')
    (hVersion : s.version.Counts n) : s.Later s' := by
  have hUnchanged (hSame : w'.tables = w.tables) : s.Later s' := by
    rw [hSame, hBefore] at hAfter
    cases hAfter
    exact .of_same hVersion rfl ⟨rfl, rfl, rfl⟩
  cases h with
  | loaded =>
    simp [World.generation, World.replaceTables] at hGeneration
  | notLoaded => exact hUnchanged rfl
  | operation segment =>
    cases segment with
    | committed commit => exact commit.later hBefore hAfter hVersion
    | _ => exact hUnchanged rfl

end Segments

/-! ## Runs in which a record stays -/

namespace Server

/-- Something holds at the beginning of a run and after each of its events. -/
def Throughout (service : Principal) (I : World → Prop) (s : Server) : List Event → Prop
  | [] => I s.world
  | e :: events => I s.world ∧ Throughout service I (s.step service e).1 events

/-- A setting is there, in tables that no load of a snapshot has replaced since. -/
def Stays (key : SettingKey) (generation : Nat) (w : World) : Prop :=
  w.generation = generation ∧ (w.tables.getSetting? key).isSome = true

section Runs

variable {service : Principal} {s : Server} {I : World → Prop}

theorem Throughout.first {events : List Event} (h : Throughout service I s events) : I s.world := by
  cases events with
  | nil => exact h
  | cons e events => exact h.1

/-- The record of a setting that stays through a run is a later form of the one at its beginning. -/
theorem later_run {key : SettingKey} {generation : Nat} {events : List Event} {row : Setting} {n : Int}
    (hSound : s.Sound fun _ => True) (hStays : Throughout service (Stays key generation) s events)
    (hRow : s.world.tables.getSetting? key = some row) (hVersion : row.version.Counts n) :
    ∃ row', (s.run service events).1.world.tables.getSetting? key = some row' ∧ row.Later row' := by
  induction events generalizing s row n with
  | nil => exact ⟨row, hRow, .of_same hVersion rfl ⟨rfl, rfl, rfl⟩⟩
  | cons e events ih =>
    obtain ⟨hHere, hRest⟩ := hStays
    obtain ⟨hGeneration, hThere⟩ := hRest.first
    obtain ⟨row', hRow'⟩ := Option.isSome_iff_exists.mp hThere
    obtain ⟨hSound', hSteps⟩ := step_spec service hSound e fun _ _ _ => trivial
    have hStep : row.Later row' := by
      generalize s.step service e = next at *
      cases hSteps with
      | waits same =>
        rw [same, hRow] at hRow'
        cases hRow'
        exact .of_same hVersion rfl ⟨rfl, rfl, rfl⟩
      | ends about kind segment =>
        exact segment.later (hGeneration.trans hHere.1.symm) hRow hRow' hVersion
    obtain ⟨-, n', -, hVersion', -⟩ := hStep.version
    obtain ⟨row'', hRow'', hLater⟩ := ih hSound' hRest hRow' hVersion'
    exact ⟨row'', hRow'', hStep.trans hLater⟩

end Runs

end Server

/-! ## What is handed out -/

namespace Keys

open Outcome

/-- What a payload is when it is not encrypted: itself without a key of its own, otherwise what it
decrypts to by means of a signature that the call was told. -/
def IsPlain (told : Reaction → Prop) (key : SettingKey) (payload : Bytes) (dataKey : Option Bytes)
    (plain : Bytes) : Prop :=
  match dataKey with
  | none => plain = payload
  | some dataKey => ∃ signature, told (.reply (.ok signature)) ∧
    decryptPayload key payload dataKey signature = .ok plain

/-- An answer that hands out the payload of a record, encrypted for the caller. -/
structure HandsOutRecord (told : Reaction → Prop) (key : SettingKey) (input : ExchangeRequest)
    (row : Setting) (handover : Handover SettingInfo) : Prop where
  version : handover.content.version = row.version
  createdAt : handover.content.createdAt = row.createdAt
  dataKey : handover.content.dataKey = row.dataKey
  payload : ∃ payload plain octets sealed, row.payload = some payload ∧
    IsPlain told key payload row.dataKey plain ∧ told (.random octets) ∧
    encryptPayload key input plain octets = .ok (sealed, handover.publicKey) ∧
    handover.content.payload = some sealed

/-- The world is left as it is, and the live record has the version of the one that is handed out,
which was the live one in another world. -/
def FoundAgain (told : Reaction → Prop) (key : SettingKey) (input : ExchangeRequest)
    (begun w w' : World) (handover : Handover SettingInfo) : Prop :=
  w' = w ∧ ∃ row live, begun.tables.getSetting? key = some row ∧
    w.tables.getSetting? key = some live ∧ live.version.content? = row.version.content? ∧
    HandsOutRecord told key input row handover

section Call

variable {told : Reaction → Prop} {begun : World} {key : SettingKey} {input : ExchangeRequest}
  {s : Setting}

theorem concludes_plainPayload {α : Type} {Q : World → Option Reaction → World → α → Prop}
    {caller : Principal} {payload : Bytes} {dataKey : Option Bytes}
    {next : World → Bytes → Outcome α} {w : World} {x : Option Reaction}
    (h : ∀ plain, IsPlain told key payload dataKey plain →
      ∀ w x, (next w plain).Concludes told Q w x) :
    (plainPayload caller key payload dataKey w next).Concludes told Q w x := by
  cases dataKey with
  | none => exact h payload rfl w x
  | some dataKey =>
    refine concludes_after fun _ _ => concludes_after fun tenant hTenant => ?_
    refine concludes_after fun ns hNamespace => concludes_request fun w signature hTold => ?_
    refine concludes_after fun plain hPlain => h plain ⟨signature, hTold, ?_⟩ w _
    simp only [bind_eq_ok_iff] at hPlain
    obtain ⟨_, -, secret, hSecret, unwrapped, hUnwrap, hPlain⟩ := hPlain
    simp only [decryptPayload, bind_eq_ok_iff]
    exact ⟨tenant, hTenant, ns, hNamespace, secret, hSecret, unwrapped, hUnwrap, hPlain⟩

theorem info_eq {info : SettingInfo} (h : s.info key = .ok info) :
    info.version = s.version ∧ info.createdAt = s.createdAt := by
  simp only [Setting.info, bind_eq_ok_iff, pure_eq_ok_iff] at h
  obtain ⟨tags, -, rfl⟩ := h
  exact ⟨rfl, rfl⟩

/-- The live record is read for version 0. -/
theorem of_readSetting {t : Tables} {caller : Principal} {info : SettingInfo}
    (hCurrent : key.version = 0) (h : t.readSetting caller key = .ok info) :
    ∃ row, t.getSetting? key = some row ∧ info.version = row.version ∧
      info.createdAt = row.createdAt ∧ info.payload = row.payload ∧ info.dataKey = row.dataKey := by
  simp only [Tables.readSetting, bind_eq_ok_iff, readableSetting_eq_ok_iff, hCurrent, true_or,
    if_true, Setting.fullInfo, pure_eq_ok_iff] at h
  obtain ⟨row, ⟨hRow, -, -⟩, info, hInfo, rfl⟩ := h
  obtain ⟨hVersion, hCreated⟩ := info_eq hInfo
  exact ⟨row, hRow, hVersion, hCreated, rfl, rfl⟩

theorem concludes_encryptedSetting (caller : Principal) (path : SettingPath) (input : ExchangeRequest)
    (hCurrent : path.version = 0) :
    (encryptedSetting caller path input begun).Concludes told (fun w _ w' handover =>
      FoundAgain told (path.toKey caller) input begun w w' handover) begun none := by
  refine concludes_after fun _ _ => concludes_after fun info hRead => ?_
  obtain ⟨row, hRow, hVersion, hCreated, hPayload, hKey⟩ := of_readSetting hCurrent hRead
  split
  · exact concludes_fail _
  · next payload hSome =>
    refine concludes_plainPayload fun plain hPlain w x => ?_
    refine concludes_after fun _ hRequest => concludes_draw fun w octets hOctets => ?_
    refine concludes_after fun agreement hAgreement => concludes_after fun sealed hSealed => ?_
    refine concludes_finish ⟨rfl, row, ?_⟩
    simp only [bind_eq_ok_iff, exists_unit_iff, demand_eq_ok_iff, Bool.or_eq_true,
      decide_eq_true_eq] at hSealed
    obtain ⟨current, hInfo, hSame, hSealed⟩ := hSealed
    simp only [Tables.getSettingInfo, bind_eq_ok_iff, readableSetting_eq_ok_iff] at hInfo
    obtain ⟨live, ⟨hLive, -, -⟩, hInfo⟩ := hInfo
    have hSame := hSame.resolve_right fun hVersioned => hVersioned hCurrent
    rw [(info_eq hInfo).1, hVersion] at hSame
    refine ⟨live, hRow, hLive, hSame, hVersion, hCreated, hKey, ?_⟩
    refine ⟨payload, plain, octets, sealed, hPayload ▸ hSome, hKey ▸ hPlain, hOctets, ?_, rfl⟩
    simp only [encryptPayload, bind_eq_ok_iff, exists_unit_iff, pure_eq_ok_iff]
    exact ⟨hRequest, agreement, hAgreement, sealed, hSealed, rfl⟩

end Call

end Keys

namespace Server

open Access Keys Outcome

/-- A call for the live record of a setting that stays while the call waits hands out that record as
it is when the call returns. -/
theorem live_record_handed_out {service caller : Principal} {s before after : Server} {id : Nat}
    {now : Int} {path : SettingPath} {input : ExchangeRequest} {events : List Event} {last : Event}
    {a : Answer} (hReachable : Reachable service s) (hCurrent : path.version = 0)
    (hCounts : ∀ row, s.world.tables.getSetting? (path.toKey caller) = some row →
      row.version.IsCount)
    (hReturns : Returns service s id (.operation now (.encryptedSetting caller path input)) events
      last before after a)
    (hStays : Throughout service (Stays (path.toKey caller) s.world.generation) s
      (.call id (.operation now (.encryptedSetting caller path input)) :: events).dropLast) :
    ∃ row handover, after.world.tables.getSetting? (path.toKey caller) = some row ∧
      a = .sealedSetting handover ∧
      HandsOutRecord (Told id events) (path.toKey caller) input row handover := by
  obtain ⟨earlier, hEvents, hBefore, -⟩ := hReturns.course
  have hFound : ∃ handover, a = .sealedSetting handover ∧
      FoundAgain (Told id events) (path.toKey caller) input s.world before.world after.world
        handover := by
    refine hReturns.concludes (Q := fun w _ w' a => ∃ handover, a = .sealedSetting handover ∧
      FoundAgain (Told id events) (path.toKey caller) input s.world w w' handover) ?_
    refine (concludes_map_iff Answer.sealedSetting _ _ s.world none).mpr ?_
    refine (concludes_encryptedSetting caller path input hCurrent).mono ?_
    intro w x w' handover hFound
    exact ⟨handover, rfl, hFound⟩
  obtain ⟨handover, hAnswer, hWorld, row, live, hRow, hLive, hSame, hHands⟩ := hFound
  -- From the beginning to the return the record goes through changes, but it is never removed.
  obtain ⟨n, hNumber⟩ := (hCounts row hRow).counts
  have hSound : s.Sound fun _ => True := fun i p h => ⟨trivial, (hReachable.sound i p h).2⟩
  rw [hEvents, List.dropLast_concat] at hStays
  obtain ⟨live', hLive', hLater⟩ := later_run hSound hStays hRow hNumber
  rw [hBefore, hLive] at hLive'
  cases hLive'
  obtain ⟨hVersion, hPayload, hKey⟩ := hLater.same hSame
  refine ⟨live, handover, hWorld ▸ hLive, hAnswer, hHands.version.trans hVersion.symm,
    hHands.createdAt.trans hLater.createdAt.symm, hHands.dataKey.trans hKey.symm, ?_⟩
  rw [hPayload, hKey]
  exact hHands.payload

/-! ## A run in which the record stays, and one in which it does not -/

section Answers

variable {service caller : Principal} {s before : Server} {id : Nat} {task : Task} {a : Answer}
  {key : SettingKey} {path : SettingPath} {input : ExchangeRequest}

/-- A call that waits for random octets only returns when they come, whatever others do first. -/
theorem returns_of_delivers {others : List Event} {octets : Bytes} (hOthers : ∀ e ∈ others, e.id ≠ id)
    (hBefore : before = (s.run service (.call id task :: others)).1)
    (hDelivers : (task.start service s.world).Delivers a [(before.world, .random octets)]) :
    Returns service s id task (others ++ [.random id octets]) (.random id octets) before
      (before.step service (.random id octets)).1 a := by
  have hWaits : before.waiting id = pendingOf task (task.start service s.world) := by
    rw [hBefore]
    exact waiting_after_call service hOthers
  refine ⟨?_, .call id task :: others, rfl, hBefore.symm, ?_⟩
  · intro task' hMem
    rcases List.mem_append.mp hMem with hOther | hLast
    · exact hOthers _ hOther rfl
    · cases List.mem_singleton.mp hLast
  · exact Prod.ext rfl ((ended_step_random_iff service hWaits octets a).mpr hDelivers)

theorem delivers_of_same_version {begun drawn : World} {info current : SettingInfo}
    {payload octets : Bytes} {sealed : Bytes × Bytes}
    (hAdmits : Admits begun.tables "ecdh_setting_get" caller)
    (hRead : begun.tables.readSetting caller (path.toKey caller) = .ok info)
    (hPayload : info.payload = some payload) (hPlain : info.dataKey = none)
    (hCurrent : drawn.tables.getSettingInfo caller (path.toKey caller) = .ok current)
    (hVersion : current.version.content? = info.version.content?)
    (hSealed : encryptPayload (path.toKey caller) input payload octets = .ok sealed) :
    (encryptedSetting caller path input begun).Delivers
      ⟨{ info with payload := some sealed.1 }, sealed.2⟩ [(drawn, .random octets)] := by
  unfold encryptedSetting
  simp only [delivers_after_iff, exists_unit_iff, allowed_eq_ok_iff]
  refine ⟨hAdmits, info, hRead, ?_⟩
  simp only [encryptPayload, bind_eq_ok_iff, exists_unit_iff, pure_eq_ok_iff] at hSealed
  obtain ⟨hRequest, agreement, hAgreement, message, hMessage, rfl⟩ := hSealed
  rw [hPayload]
  dsimp only
  rw [hPlain]
  unfold plainPayload
  simp only [delivers_exchange_iff, delivers_after_iff, bind_eq_ok_iff, exists_unit_iff,
    demand_eq_ok_iff, delivers_finish_iff, Bool.or_eq_true, decide_eq_true_iff]
  exact ⟨hRequest, agreement, hAgreement, message, ⟨current, hCurrent, Or.inl hVersion, hMessage⟩,
    rfl⟩

/-- A setting that is not encrypted is handed out as it was when the call began if the live record
has the same version when the octets come, whatever else has become of it. -/
theorem returns_of_same_version {now : Int} {others : List Event} {info current : SettingInfo}
    {payload octets : Bytes} {sealed : Bytes × Bytes} (hOthers : ∀ e ∈ others, e.id ≠ id)
    (hBefore : before =
      (s.run service (.call id (.operation now (.encryptedSetting caller path input)) :: others)).1)
    (hAdmits : Admits s.world.tables "ecdh_setting_get" caller)
    (hRead : s.world.tables.readSetting caller (path.toKey caller) = .ok info)
    (hPayload : info.payload = some payload) (hPlain : info.dataKey = none)
    (hCurrent : before.world.tables.getSettingInfo caller (path.toKey caller) = .ok current)
    (hVersion : current.version.content? = info.version.content?)
    (hSealed : encryptPayload (path.toKey caller) input payload octets = .ok sealed) :
    Returns service s id (.operation now (.encryptedSetting caller path input))
      (others ++ [.random id octets]) (.random id octets) before
      (before.step service (.random id octets)).1
      (.sealedSetting ⟨{ info with payload := some sealed.1 }, sealed.2⟩) := by
  refine returns_of_delivers hOthers hBefore ?_
  rw [start_encryptedSetting_delivers_iff]
  exact delivers_of_same_version hAdmits hRead hPayload hPlain hCurrent hVersion hSealed

end Answers

namespace Sample

def liveRead : Task := .operation 60 (.encryptedSetting owner (path 0) exchangeRequest)

/-- Others do something while the call waits for its octets. -/
def waiting (others : List Event) : Server := (final.1.run owner (.call 9 liveRead :: others)).1

def renewal (id : Nat) (o : Operation) : Event := .call id (.operation 70 o)

/-- The setting is deleted, created anew and brought to the version that it had. -/
def recreation : List Event := [
  renewal 6 (.deleteSetting owner (path 0)),
  renewal 7 (.createSetting owner (path 0) ⟨some [5], none, none, none, none, none⟩),
  renewal 8 (.updatePayload owner (path 0) ⟨1, [6], none, none, true⟩)]

theorem encryption_succeeds :
    ∃ sealed, encryptPayload ((path 0).toKey owner) exchangeRequest [2] octets = .ok sealed := by
  obtain ⟨agreement, hAgreement⟩ := exchange_succeeds
  exact encryptPayload_of_respond rfl hAgreement _ (by decide)

/-- What the call hands out when its octets come, if the live record then has version 2. -/
theorem read_returns (others : List Event) (hOthers : ∀ e ∈ others, e.id ≠ 9)
    (hCurrent : ∃ current, (waiting others).world.tables.getSettingInfo owner ((path 0).toKey owner) =
      .ok current ∧ current.version = .int 2) :
    ∃ handover sealed, encryptPayload ((path 0).toKey owner) exchangeRequest [2] octets = .ok sealed ∧
      handover.content.payload = some sealed.1 ∧
      Returns owner final.1 9 liveRead (others ++ [.random 9 octets]) (.random 9 octets)
        (waiting others) ((waiting others).step owner (.random 9 octets)).1
        (.sealedSetting handover) := by
  obtain ⟨sealed, hSealed⟩ := encryption_succeeds
  have hRead : ∃ info, final.1.world.tables.readSetting owner ((path 0).toKey owner) = .ok info ∧
      info.payload = some [2] ∧ info.dataKey = none ∧ info.version = .int 2 := ⟨_, rfl, rfl, rfl, rfl⟩
  obtain ⟨info, hRead, hPayload, hPlain, hVersion⟩ := hRead
  obtain ⟨current, hCurrent, hSame⟩ := hCurrent
  have hAdmits : Admits final.1.world.tables "ecdh_setting_get" owner := ⟨rfl, rfl⟩
  have hVersions : current.version.content? = info.version.content? := by rw [hSame, hVersion]
  exact ⟨_, sealed, hSealed, rfl, returns_of_same_version hOthers rfl hAdmits hRead hPayload hPlain
    hCurrent hVersions hSealed⟩

theorem unchanged_record_handed_out :
    ∃ a, Reachable owner final.1 ∧ (path 0).version = 0 ∧
      (∀ row, final.1.world.tables.getSetting? ((path 0).toKey owner) = some row →
        row.version.IsCount) ∧
      Returns owner final.1 9 liveRead [topUp, .random 9 octets] (.random 9 octets)
        (waiting [topUp]) ((waiting [topUp]).step owner (.random 9 octets)).1 a ∧
      Throughout owner (Stays ((path 0).toKey owner) final.1.world.generation) final.1
        [.call 9 liveRead, topUp] ∧
      ∃ row handover, ((waiting [topUp]).step owner (.random 9 octets)).1.world.tables.getSetting?
          ((path 0).toKey owner) = some row ∧ a = .sealedSetting handover ∧
        HandsOutRecord (Told 9 [topUp, .random 9 octets]) ((path 0).toKey owner) exchangeRequest row
          handover := by
  have hReachable : Reachable owner final.1 := ⟨_, _, rfl⟩
  have hCounts : ∀ row, final.1.world.tables.getSetting? ((path 0).toKey owner) = some row →
      row.version.IsCount := by
    intro row hRow
    cases hRow
    exact Json.isCount_int 2
  have hOthers : ∀ e ∈ [topUp], e.id ≠ 9 := by decide
  obtain ⟨handover, -, -, -, hReturns⟩ := read_returns _ hOthers ⟨_, rfl, rfl⟩
  have hStays : Throughout owner (Stays ((path 0).toKey owner) final.1.world.generation) final.1
      [.call 9 liveRead, topUp] := ⟨⟨rfl, rfl⟩, ⟨rfl, rfl⟩, rfl, rfl⟩
  exact ⟨_, hReachable, rfl, hCounts, hReturns, hStays,
    live_record_handed_out hReachable rfl hCounts hReturns hStays⟩

/-- The old payload is handed out although the live record has another one. -/
theorem stale_record_handed_out :
    ∃ handover sealed row, encryptPayload ((path 0).toKey owner) exchangeRequest [2] octets =
        .ok sealed ∧ handover.content.payload = some sealed.1 ∧
      Returns owner final.1 9 liveRead (recreation ++ [.random 9 octets]) (.random 9 octets)
        (waiting recreation) ((waiting recreation).step owner (.random 9 octets)).1
        (.sealedSetting handover) ∧
      (waiting recreation).world.tables.getSetting? ((path 0).toKey owner) = some row ∧
      row.payload = some [6] := by
  obtain ⟨handover, sealed, hSealed, hPayload, hReturns⟩ :=
    read_returns recreation (by decide) ⟨_, rfl, rfl⟩
  exact ⟨handover, sealed, _, hSealed, hPayload, hReturns, rfl, rfl⟩

end Sample

end Server

end TenantVault
