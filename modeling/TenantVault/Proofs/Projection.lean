import TenantVault.Proofs.Congruence

/-! # Operations on a part of the tables

A projection leaves a part of the tables. Looks that find the same in that part, and changes that do the
same to it, are put together along the steps of an operation; a call all of whose looks and changes are
of these kinds gives the same answer in the part of a world as in the whole of it, and leaves the part of
what it leaves there.
-/

namespace TenantVault

open Access

section Steps

variable {α β : Type} {π : Tables → Tables} {t : Tables}

/-- A look at tables gives the same in a part of them. -/
def Blind (π : Tables → Tables) (f : Tables → α) (t : Tables) : Prop := f (π t) = f t

/-- A change of tables does the same to a part of them. -/
def Commutes (π : Tables → Tables) (f : Tables → Result (Tables × α)) (t : Tables) : Prop :=
  f (π t) = (f t).map (Prod.map π id)

theorem Blind.bind {q : Tables → Result β} {g : β → Tables → Result α} (hq : Blind π q t)
    (hg : ∀ b, q t = .ok b → Blind π (g b) t) : Blind π (fun t => q t >>= fun b => g b t) t := by
  unfold Blind at *
  dsimp only
  rw [hq]
  cases hResult : q t with
  | error why => rfl
  | ok b => exact hg b hResult

theorem Commutes.bind {q : Tables → Result β} {g : β → Tables → Result (Tables × α)}
    (hq : Blind π q t) (hg : ∀ b, q t = .ok b → Commutes π (g b) t) :
    Commutes π (fun t => q t >>= fun b => g b t) t := by
  unfold Blind Commutes at *
  dsimp only
  rw [hq]
  cases hResult : q t with
  | error why => rfl
  | ok b => exact hg b hResult

theorem Commutes.pure {f : Tables → Tables × α} (h : f (π t) = Prod.map π id (f t)) :
    Commutes π (fun t => Pure.pure (f t)) t := congrArg Except.ok h

theorem Commutes.guarded {f : Tables → Result (Tables × α)} (h : Commutes π f t) {caller : Principal}
    {api : String} (hAllowed : Blind π (allowed · caller api) t) :
    Commutes π (Operation.guarded caller api f) t :=
  Commutes.bind (q := fun t => allowed t caller api) (g := fun _ => f) hAllowed fun _ _ => h

end Steps

/-! ## Operations on one setting -/

/-- A part of the tables in which a setting and its archived versions are read and written as in the
whole. -/
structure Keeps (π : Tables → Tables) (key : SettingKey) : Prop where
  live (t : Tables) : (π t).getSetting? key = t.getSetting? key
  put (t : Tables) (s : Setting) : (π t).putSetting key s = π (t.putSetting key s)
  archive (t : Tables) (s : Setting) (deprecated : Bool) (now : Int) :
    (π t).archivePayload key s deprecated now = π (t.archivePayload key s deprecated now)
  remove (t : Tables) : (π t).removeSetting key = π (t.removeSetting key)
  settle {α : Type} (t : Tables) (ns : Namespace) (count : Result Json) (a : α) :
    (π t).settle key.ns ns count a = Prod.map π id (t.settle key.ns ns count a)

/-- Whether the caller may write a setting shows in the part, and the setting is kept if he may. -/
structure KeepsWritable (π : Tables → Tables) (caller : Principal) (key : SettingKey) (t : Tables) :
    Prop where
  look : Blind π (settingNamespace · caller key) t
  keeps : ∀ ns, settingNamespace t caller key = .ok ns → Keeps π key

namespace KeepsWritable

variable {π : Tables → Tables} {caller : Principal} {key : SettingKey} {t : Tables} {now : Int}

theorem writableSetting_blind (h : KeepsWritable π caller key t) :
    Blind π (writableSetting · caller key) t := by
  unfold writableSetting
  refine Blind.bind h.look fun ns hNamespace => ?_
  unfold Blind getSetting
  dsimp only
  rw [(h.keeps ns hNamespace).live]

theorem keeps_of_writable (h : KeepsWritable π caller key t) {row : Namespace × Setting}
    (hWritable : writableSetting t caller key = .ok row) : Keeps π key := by
  unfold writableSetting at hWritable
  cases hNamespace : settingNamespace t caller key with
  | error why =>
    rw [hNamespace] at hWritable
    cases hWritable
  | ok ns => exact h.keeps ns hNamespace

theorem createSetting_commutes (h : KeepsWritable π caller key t) (input : NewSetting) :
    Commutes π (·.createSetting caller key input now) t := by
  obtain ⟨payload, desc, status, tags, contentType, dataKey⟩ := input
  unfold Tables.createSetting
  refine Commutes.bind h.look fun ns hNamespace => ?_
  have hKeeps := h.keeps ns hNamespace
  refine Commutes.bind ?_ fun _ _ => Commutes.bind rfl fun _ _ => ?_
  · unfold Blind
    dsimp only
    rw [hKeeps.live]
  · cases payload with
    | none =>
      refine Commutes.pure ?_
      rw [hKeeps.put, hKeeps.settle]
    | some payload =>
      refine Commutes.bind rfl fun _ _ => Commutes.pure ?_
      rw [hKeeps.put, hKeeps.settle]

theorem updatePayload_commutes (h : KeepsWritable π caller key t) (input : PayloadChange) :
    Commutes π (·.updatePayload caller key input now) t := by
  unfold Tables.updatePayload
  refine Commutes.bind h.writableSetting_blind fun row hWritable => ?_
  obtain ⟨ns, s⟩ := row
  have hKeeps := h.keeps_of_writable hWritable
  refine Commutes.bind rfl fun _ _ => Commutes.bind rfl fun _ _ => Commutes.bind rfl fun _ _ => ?_
  refine Commutes.bind rfl fun _ _ => Commutes.bind rfl fun version _ => Commutes.pure ?_
  rw [hKeeps.archive, hKeeps.put, hKeeps.settle]

theorem updateSetting_commutes (h : KeepsWritable π caller key t) (input : SettingChange) :
    Commutes π (·.updateSetting caller key input now) t := by
  unfold Tables.updateSetting
  refine Commutes.bind h.writableSetting_blind fun row hWritable => ?_
  obtain ⟨ns, s⟩ := row
  refine Commutes.bind rfl fun _ _ => Commutes.bind rfl fun _ _ => Commutes.pure ?_
  rw [(h.keeps_of_writable hWritable).put]
  rfl

theorem changeReaders_commutes (h : KeepsWritable π caller key t) (d : Direction) (readers : Principals) :
    Commutes π (·.changeReaders caller key d readers now) t := by
  unfold Tables.changeReaders
  refine Commutes.bind rfl fun _ _ => Commutes.bind h.writableSetting_blind fun row hWritable => ?_
  obtain ⟨ns, s⟩ := row
  refine Commutes.bind rfl fun _ _ => Commutes.bind rfl fun _ _ => Commutes.pure ?_
  rw [(h.keeps_of_writable hWritable).put]
  rfl

theorem deleteSetting_commutes (h : KeepsWritable π caller key t) :
    Commutes π (·.deleteSetting caller key) t := by
  unfold Tables.deleteSetting
  refine Commutes.bind h.writableSetting_blind fun row hWritable => ?_
  obtain ⟨ns, s⟩ := row
  have hKeeps := h.keeps_of_writable hWritable
  refine Commutes.bind rfl fun _ _ => Commutes.pure ?_
  rw [hKeeps.remove, hKeeps.settle]

end KeepsWritable

/-- Whether the caller may read a setting shows in the part, and its payloads are kept if he may. -/
structure KeepsReadable (π : Tables → Tables) (caller : Principal) (key : SettingKey) (t : Tables) :
    Prop where
  look : Blind π (readableSetting · caller key) t
  archived : ∀ s, readableSetting t caller key = .ok s → Blind π (·.archivedPayload key) t

namespace KeepsReadable

variable {π : Tables → Tables} {caller : Principal} {key : SettingKey} {t : Tables}

theorem readSetting_blind (h : KeepsReadable π caller key t) :
    Blind π (·.readSetting caller key) t := by
  unfold Tables.readSetting
  refine Blind.bind h.look fun s hReadable => ?_
  have hArchived : (π t).archivedPayload key = t.archivedPayload key := h.archived s hReadable
  unfold Blind
  dsimp only
  rw [hArchived]

theorem readArchived_blind (h : KeepsReadable π caller key t) :
    Blind π (·.readArchived caller key) t := by
  unfold Tables.readArchived
  refine Blind.bind h.look fun s hReadable => ?_
  have hArchived : (π t).archivedPayload key = t.archivedPayload key := h.archived s hReadable
  unfold Blind
  dsimp only
  rw [hArchived]

end KeepsReadable

/-! ## Calls that nothing interrupts -/

/-- The world with a part of its tables. -/
def World.through (π : Tables → Tables) (w : World) : World := w.withTables (π w.tables)

namespace Outcome

variable {α β : Type} {π : Tables → Tables} {w : World}

/-- Two courses of events that end alike when nothing interrupts them, the second one in a part of the
world in which the first one runs. -/
def Mirrors (π : Tables → Tables) (w : World) (o o' : Outcome α) : Prop :=
  ∀ answer random,
    o'.run answer random (w.through π) = Prod.map (World.through π) id (o.run answer random w)

/-- The world itself and the part of it. -/
def Through (π : Tables → Tables) (w u u' : World) : Prop := u = w ∧ u' = w.through π

theorem congruence_mirrors (π : Tables → Tables) (w : World) :
    Congruence (Through π w) (Mirrors π w) where
  done := by
    rintro _ _ _ ⟨rfl, rfl⟩ r answer random
    rfl
  ask h answer random := h w (w.through π) (answer _) ⟨rfl, rfl⟩ answer random
  draw h answer random := h w (w.through π) (random _) ⟨rfl, rfl⟩ answer random

theorem SameLook.of_blind {f : Tables → β} (h : Blind π f w.tables) : SameLook (Through π w) f := by
  rintro _ _ ⟨rfl, rfl⟩
  exact h.symm

theorem run_map (f : α → β) (o : Outcome α) (answer : Request → Reply) (random : Nat → Bytes) (w : World) :
    (o.map f).run answer random w = Prod.map id (Except.map f) (o.run answer random w) := by
  induction o with
  | done w' r => cases r <;> rfl
  | ask q resume ih => exact ih w (answer q)
  | draw size resume ih => exact ih w (random size)

theorem Mirrors.map (f : α → β) {o o' : Outcome α} (h : Mirrors π w o o') :
    Mirrors π w (o.map f) (o'.map f) := by
  intro answer random
  rw [run_map, run_map, h answer random]
  rfl

theorem mirrors_query {f : Tables → Result α} (h : Blind π f w.tables) :
    Mirrors π w (Call.query f w) (Call.query f (w.through π)) :=
  (congruence_mirrors π w).query ⟨rfl, rfl⟩ h.symm

theorem mirrors_update {f : Tables → Result (Tables × α)} (h : Commutes π f w.tables) :
    Mirrors π w (Call.update f w) (Call.update f (w.through π)) := by
  intro answer random
  have hTables : f (w.through π).tables = (f w.tables).map (Prod.map π id) := h
  unfold Call.update
  rw [hTables]
  cases f w.tables <;> rfl

theorem mirrors_settle {f : Tables → Result (Tables × Result α)} (h : Commutes π f w.tables) :
    Mirrors π w (Call.settle f w) (Call.settle f (w.through π)) := by
  intro answer random
  have hTables : f (w.through π).tables = (f w.tables).map (Prod.map π id) := h
  unfold Call.settle
  rw [hTables]
  cases f w.tables <;> rfl

end Outcome

end TenantVault
