import TenantVault.Proofs.Integrity

/-! # What is read-only stays

Nobody can take back that a setting or a namespace has become read-only. The setting can then only be
described anew and the balance of the namespace only grow, whoever calls whatever in whatever order.
-/

namespace TenantVault

theorem Json.isInt_unique {v : Json} {m n : Int} (hm : v.isInt m = true) (hn : v.isInt n = true) :
    m = n := by
  unfold isInt at hm hn
  rw [decide_eq_true_iff] at hm hn
  rw [hm] at hn
  cases hn
  rfl

/-! ## Settings -/

/-- A setting as it may be described anew. If its status is spelled otherwise, then as the number that
stands for read-only. -/
structure Setting.Redescribed (s s' : Setting) : Prop where
  only : s' = { s with
    desc := s'.desc, tags := s'.tags, updatedAt := s'.updatedAt, status := s'.status }
  status : s'.status = s.status ∨ s'.status = .int Setting.readOnly

namespace Setting.Redescribed

variable {s s' s'' : Setting}

theorem refl (s : Setting) : s.Redescribed s := ⟨rfl, Or.inl rfl⟩

theorem trans (h : s.Redescribed s') (h' : s'.Redescribed s'') : s.Redescribed s'' := by
  refine ⟨?_, ?_⟩
  · rw [h'.only, h.only]
  · rcases h'.status with hSame | hReadOnly
    · rw [hSame]
      exact h.status
    · exact Or.inr hReadOnly

theorem isReadOnly (h : s.Redescribed s') (hReadOnly : s.isReadOnly = true) :
    s'.isReadOnly = true := by
  unfold Setting.isReadOnly at hReadOnly ⊢
  rcases h.status with hSame | hNumber
  · rw [hSame]
    exact hReadOnly
  · rw [hNumber, Json.isInt_int]
    exact decide_eq_true rfl

/-- A change of a read-only setting is refused if it names another status. -/
theorem of_change {input : SettingChange} (now : Int) (hReadOnly : s.isReadOnly = true)
    (hStatus : ∀ status, input.status = some status → s.status.isInt status = true) :
    s.Redescribed (input.row s now) := by
  refine ⟨rfl, ?_⟩
  unfold SettingChange.row
  cases hInput : input.status with
  | none => exact Or.inl rfl
  | some status =>
    obtain rfl := Json.isInt_unique (hStatus status hInput) hReadOnly
    exact Or.inr rfl

end Setting.Redescribed

/-- What is left in later tables of a setting that was read-only in earlier ones. -/
structure Finalised (k : StoredKey) (row : Setting) (t t' : Tables) : Prop where
  live : ∃ row', t'.settings.get? k.current = some row' ∧ row.Redescribed row'
  archive : SameArchive k t t'
  housed : (t.namespaces.get? k.ns).isSome = true → (t'.namespaces.get? k.ns).isSome = true

section Settings

variable {now : Int} {t t' t'' : Tables} {o : Operation} {r : Result Answer} {k : StoredKey}
  {row : Setting}

theorem Finalised.refl (hRow : t.settings.get? k.current = some row) : Finalised k row t t where
  live := ⟨row, hRow, .refl row⟩
  archive := fun _ _ => rfl
  housed := id

/-- A write that leaves the setting read-only, and its archive as it is. -/
theorem Finalised.change {row' row'' : Setting} (h : Finalised k row t t')
    (hCommit : Commit now t' o t'' r) (hLive : t'.settings.get? k.current = some row')
    (hRow : row.Redescribed row') (hLive' : t''.settings.get? k.current = some row'')
    (hChange : row'.Redescribed row'') (hArchive : SameArchive k t' t'') : Finalised k row t t'' where
  live := ⟨row'', hLive', hRow.trans hChange⟩
  archive := h.archive.trans hArchive
  housed := fun hThere => hCommit.namespace_of_live hLive (h.housed hThere)

theorem Commit.finalised (hCommit : Commit now t' o t'' r) (hReadOnly : row.isReadOnly = true)
    (h : Finalised k row t t') : Finalised k row t t'' := by
  obtain ⟨row', hLive, hRow⟩ := h.live
  have hStill : row'.isReadOnly = true := hRow.isReadOnly hReadOnly
  cases hCommit.fate hLive with
  | untouched apart rows =>
    refine h.change hCommit hLive hRow ?_ (.refl row') fun k' hCurrent => (rows k' hCurrent).archived
    rw [← hLive]
    exact (rows k.current BEq.rfl).live
  | described at_ open_ live archive =>
    exact h.change hCommit hLive hRow live (.of_change now hStill (open_ hStill)) archive
  | updated at_ readWrite => cases Json.isInt_unique readWrite hStill
  | regrouped at_ open_ | deleted at_ open_ =>
    rw [open_] at hStill
    cases hStill

end Settings

/-! ## Namespaces -/

/-- What is left in later tables of a namespace that was frozen in earlier ones. -/
structure Frozen (name : Scalar) (ns : Namespace) (t t' : Tables) : Prop where
  row : ∃ ns', t'.namespaces.get? name = some ns' ∧
    ns' = { ns with gasBalance := ns'.gasBalance, updatedAt := ns'.updatedAt } ∧
    ns.gasBalance ≤ ns'.gasBalance
  settings : ∀ k, (k.ns == name) = true → SameRows k t t'

section Namespaces

variable {now : Int} {t t' t'' : Tables} {o : Operation} {r : Result Answer} {name : Scalar}
  {ns : Namespace} {caller : Principal}

theorem Frozen.refl (hRow : t.namespaces.get? name = some ns) : Frozen name ns t t where
  row := ⟨ns, hRow, rfl, Int.le_refl _⟩
  settings := fun _ _ => ⟨rfl, rfl⟩

theorem not_mayWrite_of_frozen {k : StoredKey} (hRow : t.namespaces.get? name = some ns)
    (hStatus : ns.status.isInt 1 = true) (hName : (k.ns == name) = true) :
    ¬ MayWrite t caller k := by
  rintro ⟨ns', hFound, hOpen, -⟩
  rw [Table.get?_congr _ hName, hRow] at hFound
  cases hFound
  cases Json.isInt_unique hOpen hStatus

/-- The row of a frozen namespace changes by top-ups only. -/
theorem Commit.row_of_frozen (hCommit : Commit now t o t' r)
    (hRow : t.namespaces.get? name = some ns) (hStatus : ns.status.isInt 1 = true) :
    ∃ ns', t'.namespaces.get? name = some ns' ∧
      ns' = { ns with gasBalance := ns'.gasBalance, updatedAt := ns'.updatedAt } ∧
      ns.gasBalance ≤ ns'.gasBalance := by
  by_cases hSame : t'.namespaces.get? name = t.namespaces.get? name
  · exact ⟨ns, hSame.trans hRow, rfl, Int.le_refl _⟩
  · obtain ⟨caller, -, hChanges⟩ := hCommit.authorised.namespaces name hSame
    cases hChanges with
    | managed found open_ =>
      rw [hRow] at found
      cases found
      rw [Json.less_of_isInt hStatus] at open_
      cases open_
    | created fresh =>
      rw [hRow] at fresh
      cases fresh
    | counted found writes at_ allowed =>
      exact (not_mayWrite_of_frozen hRow hStatus at_ allowed).elim
    | toppedUp found at_ positive onlyBalance =>
      rw [hRow] at found
      cases found
      exact ⟨_, onlyBalance, rfl, by dsimp only; omega⟩

theorem Commit.frozen (hCommit : Commit now t' o t'' r) (hStatus : ns.status.isInt 1 = true)
    (h : Frozen name ns t t') : Frozen name ns t t'' := by
  obtain ⟨ns', hRow, hOnly, hGrown⟩ := h.row
  have hStatus' : ns'.status.isInt 1 = true := by
    rw [hOnly]
    exact hStatus
  constructor
  · obtain ⟨ns'', hRow', hOnly', hGrown'⟩ := hCommit.row_of_frozen hRow hStatus'
    refine ⟨ns'', hRow', ?_, Int.le_trans hGrown hGrown'⟩
    rw [hOnly', hOnly]
  · intro k hName
    refine (h.settings k hName).trans ?_
    apply Classical.byContradiction
    intro hDiffer
    obtain ⟨caller, -, hAllowed⟩ := hCommit.authorised.settings k hDiffer
    exact not_mayWrite_of_frozen hRow hStatus' hName hAllowed

end Namespaces

/-! ## Runs -/

namespace Server

/-- Whatever is called after a setting has become read-only, the setting is there with all that it had
but its description, its tags and the time of its last change. -/
theorem read_only_setting_final {service : Principal} {s : Server} {events : List Event}
    {k : StoredKey} {row : Setting} (hReachable : Reachable service s)
    (hCalls : Calls (fun task => task.isLoad = false) events)
    (hRow : s.world.tables.settings.get? k.current = some row) (hReadOnly : row.isReadOnly = true) :
    Finalised k row s.world.tables (s.run service events).1.world.tables ∧
      (FromEmpty service s →
        ((s.run service events).1.world.tables.namespaces.get? k.ns).isSome = true) := by
  have hFinal : Finalised k row s.world.tables (s.run service events).1.world.tables :=
    tables_run (fun _ _ _ _ _ hCommit => hCommit.finalised hReadOnly) service events hReachable.sound
      hCalls (.refl hRow)
  exact ⟨hFinal, fun hEmpty => hFinal.housed (hEmpty.whole.housed_at hRow)⟩

namespace Sample

def sealing : Event := .call 3 (.operation 40 (.updateSetting owner (path 0) ⟨none, some 1, none⟩))

def withSeal : Server := (configured.step owner sealing).1

def attempts : List Event := [
  .call 4 (.operation 50 (.updatePayload owner (path 0) { payloadChange with version := 2 })),
  .call 5 (.operation 60 (.deleteSetting owner (path 0))),
  .call 6 (.operation 70 (.deleteNamespace owner "vault")),
  .call 7 (.operation 80 (.updateSetting owner (path 0) ⟨some "sealed", none, none⟩)),
  .call 8 (.operation 90 (.topUp owner "vault" 5))]

theorem attempts_call : Calls (fun task => task.isLoad = false) attempts := by
  intro id task hMem
  simp only [attempts, List.mem_cons, List.not_mem_nil, Event.call.injEq, or_false] at hMem
  rcases hMem with ⟨-, rfl⟩ | ⟨-, rfl⟩ | ⟨-, rfl⟩ | ⟨-, rfl⟩ | ⟨-, rfl⟩ <;> rfl

theorem reachable_step (e : Event) : Reachable owner (configured.step owner e).1 :=
  ⟨.ofConfig config, events ++ [e], rfl⟩

theorem sealed_setting_final :
    Reachable owner withSeal ∧ Calls (fun task => task.isLoad = false) attempts ∧
      ∃ row, withSeal.world.tables.settings.get? ((path 0).toKey owner).stored.current = some row ∧
        row.isReadOnly = true ∧
        Finalised ((path 0).toKey owner).stored row withSeal.world.tables
          (withSeal.run owner attempts).1.world.tables ∧
        (FromEmpty owner withSeal → ((withSeal.run owner attempts).1.world.tables.namespaces.get?
          (.text "vault")).isSome = true) := by
  have hReachable : Reachable owner withSeal := reachable_step sealing
  obtain ⟨row, hRow, hReadOnly⟩ : ∃ row, withSeal.world.tables.settings.get?
      ((path 0).toKey owner).stored.current = some row ∧ row.isReadOnly = true := ⟨_, rfl, rfl⟩
  exact ⟨hReachable, attempts_call, row, hRow, hReadOnly,
    read_only_setting_final hReachable attempts_call hRow hReadOnly⟩

end Sample

/-- Whatever is called after a namespace has been frozen, it is there with all that it had, settings and
earlier versions of them included, and its balance has at most grown. -/
theorem frozen_namespace_stays {service : Principal} {s : Server} {events : List Event}
    {name : Scalar} {ns : Namespace} (hReachable : Reachable service s)
    (hCalls : Calls (fun task => task.isLoad = false) events)
    (hRow : s.world.tables.namespaces.get? name = some ns) (hStatus : ns.status.isInt 1 = true) :
    Frozen name ns s.world.tables (s.run service events).1.world.tables :=
  tables_run (fun _ _ _ _ _ hCommit => hCommit.frozen hStatus) service events hReachable.sound hCalls
    (.refl hRow)

namespace Sample

def freezing : Event :=
  .call 3 (.operation 40 (.updateNamespace owner ⟨"vault", none, none, some 1, none, none⟩))

def withFreeze : Server := (configured.step owner freezing).1

theorem frozen_namespace_kept :
    Reachable owner withFreeze ∧ Calls (fun task => task.isLoad = false) attempts ∧
      ∃ ns, withFreeze.world.tables.namespaces.get? (.text "vault") = some ns ∧
        ns.status.isInt 1 = true ∧
        Frozen (.text "vault") ns withFreeze.world.tables
          (withFreeze.run owner attempts).1.world.tables := by
  have hReachable : Reachable owner withFreeze := reachable_step freezing
  obtain ⟨ns, hRow, hStatus⟩ : ∃ ns, withFreeze.world.tables.namespaces.get? (.text "vault") =
      some ns ∧ ns.status.isInt 1 = true := ⟨_, rfl, rfl⟩
  exact ⟨hReachable, attempts_call, ns, hRow, hStatus,
    frozen_namespace_stays hReachable attempts_call hRow hStatus⟩

end Sample

end Server

end TenantVault
