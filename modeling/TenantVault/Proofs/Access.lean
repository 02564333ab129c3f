import TenantVault.Namespace.Operations
import TenantVault.Setting.Operations

/-! # When checks pass

Each check of an operation passes in exactly the cases stated here, and everything that is proved
about operations starts from these.
-/

namespace TenantVault

/-- A step that follows another one succeeds only after it. -/
theorem bind_eq_ok_iff {ε α β : Type} (r : Except ε α) (f : α → Except ε β) (b : β) :
    (r >>= f) = .ok b ↔ ∃ a, r = .ok a ∧ f a = .ok b := by
  cases r <;> simp [bind, Except.bind]

theorem exists_unit_iff (p : Unit → Prop) : (∃ u, p u) ↔ p () :=
  ⟨fun ⟨_, h⟩ => h, fun h => ⟨(), h⟩⟩

theorem map_eq_error_iff {α β : Type} (f : α → β) (r : Result α) (why : Failure) :
    r.map f = .error why ↔ r = .error why := by
  cases r <;> simp [Except.map]

@[simp] theorem pure_eq_ok_iff {ε α : Type} (a b : α) : (pure a : Except ε α) = .ok b ↔ a = b := by
  simp [pure, Except.pure]

theorem Principals.check_eq_ok_iff (ps : Principals) : ps.check = .ok () ↔ ps.fault? = none := by
  unfold Principals.check
  cases ps.fault? <;> simp

theorem Json.less_of_isInt {v : Json} {m : Int} (h : v.isInt m = true) (n : Int) :
    v.less n = .ok (decide (m < n)) := by
  unfold isInt at h
  rw [decide_eq_true_iff] at h
  unfold less
  rw [h]

/-- What can be compared with one number can be compared with every other. -/
theorem Json.exists_less {v : Json} {m : Int} {b : Bool} (h : v.less m = .ok b) (n : Int) :
    ∃ b', v.less n = .ok b' := by
  unfold less at h ⊢
  split at h
  · exact ⟨_, rfl⟩
  · exact ⟨_, rfl⟩
  · cases h

theorem Namespace.canWrite_eq_true_iff (ns : Namespace) (caller : Principal) :
    ns.canWrite caller = .ok true ↔ ns.status.less 1 = .ok true ∧ ns.isManager caller = true := by
  unfold Namespace.canWrite
  simp only [bind_eq_ok_iff, pure_eq_ok_iff, Bool.and_eq_true]
  constructor
  · rintro ⟨open_, hStatus, rfl, hManager⟩
    exact ⟨hStatus, hManager⟩
  · rintro ⟨hStatus, hManager⟩
    exact ⟨true, hStatus, rfl, hManager⟩

namespace Access

@[simp] theorem authenticated_eq_ok_iff (caller : Principal) :
    authenticated caller = .ok () ↔ caller.isAnonymous = false := by
  simp [authenticated]

/-- The allow-list lets somebody who is not anonymous call an operation. -/
structure Admits (t : Tables) (api : String) (caller : Principal) : Prop where
  known : caller.isAnonymous = false
  listed : allows t api = true

theorem allowed_eq_ok_iff (t : Tables) (caller : Principal) (api : String) :
    allowed t caller api = .ok () ↔ Admits t api caller := by
  simp only [allowed, bind_eq_ok_iff, exists_unit_iff, authenticated_eq_ok_iff, demand_eq_ok_iff]
  constructor
  · rintro ⟨hKnown, hListed⟩
    exact ⟨hKnown, hListed⟩
  · rintro ⟨hKnown, hListed⟩
    exact ⟨hKnown, hListed⟩

theorem controller_eq_ok_iff (t : Tables) (caller : Principal) :
    controller t caller = .ok () ↔ caller ∈ t.governance.controllers := by
  simp [controller]

theorem lookup_eq_ok_iff (t : Tables) (name : String) (ns : Namespace) :
    lookup t name = .ok ns ↔ t.namespaces.get? (.text name) = some ns := by
  unfold lookup
  cases t.namespaces.get? (.text name) <;> simp

theorem namespaceWhere_eq_ok_iff (t : Tables) (name : String) (condition : Namespace → Result Bool)
    (ns : Namespace) :
    namespaceWhere t name condition = .ok ns ↔
      t.namespaces.get? (.text name) = some ns ∧ condition ns = .ok true := by
  simp only [namespaceWhere, bind_eq_ok_iff, exists_unit_iff, lookup_eq_ok_iff, demand_eq_ok_iff,
    pure_eq_ok_iff]
  constructor
  · rintro ⟨found, hFound, holds, hHolds, rfl, rfl⟩
    exact ⟨hFound, hHolds⟩
  · rintro ⟨hFound, hHolds⟩
    exact ⟨ns, hFound, true, hHolds, rfl, rfl⟩

theorem writable_eq_ok_iff (t : Tables) (caller : Principal) (name : String) (ns : Namespace) :
    writable t caller name = .ok ns ↔
      t.namespaces.get? (.text name) = some ns ∧ ns.canWrite caller = .ok true :=
  namespaceWhere_eq_ok_iff t name _ ns

theorem keyHolder_eq_ok_iff (t : Tables) (caller : Principal) (key : SettingKey) (ns : Namespace) :
    keyHolder t caller key = .ok ns ↔
      t.namespaces.get? (.text key.ns) = some ns ∧ ns.canHaveKey caller key = .ok true :=
  namespaceWhere_eq_ok_iff t key.ns _ ns

theorem settingNamespace_eq_ok_iff (t : Tables) (caller : Principal) (key : SettingKey)
    (ns : Namespace) :
    settingNamespace t caller key = .ok ns ↔
      t.namespaces.get? (.text key.ns) = some ns ∧ ns.canWriteSetting caller key = true := by
  unfold settingNamespace
  rw [namespaceWhere_eq_ok_iff]
  simp

theorem getSetting_eq_ok_iff (t : Tables) (key : SettingKey) (s : Setting) :
    getSetting t key = .ok s ↔ t.getSetting? key = some s := by
  unfold getSetting
  cases t.getSetting? key <;> simp

theorem writableSetting_eq_ok_iff (t : Tables) (caller : Principal) (key : SettingKey)
    (ns : Namespace) (s : Setting) :
    writableSetting t caller key = .ok (ns, s) ↔
      t.namespaces.get? (.text key.ns) = some ns ∧ ns.canWriteSetting caller key = true ∧
        t.getSetting? key = some s := by
  simp only [writableSetting, bind_eq_ok_iff, settingNamespace_eq_ok_iff, getSetting_eq_ok_iff,
    pure_eq_ok_iff, Prod.mk.injEq]
  constructor
  · rintro ⟨_, ⟨hFound, hWrite⟩, _, hSetting, rfl, rfl⟩
    exact ⟨hFound, hWrite, hSetting⟩
  · rintro ⟨hFound, hWrite, hSetting⟩
    exact ⟨ns, ⟨hFound, hWrite⟩, s, hSetting, rfl, rfl⟩

/-- Whoever has a role that grants it may read a setting, and where no role decides, its readers. -/
def MayRead (t : Tables) (caller : Principal) (key : SettingKey) (s : Setting) : Prop :=
  ∃ ns, t.namespaces.get? (.text key.ns) = some ns ∧
    (ns.readAccess caller key = .ok .granted ∨
      (ns.readAccess caller key = .ok .readersOnly ∧ caller ∈ s.readers))

theorem mayRead_of_access {t : Tables} {caller : Principal} {key : SettingKey} {ns : Namespace}
    {access : ReadAccess} {s : Setting} (hFound : t.namespaces.get? (.text key.ns) = some ns)
    (hAccess : ns.readAccess caller key = .ok access) (hOpen : (access != .refused) = true)
    (hReader : (access == .granted || decide (caller ∈ s.readers)) = true) : MayRead t caller key s := by
  cases access with
  | refused => cases hOpen
  | readersOnly => exact ⟨ns, hFound, Or.inr ⟨hAccess, by simpa using hReader⟩⟩
  | granted => exact ⟨ns, hFound, Or.inl hAccess⟩

/-- For who may read a setting only its version is checked. -/
theorem readableSetting_of_mayRead {t : Tables} {caller : Principal} {key : SettingKey}
    {s : Setting} (hFound : t.getSetting? key = some s) (hMay : MayRead t caller key s) :
    readableSetting t caller key = (do
      demand (!(← s.version.less key.version)) (.naming key (.missing (.version key)))
      return s) := by
  obtain ⟨ns, hNamespace, hAccess⟩ := hMay
  unfold readableSetting
  rw [(lookup_eq_ok_iff t key.ns ns).mpr hNamespace, (getSetting_eq_ok_iff t key s).mpr hFound]
  rcases hAccess with hAccess | ⟨hAccess, hReader⟩
  · simp only [bind, Except.bind, hAccess]
    rfl
  · simp only [bind, Except.bind, hAccess, hReader]
    rfl

theorem readableSetting_eq_ok_iff (t : Tables) (caller : Principal) (key : SettingKey)
    (s : Setting) :
    readableSetting t caller key = .ok s ↔
      t.getSetting? key = some s ∧ MayRead t caller key s ∧
      s.version.less key.version = .ok false := by
  simp only [readableSetting, bind_eq_ok_iff, exists_unit_iff, lookup_eq_ok_iff,
    getSetting_eq_ok_iff, demand_eq_ok_iff, pure_eq_ok_iff, MayRead]
  constructor
  · rintro ⟨ns, hFound, access, hAccess, hOpen, s', hSetting, hReader, isLess, hLess, hVersion, rfl⟩
    cases isLess with
    | true => cases hVersion
    | false => exact ⟨hSetting, mayRead_of_access hFound hAccess hOpen hReader, hLess⟩
  · rintro ⟨hSetting, ⟨ns, hFound, hAccess⟩, hVersion⟩
    rcases hAccess with hAccess | ⟨hAccess, hReader⟩
    · exact ⟨ns, hFound, .granted, hAccess, rfl, s, hSetting, rfl, false, hVersion, rfl, rfl⟩
    · exact ⟨ns, hFound, .readersOnly, hAccess, rfl, s, hSetting, by simpa using hReader, false,
        hVersion, rfl, rfl⟩

end Access

end TenantVault
