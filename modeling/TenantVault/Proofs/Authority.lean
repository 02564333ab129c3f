import TenantVault.Proofs.Frame
import TenantVault.Proofs.Rows
import TenantVault.Proofs.Server

/-! # Who may change what

Every difference that a call makes to the tables is one that its caller is entitled to, by his role
in the tables as they were before. Roles are themselves part of the tables, so nothing here is about
who has them; all of it is about what the service asks of a caller at the moment at which it writes.
-/

namespace TenantVault

/-! ## Callers and guards -/

namespace Operation

/-- Who calls an operation, if it asks who does. -/
def caller? : Operation → Option Principal
  | changeGovernors caller .. | setAllowedApis caller _ | createNamespace caller _
  | listNamespaces caller .. | getGovernance caller | getNamespace caller _
  | updateNamespace caller _ | deleteNamespace caller _ | changeMembers caller ..
  | isMember caller .. | topUp caller .. | listSettings caller .. | getDelegators caller ..
  | changeDelegators caller .. | signDelegation caller _ | namespacePublicKey caller ..
  | namespaceSign caller .. | signIdentity caller .. | createSetting caller ..
  | updatePayload caller .. | updateSetting caller .. | getSetting caller _
  | getSettingInfo caller _ | getArchived caller _ | changeReaders caller ..
  | deleteSetting caller _ | encryptedKey caller .. | encryptedSetting caller ..
  | servicePublicKey caller _ | serviceKey caller .. => some caller
  | fixedIdentity .. | getDelegation .. | identityPublicKey => none

/-- The name under which the allow-list knows an operation, if it guards it. -/
def api? : Operation → Option String
  | updateNamespace .. => some "namespace_update_info"
  | deleteNamespace .. => some "namespace_delete"
  | changeMembers _ _ kind d _ => some (memberApi kind d)
  | topUp .. => some "namespace_top_up"
  | changeDelegators _ .add _ => some "namespace_add_delegator"
  | changeDelegators _ .remove _ => some "namespace_remove_delegator"
  | signDelegation .. => some "namespace_sign_delegation"
  | createSetting .. => some "setting_create"
  | updatePayload .. => some "setting_update_payload"
  | updateSetting .. => some "setting_update_info"
  | changeReaders _ _ d _ => some (readerApi d)
  | deleteSetting .. => some "setting_delete"
  | encryptedKey .. => some "ecdh_cose_encrypted_key"
  | encryptedSetting .. => some "ecdh_setting_get"
  | serviceKey .. => some "vetkd_encrypted_key"
  | _ => none

end Operation

/-! ## Differences between tables -/

/-- The caller may write the rows of settings under a key: those of the namespace as a manager of
it, those of a subject as that subject and a user of the namespace. -/
def MayWrite (t : Tables) (caller : Principal) (k : StoredKey) : Prop :=
  ∃ ns, t.namespaces.get? k.ns = some ns ∧ ns.status.isInt 0 = true ∧
    ((k.scope == .int SettingKey.serverScope) = true ∧ caller ∈ ns.managers ∨
      (k.scope == .int SettingKey.userScope) = true ∧ caller ∈ ns.users ∧ caller = k.subject)

/-- How the row of a namespace may come to differ. -/
inductive NamespaceChanges (now : Int) (t t' : Tables) (caller : Principal) (name : Scalar) :
    Operation → Prop
  | managed {o : Operation} {ns : Namespace} (found : t.namespaces.get? name = some ns)
      (open_ : ns.status.less 1 = .ok true) (manages : caller ∈ ns.managers) :
      NamespaceChanges now t t' caller name o
  | created {input : NewNamespace} (fresh : t.namespaces.get? name = none)
      (at_ : (Scalar.text input.name == name) = true) (governs : caller ∈ t.governance.managers) :
      NamespaceChanges now t t' caller name (.createNamespace caller input)
  | counted {o : Operation} {key : SettingKey} {ns : Namespace} {count : Json}
      (found : t.namespaces.get? name = some ns) (writes : o.settingKey? = some key)
      (at_ : (Scalar.text key.ns == name) = true)
      (allowed : MayWrite t caller key.current.stored)
      (onlyCount : t'.namespaces.get? name = some { ns with payloadBytes := count }) :
      NamespaceChanges now t t' caller name o
  | toppedUp {ns : Namespace} {text : String} {amount : Int}
      (found : t.namespaces.get? name = some ns) (at_ : (Scalar.text text == name) = true)
      (positive : 0 < amount)
      (onlyBalance : t'.namespaces.get? name =
        some { ns with gasBalance := ns.gasBalance + amount, updatedAt := .int now }) :
      NamespaceChanges now t t' caller name (.topUp caller text amount)

/-- All that an operation has changed in the tables is what its caller may change. -/
structure Authorised (now : Int) (o : Operation) (t t' : Tables) : Prop where
  settings : ∀ k, ¬ SameRows k t t' → ∃ caller, o.caller? = some caller ∧ MayWrite t caller k
  namespaces : ∀ name, t'.namespaces.get? name ≠ t.namespaces.get? name →
    ∃ caller, o.caller? = some caller ∧ NamespaceChanges now t t' caller name o
  governance : t'.governance ≠ t.governance → ∃ caller, o.caller? = some caller ∧
    caller ∈ t.governance.controllers ∧ ∃ managers auditors allowedApis,
      t'.governance = { t.governance with managers, auditors, allowedApis }

/-! ## Every write is authorised -/

section Writes

variable {now : Int} {t t' : Tables} {o : Operation} {r : Result Answer} {caller : Principal}
  {name : Scalar}

theorem Tables.get?_putNamespace (t : Tables) (n : String) (ns : Namespace) (name : Scalar) :
    (t.putNamespace n ns).namespaces.get? name =
      if (Scalar.text n == name) = true then some ns else t.namespaces.get? name :=
  Table.get?_put ..

theorem Tables.putNamespace_differs {n : String} {ns : Namespace}
    (h : (t.putNamespace n ns).namespaces.get? name ≠ t.namespaces.get? name) :
    (Scalar.text n == name) = true ∧ (t.putNamespace n ns).namespaces.get? name = some ns := by
  rw [Tables.get?_putNamespace] at h ⊢
  split at h
  · next hName => exact ⟨hName, if_pos hName⟩
  · exact (h rfl).elim

theorem Manages.changes {n : String} {ns : Namespace} (h : Manages t caller n ns)
    (hName : (Scalar.text n == name) = true) : NamespaceChanges now t t' caller name o := by
  obtain ⟨hOpen, hManager⟩ := (Namespace.canWrite_eq_true_iff ns caller).mp h.permitted
  exact .managed ((Table.get?_congr _ hName).symm.trans h.found) hOpen (of_decide_eq_true hManager)

theorem Writes.mayWrite {path : SettingPath} {ns : Namespace} {k : StoredKey}
    (h : Writes t caller (path.toKey caller) ns)
    (hKey : ((path.toKey caller).current.stored == k.current) = true) : MayWrite t caller k := by
  rw [StoredKey.beq_iff] at hKey
  simp only [StoredKey.content, Prod.mk.injEq] at hKey
  obtain ⟨hNamespace, hScope, hSubject, -, -⟩ := hKey
  have hPermitted := h.permitted
  unfold Namespace.canWriteSetting at hPermitted
  rw [Bool.and_eq_true] at hPermitted
  obtain ⟨hStatus, hRole⟩ := hPermitted
  have hFound : t.namespaces.get? k.ns = some ns :=
    (Table.get?_congr _ (Scalar.beq_iff.mpr hNamespace)).symm.trans h.found
  refine ⟨ns, hFound, hStatus, ?_⟩
  cases hOwned : path.userOwned with
  | false =>
    have hServer : (path.toKey caller).scope = SettingKey.serverScope := by
      simp [SettingPath.toKey, hOwned]
    rw [if_pos hServer] at hRole
    refine Or.inl ⟨Scalar.beq_iff.mpr ?_, of_decide_eq_true hRole⟩
    rw [← hServer]
    exact hScope.symm
  | true =>
    have hUser : (path.toKey caller).scope = SettingKey.userScope := by
      simp [SettingPath.toKey, hOwned]
    rw [if_neg (by rw [hUser]; decide), Bool.and_eq_true] at hRole
    refine Or.inr ⟨Scalar.beq_iff.mpr ?_, of_decide_eq_true hRole.1, ?_⟩
    · rw [← hUser]
      exact hScope.symm
    · exact (of_decide_eq_true hRole.2).trans hSubject

theorem Commit.writes {key : SettingKey} (h : Commit now t o t' r)
    (hKey : o.settingKey? = some key) :
    ∃ (caller : Principal) (path : SettingPath) (ns : Namespace),
      o.caller? = some caller ∧ key = path.toKey caller ∧
        Writes t caller (path.toKey caller) ns := by
  cases h with
  | createSetting admits writes | updatePayload admits writes | updateSetting admits writes
  | changeReaders admits proper writes | deleteSetting admits writes =>
    cases hKey
    exact ⟨_, _, _, rfl, rfl, writes⟩
  | _ => cases hKey

theorem Commit.settings_authorised (h : Commit now t o t' r) {k : StoredKey}
    (hDiffer : ¬ SameRows k t t') :
    ∃ caller, o.caller? = some caller ∧ MayWrite t caller k := by
  cases hWritten : o.settingKey? with
  | none =>
    have hApart : ∀ key, o.settingKey? = some key → (key.current.stored == k.current) = false := by
      intro key hKey
      rw [hWritten] at hKey
      cases hKey
    exact (hDiffer (h.sameRows k hApart)).elim
  | some key =>
    cases hKey : key.current.stored == k.current with
    | false => exact (hDiffer (h.sameRows_of_apart hWritten hKey)).elim
    | true =>
      obtain ⟨caller, path, ns, hCaller, rfl, hWrites⟩ := h.writes hWritten
      exact ⟨caller, hCaller, hWrites.mayWrite hKey⟩

theorem Writes.changes_settle {α : Type} {path : SettingPath} {ns : Namespace} {base : Tables}
    {count : Result Json} {a : α} (h : Writes t caller (path.toKey caller) ns)
    (hBase : base.namespaces = t.namespaces) (hWritten : o.settingKey? = some (path.toKey caller))
    (hDiffer : (base.settle path.ns ns count a).1.namespaces.get? name ≠ t.namespaces.get? name) :
    NamespaceChanges now t (base.settle path.ns ns count a).1 caller name o := by
  cases count with
  | error why => exact (hDiffer (congrArg (·.get? name) hBase)).elim
  | ok count =>
    rw [← hBase] at hDiffer
    obtain ⟨hName, hRow⟩ := Tables.putNamespace_differs hDiffer
    refine .counted ((Table.get?_congr _ hName).symm.trans h.found) hWritten hName
      (h.mayWrite BEq.rfl) hRow

theorem Commit.namespaces_authorised (h : Commit now t o t' r)
    (hDiffer : t'.namespaces.get? name ≠ t.namespaces.get? name) :
    ∃ caller, o.caller? = some caller ∧ NamespaceChanges now t t' caller name o := by
  cases h with
  | changeGovernors => exact (hDiffer rfl).elim
  | setAllowedApis => exact (hDiffer rfl).elim
  | createNamespace known governs fresh =>
    obtain ⟨hName, -⟩ := Tables.putNamespace_differs hDiffer
    exact ⟨_, rfl, .created ((Table.get?_congr _ hName).symm.trans fresh) hName governs⟩
  | updateNamespace admits manages =>
    exact ⟨_, rfl, manages.changes (Tables.putNamespace_differs hDiffer).1⟩
  | deleteNamespace admits manages =>
    dsimp only at hDiffer
    rw [Table.get?_erase] at hDiffer
    split at hDiffer
    · next hName => exact ⟨_, rfl, manages.changes hName⟩
    · exact (hDiffer rfl).elim
  | changeMembers admits proper manages =>
    exact ⟨_, rfl, manages.changes (Tables.putNamespace_differs hDiffer).1⟩
  | topUp admits positive found =>
    obtain ⟨hName, hRow⟩ := Tables.putNamespace_differs hDiffer
    exact ⟨_, rfl, .toppedUp ((Table.get?_congr _ hName).symm.trans found) hName positive hRow⟩
  | addDelegators admits manages =>
    exact ⟨_, rfl, manages.changes (Tables.putNamespace_differs hDiffer).1⟩
  | removeDelegators admits manages =>
    exact ⟨_, rfl, manages.changes (Tables.putNamespace_differs hDiffer).1⟩
  | createSetting admits writes => exact ⟨_, rfl, writes.changes_settle rfl rfl hDiffer⟩
  | updatePayload admits writes =>
    exact ⟨_, rfl, writes.changes_settle (Tables.namespaces_archivePayload ..) rfl hDiffer⟩
  | updateSetting => exact (hDiffer rfl).elim
  | changeReaders => exact (hDiffer rfl).elim
  | deleteSetting admits writes => exact ⟨_, rfl, writes.changes_settle rfl rfl hDiffer⟩

theorem Commit.governance_authorised (h : Commit now t o t' r)
    (hDiffer : t'.governance ≠ t.governance) :
    ∃ caller, o.caller? = some caller ∧ caller ∈ t.governance.controllers ∧
      ∃ managers auditors allowedApis,
        t'.governance = { t.governance with managers, auditors, allowedApis } := by
  cases h with
  | @changeGovernors caller kind d ps controls =>
    cases kind <;> exact ⟨caller, rfl, controls, _, _, _, rfl⟩
  | setAllowedApis controls => exact ⟨_, rfl, controls, _, _, _, rfl⟩
  | createSetting => exact (hDiffer (Tables.governance_settle ..)).elim
  | updatePayload =>
    refine (hDiffer ?_).elim
    rw [Tables.governance_settle]
    exact Tables.governance_archivePayload ..
  | deleteSetting => exact (hDiffer (Tables.governance_settle ..)).elim
  | _ => exact (hDiffer rfl).elim

theorem Commit.authorised (h : Commit now t o t' r) : Authorised now o t t' where
  settings _ hDiffer := h.settings_authorised hDiffer
  namespaces _ hDiffer := h.namespaces_authorised hDiffer
  governance hDiffer := h.governance_authorised hDiffer

theorem Authorised.refl (now : Int) (o : Operation) (t : Tables) : Authorised now o t t where
  settings _ hDiffer := (hDiffer ⟨rfl, rfl⟩).elim
  namespaces _ hDiffer := (hDiffer rfl).elim
  governance hDiffer := (hDiffer rfl).elim

end Writes

/-! ## Callers who change nothing -/

section Silence

variable {now : Int} {o : Operation} {w w' : World} {r : Result Answer}

theorem Commit.not_anonymous {t t' : Tables} (h : Commit now t o t' r)
    (hControllers : Principal.anonymous ∉ t.governance.controllers) :
    ∃ caller, o.caller? = some caller ∧ caller.isAnonymous = false := by
  -- Only the operations of controllers do not ask whether the caller is known.
  have hKnown {caller : Principal} (controls : caller ∈ t.governance.controllers) :
      caller.isAnonymous = false := by
    apply decide_eq_false
    intro hAnonymous
    apply hControllers
    rw [← hAnonymous]
    exact controls
  cases h with
  | changeGovernors controls => exact ⟨_, rfl, hKnown controls⟩
  | setAllowedApis controls => exact ⟨_, rfl, hKnown controls⟩
  | createNamespace known => exact ⟨_, rfl, known⟩
  | updateNamespace admits | deleteNamespace admits | changeMembers admits | topUp admits
  | addDelegators admits | removeDelegators admits
  | createSetting admits | updatePayload admits | updateSetting admits | changeReaders admits
  | deleteSetting admits => exact ⟨_, rfl, admits.known⟩

theorem Segment.of_anonymous (h : Segment now o w w' r)
    (hControllers : Principal.anonymous ∉ w.tables.governance.controllers) {caller : Principal}
    (hCaller : o.caller? = some caller) (hAnonymous : caller.isAnonymous = true) : w' = w := by
  have hKnown {caller' : Principal} (hCaller' : o.caller? = some caller')
      (known : caller'.isAnonymous = false) : w' = w := by
    rw [hCaller] at hCaller'
    cases hCaller'
    rw [known] at hAnonymous
    cases hAnonymous
  cases h with
  | refused => rfl
  | answered => rfl
  | committed commit =>
    obtain ⟨caller', hCaller', known⟩ := commit.not_anonymous hControllers
    exact hKnown hCaller' known
  | recorded asked known =>
    subst asked
    exact hKnown rfl known

theorem Segment.authorised (h : Segment now o w w' r) : Authorised now o w.tables w'.tables := by
  cases h with
  | refused => exact .refl now o _
  | answered => exact .refl now o _
  | committed commit => exact commit.authorised
  | recorded => exact .refl now o _

theorem Authorised.controllers {t t' : Tables} (h : Authorised now o t t') :
    t'.governance.controllers = t.governance.controllers := by
  apply Classical.byContradiction
  intro hOther
  have hDiffer : t'.governance ≠ t.governance := by
    intro hSame
    exact hOther (congrArg Governance.controllers hSame)
  obtain ⟨_, -, -, _, _, _, hChanged⟩ := h.governance hDiffer
  rw [hChanged] at hOther
  exact hOther rfl

end Silence

/-! ## Operations that are not listed -/

section AllowList

variable {w : World} {api : String}

theorem allowed_of_not_listed (caller : Principal) (hListed : Access.allows w.tables api = false) :
    ∃ why, Access.allowed w.tables caller api = .error why := by
  cases hAllowed : Access.allowed w.tables caller api with
  | error why => exact ⟨why, rfl⟩
  | ok u =>
    have hAdmits := (Access.allowed_eq_ok_iff w.tables caller api).mp hAllowed
    rw [hAdmits.listed] at hListed
    cases hListed

theorem after_of_not_listed {α β : Type} (caller : Principal)
    (hListed : Access.allows w.tables api = false) (f : Unit → Result α) (next : α → Outcome β)
    (answer : β → Answer) :
    ∃ why, (Outcome.after w (Access.allowed w.tables caller api >>= f) next).map answer =
      .done w (.error why) := by
  obtain ⟨why, hRefused⟩ := allowed_of_not_listed caller hListed
  rw [hRefused]
  exact ⟨why, rfl⟩

theorem after_allowed_of_not_listed {β : Type} (caller : Principal)
    (hListed : Access.allows w.tables api = false) (next : Unit → Outcome β) (answer : β → Answer) :
    ∃ why, (Outcome.after w (Access.allowed w.tables caller api) next).map answer =
      .done w (.error why) := by
  obtain ⟨why, hRefused⟩ := allowed_of_not_listed caller hListed
  rw [hRefused]
  exact ⟨why, rfl⟩

theorem Operation.perform_of_not_listed (service : Principal) (now : Int) {o : Operation}
    (hApi : o.api? = some api) (hListed : Access.allows w.tables api = false) :
    ∃ why, o.perform service now w = .done w (.error why) := by
  cases o with
  | updateNamespace caller | deleteNamespace caller | changeMembers caller | topUp caller
  | createSetting caller | updatePayload caller | updateSetting caller | changeReaders caller
  | deleteSetting caller | signDelegation caller =>
    cases hApi
    exact after_of_not_listed caller hListed _ _ _
  | changeDelegators caller d =>
    cases d <;> cases hApi <;> exact after_of_not_listed caller hListed _ _ _
  | encryptedKey caller | encryptedSetting caller | serviceKey caller =>
    cases hApi
    exact after_allowed_of_not_listed caller hListed _ _
  | _ => cases hApi

end AllowList

/-! ## Who controls the service -/

/-- A task that puts no unknown caller in control. -/
def Task.KeepsControllers : Task → Prop
  | operation .. => True
  | load snapshot =>
    ∀ t, Snapshot.parse snapshot = .ok t → Principal.anonymous ∉ t.governance.controllers

theorem Task.keepsControllers_of_not_load (task : Task) (h : task.isLoad = false) :
    task.KeepsControllers := by
  cases task with
  | operation now o => trivial
  | load snapshot => cases h

namespace Checked

variable {α β : Type}

theorem refine_eq_good_iff (fault? : α → Option FieldFault) (c : Checked α) (a : α) :
    c.refine fault? = .good a ↔ c = .good a ∧ fault? a = none := by
  cases c with
  | bad errors => exact ⟨nofun, fun h => nomatch h.1⟩
  | good b =>
    unfold refine
    dsimp only
    cases hFault : fault? b with
    | some why =>
      constructor
      · rintro ⟨⟩
      · rintro ⟨⟨⟩, hNone⟩
        rw [hFault] at hNone
        cases hNone
    | none =>
      constructor
      · rintro ⟨⟩
        exact ⟨rfl, hFault⟩
      · rintro ⟨⟨⟩, -⟩
        rfl

theorem map_eq_good_iff (f : α → β) (c : Checked α) (b : β) :
    f <$> c = .good b ↔ ∃ a, c = .good a ∧ f a = b := by
  cases c with
  | bad errors => exact ⟨nofun, fun ⟨_, h, _⟩ => nomatch h⟩
  | good a =>
    constructor
    · rintro ⟨⟩
      exact ⟨a, rfl, rfl⟩
    · rintro ⟨_, ⟨⟩, rfl⟩
      rfl

theorem seq_eq_good_iff (f : Checked (α → β)) (c : Checked α) (b : β) :
    f <*> c = .good b ↔ ∃ a, c = .good a ∧ ∃ g, f = .good g ∧ g a = b := by
  cases f with
  | bad errors => cases c <;> exact ⟨nofun, fun ⟨_, _, _, h, _⟩ => nomatch h⟩
  | good g =>
    refine (map_eq_good_iff g c b).trans ?_
    constructor
    · rintro ⟨a, hGood, hValue⟩
      exact ⟨a, hGood, g, rfl, hValue⟩
    · rintro ⟨a, hGood, _, ⟨⟩, hValue⟩
      exact ⟨a, hGood, hValue⟩

/-- The last field of a record and those before it. With the next lemma all fields are had one by one. -/
theorem exists_seq_iff (f : Checked (α → β)) (c : Checked α) (p : β → Prop) :
    (∃ b, f <*> c = .good b ∧ p b) ↔ ∃ a, c = .good a ∧ ∃ g, f = .good g ∧ p (g a) := by
  constructor
  · rintro ⟨b, hGood, hb⟩
    obtain ⟨a, ha, g, hg, rfl⟩ := (seq_eq_good_iff f c b).mp hGood
    exact ⟨a, ha, g, hg, hb⟩
  · rintro ⟨a, ha, g, hg, hb⟩
    exact ⟨g a, (seq_eq_good_iff f c (g a)).mpr ⟨a, ha, g, hg, rfl⟩, hb⟩

theorem exists_map_iff (f : α → β) (c : Checked α) (p : β → Prop) :
    (∃ b, f <$> c = .good b ∧ p b) ↔ ∃ a, c = .good a ∧ p (f a) := by
  constructor
  · rintro ⟨b, hGood, hb⟩
    obtain ⟨a, ha, rfl⟩ := (map_eq_good_iff f c b).mp hGood
    exact ⟨a, ha, hb⟩
  · rintro ⟨a, ha, hb⟩
    exact ⟨f a, (map_eq_good_iff f c (f a)).mpr ⟨a, ha, rfl⟩, hb⟩

theorem within_eq_good_iff (place : String) (c : Checked α) (a : α) :
    c.within place = .good a ↔ c = .good a := by
  cases c with
  | bad errors => exact ⟨nofun, nofun⟩
  | good b => exact Iff.rfl

end Checked

namespace Config

theorem anonymous_not_mem_of_readMembers {v : Entry} {ps : Principals}
    (h : readMembers v = .good ps) :
    Principal.anonymous ∉ ps := by
  obtain ⟨-, hFault⟩ := (Checked.refine_eq_good_iff _ _ ps).mp h
  split at hFault
  · next hEmpty =>
    intro hMem
    rw [SortedSet.mem_def, List.isEmpty_iff.mp hEmpty] at hMem
    cases hMem
  · rw [Option.map_eq_none_iff, Principals.fault?_eq_none_iff] at hFault
    exact hFault.2

theorem anonymous_not_mem_of_withDefault {fields : Entry.Fields} {name : String} {ps : Principals}
    (h : Entry.withDefault fields name .empty readMembers = .good ps) : Principal.anonymous ∉ ps := by
  unfold Entry.withDefault at h
  split at h
  · exact anonymous_not_mem_of_readMembers ((Checked.within_eq_good_iff _ _ _).mp h)
  · cases h
    exact SortedSet.not_mem_empty _

theorem anonymous_not_mem_groups {fields : Entry.Fields} {c : Config}
    (h : ofFields fields = .good c) :
    Principal.anonymous ∉ c.controllers ∧ Principal.anonymous ∉ c.managers ∧
      Principal.anonymous ∉ c.auditors := by
  unfold ofFields at h
  rw [Checked.refine_eq_good_iff, Checked.seq_eq_good_iff] at h
  obtain ⟨h, -⟩ := h
  simp only [Checked.exists_seq_iff, Checked.exists_map_iff] at h
  obtain ⟨snapshotPath, -, allowedApis, -, auditors, hAuditors, managers, hManagers, controllers,
    hControllers, -, -, -, -, -, -, -, -, -, -, rfl⟩ := h
  exact ⟨anonymous_not_mem_of_withDefault hControllers, anonymous_not_mem_of_withDefault hManagers,
    anonymous_not_mem_of_withDefault hAuditors⟩

theorem anonymous_not_mem_controllers {fields : Entry.Fields} {c : Config}
    (h : ofFields fields = .good c) : Principal.anonymous ∉ c.controllers :=
  (anonymous_not_mem_groups h).1

end Config

/-! ## Runs -/

namespace Server

theorem controllers_of_segment {w w' : World} {task : Task} {r : Result Answer}
    (hTask : task.KeepsControllers)
    (hBefore : Principal.anonymous ∉ w.tables.governance.controllers) (h : task.Segment w w' r) :
    Principal.anonymous ∉ w'.tables.governance.controllers := by
  cases h with
  | operation segment =>
    rw [segment.authorised.controllers]
    exact hBefore
  | loaded parsed => exact hTask _ parsed
  | notLoaded => exact hBefore

/-- The anonymous principal never comes to control a service that began without it in control. -/
theorem anonymous_not_mem_controllers {fields : Entry.Fields} {config : Config}
    (hConfig : Config.ofFields fields = .good config) (service : Principal) {events : List Event}
    (hCalls : Calls Task.KeepsControllers events) :
    Principal.anonymous ∉
      ((idle (.ofConfig config)).run service events).1.world.tables.governance.controllers := by
  have hStart :
      Principal.anonymous ∉ (idle (.ofConfig config)).world.tables.governance.controllers :=
    Config.anonymous_not_mem_controllers hConfig
  exact run_invariant (I := fun w => Principal.anonymous ∉ w.tables.governance.controllers)
    (fun _ _ _ hTask hBefore hSegment => controllers_of_segment hTask hBefore hSegment)
    service events (idle_sound _ _) hCalls hStart

/-- What a step may change: nothing unless a call ends, and then only what its caller may change. -/
structure Permitted (w w' : World) (ended : Option Completion) : Prop where
  waits : ended = none → w' = w
  authorised : ∀ c now o, ended = some c → c.task = .operation now o →
    Authorised now o w.tables w'.tables

theorem Steps.permitted {s s' : Server} {e : Event} {allowed : Task → Prop}
    {ended : Option Completion} (h : Steps s e allowed (s', ended)) :
    Permitted s.world s'.world ended := by
  cases h with
  | waits same =>
    constructor
    · intro _
      exact same
    · rintro _ _ _ ⟨⟩
  | ends about kind segment =>
    constructor
    · rintro ⟨⟩
    · rintro c now o ⟨⟩ hTask
      rw [hTask] at segment
      cases segment with
      | operation segment => exact segment.authorised

theorem Steps.of_anonymous {s s' : Server} {e : Event} {allowed : Task → Prop} {c : Completion}
    {now : Int} {o : Operation} {caller : Principal} (h : Steps s e allowed (s', some c))
    (hTask : c.task = .operation now o)
    (hControllers : Principal.anonymous ∉ s.world.tables.governance.controllers)
    (hCaller : o.caller? = some caller) (hAnonymous : caller.isAnonymous = true) :
    s'.world = s.world := by
  cases h with
  | ends about kind segment =>
    rw [hTask] at segment
    cases segment with
    | operation segment => exact segment.of_anonymous hControllers hCaller hAnonymous

theorem step_of_not_listed (service : Principal) {s : Server} {id : Nat} {now : Int}
    {o : Operation} {api : String} (hApi : o.api? = some api)
    (hListed : Access.allows s.world.tables api = false) :
    ∃ why, s.step service (.call id (.operation now o)) =
      (s.hold id none, some ⟨id, .operation now o, .error why⟩) := by
  obtain ⟨why, hPerform⟩ := Operation.perform_of_not_listed service now hApi hListed
  refine ⟨why, ?_⟩
  unfold step Task.start
  dsimp only
  rw [hPerform]
  rfl

/-- In every state that a service can reach from a valid configuration, a step changes nothing but
what the caller of the call that ends with it may change; nothing at all for an anonymous caller, as
long as no snapshot has put him in control; and nothing for an operation that is not on the list of
allowed ones. -/
theorem only_authorised_changes {fields : Entry.Fields} {config : Config}
    (hConfig : Config.ofFields fields = .good config) (service : Principal) (events : List Event)
    (e : Event) {s s' : Server} {ended : Option Completion}
    (hRun : ((idle (.ofConfig config)).run service events).1 = s)
    (hStep : s.step service e = (s', ended)) :
    Permitted s.world s'.world ended ∧
    (Calls Task.KeepsControllers events → ∀ c now o caller, ended = some c →
      c.task = .operation now o → o.caller? = some caller → caller.isAnonymous = true →
      s'.world = s.world) ∧
    ∀ id now o api, e = .call id (.operation now o) → o.api? = some api →
      Access.allows s.world.tables api = false →
      s'.world = s.world ∧ ∃ why, ended = some ⟨id, .operation now o, .error why⟩ := by
  have hSteps := steps_after_run service (.ofConfig config) events e
  rw [hRun, hStep] at hSteps
  refine ⟨hSteps.permitted, ?_, ?_⟩
  · rintro hCalls c now o caller rfl hTask hCaller hAnonymous
    have hControllers := anonymous_not_mem_controllers hConfig service hCalls
    rw [hRun] at hControllers
    exact hSteps.of_anonymous hTask hControllers hCaller hAnonymous
  · rintro id now o api rfl hApi hListed
    obtain ⟨why, hRefused⟩ := step_of_not_listed service hApi hListed
    rw [hRefused] at hStep
    cases hStep
    exact ⟨rfl, why, rfl⟩

namespace Sample

def fields : Entry.Fields := [
  ("service_id", .principal owner), ("signer_seed", .bytes (List.replicate Config.seedSize 0)),
  ("managers", .list [.principal owner])]

def config : Config where
  name := Config.defaultName
  serviceId := owner
  signerSeed := List.replicate Config.seedSize 0
  signingKeyName := Config.defaultKeyName
  derivationKeyName := Config.defaultKeyName
  controllers := .empty
  managers := .ofList [owner]
  auditors := .empty
  allowedApis := .empty
  snapshotPath := none

def configured : Server := ((idle (.ofConfig config)).run owner events).1

def describe : Event :=
  .call 3 (.operation 40 (.updateSetting owner (path 0) ⟨some "two", none, none⟩))

def intrusion : Event := .call 4 (.operation 50 (.deleteSetting .anonymous (path 0)))

theorem sample_changes_authorised :
    Config.ofFields fields = .good config ∧ Calls Task.KeepsControllers events ∧
      Permitted configured.world (configured.step owner describe).1.world
        (configured.step owner describe).2 ∧
      (configured.step owner intrusion).1.world = configured.world := by
  have hConfig : Config.ofFields fields = .good config := rfl
  have hCalls : Calls Task.KeepsControllers events :=
    events_call.mono Task.keepsControllers_of_not_load
  obtain ⟨hPermitted, -, -⟩ :=
    only_authorised_changes hConfig owner events describe (s := configured) rfl rfl
  obtain ⟨-, hAnonymous, -⟩ :=
    only_authorised_changes hConfig owner events intrusion (s := configured) rfl rfl
  exact ⟨hConfig, hCalls, hPermitted, hAnonymous hCalls _ 50 _ .anonymous rfl rfl rfl rfl⟩

end Sample

end Server

end TenantVault
