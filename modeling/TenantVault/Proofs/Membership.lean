import TenantVault.Proofs.Accepted
import TenantVault.Proofs.Writes

/-! # Groups without the anonymous principal

Whoever is added to a group or set of the service is looked at first, with two exceptions: a namespace
can be created with any auditors and users. The anonymous principal comes to be among these in no other
way.
-/

namespace TenantVault

/-! ## Rows of namespaces -/

def NewNamespace.members (input : NewNamespace) : MemberKind → Principals
  | .manager => input.managers
  | .auditor => input.auditors
  | .user => input.users

/-- The anonymous principal manages nothing and signs in as nobody, and he is in another group only if he
was let in there under the name of the namespace. -/
structure Namespace.Reserved (letIn : String → MemberKind → Prop) (ns : Namespace) : Prop where
  managers : Principal.anonymous ∉ ns.managers
  members : ∀ kind, Principal.anonymous ∈ ns.members kind →
    ∃ name, ns.name = .text name ∧ letIn name kind
  delegators : ∀ named ∈ ns.delegators.rows, Principal.anonymous ∉ named.2

theorem Direction.mem_apply_iff {d : Direction} {group change : Principals} {p : Principal}
    (h : p ∉ change) : p ∈ d.apply group change ↔ p ∈ group := by
  cases d with
  | add =>
    unfold apply
    rw [SortedSet.mem_union]
    exact or_iff_left h
  | remove =>
    unfold apply
    rw [SortedSet.mem_diff]
    exact and_iff_left h

theorem Table.mem_rows_put {κ α : Type} [BEq κ] {t : Table κ α} {k : κ} {a : α} {row : κ × α}
    (h : row ∈ (t.put k a).rows) : row ∈ t.rows ∨ row.2 = a := by
  unfold put at h
  dsimp only at h
  generalize t.rows = rows at h ⊢
  induction rows with
  | nil =>
    rw [List.mem_singleton.mp h]
    exact Or.inr rfl
  | cons first rest ih =>
    unfold putRow at h
    split at h
    · rcases List.mem_cons.mp h with rfl | hRest
      · exact Or.inr rfl
      · exact Or.inl (List.mem_cons_of_mem first hRest)
    · rcases List.mem_cons.mp h with rfl | hRest
      · exact Or.inl List.mem_cons_self
      · exact (ih hRest).imp_left (List.mem_cons_of_mem first)

theorem Table.mem_rows_erase {κ α : Type} [BEq κ] {t : Table κ α} {k : κ} {row : κ × α}
    (h : row ∈ (t.erase k).rows) : row ∈ t.rows :=
  (List.mem_filter.mp h).1

section Rows

variable {letIn : String → MemberKind → Prop} {ns : Namespace} {now : Int}

theorem NewNamespace.reserved_row {input : NewNamespace} (hManagers : Principal.anonymous ∉ input.managers)
    (hLetIn : ∀ kind, Principal.anonymous ∈ input.members kind → letIn input.name kind) (now : Int) :
    (input.row now).Reserved letIn where
  managers := hManagers
  members := by
    intro kind hMember
    refine ⟨input.name, rfl, hLetIn kind ?_⟩
    cases kind <;> exact hMember
  delegators := nofun

/-- A change of what is no group and no set of delegators. -/
theorem Namespace.Reserved.touched {ns' : Namespace} (h : ns.Reserved letIn)
    (hSame : ns' = { ns' with
      name := ns.name, managers := ns.managers, auditors := ns.auditors, users := ns.users,
      delegators := ns.delegators }) : ns'.Reserved letIn := by
  rw [hSame]
  refine ⟨h.managers, ?_, h.delegators⟩
  intro kind hMember
  apply h.members kind
  cases kind <;> exact hMember

theorem Namespace.Reserved.regrouped (h : ns.Reserved letIn) (kind : MemberKind) (d : Direction)
    {ps : Principals} (hProper : Principal.anonymous ∉ ps) (now : Int) :
    (kind.row d ps ns now).Reserved letIn := by
  have hMembers (kind' : MemberKind) : Principal.anonymous ∈ (kind.row d ps ns now).members kind' ↔
      Principal.anonymous ∈ ns.members kind' := by
    cases kind <;> cases kind' <;> first | exact Iff.rfl | exact Direction.mem_apply_iff hProper
  constructor
  case managers => exact fun hManages => h.managers ((hMembers .manager).mp hManages)
  case members =>
    intro kind' hMember
    obtain ⟨name, hName, hLetIn⟩ := h.members kind' ((hMembers kind').mp hMember)
    refine ⟨name, ?_, hLetIn⟩
    rw [← hName]
    cases kind <;> rfl
  case delegators =>
    have hSame : (kind.row d ps ns now).delegators = ns.delegators := by cases kind <;> rfl
    rw [hSame]
    exact h.delegators

theorem Namespace.Reserved.withDelegators (h : ns.Reserved letIn) {delegators : Table String Principals}
    (hDelegators : ∀ named ∈ delegators.rows, Principal.anonymous ∉ named.2) (now : Int) :
    { ns with delegators, updatedAt := .int now }.Reserved letIn where
  managers := h.managers
  members := by
    intro kind hMember
    apply h.members kind
    cases kind <;> exact hMember
  delegators := hDelegators

theorem Namespace.Reserved.delegators_of_get? (h : ns.Reserved letIn) {name : String} {ps : Principals}
    (hFound : ns.delegators.get? name = some ps) : Principal.anonymous ∉ ps := by
  obtain ⟨name', hMem, -⟩ := Table.exists_of_get? hFound
  exact h.delegators _ hMem

theorem DelegatorChange.reserved_joined {input : DelegatorChange} (h : ns.Reserved letIn)
    (hProper : Principal.anonymous ∉ input.delegators) :
    ∀ named ∈ (input.joined ns).rows, Principal.anonymous ∉ named.2 := by
  intro named hMem
  rcases Table.mem_rows_put hMem with hBefore | hJoined
  · exact h.delegators named hBefore
  · rw [hJoined, SortedSet.mem_union]
    rintro (hBefore | hNew)
    · cases hFound : ns.delegators.get? input.name with
      | none =>
        rw [hFound] at hBefore
        exact SortedSet.not_mem_empty _ hBefore
      | some ps =>
        rw [hFound] at hBefore
        exact h.delegators_of_get? hFound hBefore
    · exact hProper hNew

theorem DelegatorChange.reserved_left {input : DelegatorChange} (h : ns.Reserved letIn) :
    ∀ named ∈ (input.left ns).rows, Principal.anonymous ∉ named.2 := by
  unfold left
  split
  · exact h.delegators
  · next ps hFound =>
    dsimp only
    split
    · intro named hMem
      exact h.delegators named (Table.mem_rows_erase hMem)
    · intro named hMem
      rcases Table.mem_rows_put hMem with hBefore | hLeft
      · exact h.delegators named hBefore
      · rw [hLeft, SortedSet.mem_diff]
        exact fun hStays => h.delegators_of_get? hFound hStays.1

end Rows

/-! ## Tables -/

structure Governance.Reserved (g : Governance) : Prop where
  controllers : Principal.anonymous ∉ g.controllers
  managers : Principal.anonymous ∉ g.managers
  auditors : Principal.anonymous ∉ g.auditors

structure Tables.Reserved (letIn : String → MemberKind → Prop) (t : Tables) : Prop where
  governance : t.governance.Reserved
  namespaces : ∀ name ns, t.namespaces.get? name = some ns → ns.Reserved letIn
  readers : ∀ k s, t.settings.get? k = some s → Principal.anonymous ∉ s.readers

section Preservation

variable {letIn : String → MemberKind → Prop} {t t' : Tables} {now : Int} {o : Operation}
  {r : Result Answer}

theorem Governance.Reserved.changed {g : Governance} (h : g.Reserved) (kind : GovernorKind)
    (d : Direction) {ps : Principals} (hProper : Principal.anonymous ∉ ps) :
    (g.changed kind d ps).Reserved := by
  cases kind with
  | manager => exact { h with managers := mt (Direction.mem_apply_iff hProper).mp h.managers }
  | auditor => exact { h with auditors := mt (Direction.mem_apply_iff hProper).mp h.auditors }

theorem Principals.anonymous_not_mem {ps : Principals} (h : ps.fault? = none) :
    Principal.anonymous ∉ ps :=
  ((fault?_eq_none_iff ps).mp h).2

theorem Commit.reserved_governance (h : Commit now t o t' r) (hReserved : t.governance.Reserved) :
    t'.governance.Reserved := by
  cases h with
  | @changeGovernors caller kind d ps controls proper =>
    exact hReserved.changed kind d (Principals.anonymous_not_mem proper)
  | setAllowedApis => exact ⟨hReserved.controllers, hReserved.managers, hReserved.auditors⟩
  | createSetting | deleteSetting =>
    rw [Tables.governance_settle]
    exact hReserved
  | updatePayload =>
    rw [Tables.governance_settle, Tables.putSetting]
    dsimp only
    rw [Tables.governance_archivePayload]
    exact hReserved
  | _ => exact hReserved

theorem NamespaceWrite.reserved {name : Scalar} {ns : Namespace} (h : NamespaceWrite now t name o ns)
    (hAccepted : o.Accepted)
    (hLetIn : ∀ caller input kind, o = .createNamespace caller input →
      Principal.anonymous ∈ input.members kind → letIn input.name kind)
    (hReserved : ∀ ns, t.namespaces.get? name = some ns → ns.Reserved letIn) :
    ns.Reserved letIn := by
  cases h with
  | @created caller input =>
    obtain ⟨fields, hRead⟩ := hAccepted
    exact NewNamespace.reserved_row (NewNamespace.fit_of_fields hRead).managers
      (fun kind => hLetIn caller input kind rfl) now
  | changed found | toppedUp _ found | counted _ found => exact (hReserved _ found).touched rfl
  | @regrouped caller text kind d ps ns proper found =>
    exact (hReserved _ found).regrouped kind d (Principals.anonymous_not_mem proper) now
  | joined found =>
    obtain ⟨fields, hRead⟩ := hAccepted
    have hRow := hReserved _ found
    have hProper := DelegatorChange.anonymous_not_mem hRead
    exact hRow.withDelegators (DelegatorChange.reserved_joined hRow hProper) now
  | left found =>
    have hRow := hReserved _ found
    exact hRow.withDelegators (DelegatorChange.reserved_left hRow) now

theorem SettingWrite.anonymous_not_mem {k : StoredKey} {s : Setting} (h : SettingWrite now t k o s)
    (hReaders : ∀ s, t.settings.get? k = some s → Principal.anonymous ∉ s.readers) :
    Principal.anonymous ∉ s.readers := by
  cases h with
  | created => exact SortedSet.not_mem_empty _
  | updated _ found | described found =>
    have hBefore := hReaders _ found
    exact hBefore
  | regrouped proper found =>
    exact mt (Direction.mem_apply_iff (Principals.anonymous_not_mem proper)).mp (hReaders _ found)

theorem Commit.reserved (h : Commit now t o t' r) (hAccepted : o.Accepted)
    (hLetIn : ∀ caller input kind, o = .createNamespace caller input →
      Principal.anonymous ∈ input.members kind → letIn input.name kind)
    (hReserved : t.Reserved letIn) : t'.Reserved letIn where
  governance := h.reserved_governance hReserved.governance
  namespaces := by
    intro name ns hFound
    rcases h.namespace_cases hFound with hBefore | hWrite
    · exact hReserved.namespaces name ns hBefore
    · exact hWrite.reserved hAccepted hLetIn (hReserved.namespaces name)
  readers := by
    intro k s hFound
    rcases h.setting_cases hFound with hBefore | hWrite
    · exact hReserved.readers k s hBefore
    · exact hWrite.anonymous_not_mem (hReserved.readers k)

theorem Snapshot.SameContents.reserved (h : SameContents t t') (hReserved : t.Reserved letIn) :
    t'.Reserved letIn where
  governance := by
    have hSame := h.governance
    have hBefore := hReserved.governance
    rw [← hSame] at hBefore
    exact ⟨hBefore.controllers, hBefore.managers, hBefore.auditors⟩
  namespaces := by
    rw [h.namespaces]
    exact hReserved.namespaces
  readers := by
    intro k s hFound
    rw [Table.get?_of_perm h.settings] at hFound
    exact hReserved.readers k s hFound

end Preservation

/-! ## States of a service -/

theorem Config.reserved {fields : Entry.Fields} {c : Config} (h : ofFields fields = .good c)
    (letIn : String → MemberKind → Prop) : (World.ofConfig c).tables.Reserved letIn := by
  obtain ⟨hControllers, hManagers, hAuditors⟩ := anonymous_not_mem_groups h
  refine ⟨⟨hControllers, hManagers, hAuditors⟩, ?_, ?_⟩
  · intro name ns hFound
    cases hFound
  · intro k s hFound
    cases hFound

namespace Server

/-- Some operation that is asked for creates a namespace with the anonymous principal in a group. -/
def LetsIn (asked : Int → Operation → Prop) (name : String) (kind : MemberKind) : Prop :=
  ∃ now caller input, asked now (.createNamespace caller input) ∧ input.name = name ∧
    Principal.anonymous ∈ input.members kind

/-- The anonymous principal comes to be in no set of the service, unless he is named as an auditor or a
user of a namespace that is created, and then he is in that group of that namespace only. -/
theorem anonymous_only_as_created {service : Principal} {asked : Int → Operation → Prop}
    (hAccepted : ∀ now o, asked now o → o.Accepted) {s : Server}
    (h : Lived service Config.Valid asked s) :
    s.world.tables.Reserved (LetsIn asked) ∧
      ((∀ name kind, ¬ LetsIn asked name kind) → ∀ row ∈ s.world.tables.namespaces.rows, ∀ kind,
        Principal.anonymous ∉ row.2.members kind) := by
  have hReserved : s.world.tables.Reserved (LetsIn asked) := by
    refine h.holds ?_ ?_ ?_
    · rintro c ⟨fields, hRead⟩
      exact Config.reserved hRead _
    · intro now o t t' r hAsked _ commit
      refine commit.reserved (hAccepted now o hAsked) ?_
      rintro caller input kind rfl hMember
      exact ⟨now, caller, input, hAsked, rfl, hMember⟩
    · exact fun t t' hSame => hSame.reserved
  refine ⟨hReserved, ?_⟩
  intro hNobody row hRow kind hMember
  obtain ⟨name, -, hLetIn⟩ := (hReserved.namespaces row.1 row.2 (Table.get?_of_mem hRow)).members kind hMember
  exact hNobody name kind hLetIn

namespace Sample

def openNamespace : NewNamespace :=
  ⟨"vault", 0, none, none, .ofList [owner], .ofList [.anonymous], .empty, none⟩

def opening : List Event := [
  .call 0 (.operation 10 (.createNamespace owner openNamespace)),
  .call 1 (.operation 20 (.changeMembers owner "vault" .auditor .remove (.ofList [.anonymous])))]

def opened : Server := ((idle (.ofConfig config)).run owner opening).1

/-- The two calls and nothing else. -/
def InOpening (now : Int) (o : Operation) : Prop := ∃ id, .call id (.operation now o) ∈ opening

section Opening

variable {now : Int} {o : Operation}

theorem inOpening_iff : InOpening now o ↔
    (now = 10 ∧ o = .createNamespace owner openNamespace) ∨
      (now = 20 ∧ o = .changeMembers owner "vault" .auditor .remove (.ofList [.anonymous])) := by
  simp only [InOpening, opening, List.mem_cons, List.not_mem_nil, Event.call.injEq,
    Task.operation.injEq, or_false]
  constructor
  · rintro ⟨id, ⟨-, h⟩ | ⟨-, h⟩⟩
    · exact Or.inl h
    · exact Or.inr h
  · rintro (h | h)
    · exact ⟨0, Or.inl ⟨rfl, h⟩⟩
    · exact ⟨1, Or.inr ⟨rfl, h⟩⟩

theorem accepted_of_inOpening (h : InOpening now o) : o.Accepted := by
  have hFields : NewNamespace.ofFields [("name", .text "vault"),
      ("managers", .list [.principal owner]), ("auditors", .list [.principal .anonymous])] =
        .good openNamespace := rfl
  rcases inOpening_iff.mp h with ⟨-, rfl⟩ | ⟨-, rfl⟩
  · exact ⟨_, hFields⟩
  · trivial

theorem letsIn_inOpening_iff (name : String) (kind : MemberKind) :
    LetsIn InOpening name kind ↔ name = "vault" ∧ kind = .auditor := by
  constructor
  · rintro ⟨now, caller, input, hAsked, rfl, hMember⟩
    rcases inOpening_iff.mp hAsked with ⟨-, hCreated⟩ | ⟨-, ⟨⟩⟩
    cases hCreated
    refine ⟨rfl, ?_⟩
    revert hMember
    cases kind <;> decide
  · rintro ⟨rfl, rfl⟩
    exact ⟨10, owner, openNamespace, inOpening_iff.mpr (Or.inl ⟨rfl, rfl⟩), rfl, by decide⟩

end Opening

theorem calls_opening : Calls (Task.Asks InOpening) opening := by
  intro id task hMem
  cases task with
  | operation now o => exact ⟨id, hMem⟩
  | load snapshot => simp [opening] at hMem

theorem opened_lived : Lived owner Config.Valid InOpening opened :=
  (Lived.start ⟨fields, rfl⟩).run calls_opening

/-- Nobody but the auditors of this namespace may have the anonymous principal among them. -/
theorem opened_reserved :
    (∀ now o, InOpening now o → o.Accepted) ∧ Lived owner Config.Valid InOpening opened ∧
      opened.world.tables.Reserved (LetsIn InOpening) ∧
      ∀ name kind, LetsIn InOpening name kind ↔ name = "vault" ∧ kind = .auditor := by
  have hAccepted : ∀ now o, InOpening now o → o.Accepted := fun _ _ h => accepted_of_inOpening h
  exact ⟨hAccepted, opened_lived, (anonymous_only_as_created hAccepted opened_lived).1, letsIn_inOpening_iff⟩

/-- A namespace can be created with the anonymous principal as an auditor, who then cannot be removed. -/
theorem anonymous_auditor : Lived owner Config.Valid (fun _ o => o.Accepted) opened ∧
    ∃ ns, opened.world.tables.namespaces.get? (.text "vault") = some ns ∧
      Principal.anonymous ∈ ns.auditors := by
  refine ⟨(Lived.start ⟨fields, rfl⟩).run ?_, openNamespace.row 10, rfl, by decide⟩
  intro id task hMem
  have hAsks := calls_opening id task hMem
  cases task with
  | operation now o => exact accepted_of_inOpening hAsks
  | load snapshot => exact hAsks.elim

end Sample

end Server

end TenantVault
