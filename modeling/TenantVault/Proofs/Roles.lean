import TenantVault.Proofs.Server

/-! # What the roles let a caller do

Seven questions are asked about a caller and a setting, each answered from the status, the visibility and the
three groups of a namespace. The answers agree with each other: whoever may write has the key, whoever has the
key may read. More members in the groups give at least the same answers, and a question that a status without an
order leaves open stays open.
-/

namespace TenantVault

/-! ## Answers in order -/

def ReadAccess.rank : ReadAccess → Nat
  | refused => 0
  | readersOnly => 1
  | granted => 2

/-- Refused is less than left to the readers, and that is less than granted. -/
instance : LE ReadAccess := ⟨fun a b => a.rank ≤ b.rank⟩

instance (a b : ReadAccess) : Decidable (a ≤ b) := inferInstanceAs (Decidable (a.rank ≤ b.rank))

/-- The second answer is at least the first one, or neither is an answer. -/
inductive Rises {α : Type} [LE α] : Result α → Result α → Prop where
  | answered {a a' : α} (le : a ≤ a') : Rises (.ok a) (.ok a')
  | unanswered {why : Failure} : Rises (.error why) (.error why)

section Rising

variable {α β : Type} [LE α]

/-- Two questions that begin with the same one. -/
theorem Rises.bind (r : Result β) {f f' : β → Result α} (h : ∀ b, Rises (f b) (f' b)) :
    Rises (r >>= f) (r >>= f') := by
  cases r with
  | ok b => exact h b
  | error why => exact .unanswered

end Rising

namespace Namespace

variable {ns ns' : Namespace} {caller : Principal} {key : SettingKey}

/-! ## When the answer is yes -/

/-- The status is a number, so it says whether the namespace is put away. -/
def Graded (ns : Namespace) : Prop := ∃ archived, ns.isArchived = .ok archived

theorem canRead_eq_true_iff : ns.canRead caller = .ok true ↔
    ns.isPublic = true ∨ ∃ archived, ns.isArchived = .ok archived ∧
      (ns.isManager caller = true ∨ ns.isAuditor caller = true ∨
        archived = false ∧ ns.isUser caller = true) := by
  unfold canRead
  cases ns.isPublic with
  | true => exact iff_of_true rfl (Or.inl rfl)
  | false =>
    simp only [Bool.false_eq_true, if_false, false_or, bind_eq_ok_iff, pure_eq_ok_iff, Bool.or_eq_true,
      Bool.and_eq_true, Bool.not_eq_true', or_assoc]

theorem canSign_eq_true_iff : ns.canSign caller = .ok true ↔ ∃ archived, ns.isArchived = .ok archived ∧
    (ns.isManager caller = true ∨ archived = false ∧ ns.isUser caller = true) := by
  simp only [canSign, bind_eq_ok_iff, pure_eq_ok_iff, Bool.or_eq_true, Bool.and_eq_true, Bool.not_eq_true']

theorem canHaveKey_eq_true_iff : ns.canHaveKey caller key = .ok true ↔
    ∃ archived, ns.isArchived = .ok archived ∧ (archived = false ∨ ns.isManager caller = true) ∧
      (caller = key.subject ∨ ns.isAuditor caller = true ∨
        key.scope = SettingKey.serverScope ∧ ns.isManager caller = true) := by
  simp only [canHaveKey, bind_eq_ok_iff, pure_eq_ok_iff, Bool.or_eq_true, Bool.and_eq_true,
    Bool.not_eq_true', decide_eq_true_eq, or_assoc]

theorem readAccess_eq_granted_iff : ns.readAccess caller key = .ok .granted ↔
    ns.isPublic = true ∨ ∃ archived, ns.isArchived = .ok archived ∧
      (ns.isManager caller = true ∨ ns.isAuditor caller = true ∨
        archived = false ∧ caller = key.subject) := by
  unfold readAccess
  cases ns.isPublic with
  | true => exact iff_of_true rfl (Or.inl rfl)
  | false =>
    simp only [Bool.false_eq_true, if_false, false_or, bind_eq_ok_iff]
    refine exists_congr fun archived => and_congr_right fun _ => ?_
    cases ns.isManager caller <;> cases ns.isAuditor caller <;> cases archived <;>
      by_cases hSubject : caller = key.subject <;> simp [hSubject]

theorem hasFullRead_eq_true_iff : ns.hasFullRead caller = true ↔
    ns.isPublic = true ∨ ns.isManager caller = true ∨ ns.isAuditor caller = true := by
  rw [hasFullRead, Bool.or_eq_true, Bool.or_eq_true, or_assoc]

/-! ## What follows from one right -/

theorem graded_of_canWrite (h : ns.canWrite caller = .ok true) : ns.Graded := by
  obtain ⟨hStatus, -⟩ := (canWrite_eq_true_iff ns caller).mp h
  exact Json.exists_less hStatus 0

theorem canHaveKey_of_canWriteSetting (h : ns.canWriteSetting caller key = true) :
    ns.canHaveKey caller key = .ok true := by
  unfold canWriteSetting at h
  obtain ⟨hStatus, hRole⟩ := Bool.and_eq_true_iff.mp h
  refine canHaveKey_eq_true_iff.mpr ⟨false, Json.less_of_isInt hStatus 0, Or.inl rfl, ?_⟩
  split at hRole
  · next hServer => exact Or.inr (Or.inr ⟨hServer, hRole⟩)
  · exact Or.inl (of_decide_eq_true (Bool.and_eq_true_iff.mp hRole).2)

theorem readAccess_of_canHaveKey (h : ns.canHaveKey caller key = .ok true) :
    ns.readAccess caller key = .ok .granted := by
  obtain ⟨archived, hArchived, hOpen, hRole⟩ := canHaveKey_eq_true_iff.mp h
  refine readAccess_eq_granted_iff.mpr (Or.inr ⟨archived, hArchived, ?_⟩)
  rcases hRole with hSubject | hAuditor | ⟨-, hManager⟩
  · -- The subject of a setting in a namespace that is put away has its key only as a manager.
    exact hOpen.symm.imp id fun hOpen => Or.inr ⟨hOpen, hSubject⟩
  · exact Or.inr (Or.inl hAuditor)
  · exact Or.inl hManager

theorem reads_of_hasFullRead (h : ns.hasFullRead caller = true) (hGraded : ns.Graded) :
    ns.readAccess caller key = .ok .granted ∧ ns.canRead caller = .ok true := by
  obtain ⟨archived, hArchived⟩ := hGraded
  rw [readAccess_eq_granted_iff, canRead_eq_true_iff]
  rcases hasFullRead_eq_true_iff.mp h with hPublic | hManager | hAuditor
  · exact ⟨Or.inl hPublic, Or.inl hPublic⟩
  · exact ⟨Or.inr ⟨archived, hArchived, Or.inl hManager⟩, Or.inr ⟨archived, hArchived, Or.inl hManager⟩⟩
  · exact ⟨Or.inr ⟨archived, hArchived, Or.inr (Or.inl hAuditor)⟩,
      Or.inr ⟨archived, hArchived, Or.inr (Or.inl hAuditor)⟩⟩

theorem canRead_of_canWrite (h : ns.canWrite caller = .ok true) : ns.canRead caller = .ok true := by
  obtain ⟨archived, hArchived⟩ := graded_of_canWrite h
  obtain ⟨-, hManager⟩ := (canWrite_eq_true_iff ns caller).mp h
  exact canRead_eq_true_iff.mpr (Or.inr ⟨archived, hArchived, Or.inl hManager⟩)

theorem canRead_of_canSign (h : ns.canSign caller = .ok true) : ns.canRead caller = .ok true := by
  obtain ⟨archived, hArchived, hRole⟩ := canSign_eq_true_iff.mp h
  exact canRead_eq_true_iff.mpr (Or.inr ⟨archived, hArchived, hRole.imp id Or.inr⟩)

/-- What the rights of a caller imply. -/
structure Coherent (ns : Namespace) (caller : Principal) (key : SettingKey) : Prop where
  key_of_write : ns.canWriteSetting caller key = true → ns.canHaveKey caller key = .ok true
  read_of_key : ns.canHaveKey caller key = .ok true → ns.readAccess caller key = .ok .granted
  read_of_full : ns.hasFullRead caller = true → ns.Graded →
    ns.readAccess caller key = .ok .granted ∧ ns.canRead caller = .ok true
  look_of_manage : ns.canWrite caller = .ok true → ns.canRead caller = .ok true
  look_of_sign : ns.canSign caller = .ok true → ns.canRead caller = .ok true

theorem coherent (ns : Namespace) (caller : Principal) (key : SettingKey) : ns.Coherent caller key where
  key_of_write := canHaveKey_of_canWriteSetting
  read_of_key := readAccess_of_canHaveKey
  read_of_full := reads_of_hasFullRead
  look_of_manage := canRead_of_canWrite
  look_of_sign := canRead_of_canSign

/-- Every question is answered. -/
structure Answers (ns : Namespace) (caller : Principal) (key : SettingKey) : Prop where
  canRead : ∃ b, ns.canRead caller = .ok b
  canWrite : ∃ b, ns.canWrite caller = .ok b
  readAccess : ∃ access, ns.readAccess caller key = .ok access
  canHaveKey : ∃ b, ns.canHaveKey caller key = .ok b
  canSign : ∃ b, ns.canSign caller = .ok b

theorem Graded.answers (h : ns.Graded) (caller : Principal) (key : SettingKey) : ns.Answers caller key := by
  obtain ⟨archived, hArchived⟩ := h
  obtain ⟨open_, hOpen⟩ := Json.exists_less hArchived 1
  constructor
  case canRead =>
    unfold Namespace.canRead
    rw [hArchived]
    split <;> exact ⟨_, rfl⟩
  case canWrite =>
    unfold Namespace.canWrite
    rw [hOpen]
    exact ⟨_, rfl⟩
  case readAccess =>
    unfold Namespace.readAccess
    rw [hArchived]
    simp only [bind, Except.bind]
    repeat' split
    all_goals exact ⟨_, rfl⟩
  case canHaveKey =>
    unfold Namespace.canHaveKey
    rw [hArchived]
    exact ⟨_, rfl⟩
  case canSign =>
    unfold Namespace.canSign
    rw [hArchived]
    exact ⟨_, rfl⟩

/-! ## More members -/

/-- A namespace of the same status and visibility with all the members and maybe more. -/
structure Extends (ns ns' : Namespace) : Prop where
  status : ns'.status = ns.status
  visibility : ns'.visibility = ns.visibility
  members : ∀ kind p, p ∈ ns.members kind → p ∈ ns'.members kind

namespace Extends

variable (h : ns.Extends ns')

include h

theorem isPublic_eq : ns'.isPublic = ns.isPublic := by rw [isPublic, isPublic, h.visibility]

theorem isArchived_eq : ns'.isArchived = ns.isArchived := by rw [isArchived, isArchived, h.status]

theorem isManager (hManager : ns.isManager caller = true) : ns'.isManager caller = true :=
  decide_eq_true (h.members .manager caller (of_decide_eq_true hManager))

theorem isAuditor (hAuditor : ns.isAuditor caller = true) : ns'.isAuditor caller = true :=
  decide_eq_true (h.members .auditor caller (of_decide_eq_true hAuditor))

theorem isUser (hUser : ns.isUser caller = true) : ns'.isUser caller = true :=
  decide_eq_true (h.members .user caller (of_decide_eq_true hUser))

theorem canRead (caller : Principal) : Rises (ns.canRead caller) (ns'.canRead caller) := by
  unfold Namespace.canRead
  rw [h.isPublic_eq, h.isArchived_eq]
  split
  · exact .answered id
  · refine .bind _ fun archived => .answered fun hRead => ?_
    simp only [Bool.or_eq_true, Bool.and_eq_true] at hRead ⊢
    exact hRead.imp (Or.imp h.isManager h.isAuditor) (And.imp_right h.isUser)

theorem canWrite (caller : Principal) : Rises (ns.canWrite caller) (ns'.canWrite caller) := by
  unfold Namespace.canWrite
  rw [h.status]
  refine .bind _ fun open_ => .answered fun hWrite => ?_
  rw [Bool.and_eq_true] at hWrite ⊢
  exact hWrite.imp_right h.isManager

theorem canWriteSetting (caller : Principal) (key : SettingKey) :
    ns.canWriteSetting caller key ≤ ns'.canWriteSetting caller key := by
  intro hWrite
  unfold Namespace.canWriteSetting at hWrite ⊢
  rw [Bool.and_eq_true] at hWrite ⊢
  rw [h.status]
  refine hWrite.imp_right fun hRole => ?_
  split at hRole
  · next hServer =>
    rw [if_pos hServer]
    exact h.isManager hRole
  · next hOwn =>
    rw [Bool.and_eq_true] at hRole
    rw [if_neg hOwn, Bool.and_eq_true]
    exact hRole.imp_left h.isUser

theorem readAccess (caller : Principal) (key : SettingKey) :
    Rises (ns.readAccess caller key) (ns'.readAccess caller key) := by
  unfold Namespace.readAccess
  rw [h.isPublic_eq, h.isArchived_eq]
  split
  · exact .answered (Nat.le_refl _)
  · refine .bind _ fun archived => ?_
    by_cases hRole : (ns.isManager caller || ns.isAuditor caller) = true
    · have hRole' : (ns'.isManager caller || ns'.isAuditor caller) = true := by
        rw [Bool.or_eq_true] at hRole ⊢
        exact hRole.imp h.isManager h.isAuditor
      rw [if_pos hRole, if_pos hRole']
      exact .answered (Nat.le_refl _)
    · rw [if_neg hRole]
      by_cases hRole' : (ns'.isManager caller || ns'.isAuditor caller) = true
      · rw [if_pos hRole']
        repeat' split
        all_goals exact .answered (by decide)
      · rw [if_neg hRole']
        repeat' split
        all_goals exact .answered (Nat.le_refl _)

theorem canHaveKey (caller : Principal) (key : SettingKey) :
    Rises (ns.canHaveKey caller key) (ns'.canHaveKey caller key) := by
  unfold Namespace.canHaveKey
  rw [h.isArchived_eq]
  refine .bind _ fun archived => .answered fun hKey => ?_
  simp only [Bool.or_eq_true, Bool.and_eq_true] at hKey ⊢
  exact hKey.imp (Or.imp_right h.isManager)
    (Or.imp (Or.imp_right h.isAuditor) (And.imp_right h.isManager))

theorem canSign (caller : Principal) : Rises (ns.canSign caller) (ns'.canSign caller) := by
  unfold Namespace.canSign
  rw [h.isArchived_eq]
  refine .bind _ fun archived => .answered fun hSign => ?_
  rw [Bool.or_eq_true, Bool.and_eq_true] at hSign ⊢
  exact hSign.imp h.isManager (And.imp_right h.isUser)

theorem hasFullRead (caller : Principal) : ns.hasFullRead caller ≤ ns'.hasFullRead caller := by
  intro hRead
  rw [hasFullRead_eq_true_iff] at hRead ⊢
  rw [h.isPublic_eq]
  exact hRead.imp_right (Or.imp h.isManager h.isAuditor)

end Extends

/-- Every answer of the second namespace is at least that of the first, and a question that the first one
leaves open the second one leaves open as well. -/
structure AtMost (ns ns' : Namespace) (caller : Principal) (key : SettingKey) : Prop where
  canRead : Rises (ns.canRead caller) (ns'.canRead caller)
  canWrite : Rises (ns.canWrite caller) (ns'.canWrite caller)
  canWriteSetting : ns.canWriteSetting caller key ≤ ns'.canWriteSetting caller key
  readAccess : Rises (ns.readAccess caller key) (ns'.readAccess caller key)
  canHaveKey : Rises (ns.canHaveKey caller key) (ns'.canHaveKey caller key)
  canSign : Rises (ns.canSign caller) (ns'.canSign caller)
  hasFullRead : ns.hasFullRead caller ≤ ns'.hasFullRead caller

theorem Extends.atMost (h : ns.Extends ns') (caller : Principal) (key : SettingKey) :
    ns.AtMost ns' caller key where
  canRead := h.canRead caller
  canWrite := h.canWrite caller
  canWriteSetting := h.canWriteSetting caller key
  readAccess := h.readAccess caller key
  canHaveKey := h.canHaveKey caller key
  canSign := h.canSign caller
  hasFullRead := h.hasFullRead caller

/-- The namespace with further members in each group. -/
def joinedBy (ns : Namespace) (members : MemberKind → Principals) : Namespace :=
  { ns with
    managers := ns.managers.union (members .manager)
    auditors := ns.auditors.union (members .auditor)
    users := ns.users.union (members .user) }

theorem extends_joinedBy (ns : Namespace) (members : MemberKind → Principals) :
    ns.Extends (ns.joinedBy members) where
  status := rfl
  visibility := rfl
  members := by
    intro kind p hMember
    cases kind <;> exact SortedSet.mem_union.mpr (Or.inl hMember)

/-- What the service writes when members join a group. -/
theorem extends_row (ns : Namespace) (kind : MemberKind) (ps : Principals) (now : Int) :
    ns.Extends (kind.row .add ps ns now) where
  status := by cases kind <;> rfl
  visibility := by cases kind <;> rfl
  members := by
    intro kind' p hMember
    cases kind <;> cases kind' <;>
      first
      | exact hMember
      | exact SortedSet.mem_union.mpr (Or.inl hMember)

/-- Where the status is a number every question has an answer, the answers agree with each other, and whoever
joins whichever group takes no right from anybody. -/
theorem rights_coherent_and_growing (ns : Namespace) (caller : Principal) (key : SettingKey) :
    ((∃ n, ns.status = .int n) → ns.Graded ∧ ns.Answers caller key) ∧
    ns.Coherent caller key ∧
    (∀ members, ns.AtMost (ns.joinedBy members) caller key) ∧
    ∀ (kind : MemberKind) (ps : Principals) (now : Int), ns.AtMost (kind.row .add ps ns now) caller key := by
  refine ⟨?_, ns.coherent caller key, ?_, ?_⟩
  · rintro ⟨n, hStatus⟩
    have hGraded : ns.Graded := ⟨decide (n < 0), by rw [isArchived, hStatus, Json.less_int]⟩
    exact ⟨hGraded, hGraded.answers caller key⟩
  · exact fun members => (ns.extends_joinedBy members).atMost caller key
  · exact fun kind ps now => (ns.extends_row kind ps now).atMost caller key

open Server.Sample in
/-- The owner of a vault has the key of its settings and reads them, and still writes them when he has become an
auditor as well. -/
theorem owner_keeps_rights :
    (newNamespace.row 10).canWriteSetting owner ((path 0).toKey owner) = true ∧
    (newNamespace.row 10).canHaveKey owner ((path 0).toKey owner) = .ok true ∧
    (newNamespace.row 10).readAccess owner ((path 0).toKey owner) = .ok .granted ∧
    (MemberKind.auditor.row .add (.ofList [owner]) (newNamespace.row 10) 20).canWriteSetting owner
      ((path 0).toKey owner) = true := by
  obtain ⟨-, hCoherent, -, hGrowing⟩ :=
    rights_coherent_and_growing (newNamespace.row 10) owner ((path 0).toKey owner)
  have hWrites : (newNamespace.row 10).canWriteSetting owner ((path 0).toKey owner) = true := by decide
  have hKey := hCoherent.key_of_write hWrites
  exact ⟨hWrites, hKey, hCoherent.read_of_key hKey,
    (hGrowing .auditor (.ofList [owner]) 20).canWriteSetting hWrites⟩

end Namespace

end TenantVault
