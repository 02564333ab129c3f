import TenantVault.Proofs.CaseFolding
import TenantVault.Proofs.History
import TenantVault.Proofs.Ranges

/-! # Who may sign in as a named identity

The delegators of a name are what the calls that have ended say: those that have been let in, less those that
have been taken out, one call after the other. A name counts in lower case, in the calls that change its
delegators and in those that ask for them, so all spellings with one lower case have one set of delegators. A
name that nobody is left under is not in the registry.
-/

namespace TenantVault

/-- What a registry holds for a set: nothing if there is nobody in it. -/
def Principals.held? (ps : Principals) : Option Principals := if ps.isEmpty then none else some ps

/-- The delegators under all names of a namespace, if it exists. -/
def Tables.delegators? (t : Tables) (ns : String) : Option (Table String Principals) :=
  (t.namespaces.get? (.text ns)).map (·.delegators)

/-- The operations that can change the delegators of a namespace. -/
def Operation.ChangesRegistry (ns : String) : Operation → Prop
  | createNamespace _ input => input.name = ns
  | deleteNamespace _ name => name = ns
  | changeDelegators _ _ input => input.ns = ns
  | _ => False

/-- An operation whose records were read from fields, or a snapshot without the namespace. -/
def Task.AcceptedWithout (ns : String) : Task → Prop
  | operation _ o => o.Accepted
  | load snapshot => ∀ t, Snapshot.parse snapshot = .ok t → t.namespaces.get? (.text ns) = none

open Entry Form in
/-- A name that is given in any spelling is read in lower case. -/
theorem DelegatorChange.name_of_fields {fields : Fields} {input : DelegatorChange}
    (h : ofFields fields = .good input) :
    ∃ v given, readText v = .good given ∧ input.name = Text.lower given := by
  rw [ofFields, Checked.seq_eq_good_iff] at h
  simp only [Checked.exists_seq_iff, Checked.exists_map_iff] at h
  obtain ⟨delegators, -, name, hName, ns, -, rfl⟩ := h
  obtain ⟨v, hRead⟩ := exists_of_required hName
  obtain ⟨hFolded, -⟩ := (Checked.refine_eq_good_iff _ _ _).mp hRead
  obtain ⟨given, hGiven, rfl⟩ := (Checked.map_eq_good_iff _ _ _).mp hFolded
  exact ⟨v, given, hGiven, rfl⟩

theorem DelegatorChange.lower_name {fields : Entry.Fields} {input : DelegatorChange}
    (h : ofFields fields = .good input) : Text.lower input.name = input.name := by
  obtain ⟨-, given, -, hName⟩ := name_of_fields h
  rw [hName, Text.lower_lower]

/-! ## Entries -/

namespace Principals

variable {ps : Principals}

theorem eq_empty_of_isEmpty (h : ps.isEmpty = true) : ps = .empty := by
  obtain ⟨members, ascending⟩ := ps
  cases List.isEmpty_iff.mp h
  rfl

theorem held?_of_mem {p : Principal} (h : p ∈ ps) : ps.held? = some ps := by
  rw [held?, if_neg]
  intro hEmpty
  rw [eq_empty_of_isEmpty hEmpty] at h
  exact SortedSet.not_mem_empty p h

theorem getD_held? (ps : Principals) : ps.held?.getD .empty = ps := by
  rw [held?]
  split
  · next hEmpty => exact (eq_empty_of_isEmpty hEmpty).symm
  · rfl

end Principals

namespace DelegatorChange

variable {input : DelegatorChange} {row : Namespace} {key : String} {ps : Principals}

/-- Who joins a name is added to its set, and the other names keep theirs. -/
theorem get?_joined (h : row.delegators.get? key = ps.held?) (hSome : ∃ p, p ∈ input.delegators) :
    (input.joined row).get? key =
      Principals.held? (if input.name = key then ps.union input.delegators else ps) := by
  obtain ⟨p, hMember⟩ := hSome
  rw [joined, Table.get?_put]
  by_cases hName : input.name = key
  · rw [if_pos hName, hName, if_pos BEq.rfl, h, Principals.getD_held?,
      Principals.held?_of_mem (SortedSet.mem_union.mpr (Or.inr hMember))]
  · rw [if_neg hName, if_neg (by rwa [beq_iff_eq]), h]

/-- Who leaves a name is taken out of its set. -/
theorem get?_left (h : row.delegators.get? key = ps.held?) :
    (input.left row).get? key =
      Principals.held? (if input.name = key then ps.diff input.delegators else ps) := by
  by_cases hName : input.name = key
  · subst hName
    rw [if_pos rfl, left, h, Principals.held?, Principals.held?]
    cases hEmpty : ps.isEmpty with
    | true =>
      -- Nobody is under the name before, so nobody is left.
      rw [if_pos rfl, Principals.eq_empty_of_isEmpty hEmpty]
      exact h.trans (if_pos hEmpty)
    | false =>
      rw [if_neg Bool.false_ne_true]
      dsimp only
      split
      · rw [Table.get?_erase, if_pos BEq.rfl]
      · rw [Table.get?_put, if_pos BEq.rfl]
  · have hOther : ¬ (input.name == key) = true := by rwa [beq_iff_eq]
    rw [if_neg hName, ← h, left]
    split
    · rfl
    · dsimp only
      split
      · rw [Table.get?_erase, if_neg hOther]
      · rw [Table.get?_put, if_neg hOther]

end DelegatorChange

/-! ## Registries after a write -/

section Writes

variable {t t' : Tables} {ns name : String} {row old : Namespace} {now : Int} {o : Operation}
  {r : Result Answer}

theorem Tables.delegators?_putNamespace (t : Tables) (name ns : String) (row : Namespace) :
    (t.putNamespace name row).delegators? ns =
      if name = ns then some row.delegators else t.delegators? ns := by
  unfold delegators?
  rw [Tables.get?_putNamespace, Scalar.text_beq_text]
  simp only [decide_eq_true_iff]
  split <;> rfl

theorem Tables.delegators?_of_found (h : t.namespaces.get? (.text ns) = some row) :
    t.delegators? ns = some row.delegators := by
  rw [delegators?, h, Option.map_some]

theorem Tables.delegators?_of_absent (h : t.namespaces.get? (.text ns) = none) : t.delegators? ns = none := by
  rw [delegators?, h, Option.map_none]

/-- A row that is written with the delegators that it had before. -/
theorem Tables.delegators?_putNamespace_same (h : t.namespaces.get? (.text name) = some old)
    (hSame : row.delegators = old.delegators) : (t.putNamespace name row).delegators? ns = t.delegators? ns := by
  rw [delegators?_putNamespace]
  split
  · next hName => rw [hSame, ← hName, delegators?_of_found h]
  · rfl

theorem Tables.delegators?_settle {α : Type} {base : Tables} (hBase : base.namespaces = t.namespaces)
    (h : t.namespaces.get? (.text name) = some row) (count : Result Json) (a : α) :
    (base.settle name row count a).1.delegators? ns = t.delegators? ns := by
  have hSame : base.delegators? ns = t.delegators? ns := by rw [delegators?, delegators?, hBase]
  rw [← hBase] at h
  cases count with
  | error why => exact hSame
  | ok count =>
    refine Eq.trans ?_ hSame
    exact delegators?_putNamespace_same h rfl

theorem Commit.delegators?_eq (h : Commit now t o t' r) (hOther : ¬ o.ChangesRegistry ns) :
    t'.delegators? ns = t.delegators? ns := by
  cases h with
  | changeGovernors | setAllowedApis | updateSetting | changeReaders => rfl
  | createNamespace | addDelegators | removeDelegators =>
    rw [Tables.delegators?_putNamespace]
    exact if_neg hOther
  | updateNamespace admits manages => exact Tables.delegators?_putNamespace_same manages.found rfl
  | @deleteNamespace caller name =>
    have hName : ¬ (Scalar.text name == Scalar.text ns) = true := by
      rw [Scalar.text_beq_text, decide_eq_true_iff]
      exact hOther
    unfold Tables.delegators?
    rw [Table.get?_erase, if_neg hName]
  | @changeMembers _ _ kind _ _ _ admits proper manages =>
    exact Tables.delegators?_putNamespace_same manages.found (by cases kind <;> rfl)
  | topUp admits positive found => exact Tables.delegators?_putNamespace_same found rfl
  | createSetting admits writes | deleteSetting admits writes =>
    exact Tables.delegators?_settle (by rfl) writes.found _ _
  | updatePayload admits writes =>
    exact Tables.delegators?_settle (by exact Tables.namespaces_archivePayload ..) writes.found _ _

/-- Once it has written, an operation that changes delegators has succeeded. -/
theorem Commit.ok_of_changesRegistry (h : Commit now t o t' r) (hChanges : o.ChangesRegistry ns) :
    ∃ a, r = .ok a := by
  cases h with
  | createNamespace | deleteNamespace | addDelegators | removeDelegators => exact ⟨_, rfl⟩
  | _ => exact hChanges.elim

end Writes

/-! ## The record of the calls -/

namespace Delegators

/-- The delegators of a name after an operation that has succeeded; a namespace that is deleted leaves none. -/
def next (ns key : String) (ps : Principals) : Operation → Principals
  | .changeDelegators _ d input =>
    if input.ns = ns ∧ Text.lower input.name = key then d.apply ps input.delegators else ps
  | .deleteNamespace _ name => if name = ns then .empty else ps
  | _ => ps

/-- The delegators of a name after a call has ended. -/
def after (ns key : String) (ps : Principals) (c : Completion) : Principals :=
  match c.task, c.result with
  | .operation _ o, .ok _ => next ns key ps o
  | .load _, .ok _ => .empty
  | _, .error _ => ps

/-- The delegators of a name after a run that begins without the namespace. -/
def of (ns key : String) (completions : List Completion) : Principals :=
  completions.foldl (after ns key) .empty

/-- There are no delegators under a name that is not in lower case. -/
theorem of_eq_empty {ns key : String} (h : Text.lower key ≠ key) (completions : List Completion) :
    of ns key completions = .empty := by
  have hNext (o : Operation) : next ns key .empty o = .empty := by
    cases o with
    | changeDelegators caller d input =>
      refine if_neg fun hBoth => h ?_
      rw [← hBoth.2, Text.lower_lower]
    | deleteNamespace caller name => exact ite_self _
    | _ => rfl
  unfold of
  induction completions with
  | nil => rfl
  | cons c rest ih =>
    have hAfter : after ns key .empty c = .empty := by
      unfold after
      split
      · exact hNext _
      · rfl
      · rfl
    rw [List.foldl_cons, hAfter, ih]

/-- The tables keep a set under a name in lower case, or nothing at all if it is empty. -/
def Kept (ns key : String) (t : Tables) (ps : Principals) : Prop :=
  ((t.delegators? ns).bind fun registry => registry.get? key) = ps.held?

section Steps

variable {ns key : String} {t t' : Tables} {ps : Principals} {now : Int} {o : Operation} {r : Result Answer}

theorem Kept.get? {row : Namespace} (h : Kept ns key t ps) (hFound : t.namespaces.get? (.text ns) = some row) :
    row.delegators.get? key = ps.held? := by
  rw [Kept, Tables.delegators?_of_found hFound] at h
  exact h

theorem kept_of_absent (h : t.namespaces.get? (.text ns) = none) : Kept ns key t .empty := by
  rw [Kept, Tables.delegators?_of_absent h]
  rfl

theorem kept_putNamespace {row : Namespace} (h : row.delegators.get? key = ps.held?) :
    Kept ns key (t.putNamespace ns row) ps := by
  rw [Kept, Tables.delegators?_putNamespace, if_pos rfl]
  exact h

theorem next_of_not_changesRegistry (h : ¬ o.ChangesRegistry ns) : next ns key ps o = ps := by
  cases o with
  | changeDelegators => exact if_neg fun hBoth => h hBoth.1
  | deleteNamespace => exact if_neg h
  | _ => rfl

theorem next_changeDelegators {caller : Principal} {d : Direction} {input : DelegatorChange}
    {fields : Entry.Fields} (hRead : DelegatorChange.ofFields fields = .good input) :
    next input.ns key ps (.changeDelegators caller d input) =
      if input.name = key then d.apply ps input.delegators else ps := by
  rw [next, DelegatorChange.lower_name hRead]
  exact if_congr (and_iff_right rfl) rfl rfl

theorem Kept.commit (h : Kept ns key t ps) (hAccepted : o.Accepted) (hCommit : Commit now t o t' r) :
    Kept ns key t' (next ns key ps o) := by
  by_cases hChanges : o.ChangesRegistry ns
  · cases hCommit with
    | createNamespace known governs fresh =>
      -- Nothing was kept under the name before, so the set is empty.
      obtain rfl := hChanges
      rw [Kept, Tables.delegators?_of_absent fresh] at h
      exact kept_putNamespace h
    | deleteNamespace =>
      obtain rfl := hChanges
      rw [next, if_pos rfl]
      apply kept_of_absent
      rw [Table.get?_erase, if_pos BEq.rfl]
    | addDelegators admits manages =>
      obtain rfl := hChanges
      obtain ⟨fields, hRead⟩ := hAccepted
      rw [next_changeDelegators hRead]
      have hSome := (DelegatorChange.named_of_fields hRead).2
      exact kept_putNamespace (DelegatorChange.get?_joined (h.get? manages.found) hSome)
    | removeDelegators admits manages =>
      obtain rfl := hChanges
      obtain ⟨fields, hRead⟩ := hAccepted
      rw [next_changeDelegators hRead]
      exact kept_putNamespace (DelegatorChange.get?_left (h.get? manages.found))
    | _ => exact hChanges.elim
  · rw [Kept, hCommit.delegators?_eq hChanges, next_of_not_changesRegistry hChanges]
    exact h

theorem changesRegistry_writes (h : o.ChangesRegistry ns) : o.writesTables = true := by
  cases o <;> first | rfl | exact h.elim

theorem Kept.segment {w w' : World} {c : Completion} (hTask : c.task.AcceptedWithout ns)
    (h : Kept ns key w.tables ps) (hSegment : c.task.Segment w w' c.result) :
    Kept ns key w'.tables (after ns key ps c) := by
  obtain ⟨id, task, result⟩ := c
  cases hSegment with
  | loaded parsed => exact kept_of_absent (hTask _ parsed)
  | notLoaded => exact h
  | @operation now o w w' r segment =>
    cases segment with
    | refused why => exact h
    | answered a quiet =>
      have hOther : ¬ o.ChangesRegistry ns := fun hChanges =>
        Bool.false_ne_true (quiet.symm.trans (changesRegistry_writes hChanges))
      rw [after]
      dsimp only
      rw [next_of_not_changesRegistry hOther]
      exact h
    | recorded asked =>
      subst asked
      exact h
    | committed commit =>
      have hKept := h.commit hTask commit
      cases result with
      | ok a => exact hKept
      | error why =>
        have hOther : ¬ o.ChangesRegistry ns := by
          intro hChanges
          obtain ⟨a, hAnswer⟩ := commit.ok_of_changesRegistry hChanges
          cases hAnswer
        rw [next_of_not_changesRegistry hOther] at hKept
        exact hKept

/-- The answer to those that join is the set that they are in from then on. -/
theorem Kept.answer {w w' : World} {c : Completion} {caller : Principal} {input : DelegatorChange} {a : Answer}
    (h : Kept ns key w.tables ps) (hTask : c.task.AcceptedWithout ns)
    (hSegment : c.task.Segment w w' c.result)
    (hAdds : c.task = .operation now (.changeDelegators caller .add input)) (hName : input.ns = ns)
    (hKey : Text.lower input.name = key) (hAnswer : c.result = .ok a) :
    a = .principals (after ns key ps c) := by
  obtain ⟨id, task, result⟩ := c
  dsimp only at hTask hSegment hAdds hAnswer
  subst hAdds hAnswer
  obtain ⟨fields, hRead⟩ := hTask
  rw [DelegatorChange.lower_name hRead] at hKey
  subst hName hKey
  rw [after]
  dsimp only
  rw [next_changeDelegators hRead, if_pos rfl]
  cases hSegment with
  | operation segment =>
    cases segment with
    | answered a quiet => cases quiet
    | recorded asked => cases asked
    | committed commit =>
      cases commit with
      | addDelegators admits manages =>
        rw [h.get? manages.found, Principals.getD_held?]
        rfl

/-- Between two moments at which the namespace exists, only a change of its delegators changes the registry. -/
theorem delegators?_of_segment {w w' : World} {c : Completion} {before after : Table String Principals}
    (hTask : c.task.AcceptedWithout ns) (hSegment : c.task.Segment w w' c.result)
    (hBefore : w.tables.delegators? ns = some before) (hAfter : w'.tables.delegators? ns = some after) :
    after = before ∨ ∃ now caller d input a, c.task = .operation now (.changeDelegators caller d input) ∧
      input.ns = ns ∧ c.result = .ok a := by
  have hSame (h : w'.tables.delegators? ns = w.tables.delegators? ns) : after = before :=
    Option.some.inj (hAfter.symm.trans (h.trans hBefore))
  obtain ⟨id, task, result⟩ := c
  cases hSegment with
  | @loaded snapshot w t parsed =>
    have hAbsent : (w.replaceTables t).tables.delegators? ns = none := Tables.delegators?_of_absent (hTask t parsed)
    rw [hAbsent] at hAfter
    cases hAfter
  | notLoaded => exact Or.inl (hSame rfl)
  | @operation now o w w' r segment =>
    cases segment with
    | refused | answered | recorded => exact Or.inl (hSame rfl)
    | committed commit =>
      by_cases hChanges : o.ChangesRegistry ns
      · cases commit with
        | createNamespace known governs fresh =>
          obtain rfl := hChanges
          rw [Tables.delegators?_of_absent fresh] at hBefore
          cases hBefore
        | deleteNamespace =>
          obtain rfl := hChanges
          rw [Tables.delegators?_of_absent ((Table.get?_erase ..).trans (if_pos BEq.rfl))] at hAfter
          cases hAfter
        | addDelegators | removeDelegators => exact Or.inr ⟨_, _, _, _, _, rfl, hChanges, rfl⟩
        | _ => exact hChanges.elim
      · exact Or.inl (hSame (commit.delegators?_eq hChanges))

end Steps

/-! ## Asking for the delegators of a name -/

/-- What is found under a name, however it is spelled. -/
structure Serves (t : Tables) (row : Namespace) (ns name : String) (ps : Principals) : Prop where
  entry : row.delegators.get? (Text.lower name) = ps.held?
  delegators : ∀ caller, row.canRead caller = .ok true → t.getDelegators caller ns name =
    if ps.isEmpty then .error (.missing (.delegatedName name)) else .ok ps
  refused : ∀ caller, row.canRead caller = .ok false →
    t.getDelegators caller ns name = .error (.denied .noPermission)
  session : ∀ caller, t.sessionLifetime caller ns name =
    if ps.isEmpty then .error (.missing (.delegatedName name))
    else if caller ∈ ps then .ok row.sessionLifetime
    else .error (.denied .notDelegator)

theorem serves_of_entry {t : Tables} {row : Namespace} {ns name : String} {ps : Principals}
    (hFound : t.namespaces.get? (.text ns) = some row)
    (hEntry : row.delegators.get? (Text.lower name) = ps.held?) : Serves t row ns name ps := by
  have hSet : Tables.delegatorsOf row name =
      if ps.isEmpty then .error (.missing (.delegatedName name)) else .ok ps := by
    rw [Tables.delegatorsOf, hEntry, Principals.held?]
    cases ps.isEmpty <;> rfl
  constructor
  case entry => exact hEntry
  case delegators =>
    intro caller hMay
    rw [Tables.getDelegators, Access.readable, (Access.namespaceWhere_eq_ok_iff t ns _ row).mpr ⟨hFound, hMay⟩]
    exact hSet
  case refused =>
    intro caller hMayNot
    rw [Tables.getDelegators, Access.readable, Access.namespaceWhere, (Access.lookup_eq_ok_iff t ns row).mpr hFound]
    simp only [bind, Except.bind, hMayNot]
    rfl
  case session =>
    intro caller
    rw [Tables.sessionLifetime, (Access.lookup_eq_ok_iff t ns row).mpr hFound]
    simp only [bind, Except.bind, hSet]
    cases ps.isEmpty with
    | true => rfl
    | false =>
      by_cases hMember : caller ∈ ps
      · simp [Access.demand, hMember]
      · simp [Access.demand, hMember]

/-! ## Runs -/

/-- In every run that begins without a namespace its registry holds, under each name in lower case, exactly the
set that the calls on this name have led to, and nothing else; the set is found under every spelling of the name. -/
theorem registry_follows_calls {service : Principal} {w : World} {events : List Event} {s : Server}
    {completions : List Completion} {ns : String} (hStart : w.tables.namespaces.get? (.text ns) = none)
    (hCalls : Server.Calls (Task.AcceptedWithout ns) events)
    (hRun : (Server.idle w).run service events = (s, completions)) :
    (∀ row, s.world.tables.namespaces.get? (.text ns) = some row →
      (∀ name, Serves s.world.tables row ns name (of ns (Text.lower name) completions)) ∧
      ∀ key, Text.lower key ≠ key → row.delegators.get? key = none) ∧
    ∀ e, Server.Calls (Task.AcceptedWithout ns) [e] →
      (∀ c now caller input a, (s.step service e).2 = some c →
        c.task = .operation now (.changeDelegators caller .add input) → input.ns = ns → c.result = .ok a →
        a = .principals (of ns (Text.lower input.name) (completions ++ [c]))) ∧
      ∀ before after, s.world.tables.delegators? ns = some before →
        (s.step service e).1.world.tables.delegators? ns = some after →
        after = before ∨ ∃ c now caller d input a, (s.step service e).2 = some c ∧
          c.task = .operation now (.changeDelegators caller d input) ∧ input.ns = ns ∧ c.result = .ok a := by
  have hIdle := Server.idle_sound (Task.AcceptedWithout ns) w
  have hKept (key : String) : Kept ns key s.world.tables (of ns key completions) := by
    have h := Server.run_preserves (after ns key) (I := fun w ps => Kept ns key w.tables ps)
      (fun _ _ _ _ hTask h hSegment => h.segment hTask hSegment) service events hIdle hCalls (kept_of_absent hStart)
    rw [hRun] at h
    exact h
  have hSound : s.Sound (Task.AcceptedWithout ns) := by
    have h := Server.run_sound service hIdle hCalls
    rwa [hRun] at h
  refine ⟨?_, ?_⟩
  · intro row hFound
    refine ⟨fun name => serves_of_entry hFound ((hKept _).get? hFound), ?_⟩
    intro key hOther
    rw [(hKept key).get? hFound, of_eq_empty hOther]
    rfl
  · intro e he
    have hSteps := (Server.step_spec service hSound e he).2
    generalize s.step service e = next at hSteps ⊢
    cases hSteps with
    | waits same =>
      constructor
      · rintro c now caller input a ⟨⟩
      · intro before after hBefore hAfter
        rw [same, hBefore] at hAfter
        exact Or.inl (Option.some.inj hAfter).symm
    | @ends s' c about kind segment =>
      constructor
      · rintro _ now caller input a ⟨⟩ hAdds hName hAnswer
        rw [of, List.foldl_concat]
        exact (hKept _).answer kind segment hAdds hName rfl hAnswer
      · intro before after hBefore hAfter
        refine (delegators?_of_segment kind segment hBefore hAfter).imp_right ?_
        rintro ⟨now, caller, d, input, a, hChange⟩
        exact ⟨c, now, caller, d, input, a, rfl, hChange⟩

namespace Sample

open Server.Sample (owner config newNamespace)

def other : Principal := ⟨[5], by decide⟩

/-- A namespace is created, and its owner and somebody else are let in as delegators of a name, of whom the
other one is taken out again. -/
def calls : List Event := [
  .call 0 (.operation 10 (.createNamespace owner newNamespace)),
  .call 1 (.operation 20 (.changeDelegators owner .add ⟨"vault", "bot", .ofList [owner, other]⟩)),
  .call 2 (.operation 30 (.changeDelegators owner .remove ⟨"vault", "bot", .ofList [other]⟩))]

def final : Server × List Completion := (Server.idle (.ofConfig config)).run owner calls

theorem calls_accepted : Server.Calls (Task.AcceptedWithout "vault") calls := by
  have hNamespace : NewNamespace.ofFields [("name", .text "vault"), ("managers",
      .list [.principal owner])] = .good newNamespace := rfl
  have hJoin : DelegatorChange.ofFields [("ns", .text "vault"), ("name", .text "Bot"),
      ("delegators", .list [.principal owner, .principal other])] =
        .good ⟨"vault", "bot", .ofList [owner, other]⟩ := rfl
  have hLeave : DelegatorChange.ofFields [("ns", .text "vault"), ("name", .text "bOT"),
      ("delegators", .list [.principal other])] =
        .good ⟨"vault", "bot", .ofList [other]⟩ := rfl
  intro id task hMem
  simp only [calls, List.mem_cons, List.not_mem_nil, Event.call.injEq, or_false] at hMem
  rcases hMem with ⟨-, rfl⟩ | ⟨-, rfl⟩ | ⟨-, rfl⟩
  · exact ⟨_, hNamespace⟩
  · exact ⟨_, hJoin⟩
  · exact ⟨_, hLeave⟩

theorem owner_found_under_other_spelling :
    (World.ofConfig config).tables.namespaces.get? (.text "vault") = none ∧
    Server.Calls (Task.AcceptedWithout "vault") calls ∧
    ∃ row, final.1.world.tables.namespaces.get? (.text "vault") = some row ∧
      Serves final.1.world.tables row "vault" "BOT" (.ofList [owner]) := by
  have hRun : (Server.idle (.ofConfig config)).run owner calls = (final.1, final.2) := rfl
  have hSet : of "vault" (Text.lower "BOT") final.2 = .ofList [owner] := rfl
  obtain ⟨hKept, -⟩ := registry_follows_calls rfl calls_accepted hRun
  obtain ⟨hServes, -⟩ := hKept _ rfl
  exact ⟨rfl, calls_accepted, _, rfl, hSet ▸ hServes "BOT"⟩

end Sample

end Delegators

end TenantVault
