import TenantVault.Proofs.Authority
import TenantVault.Proofs.Restriction
import TenantVault.Proofs.Writes

/-! # Namespaces are kept apart

An operation on one namespace finds the same in the tables of that namespace alone as in all tables, and
writes to no other. So operations on two namespaces can be done in either order: both give the answers
that they give without the other, and in the end the same rows are in the tables.
-/

namespace TenantVault

open Access

/-- The namespace that an operation is about, if it is about a single one. Signing a delegation is left
out, since the signatures of all namespaces are kept in one place. -/
def Operation.namespace? : Operation → Option String
  | createNamespace _ input => some input.name
  | updateNamespace _ input => some input.name
  | changeDelegators _ _ input => some input.ns
  | getNamespace _ ns | deleteNamespace _ ns | changeMembers _ ns _ _ _ | isMember _ ns _ _ | topUp _ ns _
  | listSettings _ ns _ _ | getDelegators _ ns _ | fixedIdentity ns _ | namespacePublicKey _ ns _
  | namespaceSign _ ns _ _ | signIdentity _ ns _ => some ns
  | createSetting _ path _ | updatePayload _ path _ | updateSetting _ path _ | getSetting _ path
  | getSettingInfo _ path | getArchived _ path | changeReaders _ path _ _ | deleteSetting _ path
  | encryptedKey _ path _ | encryptedSetting _ path _ | servicePublicKey _ path | serviceKey _ path _ =>
    some path.ns
  | changeGovernors .. | setAllowedApis .. | listNamespaces .. | getGovernance .. | signDelegation ..
  | getDelegation .. | identityPublicKey => none

/-! ## Rows under their own names -/

/-- Every namespace stands under the name that it bears. -/
def Tables.Keyed (t : Tables) : Prop := ∀ name, t.KeyedAt name

theorem NamespaceWrite.keyed {now : Int} {t : Tables} {name : Scalar} {o : Operation} {ns : Namespace}
    (h : NamespaceWrite now t name o ns) (hKeyed : t.KeyedAt name) :
    ns.name.content? = some name.content := by
  cases h with
  | created at_ fresh => exact congrArg some (Scalar.beq_iff.mp at_)
  | @regrouped _ _ kind _ _ ns _ found =>
    have hName := hKeyed ns found
    cases kind <;> exact hName
  | changed found | toppedUp _ found | joined found | left found | counted _ found =>
    have hName := hKeyed _ found
    exact hName

theorem Commit.keyed {now : Int} {t t' : Tables} {o : Operation} {r : Result Answer}
    (h : Commit now t o t' r) (hKeyed : t.Keyed) : t'.Keyed := by
  intro name ns hFound
  rcases h.namespace_cases hFound with hBefore | hWrite
  · exact hKeyed name ns hBefore
  · exact hWrite.keyed (hKeyed name)

namespace Snapshot

theorem exists_of_withDefault {α : Type} {v : Json} {name : String} {default a : α} {reader : Reader α}
    (h : withDefault v name default reader = .ok a) : a = default ∨ ∃ m, reader m = .ok a := by
  unfold withDefault at h
  split at h
  · split at h
    · exact Or.inr ⟨_, h⟩
    · exact Or.inl (Except.ok.inj h).symm
  · cases h

theorem mem_of_mapM {α β : Type} {reader : α → Result β} {items : List α} {read : List β}
    (h : items.mapM reader = .ok read) : ∀ b ∈ read, ∃ a ∈ items, reader a = .ok b := by
  induction items generalizing read with
  | nil =>
    cases h
    exact nofun
  | cons item items ih =>
    simp only [List.mapM_cons, bind_eq_ok_iff, pure_eq_ok_iff] at h
    obtain ⟨first, hFirst, rest, hRest, rfl⟩ := h
    rw [List.forall_mem_cons]
    refine ⟨⟨item, List.mem_cons_self, hFirst⟩, fun b hMem => ?_⟩
    obtain ⟨a, hItem, hRead⟩ := ih hRest b hMem
    exact ⟨a, List.mem_cons_of_mem item hItem, hRead⟩

theorem keyed_of_readNamespaceRow {v : Json} {row : Scalar × Namespace} (h : readNamespaceRow v = .ok row) :
    row.2.name.content? = some row.1.content := by
  simp only [readNamespaceRow, bind_eq_ok_iff, pure_eq_ok_iff] at h
  obtain ⟨ns, hRow, name, hName, rfl⟩ := h
  unfold readScalar at hName
  cases hScalar : ns.name.scalar? with
  | none =>
    rw [hScalar] at hName
    cases hName
  | some name' =>
    rw [hScalar] at hName
    cases hName
    exact congrArg (Option.map Scalar.content) hScalar

theorem keyed_of_parse {text : String} {t : Tables} (h : parse text = .ok t) : t.Keyed := by
  unfold parse at h
  cases hText : Json.parse? text with
  | none =>
    rw [hText] at h
    cases h
  | some v =>
    rw [hText] at h
    simp only [readTables, bind_eq_ok_iff] at h
    obtain ⟨version, -, h⟩ := h
    split at h
    · cases h
    · simp only [bind_eq_ok_iff, pure_eq_ok_iff] at h
      obtain ⟨_, -, governance, -, namespaces, hRead, settings, -, archived, -, rfl⟩ := h
      intro name ns hFound
      obtain ⟨name', hRow, hSame⟩ := Table.exists_of_get?_ofRows hFound
      rw [← Scalar.beq_iff.mp hSame]
      rcases exists_of_withDefault hRead with rfl | ⟨m, hList⟩
      · cases hRow
      · simp only [readList, bind_eq_ok_iff] at hList
        obtain ⟨items, -, hItems⟩ := hList
        obtain ⟨item, -, hItem⟩ := mem_of_mapM hItems _ hRow
        exact keyed_of_readNamespaceRow hItem

end Snapshot

/-- A state of a service: it has begun with some configuration, and any calls, interleaved in any way,
and loads of any texts have followed. -/
def Server.Reached (service : Principal) (s : Server) : Prop :=
  ∃ c events, ((idle (.ofConfig c)).run service events).1 = s

theorem Server.Reached.keyed {service : Principal} {s : Server} (h : s.Reached service) :
    s.world.tables.Keyed := by
  obtain ⟨c, events, rfl⟩ := h
  refine run_invariant (I := fun w => w.tables.Keyed) ?_ service events
    (idle_sound (fun _ => True) _) (fun _ _ _ => trivial) nofun
  rintro w w' ⟨_, task, r⟩ _ hKeyed segment
  cases segment with
  | operation segment =>
    rcases segment.tables with hSame | commit
    · rw [hSame]
      exact hKeyed
    · exact commit.keyed hKeyed
  | loaded parsed => exact Snapshot.keyed_of_parse parsed
  | notLoaded => exact hKeyed

/-! ## Calls in the tables of their own namespaces -/

section Operations

open Outcome Tables

variable {p : Scalar.Content → Bool} {t : Tables} {w : World} {name : String} {key : SettingKey}
  {caller : Principal} {now : Int}

namespace Operation

theorem mirrors_change {α : Type} {f : Tables → Result (Tables × α)} (api : String) (answer : α → Answer)
    (hf : Commutes (within p) f w.tables) :
    Mirrors (within p) w ((change caller api f w).map answer)
      ((change caller api f (w.through (within p))).map answer) :=
  (mirrors_update (hf.guarded rfl)).map answer

theorem mirrors_write {α : Type} {f : Tables → Result (Tables × Result α)} (api : String)
    (answer : α → Answer) (hf : Commutes (within p) f w.tables) :
    Mirrors (within p) w ((write caller api f w).map answer)
      ((write caller api f (w.through (within p))).map answer) :=
  (mirrors_settle (hf.guarded rfl)).map answer

/-- In tables that keep its namespace an operation does the same as in all tables. -/
theorem mirrors_perform (service : Principal) (now : Int) {o : Operation}
    (hName : o.namespace? = some name) (hKept : p (.text name) = true)
    (hKeyed : w.tables.KeyedAt (.text name)) :
    Mirrors (within p) w (o.perform service now w) (o.perform service now (w.through (within p))) := by
  have hT := congruence_mirrors (within p) w
  have hw : Through (within p) w w (w.through (within p)) := ⟨rfl, rfl⟩
  have hAllowed (caller : Principal) (api : String) : SameLook (Through (within p) w) (allowed · caller api) :=
    .of_blind rfl
  cases o with
  | changeGovernors | setAllowedApis | listNamespaces | getGovernance | signDelegation | getDelegation
  | identityPublicKey => cases hName
  | createNamespace caller input =>
    cases hName
    refine (mirrors_update ?_).map _
    exact Commutes.bind rfl fun _ _ => createNamespace_within hKept
  | getNamespace caller ns =>
    cases hName
    exact (mirrors_query (getNamespaceInfo_within hKeyed hKept)).map _
  | updateNamespace caller input =>
    cases hName
    exact mirrors_change _ _ (updateNamespace_within hKept)
  | deleteNamespace caller ns =>
    cases hName
    exact mirrors_change _ _ (deleteNamespace_within hKept)
  | changeMembers caller ns kind d ps =>
    cases hName
    exact mirrors_change _ _ (changeMembers_within hKept kind d ps)
  | isMember caller ns kind user =>
    cases hName
    refine (mirrors_query ?_).map _
    exact Blind.bind rfl fun _ _ => Blind.bind (readable_within hKept) fun _ _ => rfl
  | topUp caller ns amount =>
    cases hName
    exact mirrors_change _ _ (topUp_within hKept amount)
  | listSettings caller ns userOwned subject =>
    cases hName
    exact (mirrors_query (listSettings_within hKept userOwned subject)).map _
  | getDelegators caller ns name =>
    cases hName
    refine (mirrors_query ?_).map _
    exact Blind.bind (readable_within hKept) fun _ _ => rfl
  | changeDelegators caller d input =>
    cases hName
    cases d with
    | add => exact mirrors_change _ _ (addDelegators_within hKept)
    | remove => exact mirrors_change _ _ (removeDelegators_within hKept)
  | fixedIdentity ns name =>
    refine (mirrors_query ?_).map _
    rfl
  | namespacePublicKey caller ns path =>
    cases hName
    exact (Signatures.related_namespacePublicKey hT path (.of_blind (readable_within hKept)) hw).map _
  | namespaceSign caller ns path message =>
    cases hName
    exact (Signatures.related_namespaceSign hT path message (.of_blind (signing_within hKept)) hw).map _
  | signIdentity caller ns audience =>
    cases hName
    have hScope : SameLook (Through (within p) w) (tokenScope · caller name) :=
      .of_blind (tokenScope_within hKept)
    exact (Signatures.related_signIdentity hT service audience now hScope hw).map _
  | createSetting caller path input =>
    cases hName
    exact mirrors_write _ _ ((keepsWritable_within hKept).createSetting_commutes input)
  | updatePayload caller path input =>
    cases hName
    exact mirrors_write _ _ ((keepsWritable_within hKept).updatePayload_commutes input)
  | updateSetting caller path input =>
    cases hName
    exact mirrors_change _ _ ((keepsWritable_within hKept).updateSetting_commutes input)
  | getSetting caller path =>
    cases hName
    exact (mirrors_query (keepsReadable_within hKept).readSetting_blind).map _
  | getSettingInfo caller path =>
    cases hName
    exact (mirrors_query (getSettingInfo_within hKept)).map _
  | getArchived caller path =>
    cases hName
    exact (mirrors_query (keepsReadable_within hKept).readArchived_blind).map _
  | changeReaders caller path d readers =>
    cases hName
    exact mirrors_change _ _ ((keepsWritable_within hKept).changeReaders_commutes d readers)
  | deleteSetting caller path =>
    cases hName
    exact mirrors_write _ _ (keepsWritable_within hKept).deleteSetting_commutes
  | encryptedKey caller path input =>
    cases hName
    exact (Keys.related_encryptedKey hT path input (hAllowed _ _)
      (.of_blind (keyHolder_within hKept)) hw).map _
  | encryptedSetting caller path input =>
    cases hName
    have hKey : p (.text (path.toKey caller).ns) = true := hKept
    refine (Keys.related_encryptedSetting hT path input (hAllowed _ _) ?_ ?_ hw ?_).map _
    · exact .of_blind (keyHolder_within hKey)
    · exact .of_blind (getSettingInfo_within hKey)
    · exact (keepsReadable_within hKey).readSetting_blind.symm
  | servicePublicKey caller path =>
    cases hName
    exact (Keys.related_servicePublicKey hT path (.of_blind (readable_within hKept)) hw).map _
  | serviceKey caller path transportKey =>
    cases hName
    exact (Keys.related_serviceKey hT path transportKey (hAllowed _ _)
      (.of_blind (keyHolder_within hKept)) hw).map _

end Operation

/-! ## Rows of other namespaces -/

/-- An operation leaves the rows of all namespaces but its own as they are. -/
theorem Commit.within_eq {t t' : Tables} {o : Operation} {r : Result Answer} (h : Commit now t o t' r)
    (hName : o.namespace? = some name) (hDropped : p (.text name) = false) :
    t'.within p = t.within p := by
  cases h with
  | changeGovernors | setAllowedApis => cases hName
  | createNamespace | updateNamespace | changeMembers | topUp | addDelegators | removeDelegators =>
    cases hName
    exact within_putNamespace hDropped
  | deleteNamespace =>
    cases hName
    exact within_eraseNamespace hDropped
  | createSetting =>
    cases hName
    exact (within_settle hDropped ..).trans (within_putSetting hDropped _)
  | updatePayload =>
    cases hName
    refine (within_settle hDropped ..).trans ((within_putSetting hDropped _).trans ?_)
    exact within_archivePayload hDropped ..
  | updateSetting | changeReaders =>
    cases hName
    exact within_putSetting hDropped _
  | deleteSetting =>
    cases hName
    exact (within_settle hDropped ..).trans (within_removeSetting hDropped)

theorem Segment.through_eq {w' : World} {o : Operation} {r : Result Answer} (h : Segment now o w w' r)
    (hName : o.namespace? = some name) (hDropped : p (.text name) = false) :
    w'.through (within p) = w.through (within p) := by
  cases h with
  | refused | answered => rfl
  | committed commit => exact congrArg w.withTables (commit.within_eq hName hDropped)
  | recorded asked =>
    rw [asked] at hName
    cases hName

end Operations

/-! ## Two operations in either order -/

/-- An operation that somebody does at some time, and how its requests are answered and its octets are
drawn. -/
structure Visit where
  now : Int
  operation : Operation
  answer : Request → Reply
  random : Nat → Bytes

def Visit.run (service : Principal) (v : Visit) (w : World) : World × Result Answer :=
  (v.operation.perform service v.now w).run v.answer v.random w

/-- The same rows under the same keys. -/
structure Tables.SameMaps (t t' : Tables) : Prop where
  governance : t'.governance = t.governance
  namespaces : ∀ name, t'.namespaces.get? name = t.namespaces.get? name
  settings : ∀ k, t'.settings.get? k = t.settings.get? k
  archived : ∀ k, t'.archived.get? k = t.archived.get? k

structure World.SameMaps (w w' : World) : Prop where
  tables : w.tables.SameMaps w'.tables
  signatures : w'.signatures = w.signatures
  retired : w'.retired = w.retired

/-- Two operations give the same answers or failures in either order, and leave the same rows. -/
structure Visit.Commute (service : Principal) (w : World) (a b : Visit) : Prop where
  first : (a.run service (b.run service w).1).2 = (a.run service w).2
  second : (b.run service (a.run service w).1).2 = (b.run service w).2
  worlds : (b.run service (a.run service w).1).1.SameMaps (a.run service (b.run service w).1).1

/-- Whatever else stood in the rows of a namespace, an operation would give the same answer and leave the
same other rows; and it changes none of the rows of that namespace. -/
structure Visit.Ignores (service : Principal) (w : World) (a : Visit) (name : String) : Prop where
  unread (t : Tables) (others : t.within (· ≠ .text name) = w.tables.within (· ≠ .text name)) :
    (a.run service (w.withTables t)).2 = (a.run service w).2 ∧
      (a.run service (w.withTables t)).1.tables.within (· ≠ .text name) =
        (a.run service w).1.tables.within (· ≠ .text name)
  unchanged : (a.run service w).1.tables.within (· = .text name) = w.tables.within (· = .text name)

section Visits

variable {p : Scalar.Content → Bool} {service : Principal} {a b : Visit} {w w' : World} {A B : String}

theorem Tables.KeyedAt.of_within {t t' : Tables} (h : t.KeyedAt (.text A)) (hSame : t'.within p = t.within p)
    (hKept : p (.text A) = true) : t'.KeyedAt (.text A) := by
  have hRow : (t'.within p).namespaces.get? (.text A) = (t.within p).namespaces.get? (.text A) := by
    rw [hSame]
  rw [namespace_within, namespace_within] at hRow
  have hPasses : (Scalar.text A).passes p = true := hKept
  simp only [hPasses, if_true] at hRow
  unfold KeyedAt
  rw [hRow]
  exact h

namespace Visit

theorem segment (service : Principal) (a : Visit) (w : World) :
    Segment a.now a.operation w (a.run service w).1 (a.run service w).2 :=
  (a.operation.each_perform service a.now w).run a.answer a.random

/-- An operation on another namespace leaves the part of the world. -/
theorem through_run (hName : a.operation.namespace? = some A) (hDropped : p (.text A) = false) :
    (a.run service w).1.through (Tables.within p) = w.through (Tables.within p) :=
  (a.segment service w).through_eq hName hDropped

theorem run_through (hName : a.operation.namespace? = some A) (hKept : p (.text A) = true)
    (hKeyed : w.tables.KeyedAt (.text A)) :
    a.run service (w.through (Tables.within p)) =
      Prod.map (World.through (Tables.within p)) id (a.run service w) :=
  Operation.mirrors_perform service a.now hName hKept hKeyed a.answer a.random

/-- In worlds with the same part an operation on a namespace in it gives the same answer and leaves the
same part. -/
theorem run_congr (hName : a.operation.namespace? = some A) (hKept : p (.text A) = true)
    (hKeyed : w.tables.KeyedAt (.text A))
    (hSame : w'.through (Tables.within p) = w.through (Tables.within p)) :
    (a.run service w').2 = (a.run service w).2 ∧
      (a.run service w').1.through (Tables.within p) = (a.run service w).1.through (Tables.within p) := by
  have hTables : w'.tables.within p = w.tables.within p := congrArg World.tables hSame
  have hRun : a.run service (w'.through (Tables.within p)) =
      Prod.map (World.through (Tables.within p)) id (a.run service w') :=
    run_through hName hKept (hKeyed.of_within hTables hKept)
  rw [hSame, run_through hName hKept hKeyed] at hRun
  obtain ⟨hWorlds, hResults⟩ := Prod.mk.inj hRun
  exact ⟨hResults.symm, hWorlds.symm⟩

/-- No row shows in which order two operations on different namespaces were done, as long as one looks at
one of these namespaces only. -/
theorem through_swap (hA : a.operation.namespace? = some A) (hB : b.operation.namespace? = some B)
    (hKeyed : w.tables.Keyed) (hOne : p (.text A) = false ∨ p (.text B) = false) :
    (a.run service (b.run service w).1).1.through (Tables.within p) =
      (b.run service (a.run service w).1).1.through (Tables.within p) := by
  cases hInA : p (.text A) with
  | true =>
    have hOutB : p (.text B) = false := hOne.resolve_left (by simp [hInA])
    calc
      (a.run service (b.run service w).1).1.through (Tables.within p)
        = (a.run service w).1.through (Tables.within p) :=
          (run_congr hA hInA (hKeyed _) (through_run hB hOutB)).2
      _ = (b.run service (a.run service w).1).1.through (Tables.within p) := (through_run hB hOutB).symm
  | false =>
    cases hInB : p (.text B) with
    | true =>
      calc
        (a.run service (b.run service w).1).1.through (Tables.within p)
          = (b.run service w).1.through (Tables.within p) := through_run hA hInA
        _ = (b.run service (a.run service w).1).1.through (Tables.within p) :=
          (run_congr hB hInB (hKeyed _) (through_run hA hInA)).2.symm
    | false =>
      calc
        (a.run service (b.run service w).1).1.through (Tables.within p)
          = (b.run service w).1.through (Tables.within p) := through_run hA hInA
        _ = w.through (Tables.within p) := through_run hB hInB
        _ = (a.run service w).1.through (Tables.within p) := (through_run hA hInA).symm
        _ = (b.run service (a.run service w).1).1.through (Tables.within p) := (through_run hB hInB).symm

end Visit

/-- Worlds with the same rows in every namespace have the same rows. -/
theorem World.SameMaps.of_through
    (h : ∀ c : Scalar.Content, w'.through (Tables.within (· = c)) = w.through (Tables.within (· = c))) :
    w.SameMaps w' := by
  have hTables (c : Scalar.Content) : w'.tables.within (· = c) = w.tables.within (· = c) :=
    congrArg World.tables (h c)
  have hGovernance := congrArg Tables.governance (hTables .null)
  have hSignatures := congrArg World.signatures (h .null)
  have hRetired := congrArg World.retired (h .null)
  refine ⟨⟨hGovernance, ?_, ?_, ?_⟩, hSignatures, hRetired⟩
  · intro name
    have hRow := congrArg (·.namespaces.get? name) (hTables name.content)
    simpa [Tables.namespace_within, Scalar.passes] using hRow
  · intro k
    have hRow := congrArg (·.settings.get? k) (hTables k.ns.content)
    simpa [Tables.live_within, StoredKey.passes, Scalar.passes] using hRow
  · intro k
    have hRow := congrArg (·.archived.get? k) (hTables k.ns.content)
    simpa [Tables.archived_within, StoredKey.passes, Scalar.passes] using hRow

theorem Visit.commute_of_apart (hA : a.operation.namespace? = some A) (hB : b.operation.namespace? = some B)
    (hApart : A ≠ B) (hKeyed : w.tables.Keyed) : Commute service w a b := by
  have hContents : Scalar.Content.text A ≠ .text B := by
    intro h
    cases h
    exact hApart rfl
  constructor
  · refine (run_congr (p := (· = .text A)) hA (by simp) (hKeyed _) ?_).1
    exact through_run hB (by simp [hContents.symm])
  · refine (run_congr (p := (· = .text B)) hB (by simp) (hKeyed _) ?_).1
    exact through_run hA (by simp [hContents])
  · refine .of_through fun c => through_swap hA hB hKeyed ?_
    by_cases hC : Scalar.Content.text A = c
    · exact Or.inr (decide_eq_false fun h => hContents (hC.trans h.symm))
    · exact Or.inl (decide_eq_false hC)

theorem Visit.ignores_of_apart (hA : a.operation.namespace? = some A) (hApart : A ≠ B)
    (hKeyed : w.tables.Keyed) : Ignores service w a B := by
  constructor
  · intro t hOthers
    have hSame : (w.withTables t).through (Tables.within (· ≠ .text B)) =
        w.through (Tables.within (· ≠ .text B)) := congrArg w.withTables hOthers
    have hKept : decide (Scalar.Content.text A ≠ .text B) = true := by simp [hApart]
    refine (run_congr hA hKept (hKeyed _) hSame).imp_right ?_
    exact congrArg World.tables
  · refine congrArg World.tables (through_run hA ?_)
    simp [hApart]

/-- Namespaces are isolated from one another: in every state of a service, operations on two of them can
be done in either order, and an operation on one neither reads nor changes a row of the other. -/
theorem Server.namespaces_isolated {s : Server} (h : s.Reached service)
    (hA : a.operation.namespace? = some A) (hB : b.operation.namespace? = some B) (hApart : A ≠ B) :
    Visit.Commute service s.world a b ∧ Visit.Ignores service s.world a B :=
  ⟨Visit.commute_of_apart hA hB hApart h.keyed, Visit.ignores_of_apart hA hApart h.keyed⟩

end Visits

namespace Server.Sample

def atticPath : SettingPath := ⟨"attic", false, none, [7], 0⟩

/-- A setting with the same key in another namespace. -/
def furnishing : List Event := [
  .call 3 (.operation 40 (.createNamespace owner { newNamespace with name := "attic" })),
  .call 4 (.operation 50 (.createSetting owner atticPath newSetting))]

def furnished : Server := ((idle (.ofConfig config)).run owner (events ++ furnishing)).1

def visit (now : Int) (operation : Operation) : Visit :=
  ⟨now, operation, fun _ => .error .notConfigured, fun _ => []⟩

def replacing : Visit := visit 60 (.updatePayload owner (path 0) ⟨2, [3], none, none, false⟩)

def clearing : Visit := visit 70 (.deleteSetting owner atticPath)

theorem replacing_apart_from_clearing :
    furnished.Reached owner ∧ replacing.operation.namespace? = some "vault" ∧
      clearing.operation.namespace? = some "attic" ∧ "vault" ≠ "attic" ∧
      (replacing.run owner furnished.world).2.isOk = true ∧
      (clearing.run owner furnished.world).2.isOk = true ∧
      Visit.Commute owner furnished.world replacing clearing ∧
      Visit.Ignores owner furnished.world replacing "attic" := by
  have hReached : furnished.Reached owner := ⟨config, events ++ furnishing, rfl⟩
  have hApart : "vault" ≠ "attic" := by decide
  exact ⟨hReached, rfl, rfl, hApart, rfl, rfl, namespaces_isolated hReached rfl rfl hApart⟩

end Server.Sample

end TenantVault
