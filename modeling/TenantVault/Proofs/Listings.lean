import TenantVault.Proofs.Ranges

/-! # Listings of keys

The settings of all namespaces are in one table, in the order in which they were created. A listing picks
those of one scope of a namespace, puts them in order and shows their subjects and keys. It is determined by
which settings there are among those it is about, so whoever may only list his own learns nothing of others.
-/

namespace TenantVault

/-! ## The order of keys -/

namespace SettingKey

variable {a b : SettingKey}

theorem stored_inj (h : a.stored = b.stored) : a = b := by
  have hSame : (a.stored == b.stored) = true := by
    rw [h]
    exact BEq.rfl
  rwa [StoredKey.stored_beq_stored, decide_eq_true_iff] at hSame

/-- Keys are ordered field by field. -/
theorem compare_eq_then (a b : SettingKey) :
    a.compare b = (Ord.compare a.ns b.ns).then ((Ord.compare a.scope b.scope).then
      ((compareOfLessAndEq a.subject b.subject).then ((compareOfLessAndEq a.key b.key).then
        (Ord.compare a.version b.version)))) := rfl

theorem eq_of_compare_eq (h : a.compare b = .eq) : a = b := by
  simp only [compare_eq_then, Ordering.then_eq_eq, Std.compare_eq_iff_eq,
    compareOfLessAndEq_eq_eq Std.le_refl Std.not_le] at h
  obtain ⟨hName, hScope, hSubject, hKey, hVersion⟩ := h
  cases a
  cases b
  cases hName
  cases hScope
  cases hSubject
  cases hKey
  cases hVersion
  rfl

/-- Within a scope of a namespace settings are in the order of their subjects, then of their keys. -/
theorem compare_eq_lt_iff (hName : a.ns = b.ns) (hScope : a.scope = b.scope)
    (hVersion : a.version = b.version) :
    a.compare b = .lt ↔ a.subject < b.subject ∨ a.subject = b.subject ∧ a.key < b.key := by
  rw [compare_eq_then, hName, hScope, hVersion]
  simp only [Std.compare_self, Ordering.then_eq_lt, Ordering.then_eq, Ordering.eq_then,
    compareOfLessAndEq_eq_lt, compareOfLessAndEq_eq_eq Std.le_refl Std.not_le]

theorem current_of_version (h : a.version = 0) : a.current = a := by
  rw [current, withVersion, ← h]

/-- A row under a key that a caller gives. -/
def storedRow (row : SettingKey × Setting) : StoredKey × Setting := (row.1.stored, row.2)

theorem storedRow_injective : Function.Injective storedRow := by
  intro a b h
  exact Prod.ext (stored_inj (congrArg Prod.fst h)) (congrArg (·.2) h)

/-- The key of the live setting of a subject. -/
def live (ns : String) (userOwned : Bool) (subject : Principal) (key : Bytes) : SettingKey where
  ns
  scope := if userOwned then userScope else serverScope
  subject
  key
  version := 0

end SettingKey

/-! ## What is listed -/

namespace Tables

/-- The order of a listing. -/
def Precedes (a b : Principal × Bytes) : Prop := a.1.raw < b.1.raw ∨ a.1 = b.1 ∧ a.2 < b.2

theorem Precedes.asymm {a b : Principal × Bytes} (h : Precedes a b) : ¬ Precedes b a := by
  rcases h with hLess | ⟨hSubject, hLess⟩
  · rintro (hMore | ⟨hSubject, -⟩)
    · exact Std.lt_irrefl (Std.lt_trans hLess hMore)
    · exact Std.lt_irrefl (hSubject ▸ hLess)
  · rintro (hMore | ⟨-, hMore⟩)
    · exact Std.lt_irrefl (hSubject ▸ hMore)
    · exact Std.lt_irrefl (Std.lt_trans hLess hMore)

theorem Precedes.ne {a b : Principal × Bytes} (h : Precedes a b) : a ≠ b := by
  rintro rfl
  exact h.asymm h

variable {t t' : Tables} {ns : String} {userOwned : Bool} {subject : Option Principal}

/-- The live settings in a scope of a namespace, those of one subject if it is given: each once, in the
order of the subjects and then of the keys. -/
structure Listing (t : Tables) (ns : String) (userOwned : Bool) (subject : Option Principal)
    (pairs : List (Principal × Bytes)) : Prop where
  exact : ∀ p key, (p, key) ∈ pairs ↔ (∀ only, subject = some only → p = only) ∧
    (t.getSetting? (.live ns userOwned p key)).isSome = true
  ascending : pairs.Pairwise Precedes

/-- There is one listing for each set of settings. -/
theorem Listing.unique {pairs pairs' : List (Principal × Bytes)} (h : t.Listing ns userOwned subject pairs)
    (h' : t'.Listing ns userOwned subject pairs')
    (hSame : ∀ p key, (∀ only, subject = some only → p = only) →
      (t.getSetting? (.live ns userOwned p key)).isSome = (t'.getSetting? (.live ns userOwned p key)).isSome) :
    pairs = pairs' := by
  have hMembers : ∀ pair, pair ∈ pairs ↔ pair ∈ pairs' := by
    rintro ⟨p, key⟩
    rw [h.exact, h'.exact]
    exact and_congr_right fun hOnly => by rw [hSame p key hOnly]
  -- Lists in strictly ascending order are the same as soon as their members are.
  refine List.Perm.eq_of_pairwise ?_ h.ascending h'.ascending ?_
  · intro a b _ _ hLess hMore
    exact absurd hMore hLess.asymm
  · rw [List.perm_ext_iff_of_nodup (h.ascending.imp Precedes.ne) (h'.ascending.imp Precedes.ne)]
    exact hMembers

/-- The pairs of a listing as an answer gives them. -/
def shown (pairs : List (Principal × Bytes)) : List (Principal × Option Bytes) :=
  pairs.map fun pair => (pair.1, some pair.2)

/-- What the settings of a scope of a namespace are listed as, to whoever may list them. -/
def listed (t : Tables) (ns : String) (userOwned : Bool) (subject : Option Principal) :
    Result (List (Principal × Option Bytes)) := do
  let scope := if userOwned then SettingKey.userScope else SettingKey.serverScope
  return (← t.scan ns (some scope) subject).map fun row => (row.1.subject, row.1.key)

/-- A scan of rows under keys that callers give. -/
theorem scan_eq_ok {rows sorted : List (SettingKey × Setting)}
    (hRows : t.settings.rows = rows.map SettingKey.storedRow)
    (hSorted : sort? (fun a b => a.1.compare b.1) (fun a b => a.1.stored.isComparable b.1.stored)
      (rows.filter fun row => row.1.ns = ns) = some sorted) (scope : Int) (subject : Option Principal) :
    t.scan ns (some scope) subject = .ok ((sorted.filter fun row =>
      decide (row.1.scope = scope) && subject.all (row.1.subject = ·)).map SettingKey.storedRow) := by
  have hName : ((fun row : StoredKey × Setting => row.1.ns == .text ns) ∘ SettingKey.storedRow) =
      fun row => decide (row.1.ns = ns) := funext fun row => Scalar.text_beq_text row.1.ns ns
  have hScope : ((fun row : StoredKey × Setting => (some scope).all (row.1.scope == .int ·) &&
      subject.all (row.1.subject = ·)) ∘ SettingKey.storedRow) =
      fun row => decide (row.1.scope = scope) && subject.all (row.1.subject = ·) := by
    funext row
    exact congrArg (· && _) (Scalar.int_beq_int row.1.scope scope)
  have hSort : StoredKey.sort? (t.settings.rows.filter fun row => row.1.ns == .text ns) =
      some (sorted.map SettingKey.storedRow) := by
    rw [hRows, List.filter_map, hName, StoredKey.sort?, sort?_map]
    exact congrArg (Option.map _) hSorted
  calc
    t.scan ns (some scope) subject = .ok ((sorted.map SettingKey.storedRow).filter fun row =>
        (some scope).all (row.1.scope == .int ·) && subject.all (row.1.subject = ·)) := by
      rw [scan, hSort]
      rfl
    _ = _ := by rw [List.filter_map, hScope]

section Whole

variable (hWhole : t.Whole)

include hWhole

/-- The live settings under the keys that callers give them. -/
theorem exists_rows :
    ∃ rows : List (SettingKey × Setting), t.settings.rows = rows.map SettingKey.storedRow ∧
      (rows.Pairwise fun a b => a.1.compare b.1 ≠ .eq) ∧
      ∀ row, row ∈ rows ↔ row.1.version = 0 ∧ t.getSetting? row.1 = some row.2 := by
  have hOrigin : ∀ row ∈ t.settings.rows, ∃ origin, SettingKey.storedRow origin = row := by
    intro row hRow
    obtain ⟨key, hKey, -⟩ := hWhole.row_live hRow
    exact ⟨(key, row.2), Prod.ext hKey.symm rfl⟩
  obtain ⟨rows, hRows⟩ := exists_map_eq hOrigin
  have hMem : ∀ row, row ∈ rows ↔ SettingKey.storedRow row ∈ t.settings.rows := by
    intro row
    rw [← hRows, List.mem_map_of_injective SettingKey.storedRow_injective]
  refine ⟨rows, hRows.symm, ?_, ?_⟩
  · have hApart := t.settings.distinct
    rw [← hRows, List.map_map, List.pairwise_map] at hApart
    refine hApart.imp ?_
    intro a b hDistinct hSame
    have hEqual : (a.1.stored == b.1.stored) = true := by
      rw [SettingKey.eq_of_compare_eq hSame]
      exact BEq.rfl
    exact Bool.noConfusion (hDistinct.symm.trans hEqual)
  · intro row
    rw [hMem]
    constructor
    · intro hRow
      obtain ⟨key, hKey, hVersion, hFound⟩ := hWhole.row_live hRow
      rw [← SettingKey.stored_inj hKey] at hVersion hFound
      exact ⟨hVersion, hFound⟩
    · rintro ⟨hVersion, hFound⟩
      rw [getSetting?, SettingKey.current_of_version hVersion] at hFound
      obtain ⟨k, hRow, hKey⟩ := Table.exists_of_get? hFound
      obtain ⟨key, rfl, -⟩ := hWhole.native.live k (Table.keys_of_mem hRow)
      rw [StoredKey.stored_beq_stored, decide_eq_true_iff] at hKey
      rwa [hKey] at hRow

/-- A scan is in the order of the keys and finds all the settings it is to look for. -/
theorem exists_scan (ns : String) (scope : Int) (subject : Option Principal) :
    ∃ rows : List (SettingKey × Setting),
      t.scan ns (some scope) subject = .ok (rows.map SettingKey.storedRow) ∧
      (rows.Pairwise fun a b => a.1.compare b.1 = .lt) ∧
      ∀ row, row ∈ rows ↔ (row.1.ns = ns ∧ row.1.scope = scope ∧
        (∀ only, subject = some only → row.1.subject = only) ∧ row.1.version = 0) ∧
        t.getSetting? row.1 = some row.2 := by
  obtain ⟨rows, hRows, hApart, hMem⟩ := exists_rows hWhole
  -- The table has no key twice, so the rows are in a strict order once they are sorted.
  have hTrans : Std.TransCmp SettingKey.compare := inferInstance
  have hOrder : Std.TransCmp fun a b : SettingKey × Setting => a.1.compare b.1 := transCmp_comap hTrans Prod.fst
  have hAll : ∀ a b : SettingKey × Setting, a.1.stored.isComparable b.1.stored = true :=
    fun a b => SettingKey.isComparable_stored a.1 b.1
  obtain ⟨sorted, hSorted, hPerm, hAscending⟩ := exists_sort?_ascending hOrder hAll
    (hApart.sublist (List.filter_sublist (p := fun row => row.1.ns = ns)))
  refine ⟨_, scan_eq_ok hRows hSorted scope subject, hAscending.sublist List.filter_sublist, ?_⟩
  intro row
  rw [List.mem_filter, hPerm.mem_iff, List.mem_filter, hMem, Bool.and_eq_true, decide_eq_true_iff,
    decide_eq_true_iff, Option.all_eq_true]
  simp only [decide_eq_true_iff]
  constructor
  · rintro ⟨⟨⟨hVersion, hFound⟩, hName⟩, hScope, hOnly⟩
    exact ⟨⟨hName, hScope, hOnly, hVersion⟩, hFound⟩
  · rintro ⟨⟨hName, hScope, hOnly, hVersion⟩, hFound⟩
    exact ⟨⟨⟨hVersion, hFound⟩, hName⟩, hScope, hOnly⟩

theorem exists_listing (ns : String) (userOwned : Bool) (subject : Option Principal) :
    ∃ pairs, t.Listing ns userOwned subject pairs ∧ t.listed ns userOwned subject = .ok (shown pairs) := by
  obtain ⟨rows, hScan, hAscending, hMem⟩ := exists_scan hWhole ns
    (if userOwned then SettingKey.userScope else SettingKey.serverScope) subject
  refine ⟨rows.map fun row => (row.1.subject, row.1.key), ⟨?_, ?_⟩, ?_⟩
  · intro p key
    rw [List.mem_map, Option.isSome_iff_exists]
    constructor
    · rintro ⟨row, hRow, hPair⟩
      obtain ⟨⟨hName, hScope, hOnly, hVersion⟩, hFound⟩ := (hMem row).mp hRow
      cases hPair
      have hKey : row.1 = .live ns userOwned row.1.subject row.1.key := by
        rw [SettingKey.live, ← hName, ← hScope, ← hVersion]
      exact ⟨hOnly, row.2, hKey ▸ hFound⟩
    · rintro ⟨hOnly, s, hFound⟩
      exact ⟨(.live ns userOwned p key, s), (hMem _).mpr ⟨⟨rfl, rfl, hOnly, rfl⟩, hFound⟩, rfl⟩
  · rw [List.pairwise_map]
    refine hAscending.imp_of_mem ?_
    intro a b ha hb hLess
    obtain ⟨⟨hName, hScope, -, hVersion⟩, -⟩ := (hMem a).mp ha
    obtain ⟨⟨hName', hScope', -, hVersion'⟩, -⟩ := (hMem b).mp hb
    exact (SettingKey.compare_eq_lt_iff (hName.trans hName'.symm) (hScope.trans hScope'.symm)
      (hVersion.trans hVersion'.symm)).mp hLess
  · rw [listed, hScan, shown, List.map_map]
    exact congrArg Except.ok (List.map_map ..)

end Whole

end Tables

/-! ## Who may list what -/

/-- A user of a namespace that is not put away may list his own settings, as long as he asks for no one else's. -/
def Namespace.MayListOwn (row : Namespace) (caller : Principal) (subject : Option Principal) : Prop :=
  row.isUser caller = true ∧ row.status.Within (0 ≤ ·) ∧ (subject = none ∨ subject = some caller)

namespace Tables

variable {t : Tables} {ns : String} {row : Namespace} {caller : Principal}

theorem exists_listsOwn (h : ∃ n, row.status = .int n) (caller : Principal) (subject : Option Principal) :
    ∃ own, listsOwn row caller subject = .ok own ∧ (own = true ↔ row.MayListOwn caller subject) := by
  obtain ⟨n, hStatus⟩ := h
  have hOpen : row.status.Within (0 ≤ ·) ↔ ¬ n < 0 := by simp [Json.Within, hStatus]
  have hSubject : subject.all (caller = ·) = true ↔ subject = none ∨ subject = some caller := by
    cases subject <;> simp [eq_comm]
  unfold listsOwn Namespace.MayListOwn Namespace.isArchived
  rw [hOpen, ← hSubject, hStatus, Json.less_int]
  cases row.isUser caller with
  | false => exact ⟨false, rfl, by simp⟩
  | true => exact ⟨!decide (n < 0) && subject.all (caller = ·), rfl, by simp⟩

theorem listSettings_eq (hRow : t.namespaces.get? (.text ns) = some row) (caller : Principal)
    (userOwned : Bool) (subject : Option Principal) :
    t.listSettings caller ns userOwned subject =
      if row.hasFullRead caller then t.listed ns userOwned subject
      else listsOwn row caller subject >>= fun own =>
        if own then t.listed ns userOwned (some caller) else .error (.denied .noPermission) := by
  have hLookup : Access.lookup t ns = .ok row := (Access.lookup_eq_ok_iff t ns row).mpr hRow
  unfold listSettings
  simp only [hLookup, bind, Except.bind]
  cases row.hasFullRead caller with
  | true => rfl
  | false =>
    cases listsOwn row caller subject with
    | error why => rfl
    | ok own => cases own <;> rfl

theorem listSettings_of_full (hRow : t.namespaces.get? (.text ns) = some row)
    (hFull : row.hasFullRead caller = true) (userOwned : Bool) (subject : Option Principal) :
    t.listSettings caller ns userOwned subject = t.listed ns userOwned subject := by
  rw [listSettings_eq hRow, if_pos hFull]

section Own

variable {subject : Option Principal} (hRow : t.namespaces.get? (.text ns) = some row)
  (hStatus : ∃ n, row.status = .int n) (hPartial : row.hasFullRead caller = false)

include hRow hStatus hPartial

theorem listSettings_of_own (hMay : row.MayListOwn caller subject) (userOwned : Bool) :
    t.listSettings caller ns userOwned subject = t.listed ns userOwned (some caller) := by
  obtain ⟨own, hOwn, hMeans⟩ := exists_listsOwn hStatus caller subject
  rw [listSettings_eq hRow, hPartial, hOwn, hMeans.mpr hMay]
  rfl

theorem listSettings_refused (hMayNot : ¬ row.MayListOwn caller subject) (userOwned : Bool) :
    t.listSettings caller ns userOwned subject = .error (.denied .noPermission) := by
  obtain ⟨own, hOwn, hMeans⟩ := exists_listsOwn hStatus caller subject
  have hNot : own = false := by
    rw [← Bool.not_eq_true, hMeans]
    exact hMayNot
  rw [listSettings_eq hRow, hPartial, hOwn, hNot]
  rfl

end Own

end Tables

/-! ## Listings of a service -/

namespace Server

open Tables

/-- Who may read everything in a namespace is shown the live settings of a scope, all or those of the subject
he asks for. Anybody else is refused or shown his own, and what others keep there or elsewhere, which the byte
count of the namespace may tell, makes no difference to him. -/
theorem keys_listed_exactly {service : Principal} {asked : Int → Operation → Prop} {s : Server}
    (hAccepted : ∀ now o, asked now o → o.Accepted) (h : Lived service Config.Valid asked s)
    {ns : String} {row : Namespace} (hRow : s.world.tables.namespaces.get? (.text ns) = some row)
    (caller : Principal) (userOwned : Bool) (subject : Option Principal) :
    (row.hasFullRead caller = true →
      ∃ pairs, s.world.tables.Listing ns userOwned subject pairs ∧
        s.world.tables.listSettings caller ns userOwned subject = .ok (shown pairs)) ∧
    (row.hasFullRead caller = false →
      (row.MayListOwn caller subject →
        ∃ pairs, s.world.tables.Listing ns userOwned (some caller) pairs ∧
          s.world.tables.listSettings caller ns userOwned subject = .ok (shown pairs)) ∧
      (¬ row.MayListOwn caller subject →
        s.world.tables.listSettings caller ns userOwned subject = .error (.denied .noPermission)) ∧
      ∀ s' count, Lived service Config.Valid asked s' →
        s'.world.tables.namespaces.get? (.text ns) = some { row with payloadBytes := count } →
        (∀ key, (s.world.tables.getSetting? (.live ns userOwned caller key)).isSome =
          (s'.world.tables.getSetting? (.live ns userOwned caller key)).isSome) →
        s'.world.tables.listSettings caller ns userOwned subject =
          s.world.tables.listSettings caller ns userOwned subject) := by
  have hStatus : ∃ n, row.status = .int n := by
    obtain ⟨n, hStatus, -⟩ := ((h.inRange hAccepted).namespaces _ row hRow).status
    exact ⟨n, hStatus⟩
  constructor
  · intro hFull
    rw [listSettings_of_full hRow hFull]
    exact exists_listing h.whole ns userOwned subject
  · intro hPartial
    refine ⟨?_, fun hMayNot => listSettings_refused hRow hStatus hPartial hMayNot userOwned, ?_⟩
    · intro hMay
      rw [listSettings_of_own hRow hStatus hPartial hMay]
      exact exists_listing h.whole ns userOwned (some caller)
    · intro s' count h' hRow' hSame
      by_cases hMay : row.MayListOwn caller subject
      · rw [listSettings_of_own hRow' hStatus hPartial hMay, listSettings_of_own hRow hStatus hPartial hMay]
        obtain ⟨pairs, hListing, hListed⟩ := exists_listing h.whole ns userOwned (some caller)
        obtain ⟨pairs', hListing', hListed'⟩ := exists_listing h'.whole ns userOwned (some caller)
        have hPairs : pairs = pairs' := by
          refine hListing.unique hListing' ?_
          intro p key hOnly
          rw [hOnly caller rfl]
          exact hSame key
        rw [hListed, hListed', hPairs]
      · rw [listSettings_refused hRow' hStatus hPartial hMay, listSettings_refused hRow hStatus hPartial hMay]

namespace Sample

def guest : Principal := ⟨[3], by decide⟩

def guestPath : SettingPath := ⟨"vault", true, none, [9], 0⟩

/-- A user is let in and keeps a setting of his own. -/
def guestEvents : List Event := [
  .call 3 (.operation 40 (.changeMembers owner "vault" .user .add (.ofList [guest]))),
  .call 4 (.operation 50 (.createSetting guest guestPath newSetting))]

def visited : Server := (configured.run owner guestEvents).1

/-- The manager's setting is gone. -/
def cleared : Server := (visited.run owner [.call 5 (.operation 60 (.deleteSetting owner (path 0)))]).1

theorem visited_lived : Lived owner Config.Valid (fun _ o => o.Accepted) visited := by
  have hPath : SettingPath.ofFields [("ns", .text "vault"), ("user_owned", .flag true), ("key", .bytes [9])] =
      .good guestPath := rfl
  have hSetting : NewSetting.ofFields [("payload", .bytes [1])] = .good newSetting := rfl
  refine configured_lived.run ?_
  intro id task hMem
  simp only [guestEvents, List.mem_cons, List.not_mem_nil, Event.call.injEq, or_false] at hMem
  rcases hMem with ⟨-, rfl⟩ | ⟨-, rfl⟩
  · trivial
  · exact ⟨⟨_, hPath⟩, _, hSetting⟩

theorem cleared_lived : Lived owner Config.Valid (fun _ o => o.Accepted) cleared := by
  have hPath : SettingPath.ofFields [("ns", .text "vault"), ("key", .bytes [7])] = .good (path 0) := rfl
  refine visited_lived.run ?_
  intro id task hMem
  simp only [List.mem_cons, List.not_mem_nil, Event.call.injEq, or_false] at hMem
  obtain ⟨-, rfl⟩ := hMem
  exact ⟨_, hPath⟩

/-- The guest has the same settings in both states. -/
theorem guest_settings (key : Bytes) :
    (visited.world.tables.getSetting? (.live "vault" true guest key)).isSome =
      (cleared.world.tables.getSetting? (.live "vault" true guest key)).isSome := by
  obtain ⟨first, second, hVisited⟩ : ∃ first second, visited.world.tables.settings.rows =
      [(((path 0).toKey owner).stored, first), ((guestPath.toKey guest).stored, second)] := ⟨_, _, rfl⟩
  obtain ⟨only, hCleared⟩ : ∃ only, cleared.world.tables.settings.rows =
      [((guestPath.toKey guest).stored, only)] := ⟨_, rfl⟩
  have hOther : (((path 0).toKey owner).stored ==
      (SettingKey.live "vault" true guest key).current.stored) = false := by
    rw [StoredKey.stored_beq_stored, decide_eq_false_iff_not]
    intro hSame
    have hScope : SettingKey.serverScope = SettingKey.userScope := congrArg (·.scope) hSame
    exact absurd hScope (by decide)
  rw [getSetting?, getSetting?, Table.get?, Table.get?, hVisited, hCleared, Table.lookup, hOther]
  simp only [Table.lookup, Bool.false_eq_true, if_false]
  split <;> rfl

theorem guest_shown_own :
    (∀ now o, (fun _ o => Operation.Accepted o) (now : Int) o → o.Accepted) ∧
    Lived owner Config.Valid (fun _ o => o.Accepted) visited ∧
    Lived owner Config.Valid (fun _ o => o.Accepted) cleared ∧
    ∃ row count, visited.world.tables.namespaces.get? (.text "vault") = some row ∧
      cleared.world.tables.namespaces.get? (.text "vault") = some { row with payloadBytes := count } ∧
      row.hasFullRead owner = true ∧ row.hasFullRead guest = false ∧ row.MayListOwn guest none ∧
      ¬ row.MayListOwn guest (some owner) ∧
      (∃ pairs, (owner, [7]) ∈ pairs ∧
        visited.world.tables.listSettings owner "vault" false none = .ok (shown pairs)) ∧
      (∃ pairs, (guest, [9]) ∈ pairs ∧
        visited.world.tables.listSettings guest "vault" true none = .ok (shown pairs)) ∧
      visited.world.tables.listSettings guest "vault" true (some owner) = .error (.denied .noPermission) ∧
      cleared.world.tables.listSettings guest "vault" true none =
        visited.world.tables.listSettings guest "vault" true none := by
  let row : Namespace := { newNamespace.row 10 with
    payloadBytes := .int 3, updatedAt := .int 40, users := .ofList [guest] }
  have hAccepted : ∀ now o, (fun _ o => Operation.Accepted o) (now : Int) o → o.Accepted :=
    fun _ _ h => h
  have hRow : visited.world.tables.namespaces.get? (.text "vault") = some row := rfl
  have hCleared : cleared.world.tables.namespaces.get? (.text "vault") =
    some { row with payloadBytes := .int 2 } := rfl
  have hFull : row.hasFullRead owner = true := rfl
  have hPartial : row.hasFullRead guest = false := rfl
  have hMay : row.MayListOwn guest none := ⟨rfl, ⟨0, rfl, le_rfl⟩, .inl rfl⟩
  have hMayNot : ¬ row.MayListOwn guest (some owner) := by
    rintro ⟨-, -, hSubject | hSubject⟩
    · cases hSubject
    · exact absurd (Option.some.inj hSubject) (by decide)
  have hListed := keys_listed_exactly hAccepted visited_lived hRow
  obtain ⟨pairs, hListing, hPairs⟩ := (hListed owner false none).1 hFull
  obtain ⟨hOwn, -, hPrivate⟩ := (hListed guest true none).2 hPartial
  obtain ⟨pairs', hListing', hPairs'⟩ := hOwn hMay
  refine ⟨hAccepted, visited_lived, cleared_lived, row, .int 2, hRow, hCleared, hFull, hPartial, hMay, hMayNot,
    ⟨pairs, (hListing.exact _ _).mpr ⟨nofun, rfl⟩, hPairs⟩,
    ⟨pairs', (hListing'.exact _ _).mpr ⟨fun only h => Option.some.inj h, rfl⟩, hPairs'⟩,
    ((hListed guest true (some owner)).2 hPartial).2.1 hMayNot,
    hPrivate cleared (.int 2) cleared_lived hCleared guest_settings⟩

end Sample

end Server

end TenantVault
