import Mathlib.Algebra.GroupWithZero.Nat
import Mathlib.Algebra.Order.BigOperators.Group.List
import Mathlib.Algebra.Order.Group.Nat
import TenantVault.Proofs.Payloads

/-! # What a namespace has counted

The byte count of a namespace never falls below what its live settings hold. It also pays for every
version that has been superseded: a version after the first has a payload, which is not empty, and
nothing is given back for it until its setting is deleted. So the count bounds the versions too.
-/

namespace TenantVault

/-! ## Sums over the rows of a table -/

namespace Table

variable {κ α : Type} [BEq κ]

/-- The sum of what the rows weigh. -/
def sumBy (f : κ → α → Nat) (t : Table κ α) : Nat := (t.rows.map fun row => f row.1 row.2).sum

/-- What the row under a key weighs, if there is one. -/
def weightAt (f : κ → α → Nat) (t : Table κ α) (k : κ) : Nat := ((t.get? k).map (f k)).getD 0

theorem sumBy_of_perm {t t' : Table κ α} (f : κ → α → Nat) (h : t'.rows.Perm t.rows) :
    t'.sumBy f = t.sumBy f :=
  (h.map _).sum_eq

theorem sumBy_eq_zero {t : Table κ α} {f : κ → α → Nat} (h : ∀ row ∈ t.rows, f row.1 row.2 = 0) :
    t.sumBy f = 0 := by
  refine List.sum_eq_zero ?_
  intro weight hMem
  obtain ⟨row, hRow, rfl⟩ := List.mem_map.mp hMem
  exact h row hRow

theorem le_sumBy {t : Table κ α} (f : κ → α → Nat) {row : κ × α} (h : row ∈ t.rows) :
    f row.1 row.2 ≤ t.sumBy f :=
  List.le_sum_of_mem (List.mem_map_of_mem h)

section Weights

variable {f : κ → α → Nat} {k : κ}

theorem weightAt_of_get? {t : Table κ α} {a : α} (h : t.get? k = some a) : t.weightAt f k = f k a := by
  unfold weightAt
  rw [h]
  rfl

theorem weightAt_of_fresh {t : Table κ α} (h : t.get? k = none) : t.weightAt f k = 0 := by
  unfold weightAt
  rw [h]
  rfl

/-- A row that is put adds its weight in place of that of the row before it. -/
theorem sumBy_put (t : Table κ α) (same : ∀ k', (k' == k) = true → f k' = f k) (a : α) :
    (t.put k a).sumBy f + t.weightAt f k = t.sumBy f + f k a := by
  unfold sumBy weightAt put get?
  dsimp only
  induction t.rows with
  | nil => simp [putRow, lookup]
  | cons row rest ih =>
    unfold putRow lookup
    split
    · next hKey =>
      simp only [List.map_cons, List.sum_cons, same row.1 hKey, Option.map_some, Option.getD_some]
      omega
    · simp only [List.map_cons, List.sum_cons]
      omega

theorem filter_ne_eq_self [EquivBEq κ] {rows : List (κ × α)} (h : ∀ row ∈ rows, (row.1 == k) = false) :
    rows.filter (fun row => row.1 != k) = rows := by
  rw [List.filter_eq_self]
  intro row hRow
  simp only [bne, h row hRow, Bool.not_false]

/-- A row that is erased takes its weight with it. -/
theorem sumBy_erase [EquivBEq κ] (t : Table κ α) (same : ∀ k', (k' == k) = true → f k' = f k) :
    (t.erase k).sumBy f + t.weightAt f k = t.sumBy f := by
  have hDistinct := t.distinct
  unfold sumBy weightAt erase filterKeys filterRows get?
  dsimp only
  generalize t.rows = rows at hDistinct ⊢
  induction rows with
  | nil => rfl
  | cons row rest ih =>
    obtain ⟨hFirst, hRest⟩ := List.pairwise_cons.mp hDistinct
    unfold lookup
    split
    · next hKey =>
      have hOthers : ∀ other ∈ rest, (other.1 == k) = false := by
        intro other hOther
        rw [← BEq.congr_right hKey, BEq.comm]
        exact hFirst other.1 (List.mem_map_of_mem hOther)
      rw [List.filter_cons_of_neg (by simp [bne, hKey]), filter_ne_eq_self hOthers]
      simp only [List.map_cons, List.sum_cons, same row.1 hKey, Option.map_some, Option.getD_some]
      omega
    · next hKey =>
      rw [List.filter_cons_of_pos (by simp [bne, hKey])]
      simp only [List.map_cons, List.sum_cons]
      have hTail := ih hRest
      omega

end Weights

end Table

/-! ## Sums over the settings of a namespace -/

/-- What a row of the live settings weighs for a namespace. -/
def weightIn (f : Setting → Nat) (name : String) (k : StoredKey) (s : Setting) : Nat :=
  if k.ns == .text name then f s else 0

section

variable (f : Setting → Nat)

theorem weightIn_stored (name : String) (key : SettingKey) (s : Setting) :
    weightIn f name key.current.stored s = if key.ns = name then f s else 0 := by
  unfold weightIn SettingKey.stored SettingKey.current SettingKey.withVersion
  simp only [Scalar.text_beq_text, decide_eq_true_eq]

theorem weightIn_congr (name : String) (k k' : StoredKey) (h : (k' == k) = true) :
    weightIn f name k' = weightIn f name k := by
  have hNs : (k'.ns == k.ns) = true := by
    rw [StoredKey.beq_iff, StoredKey.content, StoredKey.content] at h
    simp only [Prod.mk.injEq] at h
    exact decide_eq_true h.1
  funext s
  unfold weightIn
  rw [BEq.congr_left hNs]

end

namespace Tables

variable {t t' : Tables} {key : SettingKey} {s : Setting} (f : Setting → Nat)

/-- What the live settings of a namespace weigh together. -/
def total (t : Tables) (f : Setting → Nat) (name : String) : Nat :=
  t.settings.sumBy (weightIn f name)

theorem total_congr (h : t'.settings = t.settings) (name : String) :
    t'.total f name = t.total f name := by
  unfold total
  rw [h]

theorem total_putSetting_fresh (h : t.getSetting? key = none) (s : Setting) (name : String) :
    (t.putSetting key s).total f name =
      t.total f name + if key.ns = name then f s else 0 := by
  have hPut := t.settings.sumBy_put (weightIn_congr f name key.current.stored) s
  rw [Table.weightAt_of_fresh h, weightIn_stored] at hPut
  exact hPut

theorem total_putSetting (h : t.getSetting? key = some s) (s' : Setting) (name : String) :
    (t.putSetting key s').total f name + (if key.ns = name then f s else 0) =
      t.total f name + if key.ns = name then f s' else 0 := by
  have hPut := t.settings.sumBy_put (weightIn_congr f name key.current.stored) s'
  rw [Table.weightAt_of_get? h, weightIn_stored, weightIn_stored] at hPut
  exact hPut

theorem total_removeSetting (h : t.getSetting? key = some s) (name : String) :
    (t.removeSetting key).total f name + (if key.ns = name then f s else 0) =
      t.total f name := by
  have hErase := t.settings.sumBy_erase (weightIn_congr f name key.current.stored)
  rw [Table.weightAt_of_get? h, weightIn_stored] at hErase
  exact hErase

theorem le_total (h : t.getSetting? key = some s) : f s ≤ t.total f key.ns := by
  obtain ⟨k, hRow, hKey⟩ := Table.exists_of_get? h
  have hLe := Table.le_sumBy (weightIn f key.ns) hRow
  rw [weightIn_congr f key.ns key.current.stored k hKey, weightIn_stored, if_pos rfl] at hLe
  exact hLe

theorem total_eq_zero {name : String}
    (h : ∀ row ∈ t.settings.rows, (row.1.ns == .text name) = false) : t.total f name = 0 := by
  refine Table.sumBy_eq_zero ?_
  intro row hRow
  unfold weightIn
  rw [h row hRow, if_neg Bool.false_ne_true]

theorem Whole.total_of_absent {name : String} (hWhole : t.Whole)
    (hAbsent : t.namespaces.get? (.text name) = none) : t.total f name = 0 :=
  total_eq_zero f (hWhole.namespaceGone hAbsent).live

end Tables

/-! ## Counts -/

theorem Commit.settings_of_elsewhere {now : Int} {t t' : Tables} {o : Operation} {r : Result Answer}
    (h : Commit now t o t' r) (hElsewhere : o.settingKey? = none) : t'.settings = t.settings := by
  cases h with
  | createSetting | updatePayload | updateSetting | changeReaders | deleteSetting => cases hElsewhere
  | _ => rfl

namespace Tables

variable {t t' : Tables} {P P' : String → Int → Prop}

/-- Every namespace has a count of which something is true. -/
def Counts (t : Tables) (P : String → Int → Prop) : Prop :=
  ∀ name ns n, t.namespaces.get? (.text name) = some ns → ns.payloadBytes = .int n → P name n

theorem Counts.mono (h : t.Counts P) (hNamespaces : t'.namespaces = t.namespaces)
    (hMono : ∀ name n, P name n → P' name n) : t'.Counts P' := by
  intro name ns n hFound hBytes
  rw [hNamespaces] at hFound
  exact hMono name n (h name ns n hFound hBytes)

/-- The settings of one namespace have changed, and the namespace has been given a new count. -/
theorem Counts.settle {α : Type} {base : Tables} {name : String} {m : Int} (h : t.Counts P)
    (hBase : base.namespaces = t.namespaces) (hHere : P' name m)
    (hOther : ∀ other n, name ≠ other → P other n → P' other n) (row : Namespace) (a : α) :
    (base.settle name row (.ok (.int m)) a).1.Counts P' := by
  intro other ns n hFound hBytes
  rw [settle_ok, get?_putNamespace, Scalar.text_beq_text, hBase] at hFound
  by_cases hName : name = other
  · subst hName
    rw [if_pos (decide_eq_true rfl)] at hFound
    cases hFound
    cases hBytes
    exact hHere
  · rw [if_neg (by simpa using hName)] at hFound
    exact hOther other n hName (h other ns n hFound hBytes)

/-- An operation that is not about settings starts the counts of new namespaces with nothing. -/
theorem Counts.elsewhere {now : Int} {o : Operation} {r : Result Answer} (h : t.Counts P)
    (hCommit : Commit now t o t' r) (hElsewhere : o.settingKey? = none)
    (hKept : ∀ name n, (t.namespaces.get? (.text name)).isSome = true → P name n → P' name n)
    (hNew : ∀ caller input, o = .createNamespace caller input →
      t.namespaces.get? (.text input.name) = none → P' input.name 0) : t'.Counts P' := by
  intro name ns n hFound hBytes
  have hStays {before : Namespace} (hBefore : t.namespaces.get? (.text name) = some before)
      (hSame : before.payloadBytes = .int n) : P' name n :=
    hKept name n (Option.isSome_of_mem hBefore) (h name before n hBefore hSame)
  rcases hCommit.namespace_cases hFound with hBefore | hWrite
  · exact hStays hBefore hBytes
  · cases hWrite with
    | created at_ fresh =>
      rw [Scalar.text_beq_text, decide_eq_true_iff] at at_
      subst at_
      cases hBytes
      exact hNew _ _ rfl fresh
    | @regrouped _ _ kind _ _ _ _ found => cases kind <;> exact hStays found hBytes
    | changed found | toppedUp _ found | joined found | left found => exact hStays found hBytes
    | counted writes =>
      rw [hElsewhere] at writes
      cases writes

end Tables

/-! ## What a namespace holds -/

/-- The octets of a live setting, and one for each version between its first and its current one. -/
def Setting.footprint (s : Setting) : Nat :=
  match s.version with
  | .int n => s.size + (n - 2).toNat
  | _ => s.size

theorem Setting.footprint_int {s : Setting} {n : Int} (h : s.version = .int n) :
    s.footprint = s.size + (n - 2).toNat := by
  unfold footprint
  rw [h]

theorem Setting.size_le_footprint (s : Setting) : s.size ≤ s.footprint := by
  unfold footprint
  split <;> omega

namespace Tables

/-- Every namespace has counted at least what it holds. -/
def Accounted (t : Tables) : Prop :=
  ∀ name ns n, t.namespaces.get? (.text name) = some ns → ns.payloadBytes = .int n →
    t.total Setting.footprint name ≤ n

theorem Accounted.putSetting {t : Tables} {key : SettingKey} {s s' : Setting} (h : t.Accounted)
    (hFound : t.getSetting? key = some s) (hSame : s'.footprint = s.footprint) :
    (t.putSetting key s').Accounted := by
  refine Counts.mono h (by rfl) ?_
  intro name n hHeld
  have hPut := total_putSetting Setting.footprint hFound s' name
  rw [hSame] at hPut
  omega

end Tables

/-! ## Writes -/

theorem SettingPath.ns_toKey (path : SettingPath) (caller : Principal) :
    (path.toKey caller).ns = path.ns := rfl

section Writes

variable {now : Int} {t t' : Tables} {o : Operation} {r : Result Answer} {s : Setting}

/-- The version that an update supersedes is paid for by its payload. -/
theorem PayloadChange.footprint_row {v : Int} (hVersion : s.version = .int v) (hFirst : 1 ≤ v)
    (hPaid : 2 ≤ v → 1 ≤ (s.payload.getD []).length) (input : PayloadChange) (now : Int) :
    (input.row s (.int (v + 1)) now).footprint ≤ s.footprint + input.written := by
  rw [Setting.footprint_int hVersion, Setting.footprint_int (n := v + 1) rfl]
  have hKey : ((input.dataKey.or s.dataKey).getD []).length ≤
      (input.dataKey.getD []).length + (s.dataKey.getD []).length := by
    cases input.dataKey with
    | none => exact Nat.le_add_left _ _
    | some d => exact Nat.le_add_right _ _
  unfold Setting.size row written
  simp only [Option.getD_some]
  omega

theorem Tables.Whole.paid (hWhole : t.Whole) (hFormed : t.Formed) {key : SettingKey}
    (hFound : t.getSetting? key = some s) :
    ∃ v, s.version = .int v ∧ 1 ≤ v ∧ (2 ≤ v → 1 ≤ (s.payload.getD []).length) := by
  obtain ⟨past, hKept⟩ := hWhole.history key
  cases hKept with
  | absent live =>
    rw [live] at hFound
    cases hFound
  | @present h _ live row filled =>
    rw [live] at hFound
    cases hFound
    refine ⟨h.number, row.version, by unfold History.number; omega, fun hSecond => ?_⟩
    cases hPayload : s.payload with
    | none =>
      rw [row.payload] at hPayload
      have hAlone := filled.current hPayload
      unfold History.number at hSecond
      rw [hAlone] at hSecond
      cases hSecond
    | some payload =>
      exact List.length_pos_iff.mpr ((hFormed.live _ s live).ne_nil hPayload)

theorem Commit.accounted (h : Commit now t o t' r) (hWhole : t.Whole) (hFormed : t.Formed)
    (hAccounted : t.Accounted) : t'.Accounted := by
  have hElsewhere (hNone : o.settingKey? = none) : t'.Accounted := by
    have hHeld := Tables.total_congr Setting.footprint (h.settings_of_elsewhere hNone)
    refine Tables.Counts.elsewhere hAccounted h hNone ?_ ?_
    · intro name n _ hBefore
      rw [hHeld]
      exact hBefore
    · intro caller input _ hAbsent
      rw [hHeld, hWhole.total_of_absent _ hAbsent]
      rfl
  have hCount {caller : Principal} {path : SettingPath} {ns : Namespace}
      (writes : Writes t caller (path.toKey caller) ns) :
      ∃ m, ns.payloadBytes = .int m ∧ (t.total Setting.footprint path.ns : Int) ≤ m := by
    obtain ⟨m, hBytes⟩ := (hWhole.native.namespace_of_writes writes).payloadBytes
    exact ⟨m, hBytes, hAccounted path.ns ns m writes.found hBytes⟩
  have hSettle {base : Tables} {name : String} {m : Int}
      (hBase : base.namespaces = t.namespaces) (hHere : (base.total Setting.footprint name : Int) ≤ m)
      (hOther : ∀ other, name ≠ other →
        base.total Setting.footprint other ≤ t.total Setting.footprint other)
      {α : Type} (row : Namespace) (a : α) : (base.settle name row (.ok (.int m)) a).1.Accounted := by
    refine Tables.Counts.settle hAccounted hBase ?_ ?_ row a
    · rw [Tables.total_congr _ (Tables.settings_settle ..)]
      exact hHere
    · intro other n hName hBefore
      have hLess := hOther other hName
      rw [Tables.total_congr _ (Tables.settings_settle ..)]
      omega
  cases h with
  | @createSetting caller path input ns admits writes live fresh =>
    obtain ⟨m, hBytes, hHeld⟩ := hCount writes
    have hPut := Tables.total_putSetting_fresh Setting.footprint fresh (input.row now)
    have hFirst : (input.row now).footprint = (input.row now).size := rfl
    rw [hBytes, Json.plus_int]
    refine hSettle (by rfl) ?_ ?_ ns _
    · rw [hPut, if_pos (path.ns_toKey caller), hFirst]
      omega
    · intro name (hName : (path.toKey caller).ns ≠ name)
      rw [hPut, if_neg hName]
      exact le_rfl
  | @updatePayload caller path input ns s version admits writes found _ _ next =>
    obtain ⟨m, hBytes, hHeld⟩ := hCount writes
    obtain ⟨v, hVersion, hFirst, hPaid⟩ := hWhole.paid hFormed found
    rw [hVersion, Json.plus_int] at next
    cases next
    have hMore := PayloadChange.footprint_row hVersion hFirst hPaid input now
    have hSettings := t.settings_archivePayload (path.toKey caller) s input.deprecateCurrent now
    have hPut := Tables.total_putSetting Setting.footprint
      ((getSetting?_congr hSettings _).trans found) (input.row s (.int (v + 1)) now)
    simp only [Tables.total_congr _ hSettings] at hPut
    rw [hBytes, Json.plus_int]
    refine hSettle (by exact t.namespaces_archivePayload ..) ?_ ?_ ns _
    · have hHere := hPut path.ns
      rw [if_pos (path.ns_toKey caller), if_pos (path.ns_toKey caller)] at hHere
      omega
    · intro name (hName : (path.toKey caller).ns ≠ name)
      have hThere := hPut name
      rw [if_neg hName, if_neg hName] at hThere
      omega
  | updateSetting admits writes found => exact hAccounted.putSetting found rfl
  | changeReaders admits proper writes found => exact hAccounted.putSetting found rfl
  | @deleteSetting caller path ns s admits writes found =>
    obtain ⟨m, hBytes, hHeld⟩ := hCount writes
    have hRemoved := Tables.total_removeSetting Setting.footprint found
    have hSize := s.size_le_footprint
    have hLeft : ((Json.int m).plus (-s.size)).map Json.atLeastZero =
        .ok (.int (max 0 (m + -s.size))) := congrArg Except.ok (Json.atLeastZero_int _)
    rw [hBytes, hLeft]
    refine hSettle (by rfl) ?_ ?_ ns _
    · have hHere := hRemoved path.ns
      rw [if_pos (path.ns_toKey caller)] at hHere
      omega
    · intro name (hName : (path.toKey caller).ns ≠ name)
      have hThere := hRemoved name
      rw [if_neg hName] at hThere
      omega
  | _ => exact hElsewhere rfl

theorem Snapshot.SameContents.total (h : SameContents t t') (f : Setting → Nat) (name : String) :
    t'.total f name = t.total f name :=
  Table.sumBy_of_perm _ h.settings

theorem Snapshot.SameContents.accounted (h : SameContents t t') (hAccounted : t.Accounted) :
    t'.Accounted := by
  refine Tables.Counts.mono hAccounted h.namespaces ?_
  intro name n hHeld
  rw [h.total]
  exact hHeld

end Writes

/-! ## States of a service -/

theorem Server.Lived.accounted {service : Principal} {begun : Config → Prop}
    {asked : Int → Operation → Prop} {s : Server} (hAccepted : ∀ now o, asked now o → o.Accepted)
    (h : Lived service begun asked s) : s.world.tables.Accounted := by
  refine (h.holds (I := fun t => t.Formed ∧ t.Accounted) ?_ ?_ ?_).2
  · intro c _
    refine ⟨World.formed_ofConfig c, ?_⟩
    intro name ns n hFound
    cases hFound
  · rintro now o t t' r hAsked hWhole commit ⟨hFormed, hAccounted⟩
    exact ⟨commit.formed (hAccepted now o hAsked) hWhole hFormed,
      commit.accounted hWhole hFormed hAccounted⟩
  · rintro t t' hSame ⟨hFormed, hAccounted⟩
    exact ⟨hSame.formed hFormed, hSame.accounted hAccounted⟩

/-- A setting has been given at most as many versions as its namespace has counted octets, and two. -/
theorem Tables.Accounted.version_le {t : Tables} (hAccounted : t.Accounted)
    {key : SettingKey} {s : Setting} {v : Int} (hFound : t.getSetting? key = some s)
    (hVersion : s.version = .int v) {ns : Namespace} {n : Int}
    (hHoused : t.namespaces.get? (.text key.ns) = some ns) (hBytes : ns.payloadBytes = .int n) :
    v ≤ n + 2 := by
  have hHeld := hAccounted key.ns ns n hHoused hBytes
  have hWeight : s.footprint ≤ t.total Setting.footprint key.ns := Tables.le_total _ hFound
  rw [Setting.footprint_int hVersion] at hWeight
  omega

end TenantVault
