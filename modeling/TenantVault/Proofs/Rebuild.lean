import Mathlib.Data.Set.List
import TenantVault.Store.Tables

/-! # Collections rebuilt from their listings

A table that is filled with rows of different keys holds these rows, a set that is filled with its members
in order is that set, and a list that is in order already is sorted into itself.
-/

namespace TenantVault

namespace Table

variable {κ α : Type} [BEq κ]

theorem putRow_new {k : κ} {a : α} {rows : List (κ × α)} (h : ∀ row ∈ rows, (row.1 == k) = false) :
    putRow k a rows = rows ++ [(k, a)] := by
  induction rows with
  | nil => rfl
  | cons row rest ih =>
    have hRow := h row List.mem_cons_self
    rw [putRow, if_neg (by simp [hRow]), ih fun other hOther => h other (List.mem_cons_of_mem row hOther)]
    rfl

theorem foldl_putRow {before rows : List (κ × α)}
    (distinct : ((before ++ rows).map Prod.fst).Pairwise fun a b => (a == b) = false) :
    rows.foldl (fun rows row => putRow row.1 row.2 rows) before = before ++ rows := by
  induction rows generalizing before with
  | nil => rw [List.foldl_nil, List.append_nil]
  | cons row rest ih =>
    -- The row moves from what is to come to what is there; its key is in neither of them again.
    have hAppend : before ++ row :: rest = (before ++ [row]) ++ rest := by
      rw [List.append_assoc, List.singleton_append]
    have hNew : ∀ other ∈ before, (other.1 == row.1) = false := by
      intro other hOther
      rw [List.map_append] at distinct
      exact (List.pairwise_append.mp distinct).2.2 other.1 (List.mem_map_of_mem hOther) row.1
        List.mem_cons_self
    rw [List.foldl_cons, putRow_new hNew, hAppend]
    apply ih
    rwa [← hAppend]

theorem rows_ofRows {rows : List (κ × α)}
    (distinct : (rows.map Prod.fst).Pairwise fun a b => (a == b) = false) : (ofRows rows).rows = rows := by
  have hRows : ∀ t : Table κ α, (rows.foldl (fun t row => t.put row.1 row.2) t).rows =
      rows.foldl (fun rows row => putRow row.1 row.2 rows) t.rows := by
    clear distinct
    induction rows with
    | nil => exact fun t => rfl
    | cons row rest ih => exact fun t => ih (t.put row.1 row.2)
  exact (hRows empty).trans (foldl_putRow distinct)

theorem ofRows_rows (t : Table κ α) : ofRows t.rows = t := ext (rows_ofRows t.distinct)

theorem distinct_of_perm [EquivBEq κ] {rows rows' : List (κ × α)} (h : rows'.Perm rows)
    (distinct : (rows.map Prod.fst).Pairwise fun a b => (a == b) = false) :
    (rows'.map Prod.fst).Pairwise fun a b => (a == b) = false := by
  refine ((h.map Prod.fst).pairwise_iff ?_).mpr distinct
  intro a b hab
  rwa [BEq.comm]

/-- A set filled with its members in another order. -/
theorem ofRows_members [EquivBEq κ] {t : Table κ Unit} {members : List κ} (h : members.Perm t.keys) :
    (ofRows (members.map fun k => (k, ()))).keys = members ∧
      (ofRows (members.map fun k => (k, ()))).rows.Perm t.rows := by
  have hPerm : (members.map fun k => (k, ())).Perm t.rows := by
    have hKeys : t.keys.map (fun k => (k, ())) = t.rows := by
      rw [keys, List.map_map]
      exact List.map_id _
    rw [← hKeys]
    exact h.map _
  have hRows := rows_ofRows (distinct_of_perm hPerm t.distinct)
  rw [keys, hRows, List.map_map]
  exact ⟨List.map_id _, hPerm⟩

end Table

namespace SortedSet

variable {α : Type} [LT α] [DecidableEq α] [DecidableLT α] [LE α] [Std.IsLinearOrder α] [Std.LawfulOrderLT α]

theorem ofList_toList (s : SortedSet α) : ofList s.toList = s := by
  have hList : ∀ {xs : List α}, xs.Pairwise (· < ·) → (ofList xs).toList = xs := by
    intro xs hxs
    induction xs with
    | nil => rfl
    | cons x xs ih =>
      obtain ⟨hFirst, hRest⟩ := List.pairwise_cons.mp hxs
      have hInsert : (ofList (x :: xs)).toList = insertList x (ofList xs).toList := rfl
      rw [hInsert, ih hRest]
      cases xs with
      | nil => rfl
      | cons y ys => exact if_pos (hFirst y List.mem_cons_self)
  have hToList := hList s.ascending
  cases hSet : ofList s.toList
  cases s
  rw [hSet] at hToList
  cases hToList
  rfl

end SortedSet

/-! ## Sorted lists -/

section Sorting

variable {α β : Type}

theorem sort?_map (f : α → β) {compare : β → β → Ordering} {comparable : β → β → Bool} (items : List α) :
    sort? compare comparable (items.map f) =
      (sort? (fun a b => compare (f a) (f b)) (fun a b => comparable (f a) (f b)) items).map
        (List.map f) := by
  have hLinked : ∀ items : List α, linked comparable (items.map f) =
      linked (fun a b => comparable (f a) (f b)) items := by
    intro items
    induction items with
    | nil => rfl
    | cons a rest ih =>
      cases rest with
      | nil => rfl
      | cons b rest =>
        simp only [List.map_cons, linked] at ih ⊢
        rw [ih]
  have hSorted : (items.map f).mergeSort (fun a b => compare a b != .gt) =
      (items.mergeSort fun a b => compare (f a) (f b) != .gt).map f := by
    refine (List.map_mergeSort ?_).symm
    intro a _ b _
    rfl
  unfold sort?
  dsimp only
  rw [hSorted, hLinked]
  split <;> rfl

section Total

variable {compare : α → α → Ordering} {comparable : α → α → Bool}

theorem linked_of_forall (h : ∀ a b, comparable a b = true) (items : List α) :
    linked comparable items = true := by
  induction items with
  | nil => rfl
  | cons a rest ih =>
    cases rest with
    | nil => rfl
    | cons b rest => rw [linked, h, ih]; rfl

theorem sort?_eq_mergeSort (h : ∀ a b, comparable a b = true) (items : List α) :
    sort? compare comparable items = some (items.mergeSort fun a b => compare a b != .gt) :=
  if_pos (linked_of_forall h _)

theorem pairwise_mergeSort_of_trans (hOrder : Std.TransCmp compare) (items : List α) :
    (items.mergeSort fun a b => compare a b != .gt).Pairwise fun a b => (compare a b != .gt) = true := by
  have hLE : ∀ o : Ordering, (o != .gt) = o.isLE := by decide
  apply List.pairwise_mergeSort
  · intro a b c hab hbc
    rw [hLE] at *
    exact hOrder.isLE_trans hab hbc
  · intro a b
    have hSwap : compare b a = (compare a b).swap := hOrder.eq_swap
    rw [hSwap]
    cases compare a b <;> rfl

/-- Items that can all be compared are sorted, and once they are sorted they stay as they are. -/
theorem exists_sort?_of_total (hOrder : Std.TransCmp compare) (h : ∀ a b, comparable a b = true)
    (items : List α) :
    ∃ sorted, sort? compare comparable items = some sorted ∧ sorted.Perm items ∧
      sort? compare comparable sorted = some sorted := by
  refine ⟨_, sort?_eq_mergeSort h items, List.mergeSort_perm _ _, ?_⟩
  rw [sort?_eq_mergeSort h, List.mergeSort_of_pairwise (pairwise_mergeSort_of_trans hOrder items)]

/-- Items of which no two are the same to the order are sorted strictly. -/
theorem exists_sort?_ascending (hOrder : Std.TransCmp compare) (h : ∀ a b, comparable a b = true)
    {items : List α} (hDistinct : items.Pairwise fun a b => compare a b ≠ .eq) :
    ∃ sorted, sort? compare comparable items = some sorted ∧ sorted.Perm items ∧
      sorted.Pairwise fun a b => compare a b = .lt := by
  have hPerm := List.mergeSort_perm items fun a b => compare a b != .gt
  have hApart : (items.mergeSort fun a b => compare a b != .gt).Pairwise fun a b => compare a b ≠ .eq := by
    refine (hPerm.pairwise_iff ?_).mpr hDistinct
    intro a b hab hba
    exact hab (Std.OrientedCmp.eq_symm hba)
  refine ⟨_, sort?_eq_mergeSort h items, hPerm, ?_⟩
  refine (pairwise_mergeSort_of_trans hOrder items).imp₂ ?_ hApart
  intro a b hLE hNe
  cases hCompare : compare a b with
  | lt => rfl
  | eq => exact absurd hCompare hNe
  | gt =>
    rw [hCompare] at hLE
    cases hLE

end Total

theorem exists_map_eq {f : α → β} {items : List β} (h : ∀ b ∈ items, ∃ a, f a = b) :
    ∃ origins : List α, origins.map f = items :=
  (Set.range_list_map f).ge h

/-- Items of one form are sorted if those of this form can all be compared. -/
theorem exists_sort? (f : α → β) {compare : β → β → Ordering} {comparable : β → β → Bool}
    (hOrder : Std.TransCmp fun a b => compare (f a) (f b)) (hAll : ∀ a b, comparable (f a) (f b) = true)
    {items : List β} (h : ∀ b ∈ items, ∃ a, f a = b) :
    ∃ sorted, sort? compare comparable items = some sorted ∧ sorted.Perm items ∧
      sort? compare comparable sorted = some sorted := by
  obtain ⟨origins, rfl⟩ := exists_map_eq h
  obtain ⟨sorted, hSorted, hPerm, hAgain⟩ := exists_sort?_of_total hOrder hAll origins
  refine ⟨sorted.map f, ?_, hPerm.map f, ?_⟩
  · rw [sort?_map, hSorted, Option.map_some]
  · rw [sort?_map, hAgain, Option.map_some]

theorem transCmp_comap {order : β → β → Ordering} (h : Std.TransCmp order) (f : α → β) :
    Std.TransCmp fun a b => order (f a) (f b) where
  eq_swap := h.eq_swap
  isLE_trans := h.isLE_trans

theorem transCmp_ofLess {α : Type} [LT α] [DecidableLT α] [DecidableEq α] [LE α] [Std.IsLinearOrder α]
    [Std.LawfulOrderLT α] : Std.TransCmp fun a b : α => compareOfLessAndEq a b := by
  apply Std.TransOrd.compareOfLessAndEq_of_lt_trans_of_lt_iff
  · exact Std.lt_trans
  · intro a b
    rw [Std.not_lt]
    constructor
    · intro h
      exact ⟨Std.le_of_lt h, Std.ne_of_lt h⟩
    · intro h
      exact Std.lt_of_le_of_ne h.1 h.2

end Sorting

/-! ## Rows of settings -/

namespace SettingKey

/-- The order of the keys that callers give. -/
def compare (a b : SettingKey) : Ordering := a.stored.compare b.stored

instance : Std.TransCmp compare := by
  have hText : Std.TransOrd String := inferInstance
  have hInt : Std.TransOrd Int := inferInstance
  have hName := transCmp_comap hText SettingKey.ns
  have hScope := transCmp_comap hInt SettingKey.scope
  have hSubject := transCmp_comap transCmp_ofLess SettingKey.subject
  have hKey := transCmp_comap transCmp_ofLess SettingKey.key
  have hVersion := transCmp_comap hInt SettingKey.version
  have hLex : compare = compareLex (fun a b => Ord.compare a.ns b.ns) (compareLex
      (fun a b => Ord.compare a.scope b.scope) (compareLex (fun a b => compareOfLessAndEq a.subject b.subject)
      (compareLex (fun a b => compareOfLessAndEq a.key b.key)
      (fun a b => Ord.compare a.version b.version)))) := rfl
  rw [hLex]
  infer_instance

theorem isComparable_stored (a b : SettingKey) : a.stored.isComparable b.stored = true := by
  unfold StoredKey.isComparable
  repeat' split
  all_goals rfl

end SettingKey

/-- Rows under keys that callers can give are sorted. -/
theorem StoredKey.exists_sort? {α : Type} {rows : List (StoredKey × α)}
    (h : ∀ row ∈ rows, ∃ k : SettingKey, row.1 = k.stored) :
    ∃ sorted, StoredKey.sort? rows = some sorted ∧ sorted.Perm rows ∧ StoredKey.sort? sorted = some sorted := by
  have hKeys : Std.TransCmp SettingKey.compare := inferInstance
  have hOrder : Std.TransCmp fun a b : SettingKey × α => a.1.compare b.1 := transCmp_comap hKeys Prod.fst
  have hOrigin : ∀ row ∈ rows, ∃ origin : SettingKey × α, (origin.1.stored, origin.2) = row := by
    intro row hRow
    obtain ⟨k, hKey⟩ := h row hRow
    exact ⟨(k, row.2), Prod.ext hKey.symm rfl⟩
  exact TenantVault.exists_sort? (fun origin : SettingKey × α => (origin.1.stored, origin.2)) hOrder
    (fun a b => SettingKey.isComparable_stored a.1 b.1) hOrigin

/-- Texts among the scalars are sorted. -/
theorem Scalar.exists_sort? {keys : List Scalar} (h : ∀ key ∈ keys, ∃ s : String, Scalar.text s = key) :
    ∃ sorted, TenantVault.sort? Scalar.compare Scalar.isComparable keys = some sorted ∧ sorted.Perm keys ∧
      TenantVault.sort? Scalar.compare Scalar.isComparable sorted = some sorted := by
  have hText : Std.TransOrd String := inferInstance
  exact TenantVault.exists_sort? Scalar.text hText (fun _ _ => rfl) h

end TenantVault
