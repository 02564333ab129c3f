import TenantVault.Table

/-! # Rows and lookups

A row is what looking its key up gives, whatever the order of the rows. So all that is said of the rows
of a table can be said of its keys and of `get?`, which have a lemma for every write.
-/

namespace TenantVault.Table

variable {κ α : Type} [BEq κ]

section Keys

variable {k k' : κ} {a : α}

theorem keys_of_mem {t : Table κ α} (h : (k, a) ∈ t.rows) : k ∈ t.keys :=
  List.mem_map_of_mem h

theorem mem_keys_put {t : Table κ α} (h : k' ∈ (t.put k a).keys) : k' ∈ t.keys ∨ k' = k := by
  have hKeys := keys_putRow k a t.rows
  unfold keys put at h
  rw [hKeys] at h
  split at h
  · exact Or.inl h
  · exact (List.mem_append.mp h).imp_right List.mem_singleton.mp

theorem mem_keys_filterKeys (t : Table κ α) (p : κ → Bool) (k : κ) :
    k ∈ (t.filterKeys p).keys ↔ k ∈ t.keys ∧ p k = true := by
  unfold keys filterKeys filterRows
  simp only [List.mem_map, List.mem_filter]
  constructor
  · rintro ⟨row, ⟨hRow, hKept⟩, rfl⟩
    exact ⟨⟨row, hRow, rfl⟩, hKept⟩
  · rintro ⟨⟨row, hRow, rfl⟩, hKept⟩
    exact ⟨row, ⟨hRow, hKept⟩, rfl⟩

theorem mem_keys_erase {t : Table κ α} (h : k' ∈ (t.erase k).keys) : k' ∈ t.keys :=
  ((mem_keys_filterKeys t _ k').mp h).1

theorem mem_keys_ofRows {rows : List (κ × α)} (h : k ∈ (ofRows rows).keys) :
    k ∈ rows.map Prod.fst := by
  have hFold : ∀ (rows : List (κ × α)) (t : Table κ α),
      k ∈ (rows.foldl (fun t row => t.put row.1 row.2) t).keys →
        k ∈ t.keys ∨ k ∈ rows.map Prod.fst := by
    intro rows
    induction rows with
    | nil => exact fun t h => Or.inl h
    | cons row rest ih =>
      intro t h
      rcases ih _ h with hPut | hRest
      · rcases mem_keys_put hPut with hBefore | hRow
        · exact Or.inl hBefore
        · exact Or.inr (List.mem_cons.mpr (Or.inl hRow))
      · exact Or.inr (List.mem_cons_of_mem row.1 hRest)
  exact (hFold rows empty h).resolve_left List.not_mem_nil

theorem exists_of_get? {t : Table κ α} (h : t.get? k = some a) :
    ∃ k', (k', a) ∈ t.rows ∧ (k' == k) = true := by
  unfold get? at h
  generalize t.rows = rows at h ⊢
  induction rows with
  | nil => cases h
  | cons row rest ih =>
    rw [lookup] at h
    split at h
    · next hKey =>
      cases h
      exact ⟨row.1, List.mem_cons_self, hKey⟩
    · obtain ⟨k', hMem, hKey⟩ := ih h
      exact ⟨k', List.mem_cons_of_mem row hMem, hKey⟩

end Keys

section Equivalence

variable [EquivBEq κ] {t t' : Table κ α} {k k' : κ} {a : α}

theorem get?_congr (t : Table κ α) (h : (k == k') = true) : t.get? k = t.get? k' := by
  unfold get?
  induction t.rows with
  | nil => rfl
  | cons row rest ih =>
    unfold lookup
    rw [BEq.congr_right h, ih]

theorem get?_of_mem (h : (k, a) ∈ t.rows) : t.get? k = some a := by
  have hLookup : ∀ {rows : List (κ × α)},
      ((rows.map Prod.fst).Pairwise fun a b => (a == b) = false) → (k, a) ∈ rows →
        lookup k rows = some a := by
    intro rows hDistinct hMem
    induction rows with
    | nil => cases hMem
    | cons row rest ih =>
      obtain ⟨hFirst, hRest⟩ := List.pairwise_cons.mp hDistinct
      rw [lookup]
      rcases List.mem_cons.mp hMem with rfl | hLater
      · exact if_pos BEq.rfl
      · have hOther : (row.1 == k) = false := hFirst k (List.mem_map_of_mem hLater)
        rw [if_neg (by rw [hOther]; exact Bool.false_ne_true)]
        exact ih hRest hLater
  exact hLookup t.distinct h

theorem get?_eq_some_iff_exists :
    t.get? k = some a ↔ ∃ k', (k', a) ∈ t.rows ∧ (k' == k) = true := by
  constructor
  · exact exists_of_get?
  · rintro ⟨k', hMem, hKey⟩
    rw [← get?_congr t hKey]
    exact get?_of_mem hMem

theorem get?_of_perm (h : t'.rows.Perm t.rows) (k : κ) : t'.get? k = t.get? k := by
  apply Option.ext
  intro a
  simp only [get?_eq_some_iff_exists, h.mem_iff]

theorem exists_of_get?_ofRows {rows : List (κ × α)} (h : (ofRows rows).get? k = some a) :
    ∃ k', (k', a) ∈ rows ∧ (k' == k) = true := by
  have hFold : ∀ (rows : List (κ × α)) (t : Table κ α),
      (rows.foldl (fun t row => t.put row.1 row.2) t).get? k = some a →
        t.get? k = some a ∨ ∃ k', (k', a) ∈ rows ∧ (k' == k) = true := by
    intro rows
    induction rows with
    | nil => exact fun t h => Or.inl h
    | cons row rest ih =>
      intro t h
      rcases ih _ h with hPut | ⟨k', hMem, hKey⟩
      · rw [get?_put] at hPut
        split at hPut
        · next hKey =>
          cases hPut
          exact Or.inr ⟨row.1, List.mem_cons_self, hKey⟩
        · exact Or.inl hPut
      · exact Or.inr ⟨k', List.mem_cons_of_mem row hMem, hKey⟩
  exact (hFold rows empty h).resolve_left nofun

/-- A key that is found stands in one row only. -/
theorem countP_keys (h : t.get? k = some a) : t.keys.countP (· == k) = 1 := by
  have hDistinct := t.distinct
  obtain ⟨k', hMem, hKey⟩ := exists_of_get? h
  obtain ⟨before, after, hRows⟩ := List.append_of_mem (keys_of_mem hMem)
  unfold keys at hRows ⊢
  rw [hRows] at hDistinct ⊢
  obtain ⟨-, hLater, hEarlier⟩ := List.pairwise_append.mp hDistinct
  have hBefore : before.countP (· == k) = 0 := by
    rw [List.countP_eq_zero]
    intro other hOther
    rw [← BEq.congr_right hKey, hEarlier other hOther k' List.mem_cons_self]
    exact Bool.false_ne_true
  have hAfter : after.countP (· == k) = 0 := by
    rw [List.countP_eq_zero]
    intro other hOther
    rw [← BEq.congr_right hKey, BEq.comm, (List.pairwise_cons.mp hLater).1 other hOther]
    exact Bool.false_ne_true
  rw [List.countP_append, hBefore, List.countP_cons, if_pos hKey, hAfter]

end Equivalence

end TenantVault.Table
