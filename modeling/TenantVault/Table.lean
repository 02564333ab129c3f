/-! # Finite maps in order of insertion

A table lists its rows in the order in which their keys first appeared. Replacing a row keeps its place and
its key; a new key goes to the end. Keys are the same if `==` says so, which may be less than equality:
the key that came first is the one that is kept. No two keys of a table are the same, so `get?` says
everything about it except the order and the spelling of the keys.
-/

namespace TenantVault

structure Table (κ : Type) [BEq κ] (α : Type) where
  rows : List (κ × α)
  distinct : (rows.map Prod.fst).Pairwise fun a b => (a == b) = false

namespace Table

variable {κ α : Type} [BEq κ]

def empty : Table κ α := ⟨[], List.Pairwise.nil⟩

instance : Inhabited (Table κ α) := ⟨empty⟩

instance [DecidableEq κ] [DecidableEq α] : DecidableEq (Table κ α) := fun s t =>
  decidable_of_iff (s.rows = t.rows) ⟨fun h => by cases s; cases t; cases h; rfl, fun h => h ▸ rfl⟩

def keys (t : Table κ α) : List κ := t.rows.map Prod.fst

def values (t : Table κ α) : List α := t.rows.map Prod.snd

def size (t : Table κ α) : Nat := t.rows.length

def isEmpty (t : Table κ α) : Bool := t.rows.isEmpty

@[ext] theorem ext {s t : Table κ α} (h : s.rows = t.rows) : s = t := by
  cases s; cases t; cases h; rfl

def lookup (k : κ) : List (κ × α) → Option α
  | [] => none
  | row :: rest => if row.1 == k then some row.2 else lookup k rest

def get? (t : Table κ α) (k : κ) : Option α := lookup k t.rows

def contains (t : Table κ α) (k : κ) : Bool := (t.get? k).isSome

/-- The rows with the value at `k` replaced, or with a new row at the end. -/
def putRow (k : κ) (a : α) : List (κ × α) → List (κ × α)
  | [] => [(k, a)]
  | row :: rest => if row.1 == k then (row.1, a) :: rest else row :: putRow k a rest

theorem keys_putRow (k : κ) (a : α) (rows : List (κ × α)) :
    (putRow k a rows).map Prod.fst =
      if rows.any (·.1 == k) then rows.map Prod.fst else rows.map Prod.fst ++ [k] := by
  induction rows with
  | nil => simp [putRow]
  | cons row rest ih =>
    rw [putRow]
    cases h : row.1 == k
    · simp only [h, Bool.false_eq_true, ↓reduceIte, List.map_cons, ih, List.any_cons, Bool.false_or]
      split <;> simp
    · simp [h]

def put (t : Table κ α) (k : κ) (a : α) : Table κ α where
  rows := putRow k a t.rows
  distinct := by
    rw [keys_putRow]
    split
    · exact t.distinct
    · next h =>
      refine List.pairwise_append.mpr ⟨t.distinct, List.pairwise_singleton _ _, fun x hx y hy => ?_⟩
      obtain ⟨row, hrow, rfl⟩ := List.mem_map.mp hx
      cases List.mem_singleton.mp hy
      simp only [List.any_eq_true, not_exists, not_and, Bool.not_eq_true] at h
      exact h row hrow

def filterRows (t : Table κ α) (p : κ × α → Bool) : Table κ α where
  rows := t.rows.filter p
  distinct := t.distinct.sublist (List.Sublist.map _ List.filter_sublist)

/-- The rows that satisfy a test on the key. -/
def filterKeys (t : Table κ α) (p : κ → Bool) : Table κ α := t.filterRows fun row => p row.1

def erase (t : Table κ α) (k : κ) : Table κ α := t.filterKeys fun k' => k' != k

def ofRows (rows : List (κ × α)) : Table κ α :=
  rows.foldl (fun t row => t.put row.1 row.2) empty

@[simp] theorem get?_empty (k : κ) : (empty : Table κ α).get? k = none := rfl

section Equivalence

variable [EquivBEq κ]

theorem lookup_putRow (k k' : κ) (a : α) (rows : List (κ × α)) :
    lookup k' (putRow k a rows) = if k == k' then some a else lookup k' rows := by
  induction rows with
  | nil => simp [putRow, lookup]
  | cons row rest ih =>
    rw [putRow]
    cases h : row.1 == k
    · simp only [Bool.false_eq_true, ↓reduceIte, lookup, ih]
      cases hk : row.1 == k'
      · simp
      · have hne : (k == k') = false := by
          cases hkk : k == k'
          · rfl
          · rw [BEq.trans hk (BEq.symm hkk)] at h
            exact h
        simp [hne]
    · simp only [↓reduceIte, lookup, BEq.congr_left h]
      split <;> simp_all

theorem get?_put (t : Table κ α) (k k' : κ) (a : α) :
    (t.put k a).get? k' = if k == k' then some a else t.get? k' :=
  lookup_putRow k k' a t.rows

omit [EquivBEq κ] in
theorem lookup_filterKeys (p : κ → Bool) (k : κ) (same : ∀ k', k' == k → p k' = p k) (rows : List (κ × α)) :
    lookup k (rows.filter fun row => p row.1) = if p k then lookup k rows else none := by
  induction rows with
  | nil => simp [lookup]
  | cons row rest ih =>
    cases hk : row.1 == k
    · by_cases hp : p row.1 <;> simp [lookup, hp, hk, ih]
    · have hsame := same row.1 hk
      by_cases hp : p k <;> simp [lookup, hsame, hp, hk, ih]

omit [EquivBEq κ] in
/-- The test has to agree on the keys that are the same as `k`. -/
theorem get?_filterKeys (t : Table κ α) (p : κ → Bool) (k : κ) (same : ∀ k', k' == k → p k' = p k) :
    (t.filterKeys p).get? k = if p k then t.get? k else none :=
  lookup_filterKeys p k same t.rows

theorem get?_erase (t : Table κ α) (k k' : κ) :
    (t.erase k).get? k' = if k == k' then none else t.get? k' := by
  rw [erase, get?_filterKeys t _ k' fun x hx => by simp only [bne, BEq.congr_left hx]]
  cases h : k' == k
  · have h' : (k == k') = false := by rw [BEq.comm]; exact h
    simp [bne, h, h']
  · simp [bne, h, BEq.symm h]

end Equivalence

theorem lookup_eq_some_iff [LawfulBEq κ] {rows : List (κ × α)}
    (distinct : (rows.map Prod.fst).Pairwise fun a b => (a == b) = false) (k : κ) (a : α) :
    lookup k rows = some a ↔ (k, a) ∈ rows := by
  induction rows with
  | nil => simp [lookup]
  | cons row rest ih =>
    obtain ⟨hrow, hrest⟩ := List.pairwise_cons.mp distinct
    simp only [lookup]
    split
    · next h =>
      have h := eq_of_beq h
      subst h
      constructor
      · rintro ⟨⟩; exact List.mem_cons_self
      · intro hm
        rcases List.mem_cons.mp hm with hm | hm
        · rw [← hm]
        · have hne := hrow row.1 (List.mem_map.mpr ⟨(row.1, a), hm, rfl⟩)
          simp at hne
    · next h =>
      rw [ih hrest, List.mem_cons]
      exact ⟨Or.inr, fun hm => hm.resolve_left fun e => h (by simp [← e])⟩

theorem get?_eq_some_iff [LawfulBEq κ] (t : Table κ α) (k : κ) (a : α) :
    t.get? k = some a ↔ (k, a) ∈ t.rows :=
  lookup_eq_some_iff t.distinct k a

end Table

end TenantVault
