/-! # Finite sets in ascending order

A set over a linear order is its strictly ascending list of members, so two sets with the same members
are equal and a set is printed in one way only.
-/

namespace TenantVault

structure SortedSet (α : Type) [LT α] where
  toList : List α
  ascending : toList.Pairwise (· < ·)

namespace SortedSet

variable {α : Type} [LT α]

def empty : SortedSet α := ⟨[], List.Pairwise.nil⟩

instance : Inhabited (SortedSet α) := ⟨empty⟩

instance : Membership α (SortedSet α) := ⟨fun s a => a ∈ s.toList⟩

theorem mem_def {a : α} {s : SortedSet α} : a ∈ s ↔ a ∈ s.toList := Iff.rfl

instance [DecidableEq α] (a : α) (s : SortedSet α) : Decidable (a ∈ s) :=
  inferInstanceAs (Decidable (a ∈ s.toList))

instance [DecidableEq α] : DecidableEq (SortedSet α) := fun s t =>
  decidable_of_iff (s.toList = t.toList) ⟨fun h => by cases s; cases t; cases h; rfl, fun h => h ▸ rfl⟩

def isEmpty (s : SortedSet α) : Bool := s.toList.isEmpty

/-- The members that satisfy a test. -/
def filter (s : SortedSet α) (p : α → Bool) : SortedSet α :=
  ⟨s.toList.filter p, s.ascending.sublist List.filter_sublist⟩

@[simp] theorem mem_filter {s : SortedSet α} {p : α → Bool} {a : α} :
    a ∈ s.filter p ↔ a ∈ s ∧ p a := List.mem_filter

@[simp] theorem not_mem_empty (a : α) : ¬ a ∈ (empty : SortedSet α) := List.not_mem_nil

section Difference

variable [DecidableEq α]

def diff (s t : SortedSet α) : SortedSet α := s.filter fun a => a ∉ t

@[simp] theorem mem_diff {s t : SortedSet α} {a : α} : a ∈ s.diff t ↔ a ∈ s ∧ a ∉ t := by
  simp [diff]

end Difference

section Insert

variable [DecidableEq α] [DecidableLT α]

def insertList (a : α) : List α → List α
  | [] => [a]
  | b :: rest => if a < b then a :: b :: rest else if a = b then b :: rest else b :: insertList a rest

theorem mem_insertList {a b : α} {bs : List α} : b ∈ insertList a bs ↔ b = a ∨ b ∈ bs := by
  induction bs with
  | nil => simp [insertList]
  | cons c rest ih =>
    rw [insertList]
    split
    · simp
    · split
      · next h => subst h; simp
      · simp only [List.mem_cons, ih]
        constructor
        · rintro (h | h | h) <;> simp [h]
        · rintro (h | h | h) <;> simp [h]

variable [LE α] [Std.IsLinearOrder α] [Std.LawfulOrderLT α]

theorem insertList_ascending (a : α) {bs : List α} (h : bs.Pairwise (· < ·)) :
    (insertList a bs).Pairwise (· < ·) := by
  induction bs with
  | nil => simp [insertList]
  | cons c rest ih =>
    rw [insertList]
    obtain ⟨hc, hrest⟩ := List.pairwise_cons.mp h
    split
    · next hac =>
      refine List.pairwise_cons.mpr ⟨fun x hx => ?_, h⟩
      rcases List.mem_cons.mp hx with rfl | hx
      · exact hac
      · exact Std.lt_trans hac (hc x hx)
    · next hac =>
      split
      · exact h
      · next hne =>
        refine List.pairwise_cons.mpr ⟨fun x hx => ?_, ih hrest⟩
        rcases mem_insertList.mp hx with rfl | hx
        · exact Std.lt_of_le_of_ne (Std.not_lt.mp hac) (Ne.symm hne)
        · exact hc x hx

def insert (a : α) (s : SortedSet α) : SortedSet α :=
  ⟨insertList a s.toList, insertList_ascending a s.ascending⟩

@[simp] theorem mem_insert {a b : α} {s : SortedSet α} : b ∈ s.insert a ↔ b = a ∨ b ∈ s :=
  mem_insertList

def ofList (xs : List α) : SortedSet α := xs.foldr insert empty

@[simp] theorem mem_ofList {xs : List α} {a : α} : a ∈ ofList xs ↔ a ∈ xs := by
  induction xs with
  | nil => simp [ofList]
  | cons x xs ih => simp only [ofList, List.foldr_cons, mem_insert, List.mem_cons] at ih ⊢; rw [ih]

def union (s t : SortedSet α) : SortedSet α := t.toList.foldr insert s

@[simp] theorem mem_union {s t : SortedSet α} {a : α} : a ∈ s.union t ↔ a ∈ s ∨ a ∈ t := by
  rw [mem_def (s := t)]
  simp only [union]
  induction t.toList with
  | nil => simp
  | cons x xs ih =>
    simp only [List.foldr_cons, mem_insert, List.mem_cons, ih]
    constructor
    · rintro (h | h | h) <;> simp [h]
    · rintro (h | h | h) <;> simp [h]

end Insert

end SortedSet

end TenantVault
