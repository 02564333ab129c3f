import Mathlib.Data.Nat.Size
import Mathlib.Order.Nat
import TenantVault.Proofs.Septets

/-! # The fewest octets

A number can be read from any octets of which the last one only is unmarked; zero groups before that one add
nothing to it. Of all such octets those that are written are the fewest, as many as the bits of the number
fill. They end where the mark is missing, so what is written for one number is never the beginning of what is
written for another.
-/

namespace TenantVault.Leb128

variable {n k : Nat} {octets rest bs : Bytes} {b : UInt8}

/-! ## What is read -/

/-- The number made up of the low seven bits of all octets, the lowest first. -/
def value : Bytes → Nat
  | [] => 0
  | b :: rest => b.toNat % 128 + 128 * value rest

/-- The top bit is set in every octet but the last. -/
def Marked (octets : Bytes) : Prop :=
  ∃ front last, octets = front ++ [last] ∧ (∀ b ∈ front, 128 ≤ b.toNat) ∧ last.toNat < 128

theorem marked_cons_iff :
    Marked (b :: rest) ↔ rest = [] ∧ b.toNat < 128 ∨ 128 ≤ b.toNat ∧ Marked rest := by
  constructor
  · rintro ⟨front, last, hOctets, hFront, hLast⟩
    cases front with
    | nil =>
      cases hOctets
      exact Or.inl ⟨rfl, hLast⟩
    | cons first front =>
      cases hOctets
      obtain ⟨hFirst, hFront⟩ := List.forall_mem_cons.mp hFront
      exact Or.inr ⟨hFirst, front, last, rfl, hFront, hLast⟩
  · rintro (⟨rfl, hLast⟩ | ⟨hFirst, front, last, rfl, hFront, hLast⟩)
    · exact ⟨[], b, rfl, nofun, hLast⟩
    · exact ⟨b :: front, last, rfl, List.forall_mem_cons.mpr ⟨hFirst, hFront⟩, hLast⟩

theorem Marked.length_pos (h : Marked octets) : 0 < octets.length := by
  obtain ⟨front, last, rfl, -, -⟩ := h
  rw [List.length_append]
  exact Nat.succ_pos _

theorem decode?_of_marked (h : Marked octets) (rest : Bytes) :
    decode? (octets ++ rest) = some (value octets, rest) := by
  induction octets with
  | nil => exact absurd h.length_pos (Nat.lt_irrefl 0)
  | cons b octets ih =>
    rcases marked_cons_iff.mp h with ⟨rfl, hLast⟩ | ⟨hFirst, hRest⟩
    · have hValue : value [b] = b.toNat := Nat.mod_eq_of_lt hLast
      rw [List.singleton_append, decode?, if_pos hLast, hValue]
    · have hLow : b.toNat % 128 = b.toNat - 128 := by
        have hBound := b.toNat_lt
        omega
      rw [List.cons_append, decode?, if_neg (by omega), ih hRest, value, hLow]
      rfl

/-- The reader takes octets up to the first one that is unmarked, and nothing else. -/
theorem decode?_eq_some_iff :
    decode? bs = some (n, rest) ↔ ∃ octets, bs = octets ++ rest ∧ Marked octets ∧ value octets = n := by
  constructor
  · intro hRead
    induction bs generalizing n with
    | nil => cases hRead
    | cons b bs ih =>
      rw [decode?] at hRead
      split at hRead
      · next hLast =>
        cases hRead
        exact ⟨[b], rfl, marked_cons_iff.mpr (Or.inl ⟨rfl, hLast⟩), Nat.mod_eq_of_lt hLast⟩
      · next hFirst =>
        obtain ⟨⟨m, rest'⟩, hMore, hNumber⟩ := Option.map_eq_some_iff.mp hRead
        cases hNumber
        obtain ⟨octets, rfl, hMarked, rfl⟩ := ih hMore
        refine ⟨b :: octets, rfl, marked_cons_iff.mpr (Or.inr ⟨by omega, hMarked⟩), ?_⟩
        have hBound := b.toNat_lt
        rw [value]
        omega
  · rintro ⟨octets, rfl, hMarked, rfl⟩
    exact decode?_of_marked hMarked rest

theorem value_lt (octets : Bytes) : value octets < 2 ^ (7 * octets.length) := by
  induction octets with
  | nil => exact Nat.one_pos
  | cons b octets ih =>
    have hPower : 2 ^ (7 * (octets.length + 1)) = 128 * 2 ^ (7 * octets.length) := by
      rw [Nat.mul_succ, Nat.pow_add, Nat.mul_comm]
    rw [value, List.length_cons, hPower]
    omega

/-! ## What is written -/

theorem marked_encode (n : Nat) : Marked (encode n) := by
  induction n using encode.induct with
  | case1 n hSmall =>
    rw [encode_small hSmall]
    exact marked_cons_iff.mpr (Or.inl ⟨rfl, by simp; omega⟩)
  | case2 n hLarge ih =>
    rw [encode_large (by omega)]
    exact marked_cons_iff.mpr (Or.inr ⟨by simp; omega, ih⟩)

theorem value_encode (n : Nat) : value (encode n) = n := by
  have hRead := decode?_of_marked (marked_encode n) []
  rw [decode_encode, Option.some.injEq, Prod.mk.injEq] at hRead
  exact hRead.1.symm

theorem length_encode_le_iff : (encode n).length ≤ k ↔ 0 < k ∧ n < 2 ^ (7 * k) := by
  constructor
  · intro hLength
    refine ⟨Nat.lt_of_lt_of_le (length_encode_pos n) hLength, ?_⟩
    have hValue := value_lt (encode n)
    rw [value_encode] at hValue
    exact Nat.lt_of_lt_of_le hValue (Nat.pow_le_pow_right (by decide) (Nat.mul_le_mul_left 7 hLength))
  · rintro ⟨hPositive, hBound⟩
    induction n using encode.induct generalizing k with
    | case1 n hSmall =>
      rw [encode_small hSmall]
      exact hPositive
    | case2 n hLarge ih =>
      obtain ⟨k, rfl⟩ := Nat.exists_eq_add_one_of_ne_zero (Nat.pos_iff_ne_zero.mp hPositive)
      rw [Nat.mul_succ, Nat.pow_add] at hBound
      rw [encode_large (by omega), List.length_cons]
      refine Nat.succ_le_succ (ih ?_ ?_)
      · -- A number of more than seven bits does not fit into one octet.
        apply Nat.pos_of_ne_zero
        rintro rfl
        omega
      · exact Nat.div_lt_of_lt_mul (by omega)

/-- One octet for every seven bits that have been begun, and one for zero. -/
theorem length_encode (n : Nat) : (encode n).length = max 1 ((n.size + 6) / 7) := by
  refine eq_of_forall_ge_iff fun k => ?_
  rw [length_encode_le_iff, ← Nat.size_le]
  omega

theorem eq_of_encode_prefix {m : Nat} (h : encode m <+: encode n) : m = n := by
  obtain ⟨rest, hEncoded⟩ := h
  have hFirst := decode_encode m rest
  have hSecond := decode_encode n []
  rw [List.append_nil, ← hEncoded, hFirst] at hSecond
  exact congrArg Prod.fst (Option.some.inj hSecond)

theorem length_encode_le_of_marked (h : Marked octets) : (encode (value octets)).length ≤ octets.length :=
  length_encode_le_iff.mpr ⟨h.length_pos, value_lt octets⟩

/-- The turns of a natural number come to an end, and then octets have been written that it is read from,
whatever follows them. All are marked but the last, and nothing with fewer octets stands for the number or is
read as it. Of two integers whose turns come to an end neither is written as the beginning of what the other is
written as. -/
theorem written_in_fewest_octets (n : Nat) :
    Writing.Ends n (encode n) ∧ Marked (encode n) ∧ value (encode n) = n ∧
      (∀ rest, decode? (encode n ++ rest) = some (n, rest)) ∧
      (encode n).length = max 1 ((n.size + 6) / 7) ∧
      (∀ octets, Marked octets → value octets = n → (encode n).length ≤ octets.length) ∧
      (∀ bs rest, decode? bs = some (n, rest) → (encode n).length + rest.length ≤ bs.length) ∧
      ∀ (m : Int) octets, Writing.Ends m octets → octets <+: encode n → m = n := by
  refine ⟨Writing.ends_iff.mpr ⟨Int.natCast_nonneg n, rfl⟩, marked_encode n, value_encode n,
    decode_encode n, length_encode n, ?_, ?_, ?_⟩
  · rintro octets hMarked rfl
    exact length_encode_le_of_marked hMarked
  · intro bs rest hRead
    obtain ⟨octets, rfl, hMarked, rfl⟩ := decode?_eq_some_iff.mp hRead
    rw [List.length_append]
    exact Nat.add_le_add_right (length_encode_le_of_marked hMarked) _
  · intro m octets hEnds hPrefix
    obtain ⟨hThere, rfl⟩ := Writing.ends_iff.mp hEnds
    have hSame := eq_of_encode_prefix hPrefix
    omega

example : Writing.run 3 ⟨16383, []⟩ = some [0xFF, 0x7F] ∧
    Writing.run 3 ⟨16384, []⟩ = some [0x80, 0x80, 0x01] := by decide

end TenantVault.Leb128
