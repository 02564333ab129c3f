import Mathlib.Data.List.Induction
import TenantVault.Encoding.Der

/-! # Elements that are read back

Every length has one field that a strict reader accepts, and it is the one that is written. An element is
therefore read back as it was written, and whatever is read was written in that form.
-/

namespace TenantVault

namespace Bytes

theorem toNatBE_concat (bs : Bytes) (b : UInt8) : toNatBE (bs ++ [b]) = b.toNat + 256 * toNatBE bs := by
  simp [toNatBE, toNatLE]

end Bytes

namespace Der

variable {m n : Nat} {octets : Bytes}

/-! ## The fewest octets -/

theorem minimal_zero : minimal 0 = [] := by
  rw [minimal, dif_pos rfl]

theorem minimal_of_ne_zero (h : n ≠ 0) : minimal n = minimal (n / 256) ++ [UInt8.ofNat n] := by
  rw [minimal, dif_neg h]

theorem toNatBE_minimal (n : Nat) : Bytes.toNatBE (minimal n) = n := by
  induction n using minimal.induct with
  | case1 => rw [minimal_zero]; rfl
  | case2 n hPositive ih =>
    have hLast : (UInt8.ofNat n).toNat = n % 256 := UInt8.toNat_ofNat'
    rw [minimal_of_ne_zero hPositive, Bytes.toNatBE_concat, ih, hLast]
    omega

theorem length_minimal_le {width : Nat} (h : n < 256 ^ width) : (minimal n).length ≤ width := by
  induction n using minimal.induct generalizing width with
  | case1 => simp [minimal_zero]
  | case2 n hPositive ih =>
    rw [minimal_of_ne_zero hPositive, List.length_append, List.length_singleton]
    cases width with
    | zero => omega
    | succ width =>
      rw [Nat.pow_succ] at h
      exact Nat.succ_le_succ (ih (Nat.div_lt_of_lt_mul (by omega)))

theorem length_minimal_mono (h : m ≤ n) : (minimal m).length ≤ (minimal n).length := by
  induction n using minimal.induct generalizing m with
  | case1 =>
    obtain rfl : m = 0 := by omega
    exact Nat.le_refl _
  | case2 n hPositive ih =>
    by_cases hZero : m = 0
    · simp [hZero, minimal_zero]
    · rw [minimal_of_ne_zero hPositive, minimal_of_ne_zero hZero]
      simp only [List.length_append, List.length_singleton]
      exact Nat.succ_le_succ (ih (Nat.div_le_div_right h))

theorem head?_minimal (n : Nat) : (minimal n).head? ≠ some 0 := by
  induction n using minimal.induct with
  | case1 => simp [minimal_zero]
  | case2 n hPositive ih =>
    rw [minimal_of_ne_zero hPositive, List.head?_append]
    by_cases hSmall : n / 256 = 0
    · rw [hSmall, minimal_zero]
      simp only [List.head?_nil, Option.none_or, List.head?_cons, ne_eq, Option.some.injEq]
      intro hLast
      have hValue : (UInt8.ofNat n).toNat = n % 256 := UInt8.toNat_ofNat'
      rw [hLast] at hValue
      simp at hValue
      omega
    · rw [minimal_of_ne_zero hSmall] at ih ⊢
      simpa using ih

/-- Octets that do not begin with a zero are the fewest that hold their number. -/
theorem minimal_toNatBE (h : octets.head? ≠ some 0) : minimal (Bytes.toNatBE octets) = octets := by
  induction octets using List.reverseRecOn with
  | nil => exact minimal_zero
  | append_singleton octets b ih =>
    have hb := b.toNat_lt
    have hLast : UInt8.ofNat (b.toNat + 256 * Bytes.toNatBE octets) = b := by
      apply UInt8.toNat.inj
      rw [UInt8.toNat_ofNat']
      omega
    have hRest : (b.toNat + 256 * Bytes.toNatBE octets) / 256 = Bytes.toNatBE octets := by omega
    cases octets with
    | nil =>
      have hPositive : b.toNat ≠ 0 := by
        intro hZero
        apply h
        have hNone : b = 0 := UInt8.toNat.inj hZero
        simp [hNone]
      have hValue : Bytes.toNatBE ([] ++ [b]) = b.toNat := by simp [Bytes.toNatBE, Bytes.toNatLE]
      rw [hValue, minimal_of_ne_zero hPositive, Nat.div_eq_of_lt hb, minimal_zero, UInt8.ofNat_toNat]
    | cons c octets =>
      have hSame : minimal (Bytes.toNatBE (c :: octets)) = c :: octets := ih (by simpa using h)
      have hPositive : Bytes.toNatBE (c :: octets) ≠ 0 := by
        intro hZero
        rw [hZero, minimal_zero] at hSame
        cases hSame
      rw [Bytes.toNatBE_concat, minimal_of_ne_zero (by omega), hRest, hLast, hSame]

/-! ## Lengths -/

/-- What a length has to be written as: one octet if it is below 128, otherwise the fewest octets that hold it,
behind an octet with their number. -/
inductive IsLength : Nat → Bytes → Prop
  | short {size : Nat} (below : size < 128) : IsLength size [UInt8.ofNat size]
  | long {octets : Bytes} (first : octets.head? ≠ some 0) (count : octets.length < 127)
      (large : 128 ≤ Bytes.toNatBE octets) :
      IsLength (Bytes.toNatBE octets) (UInt8.ofNat (128 + octets.length) :: octets)

variable {size : Nat} {bs rest : Bytes}

theorem lengthOctets_small (h : size < 128) : lengthOctets size = [UInt8.ofNat size] := by
  rw [lengthOctets, if_pos h]

theorem lengthOctets_large (h : 128 ≤ size) :
    lengthOctets size = UInt8.ofNat (128 + (minimal size).length) :: minimal size := by
  rw [lengthOctets, if_neg (by omega)]

theorem length_minimal_lt (h : size < 256 ^ 126) : (minimal size).length < 127 := by
  exact Nat.lt_succ_of_le (length_minimal_le h)

theorem isLength_lengthOctets (h : size < 256 ^ 126) : IsLength size (lengthOctets size) := by
  by_cases hSmall : size < 128
  · rw [lengthOctets_small hSmall]
    exact .short hSmall
  · have hLong : IsLength (Bytes.toNatBE (minimal size))
        (UInt8.ofNat (128 + (minimal size).length) :: minimal size) := by
      refine .long (head?_minimal size) (length_minimal_lt h) ?_
      rw [toNatBE_minimal]
      omega
    rw [toNatBE_minimal] at hLong
    rw [lengthOctets_large (by omega)]
    exact hLong

theorem IsLength.eq_lengthOctets (h : IsLength size bs) : bs = lengthOctets size := by
  cases h with
  | short below => exact (lengthOctets_small below).symm
  | long first count large => rw [lengthOctets_large large, minimal_toNatBE first]

theorem IsLength.readLength? (h : IsLength size bs) (rest : Bytes) :
    readLength? (bs ++ rest) = some (size, rest) := by
  cases h with
  | short below =>
    have hOctet : (UInt8.ofNat size).toNat = size := by
      rw [UInt8.toNat_ofNat']
      omega
    simp only [List.cons_append, List.nil_append, Der.readLength?, hOctet, if_pos below]
  | @long octets first count large =>
    have hOctet : (UInt8.ofNat (128 + octets.length)).toNat = 128 + octets.length := by
      rw [UInt8.toNat_ofNat']
      omega
    have hNotShort : ¬ 128 + octets.length < 128 := by omega
    simp only [List.cons_append, Der.readLength?, hOctet, if_neg hNotShort, Nat.add_sub_cancel_left,
      List.take_left, List.drop_left]
    exact if_pos ⟨trivial, large, first⟩

theorem eq_of_readLength? (h : readLength? bs = some (size, rest)) : bs = lengthOctets size ++ rest := by
  cases bs with
  | nil => cases h
  | cons b bs =>
    rw [readLength?] at h
    split at h
    · next hSmall =>
      cases h
      rw [lengthOctets_small hSmall, UInt8.ofNat_toNat]
      rfl
    · next hLarge =>
      dsimp only at h
      split at h
      · next hField =>
        obtain ⟨hCount, hSize, hFirst⟩ := hField
        rw [Option.some.injEq, Prod.mk.injEq] at h
        obtain ⟨rfl, rfl⟩ := h
        have hOctet : 128 + (b.toNat - 128) = b.toNat := by omega
        rw [lengthOctets_large hSize, minimal_toNatBE hFirst, hCount, hOctet, UInt8.ofNat_toNat,
          List.cons_append, List.take_append_drop]
      · cases h

/-! ## Elements -/

/-- A tag, the length of the content as it has to be written, and the content. -/
inductive IsElement (tag : UInt8) (content : Bytes) : Bytes → Prop
  | intro {octets : Bytes} (length : IsLength content.length octets) :
      IsElement tag content (tag :: octets ++ content)

variable {tag tag' : UInt8} {content content' : Bytes}

theorem isElement_element (h : content.length < 256 ^ 126) (tag : UInt8) :
    IsElement tag content (element tag content) :=
  .intro (isLength_lengthOctets h)

theorem IsElement.eq_element (h : IsElement tag content bs) : bs = element tag content := by
  cases h with
  | intro length => rw [length.eq_lengthOctets, element]

theorem length_element_le (h : content.length < 256 ^ 126) (tag : UInt8) :
    (element tag content).length ≤ content.length + 128 := by
  have hField : (lengthOctets content.length).length ≤ 127 := by
    by_cases hSmall : content.length < 128
    · simp [lengthOctets_small hSmall]
    · have := length_minimal_lt h
      rw [lengthOctets_large (by omega), List.length_cons]
      omega
  simp only [element, List.cons_append, List.length_cons, List.length_append]
  omega

theorem read?_element (h : content.length < 256 ^ 126) (tag : UInt8) (rest : Bytes) :
    read? (element tag content ++ rest) = some (tag, content, rest) := by
  have hLength := (isLength_lengthOctets h).readLength? (content ++ rest)
  have hThere : ¬ (content ++ rest).length < content.length := by
    rw [List.length_append]
    omega
  rw [element, List.cons_append, List.cons_append, List.append_assoc, read?, hLength]
  simp only [if_neg hThere, List.take_left, List.drop_left]

theorem eq_of_read? (h : read? bs = some (tag, content, rest)) : bs = element tag content ++ rest := by
  cases bs with
  | nil => cases h
  | cons found bs =>
    rw [read?] at h
    split at h
    · cases h
    · next size behind hLength =>
      split at h
      · cases h
      · next hThere =>
        cases h
        have hSize : (behind.take size).length = size := by
          rw [List.length_take]
          omega
        rw [eq_of_readLength? hLength, element, hSize, List.cons_append, List.cons_append,
          List.append_assoc, List.take_append_drop]

theorem expect?_element (h : content.length < 256 ^ 126) (tag : UInt8) (rest : Bytes) :
    expect? tag (element tag content ++ rest) = some (content, rest) := by
  rw [expect?, read?_element h]
  exact if_pos rfl

theorem eq_of_expect? (h : expect? tag bs = some (content, rest)) : bs = element tag content ++ rest := by
  rw [expect?] at h
  split at h
  · next found _ _ hRead =>
    split at h
    · next hTag =>
      cases h
      rw [← hTag]
      exact eq_of_read? hRead
    · cases h
  · cases h

theorem length_lengthOctets_mono (h : m ≤ n) : (lengthOctets m).length ≤ (lengthOctets n).length := by
  by_cases hSmall : n < 128
  · rw [lengthOctets_small hSmall, lengthOctets_small (by omega)]
    exact Nat.le_refl _
  · have hLarge : 128 ≤ n := by omega
    rw [lengthOctets_large hLarge]
    by_cases hSmall' : m < 128
    · rw [lengthOctets_small hSmall']
      simp
    · rw [lengthOctets_large (by omega)]
      exact Nat.succ_le_succ (length_minimal_mono h)

/-- The longer the content, the longer the element, so the whole shows how long its content is. -/
theorem element_inj (h : element tag content = element tag' content') : tag = tag' ∧ content = content' := by
  rw [element, element, List.cons_append, List.cons_append] at h
  obtain ⟨rfl, hBehind⟩ := List.cons.inj h
  have hTotal := congrArg List.length hBehind
  simp only [List.length_append] at hTotal
  have hSize : content.length = content'.length := by
    rcases Nat.lt_trichotomy content.length content'.length with hLess | hSame | hMore
    · have := length_lengthOctets_mono (Nat.le_of_lt hLess)
      omega
    · exact hSame
    · have := length_lengthOctets_mono (Nat.le_of_lt hMore)
      omega
  rw [hSize] at hBehind
  exact ⟨rfl, List.append_cancel_left hBehind⟩

end Der

end TenantVault
