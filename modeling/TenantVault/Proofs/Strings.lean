import TenantVault.Proofs.Items

/-! # Strings in a row

A string stands behind a head with its length, so a row of byte strings and texts shows of which kind each of
them is and where it ends. No octet can be moved from one to the next without changing the row.
-/

namespace TenantVault.Cbor

/-! ## Heads -/

theorem head_append_inj {major major' n n' : Nat} (hMajor : major < 8) (hMajor' : major' < 8)
    (h : n < 2 ^ 64) (h' : n' < 2 ^ 64) {suffix suffix' : Bytes}
    (hSame : head major n ++ suffix = head major' n' ++ suffix') :
    major = major' ∧ n = n' ∧ suffix = suffix' := by
  obtain ⟨b, rest, hHead, hType, hArgument⟩ := head_spec hMajor h suffix
  obtain ⟨b', rest', hHead', hType', hArgument'⟩ := head_spec hMajor' h' suffix'
  rw [hHead, hHead'] at hSame
  obtain ⟨rfl, rfl⟩ := List.cons.inj hSame
  rw [hArgument] at hArgument'
  cases hArgument'
  exact ⟨hType.symm.trans hType', rfl, rfl⟩

/-- The first octet of a head shows the major type, whatever the argument is. -/
theorem exists_head_eq_cons {major : Nat} (hMajor : major < 8) (n : Nat) :
    ∃ b rest, head major n = b :: rest ∧ b.toNat / 32 = major := by
  have hOctet {info : Nat} (hInfo : info < 32) : (UInt8.ofNat (32 * major + info)).toNat / 32 = major := by
    rw [UInt8.toNat_ofNat']
    omega
  unfold head
  split
  · exact ⟨_, _, rfl, hOctet (by omega)⟩
  · repeat' split
    all_goals exact ⟨_, _, rfl, hOctet (by decide)⟩

theorem head_append_ne {major major' : Nat} (hMajor : major < 8) (hMajor' : major' < 8)
    (hOther : major ≠ major') (n n' : Nat) (suffix suffix' : Bytes) :
    head major n ++ suffix ≠ head major' n' ++ suffix' := by
  obtain ⟨b, rest, hHead, hType⟩ := exists_head_eq_cons hMajor n
  obtain ⟨b', rest', hHead', hType'⟩ := exists_head_eq_cons hMajor' n'
  rw [hHead, hHead']
  intro hSame
  obtain ⟨rfl, -⟩ := List.cons.inj hSame
  exact hOther (hType.symm.trans hType')

/-- A small argument is told from every other one, even from those that no head can hold. -/
theorem head_append_inj_of_small {major n n' : Nat} (hMajor : major < 8) (hSmall : n < 24)
    {suffix suffix' : Bytes} (hSame : head major n ++ suffix = head major n' ++ suffix') :
    n = n' ∧ suffix = suffix' := by
  by_cases hFits : n' < 2 ^ 64
  · exact (head_append_inj hMajor hMajor (by omega) hFits hSame).2
  · rw [head, if_pos hSmall, head, if_neg (by omega), if_neg (by omega), if_neg (by omega),
      if_neg (by omega)] at hSame
    have hOctet := congrArg UInt8.toNat (List.cons.inj hSame).1
    rw [UInt8.toNat_ofNat', UInt8.toNat_ofNat'] at hOctet
    omega

/-! ## Strings -/

/-- A byte string or a text that is not too long for its head. -/
inductive IsString : Value → Prop
  | bytes {bs : Bytes} (fits : bs.length < 2 ^ 64) : IsString (.bytes bs)
  | text {s : String} (fits : (Bytes.ofText s).length < 2 ^ 64) : IsString (.text s)

theorem isString_text_iff {s : String} : IsString (.text s) ↔ s.utf8ByteSize < 2 ^ 64 := by
  rw [← Bytes.length_ofText]
  constructor
  · rintro ⟨fits⟩
    assumption
  · exact .text

variable {v v' : Value} {vs vs' : List Value}

theorem IsString.append_inj (h : IsString v) (h' : IsString v') {suffix suffix' : Bytes}
    (hSame : encode v ++ suffix = encode v' ++ suffix') : v = v' ∧ suffix = suffix' := by
  have hBytes (bs : Bytes) (rest : Bytes) : encode (.bytes bs) ++ rest = head 2 bs.length ++ (bs ++ rest) := by
    rw [encode_bytes, List.append_assoc]
  have hText (s : String) (rest : Bytes) :
      encode (.text s) ++ rest = head 3 (Bytes.ofText s).length ++ (Bytes.ofText s ++ rest) := by
    rw [encode_text, List.append_assoc]
  cases h with
  | bytes fits =>
    cases h' with
    | bytes fits' =>
      rw [hBytes, hBytes] at hSame
      obtain ⟨-, hLength, hRest⟩ := head_append_inj (by decide) (by decide) fits fits' hSame
      obtain ⟨rfl, hSuffix⟩ := List.append_inj hRest hLength
      exact ⟨rfl, hSuffix⟩
    | text fits' =>
      rw [hBytes, hText] at hSame
      exact (head_append_ne (by decide) (by decide) (by decide) _ _ _ _ hSame).elim
  | text fits =>
    cases h' with
    | bytes fits' =>
      rw [hBytes, hText] at hSame
      exact (head_append_ne (by decide) (by decide) (by decide) _ _ _ _ hSame).elim
    | text fits' =>
      rw [hText, hText] at hSame
      obtain ⟨-, hLength, hRest⟩ := head_append_inj (by decide) (by decide) fits fits' hSame
      obtain ⟨hOctets, hSuffix⟩ := List.append_inj hRest hLength
      rw [Bytes.ofText_inj.mp hOctets]
      exact ⟨rfl, hSuffix⟩

theorem encodeItems_inj (hCount : vs.length = vs'.length) (h : ∀ v ∈ vs, IsString v)
    (h' : ∀ v ∈ vs', IsString v) (hSame : encodeItems vs = encodeItems vs') : vs = vs' := by
  induction vs generalizing vs' with
  | nil => exact (List.length_eq_zero_iff.mp hCount.symm).symm
  | cons v vs ih =>
    cases vs' with
    | nil => cases hCount
    | cons v' vs' =>
      obtain ⟨hFirst, hRest⟩ := List.forall_mem_cons.mp h
      obtain ⟨hFirst', hRest'⟩ := List.forall_mem_cons.mp h'
      obtain ⟨rfl, hItems⟩ := hFirst.append_inj hFirst' hSame
      rw [ih (Nat.succ.inj hCount) hRest hRest' hItems]

/-- A list of strings shows how many there are, of which kind each of them is and where it ends. -/
theorem encode_list_inj {fixed fixed' : Bool} (hCount : vs.length < 2 ^ 64) (hCount' : vs'.length < 2 ^ 64)
    (h : ∀ v ∈ vs, IsString v) (h' : ∀ v ∈ vs', IsString v)
    (hSame : encode (.list fixed vs) = encode (.list fixed' vs')) : vs = vs' := by
  rw [encode_list, encode_list] at hSame
  obtain ⟨-, hLength, hItems⟩ := head_append_inj (by decide) (by decide) hCount hCount' hSame
  exact encodeItems_inj hLength h h' hItems

end TenantVault.Cbor
