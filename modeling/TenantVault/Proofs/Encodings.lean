import Mathlib.Data.List.TakeDrop
import TenantVault.Config
import TenantVault.Json.Reader
import TenantVault.Setting.Key
import TenantVault.Text.Numeral

/-! # Encodings that are undone

Integers in decimal, octets in base 64 and base 32, and principals in their text form are read back as
what was written.
-/

namespace TenantVault

/-! ## Decimal digits -/

namespace Decimal

variable {n : Nat} {c : Char}

theorem isDigit_of_mem (h : c ∈ Nat.toDigits 10 n) : Json.isDigit c = true := by
  have hDigit := Nat.isDigit_of_mem_toDigits (by decide) (by decide) h
  simp only [Char.isDigit, Bool.and_eq_true, decide_eq_true_eq] at hDigit
  simp only [Json.isDigit, Bool.and_eq_true, decide_eq_true_eq]
  exact hDigit

theorem toDigits_eq_cons (n : Nat) : ∃ c cs, Nat.toDigits 10 n = c :: cs ∧ Json.isDigit c = true := by
  obtain ⟨c, cs, hDigits⟩ := List.exists_cons_of_ne_nil (Nat.toDigits_ne_nil (n := n) (b := 10))
  have hMem : c ∈ Nat.toDigits 10 n := by
    rw [hDigits]
    exact List.mem_cons_self
  exact ⟨c, cs, hDigits, isDigit_of_mem hMem⟩

theorem digitsValue_toDigits (n : Nat) : Json.digitsValue (Nat.toDigits 10 n) = n :=
  Nat.ofDigitChars_ten_toDigits

theorem head_toDigits (h : n ≠ 0) : (Nat.toDigits 10 n).head? ≠ some '0' := by
  induction n using Nat.strongRecOn with
  | ind n ih =>
    rw [Nat.toDigits_eq_if (by decide)]
    split
    · next hSmall =>
      have all : ∀ n < 10, n ≠ 0 → ([n.digitChar] : List Char).head? ≠ some '0' := by decide
      exact all n hSmall h
    · have hQuotient := ih (n / 10) (by omega) (by omega)
      obtain ⟨c, cs, hDigits, -⟩ := toDigits_eq_cons (n / 10)
      rw [hDigits] at hQuotient ⊢
      exact hQuotient

/-- No number but zero starts with a zero. -/
theorem toDigits_cases (n : Nat) :
    Nat.toDigits 10 n = ['0'] ∨ ∃ c cs, Nat.toDigits 10 n = c :: cs ∧ c ≠ '0' := by
  by_cases h : n = 0
  · exact .inl (by rw [h]; rfl)
  · right
    obtain ⟨c, cs, hDigits, -⟩ := toDigits_eq_cons n
    refine ⟨c, cs, hDigits, ?_⟩
    intro hZero
    exact head_toDigits h (by rw [hDigits, hZero]; rfl)

theorem digitValue?_of_isDigit (h : Json.isDigit c = true) : Text.digitValue? c = some (c.toNat - 48) := by
  have hFound : (Text.decimalZeros.find? fun base => base ≤ c.toNat && c.toNat ≤ base + 9) = some 0x30 :=
    List.find?_cons_of_pos h
  rw [Text.digitValue?, hFound, Option.map_some]

theorem digitRun?_of_digits {cs : List Char} (hne : cs ≠ []) (h : ∀ c ∈ cs, Json.isDigit c = true) :
    Text.digitRun? Text.digitValue? cs = some (cs.map fun c => c.toNat - 48) := by
  induction cs with
  | nil => exact absurd rfl hne
  | cons c rest ih =>
    have hValue := digitValue?_of_isDigit (h c List.mem_cons_self)
    cases rest with
    | nil => simp [Text.digitRun?, hValue]
    | cons d rest =>
      have hRest := ih (List.cons_ne_nil d rest) fun x hx => h x (List.mem_cons_of_mem c hx)
      have hDigit := h d (List.mem_cons_of_mem c List.mem_cons_self)
      have hNoUnderscore : d ≠ '_' := by
        rintro rfl
        exact absurd hDigit (by decide)
      rw [Text.digitRun?]
      · rw [hValue, hRest]
        rfl
      · simp
      · intro more hMore
        exact hNoUnderscore (List.cons.inj hMore).1

theorem not_isSpace_of_isDigit (h : Json.isDigit c = true) : Text.isSpace c = false := by
  simp only [Json.isDigit, Bool.and_eq_true, decide_eq_true_eq] at h
  have hLower : 48 ≤ c.toNat := h.1
  have hUpper : c.toNat ≤ 57 := h.2
  simp only [Text.isSpace, Bool.or_eq_false_iff, Bool.and_eq_false_iff, decide_eq_false_iff_not,
    beq_eq_false_iff_ne]
  omega

theorem intChars_of_nonneg {n : Int} (h : 0 ≤ n) : Json.intChars n = Nat.toDigits 10 n.natAbs := by
  obtain ⟨m, rfl⟩ := Int.eq_ofNat_of_zero_le h
  rfl

theorem intChars_of_neg {n : Int} (h : n < 0) : Json.intChars n = '-' :: Nat.toDigits 10 n.natAbs := by
  obtain ⟨m, rfl⟩ := Int.eq_negSucc_of_lt_zero h
  rfl

end Decimal

namespace Text

theorem dropWhile_of_none {p : Char → Bool} {cs : List Char} (h : ∀ c ∈ cs, p c = false) :
    cs.dropWhile p = cs := by
  cases cs with
  | nil => rfl
  | cons c rest => exact List.dropWhile_cons_of_neg (by simp [h c List.mem_cons_self])

theorem span_append {p : Char → Bool} {cs rest : List Char} (hThere : ∀ c ∈ cs, p c = true)
    (hStop : ∀ c ∈ rest.head?, p c = false) : (cs ++ rest).span p = (cs, rest) := by
  have hRest : rest.takeWhile p = [] ∧ rest.dropWhile p = rest := by
    cases rest with
    | nil => exact ⟨rfl, rfl⟩
    | cons c rest => simp [hStop c rfl]
  rw [List.span_eq_takeWhile_dropWhile, List.takeWhile_append_of_pos hThere,
    List.dropWhile_append_of_pos hThere, hRest.1, hRest.2, List.append_nil]

theorem trimWhile_of_none {p : Char → Bool} {cs : List Char} (h : ∀ c ∈ cs, p c = false) :
    trimWhile p cs = cs := by
  rw [trimWhile, dropWhile_of_none h, dropWhile_of_none fun c hc => h c (List.mem_reverse.mp hc),
    List.reverse_reverse]

theorem not_isSpace_of_mem_intChars {n : Int} {c : Char} (h : c ∈ Json.intChars n) : isSpace c = false := by
  by_cases hSign : n < 0
  · rw [Decimal.intChars_of_neg hSign] at h
    rcases List.mem_cons.mp h with rfl | h
    · decide
    · exact Decimal.not_isSpace_of_isDigit (Decimal.isDigit_of_mem h)
  · rw [Decimal.intChars_of_nonneg (Int.not_lt.mp hSign)] at h
    exact Decimal.not_isSpace_of_isDigit (Decimal.isDigit_of_mem h)

theorem signed?_intChars {value? : List Char → Option Nat} {n : Int}
    (h : value? (Nat.toDigits 10 n.natAbs) = some n.natAbs) : signed? value? (Json.intChars n) = some n := by
  by_cases hSign : n < 0
  · have hNegated : -(n.natAbs : Int) = n := by omega
    rw [Decimal.intChars_of_neg hSign, signed?, h]
    exact congrArg some hNegated
  · obtain ⟨c, cs, hDigits, hDigit⟩ := Decimal.toDigits_eq_cons n.natAbs
    rw [Decimal.intChars_of_nonneg (Int.not_lt.mp hSign)]
    rw [hDigits] at h ⊢
    rw [signed?, h]
    · exact congrArg some (Int.natAbs_of_nonneg (Int.not_lt.mp hSign))
    · rintro rest ⟨⟩
      exact absurd hDigit (by decide)
    · rintro rest ⟨⟩
      exact absurd hDigit (by decide)

/-- An integer of at most `maxDigits` digits is read back from its decimal form. -/
theorem readInteger?_intText {n : Int} (h : n.natAbs < 10 ^ maxDigits) :
    readInteger? (SettingKey.intText n) = some n := by
  rw [readInteger?, SettingKey.intText, String.toList_ofList,
    trimWhile_of_none fun c hc => not_isSpace_of_mem_intChars hc]
  apply signed?_intChars
  have hLength : (Nat.toDigits 10 n.natAbs).length ≤ maxDigits :=
    (Nat.length_toDigits_le_iff (by decide) (by decide)).mpr h
  have hValue : ofDigits ((Nat.toDigits 10 n.natAbs).map fun c => c.toNat - 48) = n.natAbs := by
    rw [ofDigits, List.foldl_map]
    exact Decimal.digitsValue_toDigits n.natAbs
  rw [Decimal.digitRun?_of_digits Nat.toDigits_ne_nil fun _ => Decimal.isDigit_of_mem]
  simp only [Option.bind_eq_bind, Option.bind_some, List.length_map, if_neg (Nat.not_lt.mpr hLength), hValue,
    Option.pure_def]

end Text

/-! ## Base 64 -/

namespace Base64

theorem digit_ascii {n : Nat} (h : n < 64) : digit n ≠ '=' ∧ (digit n).toNat < 0x80 := by
  have all : ∀ n < 64, digit n ≠ '=' ∧ (digit n).toNat < 0x80 := by decide
  exact all n h

theorem decodeFrom_digit {n : Nat} (h : n < 64) (s : State) (acc : Bytes) (rest : List Char) :
    decodeFrom s acc (digit n :: rest) = decodeFrom (s.digit n).1 ((s.digit n).2 ++ acc) rest := by
  rw [decodeFrom, if_neg (digit_ascii h).1, value?_digit n h]

theorem ofNat_eq {a : UInt8} {n : Nat} (h : n = a.toNat) : UInt8.ofNat n = a := by
  rw [h, UInt8.ofNat_toNat]

theorem decodeFrom_encode (bs acc : Bytes) : decodeFrom start acc (encode bs) = .ok (acc.reverse ++ bs) := by
  fun_induction encode bs generalizing acc with
  | case1 => simp [decodeFrom, start]
  | case2 a =>
    have ha := a.toNat_lt
    have hFirst : UInt8.ofNat (a.toNat / 4 * 4 + a.toNat % 4 * 16 / 16) = a := ofNat_eq (by omega)
    rw [decodeFrom_digit (by omega), decodeFrom_digit (by omega)]
    simp only [State.digit, start, hFirst]
    simp [decodeFrom]
  | case3 a b =>
    have ha := a.toNat_lt
    have hb := b.toNat_lt
    have hFirst : UInt8.ofNat (a.toNat / 4 * 4 + (a.toNat % 4 * 16 + b.toNat / 16) / 16) = a :=
      ofNat_eq (by omega)
    have hSecond : UInt8.ofNat ((a.toNat % 4 * 16 + b.toNat / 16) % 16 * 16 + b.toNat % 16 * 4 / 4) = b :=
      ofNat_eq (by omega)
    rw [decodeFrom_digit (by omega), decodeFrom_digit (by omega), decodeFrom_digit (by omega)]
    simp only [State.digit, start, hFirst, hSecond]
    simp [decodeFrom]
  | case4 a b c rest ih =>
    have ha := a.toNat_lt
    have hb := b.toNat_lt
    have hc := c.toNat_lt
    have hFirst : UInt8.ofNat (a.toNat / 4 * 4 + (a.toNat % 4 * 16 + b.toNat / 16) / 16) = a :=
      ofNat_eq (by omega)
    have hSecond : UInt8.ofNat ((a.toNat % 4 * 16 + b.toNat / 16) % 16 * 16 +
        (b.toNat % 16 * 4 + c.toNat / 64) / 4) = b := ofNat_eq (by omega)
    have hThird : UInt8.ofNat ((b.toNat % 16 * 4 + c.toNat / 64) % 4 * 64 + c.toNat % 64) = c :=
      ofNat_eq (by omega)
    rw [decodeFrom_digit (by omega), decodeFrom_digit (by omega), decodeFrom_digit (by omega),
      decodeFrom_digit (by omega)]
    simp only [State.digit, start, hFirst, hSecond, hThird, List.nil_append, List.singleton_append]
    exact (ih _).trans (by simp)

theorem encode_ascii (bs : Bytes) : ∀ c ∈ encode bs, c.toNat < 0x80 := by
  have hPad : '='.toNat < 0x80 := by decide
  have hDigit : ∀ n < 64, (digit n).toNat < 0x80 := fun n hn => (digit_ascii hn).2
  fun_induction encode bs with
  | case1 => simp
  | case2 a =>
    have ha := a.toNat_lt
    simp only [List.forall_mem_cons]
    exact ⟨hDigit _ (by omega), hDigit _ (by omega), hPad, hPad, by simp⟩
  | case3 a b =>
    have ha := a.toNat_lt
    have hb := b.toNat_lt
    simp only [List.forall_mem_cons]
    exact ⟨hDigit _ (by omega), hDigit _ (by omega), hDigit _ (by omega), hPad, by simp⟩
  | case4 a b c rest ih =>
    have ha := a.toNat_lt
    have hb := b.toNat_lt
    have hc := c.toNat_lt
    simp only [List.forall_mem_cons]
    exact ⟨hDigit _ (by omega), hDigit _ (by omega), hDigit _ (by omega), hDigit _ (by omega), ih⟩

/-- Octets are read back from base 64. -/
theorem decode_render (bs : Bytes) : decode (render bs) = .ok bs := by
  rw [decode, render, String.toList_ofList, if_pos, decodeFrom_encode]
  · rfl
  · rw [List.all_eq_true]
    intro c hc
    exact decide_eq_true (encode_ascii bs c hc)

end Base64

/-! ## Base 32 -/

namespace Bytes

theorem ofNatLE_toNatLE (bs : Bytes) : ofNatLE bs.length (toNatLE bs) = bs := by
  induction bs with
  | nil => rfl
  | cons b rest ih =>
    have hLow : UInt8.ofNat (b.toNat + 256 * toNatLE rest) = b := by
      apply UInt8.toNat.inj
      rw [UInt8.toNat_ofNat']
      have hb := b.toNat_lt
      omega
    have hHigh : (b.toNat + 256 * toNatLE rest) / 256 = toNatLE rest := by
      have hb := b.toNat_lt
      omega
    rw [List.length_cons, toNatLE, ofNatLE, hLow, hHigh, ih]

theorem ofNatBE_toNatBE (bs : Bytes) : ofNatBE bs.length (toNatBE bs) = bs := by
  have hReverse := ofNatLE_toNatLE bs.reverse
  rw [List.length_reverse] at hReverse
  rw [ofNatBE, toNatBE, hReverse, List.reverse_reverse]

theorem toNatLE_lt (bs : Bytes) : toNatLE bs < 256 ^ bs.length := by
  induction bs with
  | nil => simp [toNatLE]
  | cons b rest ih =>
    have hb := b.toNat_lt
    rw [toNatLE, List.length_cons, Nat.pow_succ]
    omega

theorem toNatBE_lt (bs : Bytes) : toNatBE bs < 256 ^ bs.length := by
  rw [toNatBE, ← List.length_reverse]
  exact toNatLE_lt bs.reverse

theorem toNatBE_append_zeros (bs : Bytes) (count : Nat) :
    toNatBE (bs ++ List.replicate count 0) = 256 ^ count * toNatBE bs := by
  have hZeros : toNatLE (List.replicate count 0) = 0 := by
    induction count with
    | zero => rfl
    | succ count ih => simp [List.replicate_succ, toNatLE, ih]
  rw [toNatBE, List.reverse_append, List.reverse_replicate, toNatLE_append, hZeros, List.length_replicate,
    Nat.zero_add, toNatBE]

end Bytes

namespace Base32

theorem length_digits (count n : Nat) : (digits count n).length = count := by
  induction count generalizing n with
  | zero => rfl
  | succ count ih => simp [digits, ih]

theorem lt_of_mem_digits {count n d : Nat} (h : d ∈ digits count n) : d < 32 := by
  induction count generalizing n with
  | zero => exact absurd h List.not_mem_nil
  | succ count ih =>
    rcases List.mem_append.mp h with h | h
    · exact ih h
    · rw [List.mem_singleton.mp h]
      exact Nat.mod_lt n (by decide)

theorem ofDigits_digits (count n : Nat) : ofDigits (digits count n) = n % 32 ^ count := by
  induction count generalizing n with
  | zero => simp [digits, ofDigits, Nat.mod_one]
  | succ count ih =>
    have hLast : ofDigits (digits (count + 1) n) = 32 * ofDigits (digits count (n / 32)) + n % 32 := by
      rw [digits, ofDigits, List.foldl_append]
      rfl
    rw [hLast, ih, Nat.pow_succ, Nat.mul_comm (32 ^ count) 32, Nat.mod_mul]
    omega

theorem take_digits (kept dropped n : Nat) :
    (digits (kept + dropped) n).take kept = digits kept (n / 32 ^ dropped) := by
  induction dropped generalizing n with
  | zero =>
    rw [Nat.pow_zero, Nat.div_one]
    exact List.take_of_length_le (Nat.le_of_eq (length_digits kept n))
  | succ dropped ih =>
    rw [← Nat.add_assoc, digits, List.take_append_of_le_length (by rw [length_digits]; omega), ih,
      Nat.div_div_eq_div_mul, Nat.pow_succ, Nat.mul_comm]

/-- How many digits stand for a group of octets. -/
def width (size : Nat) : Nat := (8 * size + 4) / 5

def groupDigits (bs : Bytes) : List Nat :=
  (digits 8 (Bytes.toNatBE (bs ++ List.replicate (5 - bs.length) 0))).take (width bs.length)

def allDigits (bs : Bytes) : List Nat := (Bytes.chunks 5 bs).flatMap groupDigits

theorem encode_eq (bs : Bytes) : encode bs = (allDigits bs).map digit := by
  rw [allDigits, List.map_flatMap]
  rfl

theorem lt_of_mem_allDigits {bs : Bytes} {d : Nat} (h : d ∈ allDigits bs) : d < 32 := by
  obtain ⟨group, -, hd⟩ := List.mem_flatMap.mp h
  exact lt_of_mem_digits (List.mem_of_mem_take hd)

section Group

variable {bs : Bytes}

theorem length_groupDigits (h : bs.length ≤ 5) : (groupDigits bs).length = width bs.length := by
  rw [groupDigits, List.length_take, length_digits, width]
  omega

/-- The digits of a group followed by zeros are the octets of the group followed by zeros. -/
theorem ofDigits_groupDigits (h : bs.length ≤ 5) :
    ofDigits (groupDigits bs) * 32 ^ (8 - width bs.length) =
      Bytes.toNatBE (bs ++ List.replicate (5 - bs.length) 0) := by
  have hWidth : width bs.length ≤ 8 := by rw [width]; omega
  -- The digits that are left out are zero, since they stand for nothing but the zeros behind the group.
  have hDivides : ∀ size ≤ 5, 32 ^ (8 - width size) ∣ 256 ^ (5 - size) := by decide
  have hSplit : 8 = width bs.length + (8 - width bs.length) := by omega
  have hBound : Bytes.toNatBE (bs ++ List.replicate (5 - bs.length) 0) < 32 ^ 8 := by
    have hLength : (bs ++ List.replicate (5 - bs.length) 0).length = 5 := by
      simp only [List.length_append, List.length_replicate]
      omega
    have hLess := Bytes.toNatBE_lt (bs ++ List.replicate (5 - bs.length) 0)
    rw [hLength] at hLess
    exact hLess
  have hFactor := Bytes.toNatBE_append_zeros bs (5 - bs.length)
  have hExact : 32 ^ (8 - width bs.length) ∣ Bytes.toNatBE (bs ++ List.replicate (5 - bs.length) 0) := by
    rw [hFactor]
    exact Nat.dvd_mul_right_of_dvd (hDivides bs.length h) _
  generalize hNumber : Bytes.toNatBE (bs ++ List.replicate (5 - bs.length) 0) = number at *
  have hDigits : groupDigits bs = digits (width bs.length) (number / 32 ^ (8 - width bs.length)) := by
    rw [groupDigits, hNumber]
    conv_lhs => rw [hSplit]
    exact take_digits _ _ _
  have hQuotient : number / 32 ^ (8 - width bs.length) < 32 ^ width bs.length := by
    rw [Nat.div_lt_iff_lt_mul (Nat.pow_pos (by decide)), ← Nat.pow_add, ← hSplit]
    exact hBound
  rw [hDigits, ofDigits_digits, Nat.mod_eq_of_lt hQuotient, Nat.div_mul_cancel hExact]

theorem ofNatBE_groupDigits (h : bs.length ≤ 5) :
    Bytes.ofNatBE 5 (ofDigits (groupDigits bs) * 32 ^ (8 - width bs.length)) =
      bs ++ List.replicate (5 - bs.length) 0 := by
  have hLength : (bs ++ List.replicate (5 - bs.length) 0).length = 5 := by
    rw [List.length_append, List.length_replicate]
    omega
  have hOctets := Bytes.ofNatBE_toNatBE (bs ++ List.replicate (5 - bs.length) 0)
  rw [hLength] at hOctets
  rw [ofDigits_groupDigits h, hOctets]

theorem decodeGroups_groupDigits (h : bs.length ≤ 5) : decodeGroups (groupDigits bs) = bs := by
  have hLength := length_groupDigits h
  have hWidth : width bs.length ≤ 8 := by rw [width]; omega
  have hSize : 5 * width bs.length / 8 = bs.length := by rw [width]; omega
  rw [decodeGroups, dif_neg (by omega), hLength, ofNatBE_groupDigits h, hSize, List.take_left]

end Group

theorem allDigits_nil : allDigits [] = [] := by rw [allDigits, Bytes.chunks, List.flatMap_nil]

theorem allDigits_cons (b : UInt8) (rest : Bytes) :
    allDigits (b :: rest) = groupDigits (b :: rest.take 4) ++ allDigits (rest.drop 4) := by
  rw [allDigits, Bytes.chunks]
  rfl

theorem length_firstGroup (b : UInt8) (rest : Bytes) : (b :: rest.take 4).length ≤ 5 := by
  rw [List.length_cons, List.length_take]
  omega

theorem length_allDigits (bs : Bytes) :
    (allDigits bs).length = 8 * (bs.length / 5) + width (bs.length % 5) := by
  fun_induction Bytes.chunks 5 bs with
  | case1 => rw [allDigits_nil]; rfl
  | case2 b rest ih =>
    have hGroup := length_firstGroup b rest
    rw [allDigits_cons, List.length_append, length_groupDigits hGroup, ih]
    simp only [width, List.length_cons, List.length_take, List.length_drop, Nat.add_one_sub_one]
    omega

theorem decodeGroups_allDigits (bs : Bytes) : decodeGroups (allDigits bs) = bs := by
  fun_induction Bytes.chunks 5 bs with
  | case1 =>
    rw [allDigits_nil, decodeGroups]
    rfl
  | case2 b rest ih =>
    have hGroup := length_firstGroup b rest
    rw [allDigits_cons]
    -- Only the last group may be short; the decoder tells it by having at most eight digits left.
    by_cases hLast : rest.length ≤ 4
    · rw [List.drop_eq_nil_of_le hLast, List.take_of_length_le hLast] at *
      rw [allDigits_nil, List.append_nil]
      exact decodeGroups_groupDigits hGroup
    · have hFull : (b :: rest.take 4).length = 5 := by
        rw [List.length_cons, List.length_take]
        omega
      have hDigits : (groupDigits (b :: rest.take 4)).length = 8 := by
        rw [length_groupDigits hGroup, hFull]
        rfl
      have hMore : 0 < (allDigits (rest.drop 4)).length := by
        rw [length_allDigits, List.length_drop, width]
        omega
      have hOctets := ofNatBE_groupDigits hGroup
      rw [hFull] at hOctets
      rw [decodeGroups, dif_pos (by rw [List.length_append]; omega), List.take_left' hDigits,
        List.drop_left' hDigits, ih]
      have hWhole : 32 ^ (8 - width 5) = 1 := by decide
      rw [hWhole, Nat.mul_one, Nat.sub_self, List.replicate_zero, List.append_nil] at hOctets
      rw [hOctets, List.cons_append, List.take_append_drop]

theorem dropPadding_of_none {cs : List Char} (h : '=' ∉ cs) : dropPadding cs = cs := by
  rw [dropPadding, Text.dropWhile_of_none, List.reverse_reverse]
  intro c hc
  exact decide_eq_false fun hPad => h (hPad ▸ List.mem_reverse.mp hc)

theorem mapM_digit {ds : List Nat} (h : ∀ d ∈ ds, d < 32) : (ds.map digit).mapM value? = some ds := by
  induction ds with
  | nil => rfl
  | cons d rest ih =>
    rw [List.map_cons, List.mapM_cons, value?_digit d (h d List.mem_cons_self),
      ih fun x hx => h x (List.mem_cons_of_mem d hx)]
    rfl

/-- Octets are read back from base 32. -/
theorem decode?_encode (bs : Bytes) : decode? (encode bs) = some bs := by
  have hPadding : '=' ∉ (allDigits bs).map digit := by
    have all : ∀ d < 32, digit d ≠ '=' := by decide
    intro hMem
    obtain ⟨d, hd, hDigit⟩ := List.mem_map.mp hMem
    exact all d (lt_of_mem_allDigits hd) hDigit
  have hLength := length_allDigits bs
  rw [encode_eq, decode?, dropPadding_of_none hPadding, List.length_map]
  rw [if_pos, mapM_digit fun d => lt_of_mem_allDigits]
  · rw [Option.bind_eq_bind, Option.bind_some, decodeGroups_allDigits]
    rfl
  · rw [hLength, width]
    have hSizes : bs.length % 5 < 5 := Nat.mod_lt _ (by decide)
    simp only [List.mem_cons, List.not_mem_nil, or_false]
    omega

theorem mem_encode {bs : Bytes} {c : Char} (h : c ∈ encode bs) : ∃ d < 32, c = digit d := by
  rw [encode_eq] at h
  obtain ⟨d, hd, rfl⟩ := List.mem_map.mp h
  exact ⟨d, lt_of_mem_allDigits hd, rfl⟩

end Base32

/-! ## Principals -/

namespace Principal

theorem flatten_groups (cs : List Char) : (groups cs).flatten = cs := by
  fun_induction groups cs with
  | case1 => rfl
  | case2 c rest ih => rw [List.flatten_cons, ih, List.cons_append, List.take_append_drop]

theorem mem_intercalate {parts : List (List Char)} {c : Char} (h : c ∈ List.intercalate ['-'] parts) :
    c = '-' ∨ c ∈ parts.flatten := by
  induction parts with
  | nil => exact absurd h List.not_mem_nil
  | cons part rest ih =>
    cases rest with
    | nil => exact .inr (by simpa [List.intercalate] using h)
    | cons next rest =>
      simp only [List.intercalate, List.intersperse, List.flatten_cons, List.mem_append,
        List.mem_singleton] at h ih ⊢
      rcases h with h | h | h
      · exact .inr (.inl h)
      · exact .inl h
      · rcases ih h with h | h
        · exact .inl h
        · exact .inr (.inr h)

theorem filter_intercalate {parts : List (List Char)} (h : '-' ∉ parts.flatten) :
    (List.intercalate ['-'] parts).filter (· ≠ '-') = parts.flatten := by
  have hKept : ∀ cs : List Char, '-' ∉ cs → cs.filter (· ≠ '-') = cs := by
    intro cs hcs
    exact List.filter_eq_self.mpr fun c hc => decide_eq_true fun hDash => hcs (hDash ▸ hc)
  induction parts with
  | nil => rfl
  | cons part rest ih =>
    rw [List.flatten_cons, List.mem_append, not_or] at h
    cases rest with
    | nil => simpa [List.intercalate] using hKept part h.1
    | cons next rest =>
      have hRest := ih h.2
      simp only [List.intercalate, List.intersperse, List.flatten_cons, List.filter_append] at hRest ⊢
      rw [hKept part h.1, hRest]
      rfl

/-- The lowercase form of the digits of base 32. -/
def lowDigit (d : Nat) : Char := (Base32.digit d).toLower

theorem lowDigit_spec {d : Nat} (h : d < 32) :
    capital (lowDigit d) = [Base32.digit d] ∧ lowDigit d ≠ '-' ∧ Text.isBlank (lowDigit d) = false := by
  have all : ∀ d < 32, capital (lowDigit d) = [Base32.digit d] ∧ lowDigit d ≠ '-' ∧
      Text.isBlank (lowDigit d) = false := by decide
  exact all d h

variable {p : Principal}

/-- The octets behind the text of a principal. -/
def checked (p : Principal) : Bytes := Crc32.octets p.raw ++ p.raw

theorem mem_lowered {c : Char} (h : c ∈ (Base32.encode p.checked).map Char.toLower) :
    ∃ d < 32, c = lowDigit d := by
  obtain ⟨upper, hUpper, rfl⟩ := List.mem_map.mp h
  obtain ⟨d, hd, rfl⟩ := Base32.mem_encode hUpper
  exact ⟨d, hd, rfl⟩

theorem not_isBlank_of_mem_textChars {c : Char} (h : c ∈ p.textChars) : Text.isBlank c = false := by
  rcases mem_intercalate h with rfl | hDigit
  · decide
  · rw [flatten_groups] at hDigit
    obtain ⟨d, hd, rfl⟩ := mem_lowered hDigit
    exact (lowDigit_spec hd).2.2

theorem trim_textChars (p : Principal) : Text.trim p.textChars = p.textChars :=
  Text.trimWhile_of_none fun _ => not_isBlank_of_mem_textChars

theorem capital_toLower {cs : List Char} (h : ∀ c ∈ cs, ∃ d < 32, c = Base32.digit d) :
    (cs.map Char.toLower).flatMap capital = cs := by
  induction cs with
  | nil => rfl
  | cons c rest ih =>
    obtain ⟨d, hd, rfl⟩ := h c List.mem_cons_self
    have hCapital : capital (Base32.digit d).toLower = [Base32.digit d] := (lowDigit_spec hd).1
    rw [List.map_cons, List.flatMap_cons, hCapital, ih fun x hx => h x (List.mem_cons_of_mem _ hx)]
    rfl

theorem compact_textChars (p : Principal) : compact p.textChars = Base32.encode p.checked := by
  have hNoDash : '-' ∉ (groups ((Base32.encode p.checked).map Char.toLower)).flatten := by
    rw [flatten_groups]
    intro hDash
    obtain ⟨d, hd, hDigit⟩ := mem_lowered hDash
    exact (lowDigit_spec hd).2.1 hDigit.symm
  rw [compact, textChars]
  exact (congrArg (List.flatMap capital) ((filter_intercalate hNoDash).trans (flatten_groups _))).trans
    (capital_toLower fun c => Base32.mem_encode)

theorem encode_checked_ne_nil (p : Principal) : Base32.encode p.checked ≠ [] := by
  intro hNil
  have hDigits := Base32.length_allDigits p.checked
  rw [Base32.encode_eq, List.map_eq_nil_iff] at hNil
  rw [hNil, checked, List.length_append, Crc32.length_octets, List.length_nil, Base32.width] at hDigits
  omega

theorem ofText_of_trim {text : String} (h : Text.trim text.toList = p.textChars) :
    ofText text = .ok p := by
  have hLength := Crc32.length_octets p.raw
  have hHead : p.checked.take 4 = Crc32.octets p.raw := List.take_left' hLength
  have hTail : p.checked.drop 4 = p.raw := List.drop_left' hLength
  have hSize : ¬p.checked.length < 4 := by
    rw [checked, List.length_append]
    omega
  rw [ofText, h, compact_textChars]
  simp only [List.isEmpty_iff, encode_checked_ne_nil, if_false, Base32.decode?_encode, hHead, hTail, hSize]
  simp [p.length_le]

/-- A principal is read back from its text. -/
theorem ofText_toText (p : Principal) : ofText p.toText = .ok p :=
  ofText_of_trim (by rw [toText, String.toList_ofList, trim_textChars])

end Principal

/-- A principal is read back from a snapshot. -/
theorem Config.principalOf_toText (p : Principal) : Config.principalOf p.toText = .ok p := by
  rw [Config.principalOf, Principal.ofText_toText]

end TenantVault
