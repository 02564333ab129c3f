import Mathlib.Data.List.Basic
import TenantVault.Text.LowerCase

/-! # Lowercase is reached in one step

No lowercase form is mapped again, neither by the table nor by the rules for single characters. A text that
is given in lowercase twice is therefore the text given in lowercase once.
-/

namespace TenantVault.Text

/-! ## Code points as bits -/

/-- Some code points as the bits of a number, which makes it cheap to see that two lists have none in common. -/
def bitmap (codes : List Nat) : Nat := codes.foldl (fun bits code => bits ||| 1 <<< code) 0

theorem testBit_foldl_iff {codes : List Nat} {bits n : Nat} :
    (codes.foldl (fun bits code => bits ||| 1 <<< code) bits).testBit n ↔ bits.testBit n ∨ n ∈ codes := by
  induction codes generalizing bits with
  | nil => simp
  | cons code codes ih =>
    have hFirst : (1 <<< code).testBit n ↔ n = code := by
      rw [Nat.one_shiftLeft, Nat.testBit_two_pow, decide_eq_true_eq, eq_comm]
    rw [List.foldl_cons, ih, Nat.testBit_or, Bool.or_eq_true, hFirst, List.mem_cons, or_assoc]

theorem testBit_bitmap_iff {codes : List Nat} {n : Nat} : (bitmap codes).testBit n ↔ n ∈ codes := by
  rw [bitmap, testBit_foldl_iff]
  simp

theorem not_mem_of_and_eq_zero {codes codes' : List Nat} (h : bitmap codes &&& bitmap codes' = 0) {n : Nat}
    (hMem : n ∈ codes) : n ∉ codes' := by
  intro hMem'
  have hBit : (bitmap codes &&& bitmap codes').testBit n = true := by
    rw [Nat.testBit_and, Bool.and_eq_true]
    exact ⟨testBit_bitmap_iff.mpr hMem, testBit_bitmap_iff.mpr hMem'⟩
  rw [h, Nat.zero_testBit] at hBit
  cases hBit

/-! ## The table -/

/-- First code point, last one, stride and distance. -/
abbrev Row := Nat × Nat × Nat × Int

/-- The code points that a row maps. -/
def Row.codes (row : Row) : List Nat :=
  (List.range' row.1 (row.2.1 + 1 - row.1)).filter fun n => (n - row.1) % row.2.2.1 == 0

def Row.form (row : Row) (n : Nat) : Nat := ((n : Int) + row.2.2.2).toNat

theorem Row.mem_codes_iff {row : Row} {n : Nat} :
    n ∈ row.codes ↔ (row.1 ≤ n && n ≤ row.2.1 && (n - row.1) % row.2.2.1 == 0) = true := by
  obtain ⟨first, last, stride, distance⟩ := row
  simp only [codes, List.mem_filter, List.mem_range'_1, Bool.and_eq_true, decide_eq_true_eq]
  refine and_congr_left fun _ => and_congr_right fun hFirst => ?_
  omega

/-- The code points that are mapped: those of the table, and the letter that is mapped to two. -/
def mapped : List Nat := 0x130 :: Table.lowercase.flatMap Row.codes

/-- All forms: those of the letters that are mapped by rules, those of ASCII characters, and those of the table. -/
def forms : List Nat :=
  [0x3C2, 0x3C3, 0x69, 0x307] ++ (List.range 0x80).map (fun n => (Char.ofNat n).toLower.toNat) ++
    Table.lowercase.flatMap fun row => (Row.codes row).map (Row.form row)

theorem forms_not_mapped : bitmap forms &&& bitmap mapped = 0 := by decide +kernel

theorem toLower_of_not_capital : ∀ n < 0x80, ¬ (65 ≤ n ∧ n ≤ 90) → (Char.ofNat n).toLower = Char.ofNat n := by
  decide +kernel

/-- All forms of the table are characters. -/
theorem forms_valid : ∀ row ∈ Table.lowercase, row.2.1 + row.2.2.2 < 0xD800 ∨
    0xE000 ≤ row.1 + row.2.2.2 ∧ row.2.1 + row.2.2.2 < 0x110000 := by decide +kernel

/-! ## Characters -/

/-- A character that stays what it is. -/
def Settled (c : Char) : Prop := c.toNat ∉ mapped

variable {c : Char}

theorem settled_of_form (h : c.toNat ∈ forms) : Settled c := not_mem_of_and_eq_zero forms_not_mapped h

theorem mem_mapped {row : Row} {n : Nat} (hRow : row ∈ Table.lowercase) (hCode : n ∈ row.codes) : n ∈ mapped :=
  List.mem_cons_of_mem _ (List.mem_flatMap.mpr ⟨row, hRow, hCode⟩)

theorem Settled.ne_dotted (h : Settled c) : c.toNat ≠ 0x130 := by
  intro hDotted
  apply h
  rw [hDotted]
  exact List.mem_cons_self

theorem Settled.ne_sigma (h : Settled c) : c.toNat ≠ 0x3A3 := by
  intro hSigma
  have hCode : 0x3A3 ∈ Row.codes (931, 939, 1, 32) := by decide
  apply h
  rw [hSigma]
  exact mem_mapped (by decide) hCode

theorem Settled.lowerChar_eq (h : Settled c) : lowerChar c = c := by
  rw [lowerChar]
  split
  · next hAscii =>
    have hOther : ¬ (65 ≤ c.toNat ∧ c.toNat ≤ 90) := by
      rintro ⟨hFirst, hLast⟩
      have hCode : c.toNat ∈ Row.codes (65, 90, 1, 32) := by
        simp [Row.mem_codes_iff, hFirst, hLast, Nat.mod_one]
      exact h (mem_mapped (by decide) hCode)
    have hSame := toLower_of_not_capital c.toNat hAscii hOther
    rwa [Char.ofNat_toNat] at hSame
  · split
    · next row hFind =>
      have hCode : c.toNat ∈ Row.codes row := Row.mem_codes_iff.mpr (List.find?_some hFind :)
      exact absurd (mem_mapped (List.mem_of_find?_eq_some hFind) hCode) h
    · rfl

theorem settled_lowerChar (hDotted : c.toNat ≠ 0x130) : Settled (lowerChar c) := by
  rw [lowerChar]
  split
  · next hAscii =>
    apply settled_of_form
    refine List.mem_append_left _ (List.mem_append_right _ (List.mem_map.mpr ⟨c.toNat, ?_, ?_⟩))
    · exact List.mem_range.mpr hAscii
    · rw [Char.ofNat_toNat]
  · split
    · next row hFind =>
      have hRow := List.mem_of_find?_eq_some hFind
      have hCode : c.toNat ∈ Row.codes row := Row.mem_codes_iff.mpr (List.find?_some hFind :)
      have hForm : Row.form row c.toNat ∈ forms :=
        List.mem_append_right _ (List.mem_flatMap.mpr ⟨row, hRow, List.mem_map_of_mem hCode⟩)
      have hValid : (Row.form row c.toNat).isValidChar := by
        have hEnds := forms_valid row hRow
        have hBounds := Row.mem_codes_iff.mp hCode
        simp only [Bool.and_eq_true, decide_eq_true_eq] at hBounds
        simp only [Row.form, Nat.isValidChar]
        omega
      have hChar : (Char.ofNat (Row.form row c.toNat)).toNat = Row.form row c.toNat := by
        rw [Char.ofNat, dif_pos hValid]
        rfl
      apply settled_of_form
      rw [← hChar] at hForm
      exact hForm
    · next hNone =>
      rw [List.find?_eq_none] at hNone
      intro hMapped
      obtain hSame | hCode := List.mem_cons.mp hMapped
      · exact hDotted hSame
      · obtain ⟨row, hRow, hCode⟩ := List.mem_flatMap.mp hCode
        exact hNone row hRow (Row.mem_codes_iff.mp hCode)

/-! ## Texts -/

theorem settled_lowerAfter (before cs : List Char) : ∀ c ∈ lowerAfter before cs, Settled c := by
  induction cs generalizing before with
  | nil => simp [lowerAfter]
  | cons c rest ih =>
    rw [lowerAfter, List.forall_mem_append]
    refine ⟨?_, ih _⟩
    split
    · split <;> simpa using settled_of_form (by decide)
    · split
      · simpa using ⟨settled_of_form (by decide), settled_of_form (by decide)⟩
      · next hDotted => simpa using settled_lowerChar hDotted

theorem lowerAfter_of_settled {cs : List Char} (h : ∀ c ∈ cs, Settled c) (before : List Char) :
    lowerAfter before cs = cs := by
  induction cs generalizing before with
  | nil => rfl
  | cons c rest ih =>
    obtain ⟨hFirst, hRest⟩ := List.forall_mem_cons.mp h
    rw [lowerAfter, ih hRest]
    simp [hFirst.ne_sigma, hFirst.ne_dotted, hFirst.lowerChar_eq]

theorem lower_lower (s : String) : lower (lower s) = lower s := by
  have hSettled := lowerAfter_of_settled (settled_lowerAfter [] s.toList) []
  simp [lower, hSettled]

end TenantVault.Text
