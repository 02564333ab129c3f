import Mathlib.Data.List.TakeWhile
import TenantVault.Proofs.Encodings

/-! # Texts of principals

A text is accepted exactly if it is the text of a principal, with or without blanks around it, and it
stands for that principal. Every principal so has one text, and every accepted text one principal.
-/

namespace TenantVault

namespace Text

variable {p : Char → Bool}

/-- What `trimWhile` takes away at both ends. -/
theorem exists_of_trimWhile (p : Char → Bool) (cs : List Char) : ∃ before after,
    (∀ c ∈ before, p c = true) ∧ (∀ c ∈ after, p c = true) ∧
      cs = before ++ trimWhile p cs ++ after := by
  have hEnd : cs.dropWhile p = trimWhile p cs ++ ((cs.dropWhile p).reverse.takeWhile p).reverse := by
    rw [trimWhile, ← List.reverse_append, List.takeWhile_append_dropWhile, List.reverse_reverse]
  refine ⟨cs.takeWhile p, ((cs.dropWhile p).reverse.takeWhile p).reverse, ?_, ?_, ?_⟩
  · intro c hc
    exact List.mem_takeWhile_imp hc
  · intro c hc
    exact List.mem_takeWhile_imp (List.mem_reverse.mp hc)
  · rw [List.append_assoc, ← hEnd, List.takeWhile_append_dropWhile]

theorem trimWhile_between {before core after : List Char} (hBefore : ∀ c ∈ before, p c = true)
    (hCore : ∀ c ∈ core, p c = false) (hAfter : ∀ c ∈ after, p c = true) :
    trimWhile p (before ++ core ++ after) = core := by
  have hReversed : ∀ c ∈ after.reverse, p c = true := fun c hc => hAfter c (List.mem_reverse.mp hc)
  rw [trimWhile, List.append_assoc, List.dropWhile_append_of_pos hBefore]
  cases core with
  | nil =>
    have hNothing : after.dropWhile p = [] := List.dropWhile_eq_nil_iff.mpr hAfter
    rw [List.nil_append, hNothing]
    rfl
  | cons c core =>
    have hFirst : ¬ p c = true := by simp [hCore c List.mem_cons_self]
    rw [List.cons_append, List.dropWhile_cons_of_neg hFirst, ← List.cons_append, List.reverse_append,
      List.dropWhile_append_of_pos hReversed, dropWhile_of_none, List.reverse_reverse]
    exact fun d hd => hCore d (List.mem_reverse.mp hd)

end Text

namespace Principal

variable {p q : Principal} {text : String}

/-- The text of a principal, and nothing but blanks around it. -/
def Spells (text : String) (p : Principal) : Prop :=
  ∃ before after : List Char, (∀ c ∈ before, Text.isBlank c = true) ∧
    (∀ c ∈ after, Text.isBlank c = true) ∧ text.toList = before ++ p.toText.toList ++ after

theorem toList_toText (p : Principal) : p.toText.toList = p.textChars := String.toList_ofList

theorem spells_iff_trim : Spells text p ↔ Text.trim text.toList = p.toText.toList := by
  rw [toList_toText]
  constructor
  · rintro ⟨before, after, hBefore, hAfter, hText⟩
    rw [hText, toList_toText]
    exact Text.trimWhile_between hBefore (fun _ => not_isBlank_of_mem_textChars) hAfter
  · intro hTrim
    obtain ⟨before, after, hBefore, hAfter, hText⟩ := Text.exists_of_trimWhile Text.isBlank text.toList
    refine ⟨before, after, hBefore, hAfter, ?_⟩
    rw [toList_toText, ← hTrim]
    exact hText

/-- The reader compares what it has read with what it would write itself. -/
theorem trim_of_ofText (h : ofText text = .ok p) : Text.trim text.toList = p.textChars := by
  unfold ofText at h
  generalize Text.trim text.toList = trimmed at h ⊢
  dsimp only at h
  split at h
  · cases h
  · split at h
    · cases h
    · next octets hDecoded =>
      clear hDecoded
      generalize octets.drop 4 = raw at h
      split at h
      · cases h
      · split at h
        · cases h
        · split at h
          · split at h
            · next hCanonical =>
              cases h
              exact hCanonical.symm
            · cases h
          · cases h

theorem ofText_eq_ok_iff : ofText text = .ok p ↔ Spells text p := by
  rw [spells_iff_trim, toList_toText]
  exact ⟨trim_of_ofText, ofText_of_trim⟩

theorem spells_toText (p : Principal) : Spells p.toText p :=
  ⟨[], [], nofun, nofun, by rw [List.nil_append, List.append_nil]⟩

theorem eq_of_spells (h : Spells text p) (h' : Spells text q) : p = q := by
  rw [← ofText_eq_ok_iff] at h h'
  rw [h] at h'
  cases h'
  rfl

/-- The texts that are accepted, what they stand for, and that nothing has two names or one name two
meanings. -/
theorem ofText_iff_spells :
    (∀ p : Principal, ofText p.toText = .ok p) ∧
    (∀ text p, ofText text = .ok p ↔ Spells text p) ∧
    (∀ text, (∃ fault, ofText text = .error fault) ↔ ∀ p, ¬ Spells text p) ∧
    (∀ p q : Principal, p.toText = q.toText → p = q) ∧
    ∀ text text' p, ofText text = .ok p → ofText text' = .ok p →
      Text.trim text.toList = Text.trim text'.toList := by
  refine ⟨ofText_toText, fun _ _ => ofText_eq_ok_iff, ?_, ?_, ?_⟩
  · intro text
    simp only [← ofText_eq_ok_iff]
    cases ofText text with
    | ok p => simp
    | error fault => simp
  · intro p q hSame
    have hSpells := spells_toText q
    rw [← hSame] at hSpells
    exact eq_of_spells (spells_toText p) hSpells
  · intro text text' p hRead hRead'
    rw [trim_of_ofText hRead, trim_of_ofText hRead']

/-- Blanks around a text do not matter, capitals do. -/
theorem capitals_refused :
    ofText " 2vxsx-fae\n" = .ok .anonymous ∧ Text.trim " 2vxsx-fae\n".toList = "2vxsx-fae".toList ∧
      ∀ p, ¬ Spells "2VXSX-FAE" p := by
  obtain ⟨hRoundTrip, hRead, hRefused, -, hOne⟩ := ofText_iff_spells
  have hText : Principal.anonymous.toText = "2vxsx-fae" := by decide +kernel
  have hCapitals : ofText "2VXSX-FAE" = .error (.notCanonical "2VXSX-FAE") := by decide +kernel
  have hSpells : Spells " 2vxsx-fae\n" .anonymous := by
    refine ⟨[' '], ['\n'], List.forall_mem_singleton.mpr rfl, List.forall_mem_singleton.mpr rfl, ?_⟩
    rw [hText]
    decide
  have hBlanks := (hRead _ _).mpr hSpells
  have hSame := hOne _ _ _ hBlanks (hRoundTrip .anonymous)
  rw [hText] at hSame
  exact ⟨hBlanks, hSame, (hRefused _).mp ⟨_, hCapitals⟩⟩

end Principal

end TenantVault
