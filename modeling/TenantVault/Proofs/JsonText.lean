import TenantVault.Proofs.Encodings
import TenantVault.Proofs.Rebuild
import TenantVault.Store.Snapshot

/-! # Documents that are read back

A document without doubles whose integers fit into 64 bits and whose objects name no member twice is read
back from its text as it was. A number ends where a digit could not follow, so what is said of a document
inside a longer text depends on the character behind it.
-/

namespace TenantVault

namespace Json

/-- Documents without doubles, nested no deeper than so many lists and objects. -/
inductive Lossless : Nat → Json → Prop
  | null {depth : Nat} : Lossless depth null
  | bool {depth : Nat} (b : Bool) : Lossless depth (bool b)
  | int {depth : Nat} {n : Int} (least : -(2 ^ 63) ≤ n) (below : n < 2 ^ 64) : Lossless depth (int n)
  | text {depth : Nat} (s : String) : Lossless depth (text s)
  | list {depth : Nat} {items : List Json} (each : ∀ v ∈ items, Lossless depth v) :
    Lossless (depth + 1) (list items)
  | object {depth : Nat} {members : List (String × Json)} (names : (members.map Prod.fst).Nodup)
    (each : ∀ m ∈ members, Lossless depth m.2) : Lossless (depth + 1) (object members)

theorem Lossless.mono {shallow deep : Nat} {v : Json} (h : Lossless shallow v) (hDeep : shallow ≤ deep) :
    Lossless deep v := by
  induction h generalizing deep with
  | null => exact .null
  | bool b => exact .bool b
  | int least below => exact .int least below
  | text s => exact .text s
  | list each ih =>
    obtain ⟨deep, rfl⟩ := Nat.exists_eq_add_of_lt hDeep
    exact .list fun v hv => ih v hv (by omega)
  | object names each ih =>
    obtain ⟨deep, rfl⟩ := Nat.exists_eq_add_of_lt hDeep
    exact .object names fun m hm => ih m hm (by omega)

/-! ## Numbers -/

/-- What may come behind a document: nothing, or the next item, or the end of what it is part of. -/
def Follows : List Char → Prop
  | [] => True
  | c :: _ => c = ',' ∨ c = ']' ∨ c = Char.ofNat 0x7D

section Number

variable {rest : List Char}

theorem span_digits {ds : List Char} (hDigits : ∀ c ∈ ds, isDigit c = true) (h : Follows rest) :
    (ds ++ rest).span isDigit = (ds, rest) := by
  refine Text.span_append hDigits ?_
  cases rest with
  | nil => nofun
  | cons c rest =>
    rintro c ⟨⟩
    rcases h with rfl | rfl | rfl <;> rfl

theorem fraction?_of_follows (h : Follows rest) : fraction? rest = some (none, rest) := by
  cases rest with
  | nil => rfl
  | cons c rest => rcases h with rfl | rfl | rfl <;> rfl

theorem exponent?_of_follows (h : Follows rest) : exponent? rest = some (none, rest) := by
  cases rest with
  | nil => rfl
  | cons c rest => rcases h with rfl | rfl | rfl <;> rfl

theorem integer?_of_fits {n : Int} (least : -(2 ^ 63) ≤ n) (below : n < 2 ^ 64) :
    integer? n = some (int n) :=
  if_pos ⟨least, below⟩

theorem unsigned?_toDigits {negative : Bool} {n : Nat} {signed : Int}
    (hSigned : (if negative then -(n : Int) else n) = signed) (least : -(2 ^ 63) ≤ signed)
    (below : signed < 2 ^ 64) (h : Follows rest) :
    unsigned? negative (Nat.toDigits 10 n ++ rest) = some (int signed, rest) := by
  have hSpan := span_digits (fun _ => Decimal.isDigit_of_mem (n := n)) h
  have hValue := Decimal.digitsValue_toDigits n
  rw [unsigned?, hSpan]
  simp only [fraction?_of_follows h, exponent?_of_follows h, Option.bind_eq_bind, Option.bind_some, hValue,
    hSigned, integer?_of_fits least below]
  rcases Decimal.toDigits_cases n with hZero | ⟨c, cs, hDigits, hNonzero⟩
  · rw [hZero]
    rfl
  · rw [hDigits]
    split
    · next hEmpty => cases hEmpty
    · next hLeading => exact absurd (List.cons.inj hLeading).1 hNonzero
    · rfl

theorem number?_intChars {n : Int} (least : -(2 ^ 63) ≤ n) (below : n < 2 ^ 64) (h : Follows rest) :
    number? (intChars n ++ rest) = some (int n, rest) := by
  by_cases hSign : n < 0
  · rw [Decimal.intChars_of_neg hSign, List.cons_append, number?]
    exact unsigned?_toDigits (by simp only [if_true]; omega) least below h
  · obtain ⟨c, cs, hDigits, hDigit⟩ := Decimal.toDigits_eq_cons n.natAbs
    have hUnsigned : unsigned? false (Nat.toDigits 10 n.natAbs ++ rest) = some (int n, rest) :=
      unsigned?_toDigits (by simp only [Bool.false_eq_true, if_false]; omega) least below h
    rw [Decimal.intChars_of_nonneg (Int.not_lt.mp hSign)]
    rw [hDigits, List.cons_append] at hUnsigned ⊢
    rw [number?]
    · exact hUnsigned
    · rintro more ⟨⟩
      exact absurd hDigit (by decide)

end Number

/-! ## Texts -/

section Text

theorem unit?_append {cs : List Char} {unit : Nat} (h : unit? cs = some (unit, [])) (rest : List Char) :
    unit? (cs ++ rest) = some (unit, rest) := by
  match cs with
  | a :: b :: c :: d :: more =>
    simp only [unit?, Option.bind_eq_bind, Option.bind_eq_some_iff, Option.pure_def, Option.some.injEq,
      Prod.mk.injEq] at h
    obtain ⟨va, ha, vb, hb, vc, hc, vd, hd, hUnit, rfl⟩ := h
    simp only [List.cons_append, List.nil_append, unit?, ha, hb, hc, hd, Option.bind_eq_bind,
      Option.bind_some, hUnit, Option.pure_def]

theorem escaped?_control {c : Char} (h : c.toNat < 0x20) (rest : List Char) :
    escaped? ('u' :: Text.hex 4 c.toNat ++ rest) = some (c, rest) := by
  have all : ∀ n < 0x20, unit? (Text.hex 4 n) = some (n, []) := by decide
  have hUnit := unit?_append (all c.toNat h) rest
  rw [List.cons_append, escaped?, escapedUnit?, hUnit]
  simp only [Option.bind_eq_bind, Option.bind_some]
  rw [if_neg (by omega), if_neg (by omega)]
  simp

/-- A character is read back from its escaped form, whatever follows. -/
theorem textTail?_escapeChar (fuel : Nat) (acc : List Char) (c : Char) (rest : List Char) :
    textTail? (fuel + 1) acc (escapeChar c ++ rest) = textTail? fuel (c :: acc) rest := by
  have hSame : ∀ d : Char, c.toNat = d.toNat → c = d := fun d => Char.toNat_inj.mp
  unfold escapeChar
  split
  · next h => subst h; rfl
  split
  · next h => subst h; rfl
  split
  · next h => rw [hSame (Char.ofNat 8) h]; rfl
  split
  · next h => subst h; rfl
  split
  · next h => subst h; rfl
  split
  · next h => rw [hSame (Char.ofNat 12) h]; rfl
  split
  · next h => subst h; rfl
  split
  · next h =>
    have hControl := escaped?_control h rest
    rw [List.cons_append, textTail?, if_neg (by decide), if_pos rfl, hControl]
    rfl
  · next hNoQuote hNoBackslash _ _ _ _ _ hPrintable =>
    rw [List.singleton_append, textTail?, if_neg hNoQuote, if_neg hNoBackslash, if_neg hPrintable]

theorem textTail?_textChars (fuel : Nat) (acc cs rest : List Char) (h : cs.length < fuel) :
    textTail? fuel acc (cs.flatMap escapeChar ++ Text.doubleQuote :: rest) =
      some (String.ofList (acc.reverse ++ cs), rest) := by
  induction cs generalizing fuel acc with
  | nil =>
    obtain ⟨fuel, rfl⟩ := Nat.exists_eq_add_of_lt h
    simp [textTail?]
  | cons c cs ih =>
    obtain ⟨fuel, rfl⟩ := Nat.exists_eq_add_of_lt h
    have hRest := ih (cs.length + 1 + fuel) (c :: acc) (by omega)
    rw [List.length_cons, List.flatMap_cons, List.append_assoc, textTail?_escapeChar, hRest]
    simp

theorem length_le_escaped (cs : List Char) : cs.length ≤ (cs.flatMap escapeChar).length := by
  have hOne : ∀ c, 0 < (escapeChar c).length := by
    intro c
    unfold escapeChar
    repeat' split
    all_goals simp
  induction cs with
  | nil => exact Nat.zero_le _
  | cons c cs ih =>
    rw [List.length_cons, List.flatMap_cons, List.length_append]
    have hc := hOne c
    omega

theorem text?_textChars (s : String) (rest : List Char) : text? (textChars s ++ rest) = some (s, rest) := by
  have hLength := length_le_escaped s.toList
  have hTail := textTail?_textChars ((s.toList.flatMap escapeChar ++ Text.doubleQuote :: rest).length + 1) []
    s.toList rest (by rw [List.length_append]; omega)
  simp only [textChars, List.cons_append, List.append_assoc, List.nil_append, text?, if_true]
  rw [hTail]
  simp

end Text

/-! ## Lists and objects -/

/-- A document starts with no blank and with nothing that closes a list or an object. -/
def Starts : List Char → Prop
  | [] => False
  | c :: _ => isSpace c = false ∧ c ≠ ']' ∧ c ≠ Char.ofNat 0x7D

theorem Starts.skipSpace {cs : List Char} (h : Starts cs) : skipSpace cs = cs := by
  cases cs with
  | nil => rfl
  | cons c rest => exact List.dropWhile_cons_of_neg (by simp [h.1])

/-- A reader takes back a document and leaves what follows it. -/
structure TakesBack (item : Reader) (v : Json) : Prop where
  starts : ∀ rest, Starts (write v rest)
  grows : ∀ rest, rest.length < (write v rest).length
  reads : ∀ rest, Follows rest → item (write v rest) = some (v, rest)

section Parts

variable {item : Reader}

theorem follows_writeItems (vs : List Json) (rest : List Char) : Follows (writeItems vs (']' :: rest)) := by
  cases vs with
  | nil => exact .inr (.inl rfl)
  | cons v vs => exact .inl rfl

theorem follows_writeMembers (members : List (String × Json)) (rest : List Char) :
    Follows (writeMembers members (Char.ofNat 0x7D :: rest)) := by
  cases members with
  | nil => exact .inr (.inr rfl)
  | cons m members => exact .inl rfl

theorem length_writeItems {vs : List Json} (h : ∀ v ∈ vs, TakesBack item v) (rest : List Char) :
    vs.length + rest.length ≤ (writeItems vs rest).length := by
  induction vs with
  | nil => simp [writeItems]
  | cons v vs ih =>
    obtain ⟨hFirst, hOthers⟩ := List.forall_mem_cons.mp h
    have hLength := hFirst.grows (writeItems vs rest)
    have hRest := ih hOthers
    rw [writeItems, List.length_cons, List.length_cons]
    omega

theorem length_writeMembers {members : List (String × Json)} (h : ∀ m ∈ members, TakesBack item m.2)
    (rest : List Char) : members.length + rest.length ≤ (writeMembers members rest).length := by
  induction members with
  | nil => simp [writeMembers]
  | cons m members ih =>
    obtain ⟨hFirst, hOthers⟩ := List.forall_mem_cons.mp h
    have hLength := hFirst.grows (writeMembers members rest)
    have hRest := ih hOthers
    rw [writeMembers, List.length_append, List.length_cons, List.length_cons, List.length_cons]
    omega

theorem listTail?_writeItems (fuel : Nat) (acc : List Json) {vs : List Json}
    (h : ∀ v ∈ vs, TakesBack item v) (rest : List Char) (hFuel : vs.length < fuel) :
    listTail? item fuel acc (writeItems vs (']' :: rest)) = some (.list (acc.reverse ++ vs), rest) := by
  -- Every item takes one unit of fuel and one more is left for the bracket.
  induction vs generalizing fuel acc with
  | nil =>
    obtain ⟨fuel, rfl⟩ := Nat.exists_eq_add_of_lt hFuel
    rw [List.append_nil]
    rfl
  | cons v vs ih =>
    obtain ⟨fuel, rfl⟩ := Nat.exists_eq_add_of_lt hFuel
    obtain ⟨hItem, hOthers⟩ := List.forall_mem_cons.mp h
    have hRest := ih (vs.length + 1 + fuel) (v :: acc) hOthers (by omega)
    have hComma : skipSpace (',' :: write v (writeItems vs (']' :: rest))) =
        ',' :: write v (writeItems vs (']' :: rest)) := rfl
    rw [List.length_cons, writeItems, listTail?, hComma]
    simp only [(hItem.starts _).skipSpace, hItem.reads _ (follows_writeItems vs rest), Option.bind_eq_bind,
      Option.bind_some, hRest, List.reverse_cons, List.append_assoc, List.singleton_append]

theorem list?_write {v : Json} {vs : List Json} (h : ∀ w ∈ v :: vs, TakesBack item w) (rest : List Char) :
    list? item (write v (writeItems vs (']' :: rest))) = some (.list (v :: vs), rest) := by
  obtain ⟨hItem, hOthers⟩ := List.forall_mem_cons.mp h
  have hLength := length_writeItems hOthers (']' :: rest)
  have hTail := listTail?_writeItems ((writeItems vs (']' :: rest)).length + 1) [v] hOthers rest
    (Nat.lt_add_one_of_le (by omega))
  have hStarts := hItem.starts (writeItems vs (']' :: rest))
  have hReads := hItem.reads _ (follows_writeItems vs rest)
  rw [list?, hStarts.skipSpace]
  split
  · next hClosed =>
    rw [hClosed] at hStarts
    exact absurd rfl hStarts.2.1
  · rw [hReads]
    exact hTail

theorem starts_textChars (name : String) (rest : List Char) : Starts (textChars name ++ rest) := by
  exact ⟨rfl, by decide, by decide⟩

theorem member1?_write {v : Json} (hItem : TakesBack item v) {rest : List Char} (hFollows : Follows rest)
    (name : String) : member1? item (textChars name ++ ':' :: write v rest) = some ((name, v), rest) := by
  have hColon : skipSpace (':' :: write v rest) = ':' :: write v rest := rfl
  rw [member1?, text?_textChars]
  simp only [Option.bind_eq_bind, Option.bind_some, hColon, (hItem.starts rest).skipSpace,
    hItem.reads rest hFollows]
  rfl

theorem foldl_putRow_of_nodup {members : List (String × Json)} (names : (members.map Prod.fst).Nodup) :
    members.foldl (fun members m => Table.putRow m.1 m.2 members) [] = members := by
  apply Table.foldl_putRow
  rw [List.nil_append]
  refine List.Pairwise.imp ?_ names
  intro a b hab
  exact beq_eq_false_iff_ne.mpr hab

theorem objectTail?_writeMembers (fuel : Nat) (acc : List (String × Json)) {members : List (String × Json)}
    (h : ∀ m ∈ members, TakesBack item m.2) (rest : List Char) (hFuel : members.length < fuel)
    (names : ((acc.reverse ++ members).map Prod.fst).Nodup) :
    objectTail? item fuel acc (writeMembers members (Char.ofNat 0x7D :: rest)) =
      some (.object (acc.reverse ++ members), rest) := by
  induction members generalizing fuel acc with
  | nil =>
    obtain ⟨fuel, rfl⟩ := Nat.exists_eq_add_of_lt hFuel
    rw [List.append_nil] at names ⊢
    have hClose : skipSpace (Char.ofNat 0x7D :: rest) = Char.ofNat 0x7D :: rest := rfl
    rw [writeMembers, objectTail?, hClose]
    dsimp only
    rw [if_pos (by decide), foldl_putRow_of_nodup names]
  | cons m members ih =>
    obtain ⟨fuel, rfl⟩ := Nat.exists_eq_add_of_lt hFuel
    obtain ⟨hItem, hOthers⟩ := List.forall_mem_cons.mp h
    have hAppend : acc.reverse ++ m :: members = (m :: acc).reverse ++ members := by
      rw [List.reverse_cons, List.append_assoc, List.singleton_append]
    rw [hAppend] at names ⊢
    have hRest := ih (members.length + 1 + fuel) (m :: acc) hOthers (by omega) names
    have hMember := member1?_write hItem (follows_writeMembers members rest) m.1
    have hStarts := starts_textChars m.1 (':' :: write m.2 (writeMembers members (Char.ofNat 0x7D :: rest)))
    have hComma : skipSpace (',' :: textChars m.1 ++ ':' :: write m.2 (writeMembers members
        (Char.ofNat 0x7D :: rest))) = ',' :: (textChars m.1 ++ ':' :: write m.2 (writeMembers members
        (Char.ofNat 0x7D :: rest))) := rfl
    rw [List.length_cons, writeMembers, objectTail?, hComma]
    dsimp only
    rw [if_neg (by decide), if_pos rfl, hStarts.skipSpace, hMember]
    exact hRest

theorem object?_write {name : String} {v : Json} {members : List (String × Json)}
    (h : ∀ m ∈ (name, v) :: members, TakesBack item m.2)
    (names : (((name, v) :: members).map Prod.fst).Nodup) (rest : List Char) :
    object? item (textChars name ++ ':' :: write v (writeMembers members (Char.ofNat 0x7D :: rest))) =
      some (.object ((name, v) :: members), rest) := by
  obtain ⟨hItem, hOthers⟩ := List.forall_mem_cons.mp h
  have hLength := length_writeMembers hOthers (Char.ofNat 0x7D :: rest)
  have hTail := objectTail?_writeMembers ((writeMembers members (Char.ofNat 0x7D :: rest)).length + 1)
    [(name, v)] hOthers rest (Nat.lt_add_one_of_le (by omega)) names
  have hMember := member1?_write hItem (follows_writeMembers members rest) name
  have hStarts := starts_textChars name (':' :: write v (writeMembers members (Char.ofNat 0x7D :: rest)))
  rw [object?, hStarts.skipSpace]
  split
  · next c more hText =>
    rw [hText] at hMember hStarts
    rw [if_neg, hMember]
    · exact hTail
    · intro hClosed
      exact hStarts.2.2 (Char.toNat_inj.mp hClosed)
  · next hNone =>
    rw [hNone] at hStarts
    exact hStarts.elim

end Parts

/-! ## Documents -/

section Document

variable {depth : Nat}

theorem documentWithin?_scalar {c : Char} (hList : c ≠ '[') (hObject : c.toNat ≠ 0x7B) (rest : List Char) :
    documentWithin? depth (c :: rest) = plain? (c :: rest) := by
  cases depth with
  | zero => rfl
  | succ depth =>
    rw [documentWithin?]
    dsimp only
    split
    · next h => exact absurd (List.cons.inj h).1 hList
    · next h =>
      obtain ⟨rfl, rfl⟩ := List.cons.inj h
      rw [if_neg hObject]
    · next h => cases h

/-- The first character of a number is between the minus sign and the digit nine. -/
def LeadsNumber (c : Char) : Prop := 45 ≤ c.toNat ∧ c.toNat ≤ 57

theorem LeadsNumber.ne {c d : Char} (h : LeadsNumber c) (hd : d.toNat < 45 ∨ 57 < d.toNat) : c ≠ d := by
  rintro rfl
  obtain ⟨hLower, hUpper⟩ := h
  omega

theorem intChars_eq_cons (n : Int) : ∃ c cs, intChars n = c :: cs ∧ LeadsNumber c := by
  by_cases hSign : n < 0
  · exact ⟨'-', _, Decimal.intChars_of_neg hSign, by decide, by decide⟩
  · obtain ⟨c, cs, hDigits, hDigit⟩ := Decimal.toDigits_eq_cons n.natAbs
    simp only [isDigit, Bool.and_eq_true, decide_eq_true_eq] at hDigit
    have hLower : 48 ≤ c.toNat := hDigit.1
    have hUpper : c.toNat ≤ 57 := hDigit.2
    refine ⟨c, cs, ?_, by omega, hUpper⟩
    rw [Decimal.intChars_of_nonneg (Int.not_lt.mp hSign), hDigits]

theorem plain?_number {c : Char} (h : LeadsNumber c) (rest : List Char) :
    plain? (c :: rest) = number? (c :: rest) := by
  have hNull := h.ne (d := 'n') (by decide)
  have hTrue := h.ne (d := 't') (by decide)
  have hFalse := h.ne (d := 'f') (by decide)
  have hQuote := h.ne (d := Text.doubleQuote) (by decide)
  rw [plain?]
  · rw [if_neg hQuote]
  · exact fun _ hc _ => hNull hc
  · exact fun _ hc _ => hTrue hc
  · exact fun _ hc _ => hFalse hc

theorem LeadsNumber.not_isSpace {c : Char} (h : LeadsNumber c) : isSpace c = false := by
  have hSpace := h.ne (d := ' ') (by decide)
  have hTab := h.ne (d := '\t') (by decide)
  have hLine := h.ne (d := '\n') (by decide)
  have hReturn := h.ne (d := '\r') (by decide)
  simp [isSpace, hSpace, hTab, hLine, hReturn]

/-- A document that holds no others is read back at every depth if `plain?` reads it back. -/
theorem takesBack_scalar {v : Json} {c : Char} (cs : List Char)
    (hWrite : ∀ rest, write v rest = c :: (cs ++ rest))
    (hStarts : isSpace c = false ∧ c ≠ ']' ∧ c ≠ Char.ofNat 0x7D) (hScalar : c ≠ '[' ∧ c ≠ Char.ofNat 0x7B)
    (hPlain : ∀ rest, Follows rest → plain? (write v rest) = some (v, rest)) :
    TakesBack (documentWithin? depth) v := by
  refine ⟨?starts, ?grows, ?reads⟩
  case starts =>
    intro rest
    rw [hWrite]
    exact hStarts
  case grows =>
    intro rest
    rw [hWrite, List.length_cons, List.length_append]
    omega
  case reads =>
    intro rest hFollows
    have hObject : c.toNat ≠ 0x7B := fun h => hScalar.2 (Char.toNat_inj.mp h)
    have hRest := hPlain rest hFollows
    rw [hWrite] at hRest ⊢
    rw [documentWithin?_scalar hScalar.1 hObject, hRest]

theorem takesBack_int {n : Int} (least : -(2 ^ 63) ≤ n) (below : n < 2 ^ 64) :
    TakesBack (documentWithin? depth) (.int n) := by
  obtain ⟨c, cs, hChars, hLeads⟩ := intChars_eq_cons n
  have hWrite : ∀ rest, write (.int n) rest = c :: (cs ++ rest) := by
    intro rest
    rw [write, hChars, List.cons_append]
  apply takesBack_scalar _ hWrite
  · exact ⟨hLeads.not_isSpace, hLeads.ne (by decide), hLeads.ne (by decide)⟩
  · exact ⟨hLeads.ne (by decide), hLeads.ne (by decide)⟩
  · intro rest hFollows
    have hNumber := number?_intChars least below hFollows
    rw [← write, hWrite] at hNumber
    rw [hWrite, plain?_number hLeads, hNumber]

theorem takesBack_text (s : String) : TakesBack (documentWithin? depth) (.text s) := by
  have hWrite : ∀ rest, write (.text s) rest =
      Text.doubleQuote :: (s.toList.flatMap escapeChar ++ [Text.doubleQuote] ++ rest) := by
    intro rest
    rw [write, textChars, List.cons_append, List.cons_append]
  apply takesBack_scalar _ hWrite (by decide) (by decide)
  intro rest _
  have hText := text?_textChars s rest
  have hPlain : ∀ cs, plain? (Text.doubleQuote :: cs) =
      (text? (Text.doubleQuote :: cs)).bind fun out => some (.text out.1, out.2) := fun _ => rfl
  rw [← write, hWrite] at hText
  rw [hWrite, hPlain, hText, Option.bind_some]

theorem takesBack_list {items : List Json} (h : ∀ v ∈ items, TakesBack (documentWithin? depth) v) :
    TakesBack (documentWithin? (depth + 1)) (.list items) := by
  cases items with
  | nil =>
    refine ⟨fun _ => ⟨rfl, by decide, by decide⟩, fun rest => ?_, fun _ _ => rfl⟩
    rw [write, List.length_cons, List.length_cons]
    omega
  | cons v vs =>
    refine ⟨fun _ => ⟨rfl, by decide, by decide⟩, fun rest => ?_, fun rest _ => list?_write h rest⟩
    obtain ⟨hFirst, hOthers⟩ := List.forall_mem_cons.mp h
    have hLength := length_writeItems hOthers (']' :: rest)
    have hGrows := hFirst.grows (writeItems vs (']' :: rest))
    rw [write, List.length_cons]
    rw [List.length_cons] at hLength
    omega

theorem takesBack_object {members : List (String × Json)}
    (h : ∀ m ∈ members, TakesBack (documentWithin? depth) m.2) (names : (members.map Prod.fst).Nodup) :
    TakesBack (documentWithin? (depth + 1)) (.object members) := by
  cases members with
  | nil =>
    refine ⟨fun _ => ⟨rfl, by decide, by decide⟩, fun rest => ?_, fun _ _ => rfl⟩
    rw [write, List.length_cons, List.length_cons]
    omega
  | cons m members =>
    refine ⟨fun _ => ⟨rfl, by decide, by decide⟩, fun rest => ?_, fun rest _ => object?_write h names rest⟩
    obtain ⟨hFirst, hOthers⟩ := List.forall_mem_cons.mp h
    have hLength := length_writeMembers hOthers (Char.ofNat 0x7D :: rest)
    have hGrows := hFirst.grows (writeMembers members (Char.ofNat 0x7D :: rest))
    rw [write, List.length_append, List.length_cons, List.length_cons]
    rw [List.length_cons] at hLength
    omega

theorem Lossless.takesBack {v : Json} (h : Lossless depth v) : TakesBack (documentWithin? depth) v := by
  -- A list at one depth is read by the reader of its items, which is the one of the depth below.
  induction h with
  | null => exact takesBack_scalar ['u', 'l', 'l'] (fun _ => rfl) (by decide) (by decide) fun _ _ => rfl
  | bool b =>
    cases b with
    | true =>
      exact takesBack_scalar ['r', 'u', 'e'] (fun _ => rfl) (by decide) (by decide) fun _ _ => rfl
    | false =>
      exact takesBack_scalar ['a', 'l', 's', 'e'] (fun _ => rfl) (by decide) (by decide) fun _ _ => rfl
  | int least below => exact takesBack_int least below
  | text s => exact takesBack_text s
  | list each ih => exact takesBack_list ih
  | object names each ih => exact takesBack_object ih names

/-- A document that loses nothing is read back from its text. -/
theorem Lossless.parse?_render {v : Json} (h : Lossless maxNesting v) : parse? v.render = some v := by
  have hReads := h.takesBack.reads [] trivial
  rw [parse?, render, String.toList_ofList, (h.takesBack.starts []).skipSpace, hReads]
  rfl

end Document

/-! ## What is written at all -/

theorem allFit_of_forall {vs : List Json} (h : ∀ v ∈ vs, Snapshot.fits v = true) :
    Snapshot.allFit vs = true := by
  induction vs with
  | nil => rfl
  | cons v vs ih =>
    obtain ⟨hFirst, hOthers⟩ := List.forall_mem_cons.mp h
    rw [Snapshot.allFit, hFirst, ih hOthers, Bool.and_self]

theorem allMembersFit_of_forall {members : List (String × Json)}
    (h : ∀ m ∈ members, Snapshot.fits m.2 = true) : Snapshot.allMembersFit members = true := by
  induction members with
  | nil => rfl
  | cons m members ih =>
    obtain ⟨hFirst, hOthers⟩ := List.forall_mem_cons.mp h
    rw [Snapshot.allMembersFit, hFirst, ih hOthers, Bool.and_self]

theorem deepest_le {vs : List Json} {depth : Nat} (h : ∀ v ∈ vs, Snapshot.nesting v ≤ depth) :
    Snapshot.deepest vs ≤ depth := by
  induction vs with
  | nil => exact Nat.zero_le depth
  | cons v vs ih =>
    obtain ⟨hFirst, hOthers⟩ := List.forall_mem_cons.mp h
    exact Nat.max_le.mpr ⟨hFirst, ih hOthers⟩

theorem deepestMember_le {members : List (String × Json)} {depth : Nat}
    (h : ∀ m ∈ members, Snapshot.nesting m.2 ≤ depth) : Snapshot.deepestMember members ≤ depth := by
  induction members with
  | nil => exact Nat.zero_le depth
  | cons m members ih =>
    obtain ⟨hFirst, hOthers⟩ := List.forall_mem_cons.mp h
    exact Nat.max_le.mpr ⟨hFirst, ih hOthers⟩

theorem Lossless.fits {depth : Nat} {v : Json} (h : Lossless depth v) : Snapshot.fits v = true := by
  induction h with
  | null => rfl
  | bool b => rfl
  | int least below =>
    rw [Snapshot.fits, Bool.and_eq_true, decide_eq_true_eq, decide_eq_true_eq]
    exact ⟨least, below⟩
  | text s => rfl
  | list each ih => exact allFit_of_forall ih
  | object names each ih => exact allMembersFit_of_forall ih

theorem Lossless.nesting_le {depth : Nat} {v : Json} (h : Lossless depth v) : Snapshot.nesting v ≤ depth := by
  induction h with
  | null => exact Nat.zero_le _
  | bool b => exact Nat.zero_le _
  | int least below => exact Nat.zero_le _
  | text s => exact Nat.zero_le _
  | @list depth items each ih =>
    cases items with
    | nil => exact Nat.zero_le _
    | cons v vs =>
      have hDeepest := deepest_le ih
      rw [Snapshot.deepest] at hDeepest
      rw [Snapshot.nesting]
      omega
  | object names each ih =>
    have hDeepest := deepestMember_le ih
    rw [Snapshot.nesting]
    omega

end Json

end TenantVault
