import TenantVault.Cbor.Decode
import TenantVault.Proofs.Access

/-! # Items and what follows them

Where an item ends is seen from the item alone: a reader that has come to the end of one reads the same
item when more follows, and leaves what follows. No item is therefore the beginning of another one. The
first octet of an item shows of what kind its value is.
-/

namespace TenantVault.Cbor

/-- What is read from a string is read from every longer one too, and what is behind it is left. -/
def Steady {α : Type} (read : Bytes → Except Fault (α × Bytes)) : Prop :=
  ∀ bs a rest, read bs = .ok (a, rest) → ∀ suffix, read (bs ++ suffix) = .ok (a, rest ++ suffix)

/-- More fuel and a longer string make no difference to what is read. -/
def Patient {α : Type} (read : Nat → Bytes → Except Fault (α × Bytes)) : Prop :=
  ∀ fuel fuel' bs a rest, read fuel bs = .ok (a, rest) → fuel ≤ fuel' → ∀ suffix,
    read fuel' (bs ++ suffix) = .ok (a, rest ++ suffix)

/-- A reader of items that are never empty. -/
structure Framed (reader : Reader) : Prop where
  steady : ∀ fixed, Steady (reader fixed)
  nonempty : ∀ fixed, reader fixed [] = .error .ended

/-! ## Readers in a row -/

section Rows

variable {α β : Type}

theorem steady_return (a : α) : Steady fun bs => .ok (a, bs) := by
  rintro bs a' rest ⟨⟩ suffix
  rfl

theorem steady_error (fault : Fault) : Steady fun _ => (.error fault : Except Fault (α × Bytes)) := nofun

theorem Steady.bind {read : Bytes → Except Fault (α × Bytes)} {next : α × Bytes → Except Fault (β × Bytes)}
    (hRead : Steady read) (hNext : ∀ a, Steady fun rest => next (a, rest)) :
    Steady fun bs => read bs >>= next := by
  intro bs b rest h suffix
  dsimp only at h ⊢
  rw [bind_eq_ok_iff] at h ⊢
  obtain ⟨⟨a, middle⟩, hFirst, hSecond⟩ := h
  exact ⟨(a, middle ++ suffix), hRead bs a middle hFirst suffix, hNext a middle b rest hSecond suffix⟩

theorem Patient.steady {read : Nat → Bytes → Except Fault (α × Bytes)} (h : Patient read) :
    Steady fun bs => read (bs.length + 1) bs := by
  intro bs a rest hRead suffix
  apply h _ _ bs a rest hRead
  simp

theorem splitFrom?_of_longer {size : Nat} {acc bs octets rest : Bytes}
    (h : splitFrom? size acc bs = some (octets, rest)) (suffix : Bytes) :
    splitFrom? size acc (bs ++ suffix) = some (octets, rest ++ suffix) := by
  induction size generalizing acc bs with
  | zero =>
    cases h
    rfl
  | succ size ih =>
    cases bs with
    | nil => cases h
    | cons b bs => exact ih h

theorem steady_take (size : Nat) : Steady (take size) := by
  intro bs octets rest h suffix
  unfold take at h ⊢
  split at h
  · next parts hSplit =>
    cases h
    rw [splitFrom?_of_longer hSplit]
  · cases h

theorem steady_argument (info : Nat) : Steady (argument info) := by
  unfold argument
  split
  · exact steady_return (some info)
  · split
    · exact (steady_take _).bind fun octets => steady_return (some (Bytes.foldBE octets))
    · split
      · exact steady_return none
      · exact steady_error .malformed

theorem steady_definite (info : Nat) : Steady (definite info) := by
  refine (steady_argument info).bind ?_
  rintro (_ | n)
  · exact steady_error .malformed
  · exact steady_return n

theorem steady_piece (read? : Bytes → Option α) (size : Nat) : Steady (piece read? size) := by
  unfold piece
  split
  · exact steady_error .malformed
  · refine (steady_take size).bind fun octets => ?_
    dsimp only
    split
    · next a hRead => exact steady_return a
    · exact steady_error .malformed

theorem patient_chunks (read? : Bytes → Option α) (major : Nat) (acc : List α) :
    Patient fun fuel => chunks read? major fuel acc := by
  intro fuel fuel' bs parts rest h hFuel suffix
  dsimp only at h ⊢
  induction fuel generalizing fuel' acc bs with
  | zero => cases h
  | succ fuel ih =>
    obtain ⟨fuel', rfl⟩ := Nat.exists_eq_add_of_le' (Nat.lt_of_lt_of_le (Nat.succ_pos fuel) hFuel)
    cases bs with
    | nil => cases h
    | cons b bs =>
      rw [List.cons_append]
      unfold chunks at h ⊢
      split
      · next hEnd =>
        rw [if_pos hEnd] at h
        cases h
        rfl
      · next hOpen =>
        rw [if_neg hOpen] at h
        split
        · next hMajor =>
          rw [if_pos hMajor] at h
          simp only [bind_eq_ok_iff] at h ⊢
          obtain ⟨⟨size, middle⟩, hSize, ⟨chunk, middle'⟩, hChunk, hRest⟩ := h
          exact ⟨_, steady_definite _ _ _ _ hSize suffix, _, steady_piece _ _ _ _ _ hChunk suffix,
            ih _ _ _ hRest (by omega)⟩
        · next hMajor =>
          rw [if_neg hMajor] at h
          cases h

theorem steady_pieces (read? : Bytes → Option α) (major info : Nat) :
    Steady (pieces read? major info) := by
  refine (steady_argument info).bind ?_
  rintro (_ | size)
  · exact (patient_chunks read? major []).steady.bind fun backwards => steady_return backwards.reverse
  · exact (steady_piece read? size).bind fun a => steady_return [a]

end Rows

/-! ## Lists and maps -/

section Nesting

variable {item : Bytes → Except Fault (Value × Bytes)}

theorem steady_items (hItem : Steady item) (count : Nat) (acc : List Value) :
    Steady (items item count acc) := by
  induction count generalizing acc with
  | zero => exact steady_return acc.reverse
  | succ count ih => exact hItem.bind fun v => ih (v :: acc)

theorem patient_itemsToBreak (hItem : Steady item) (hNonempty : item [] = .error .ended)
    (acc : List Value) : Patient fun fuel => itemsToBreak item fuel acc := by
  intro fuel fuel' bs vs rest h hFuel suffix
  dsimp only at h ⊢
  induction fuel generalizing fuel' acc bs with
  | zero => cases h
  | succ fuel ih =>
    obtain ⟨fuel', rfl⟩ := Nat.exists_eq_add_of_le' (Nat.lt_of_lt_of_le (Nat.succ_pos fuel) hFuel)
    cases bs with
    | nil =>
      rw [itemsToBreak, hNonempty] at h
      · cases h
      · nofun
    | cons b bs =>
      by_cases hEnd : b = 0xFF
      · subst hEnd
        cases h
        rfl
      · have hOpen (tail : Bytes) : ∀ rest, b :: tail = 0xFF :: rest → False :=
          fun rest hSame => hEnd (List.cons.inj hSame).1
        rw [List.cons_append]
        rw [itemsToBreak, bind_eq_ok_iff] at h ⊢
        · obtain ⟨⟨v, middle⟩, hFirst, hRest⟩ := h
          exact ⟨_, hItem _ _ _ hFirst suffix, ih _ _ _ hRest (by omega)⟩
        · exact hOpen _
        · exact hOpen _

variable {nested : Reader}

theorem steady_entries (hNested : Framed nested) (fixed : Bool) (count : Nat) (acc : Entries) :
    Steady (entries nested fixed count acc) := by
  induction count generalizing acc with
  | zero => exact steady_return acc
  | succ count ih =>
    exact (hNested.steady true).bind fun k => (hNested.steady fixed).bind fun v => ih (Value.putEntry k v acc)

theorem patient_entriesToBreak (hNested : Framed nested) (fixed : Bool) (acc : Entries) :
    Patient fun fuel => entriesToBreak nested fixed fuel acc := by
  intro fuel fuel' bs es rest h hFuel suffix
  dsimp only at h ⊢
  induction fuel generalizing fuel' acc bs with
  | zero => cases h
  | succ fuel ih =>
    obtain ⟨fuel', rfl⟩ := Nat.exists_eq_add_of_le' (Nat.lt_of_lt_of_le (Nat.succ_pos fuel) hFuel)
    cases bs with
    | nil =>
      rw [entriesToBreak, hNested.nonempty] at h
      · cases h
      · nofun
    | cons b bs =>
      by_cases hEnd : b = 0xFF
      · subst hEnd
        cases h
        rfl
      · have hOpen (tail : Bytes) : ∀ rest, b :: tail = 0xFF :: rest → False :=
          fun rest hSame => hEnd (List.cons.inj hSame).1
        rw [List.cons_append]
        rw [entriesToBreak] at h ⊢
        · simp only [bind_eq_ok_iff] at h ⊢
          obtain ⟨⟨k, middle⟩, hKey, ⟨v, middle'⟩, hValue, hRest⟩ := h
          exact ⟨_, hNested.steady true _ _ _ hKey suffix, _, hNested.steady fixed _ _ _ hValue suffix,
            ih _ _ _ hRest (by omega)⟩
        · exact hOpen _
        · exact hOpen _

end Nesting

/-! ## Items -/

section Bodies

variable {nested : Option Reader}

theorem steady_within {β : Type} {next : Reader → Bytes → Except Fault (β × Bytes)}
    (hNext : ∀ reader, nested = some reader → Steady (next reader)) :
    Steady fun bs => within nested >>= fun reader => next reader bs := by
  cases nested with
  | none => exact steady_error .malformed
  | some reader => exact hNext reader rfl

variable (hNested : ∀ reader, nested = some reader → Framed reader) (fixed : Bool) (info : Nat)

include hNested

theorem steady_list : Steady (list nested fixed info) := by
  refine (steady_argument info).bind ?_
  rintro (_ | _ | count)
  · refine steady_within fun reader hReader => ?_
    have hReads := hNested reader hReader
    exact (patient_itemsToBreak (hReads.steady fixed) (hReads.nonempty fixed) []).steady.bind
      fun vs => steady_return (Value.list fixed vs)
  · exact steady_return (Value.list fixed [])
  · refine steady_within fun reader hReader => ?_
    exact (steady_items ((hNested reader hReader).steady fixed) _ []).bind
      fun vs => steady_return (Value.list fixed vs)

theorem steady_map : Steady (map nested fixed info) := by
  refine (steady_argument info).bind ?_
  rintro (_ | _ | count)
  · refine steady_within fun reader hReader => ?_
    exact (patient_entriesToBreak (hNested reader hReader) fixed []).steady.bind
      fun es => steady_return (Value.map fixed es)
  · exact steady_return (Value.map fixed [])
  · refine steady_within fun reader hReader => ?_
    exact (steady_entries (hNested reader hReader) fixed _ []).bind
      fun es => steady_return (Value.map fixed es)

theorem steady_tagged : Steady (tagged nested fixed info) := by
  refine (steady_definite info).bind fun tag => steady_within fun reader hReader => ?_
  dsimp only
  split
  · exact (hNested reader hReader).steady fixed
  · refine ((hNested reader hReader).steady true).bind fun content => ?_
    dsimp only
    split
    · next v hMeaning => exact steady_return v
    · exact steady_error .malformed

omit hNested in
theorem steady_simple : Steady (simple info) := by
  unfold simple
  split
  · exact steady_return (Value.bool false)
  · exact steady_return (Value.bool true)
  · exact steady_return Value.null
  · exact steady_return Value.undefined
  · refine (steady_take 1).bind fun octets => ?_
    dsimp only
    split
    · exact steady_error .malformed
    · exact steady_return (Value.simple (Bytes.foldBE octets))
  · exact (steady_take 2).bind fun octets => steady_return (Value.float (Binary64.ofHalf (Bytes.foldBE octets)))
  · exact (steady_take 4).bind fun octets => steady_return (Value.float (Binary64.ofSingle (Bytes.foldBE octets)))
  · exact (steady_take 8).bind fun octets => steady_return (Value.float ⟨UInt64.ofNat (Bytes.foldBE octets)⟩)
  · split
    · exact steady_return (Value.simple info)
    · exact steady_error .malformed

theorem steady_body : Steady (body nested fixed) := by
  intro bs v rest h suffix
  cases bs with
  | nil => cases h
  | cons b bs =>
    suffices hContents : Steady fun bs => body nested fixed (b :: bs) from hContents bs v rest h suffix
    unfold body
    dsimp only
    split
    · exact (steady_definite _).bind fun n => steady_return (Value.int n)
    · exact (steady_definite _).bind fun n => steady_return (Value.int (-1 - n))
    · exact (steady_pieces some 2 _).bind fun parts => steady_return (Value.bytes parts.flatten)
    · exact (steady_pieces Bytes.toText? 3 _).bind fun parts => steady_return (Value.text (String.join parts))
    · exact steady_list hNested fixed _
    · exact steady_map hNested fixed _
    · exact steady_tagged hNested fixed _
    · exact steady_simple _

theorem framed_body : Framed (body nested) where
  steady := steady_body hNested
  nonempty _ := rfl

end Bodies

theorem framed_itemWithin (depth : Nat) : Framed (itemWithin depth) := by
  induction depth with
  | zero => exact framed_body nofun
  | succ depth ih =>
    apply framed_body
    rintro reader ⟨⟩
    exact ih

theorem steady_decode : Steady decode := (framed_itemWithin maxNesting).steady false

theorem decode_nil : decode [] = .error .ended := (framed_itemWithin maxNesting).nonempty false

/-- What makes up one item and nothing else is not the beginning of anything else that does. -/
theorem eq_of_decode_of_prefix {bs bs' : Bytes} {v v' : Value} (h : decode bs = .ok (v, []))
    (h' : decode bs' = .ok (v', [])) (hPrefix : bs <+: bs') : bs = bs' := by
  obtain ⟨suffix, rfl⟩ := hPrefix
  rw [steady_decode bs v [] h suffix] at h'
  cases h'
  exact (List.append_nil bs).symm

/-! ## Kinds of items -/

/-- What the major type of the first octet says about a value that may change. -/
def Value.IsOfType (v : Value) : Nat → Prop
  | 2 => ∃ bs, v = .bytes bs
  | 3 => ∃ s, v = .text s
  | 4 => ∃ vs, v = .list false vs
  | 5 => ∃ es, v = .map false es
  | _ => True

section Kinds

variable {nested : Option Reader} {fixed : Bool} {info : Nat} {bs rest : Bytes} {v : Value}

theorem exists_of_list (h : list nested fixed info bs = .ok (v, rest)) : ∃ vs, v = .list fixed vs := by
  unfold list at h
  obtain ⟨⟨count, middle⟩, -, h⟩ := (bind_eq_ok_iff _ _ _).mp h
  dsimp only at h
  split at h
  · cases h
    exact ⟨[], rfl⟩
  all_goals
    simp only [bind_eq_ok_iff] at h
    obtain ⟨reader, -, ⟨vs, rest'⟩, -, hSame⟩ := h
    cases hSame
    exact ⟨vs, rfl⟩

theorem exists_of_map (h : map nested fixed info bs = .ok (v, rest)) : ∃ es, v = .map fixed es := by
  unfold map at h
  obtain ⟨⟨count, middle⟩, -, h⟩ := (bind_eq_ok_iff _ _ _).mp h
  dsimp only at h
  split at h
  · cases h
    exact ⟨[], rfl⟩
  all_goals
    simp only [bind_eq_ok_iff] at h
    obtain ⟨reader, -, ⟨es, rest'⟩, -, hSame⟩ := h
    cases hSame
    exact ⟨es, rfl⟩

theorem isOfType_of_body {b : UInt8} (h : body nested false (b :: bs) = .ok (v, rest)) :
    v.IsOfType (b.toNat / 32) := by
  unfold body at h
  dsimp only at h
  split at h
  · next hMajor =>
    rw [hMajor]
    trivial
  · next hMajor =>
    rw [hMajor]
    trivial
  · next hMajor =>
    rw [hMajor]
    obtain ⟨⟨parts, rest'⟩, -, hSame⟩ := (bind_eq_ok_iff _ _ _).mp h
    cases hSame
    exact ⟨parts.flatten, rfl⟩
  · next hMajor =>
    rw [hMajor]
    obtain ⟨⟨parts, rest'⟩, -, hSame⟩ := (bind_eq_ok_iff _ _ _).mp h
    cases hSame
    exact ⟨String.join parts, rfl⟩
  · next hMajor =>
    rw [hMajor]
    exact exists_of_list h
  · next hMajor =>
    rw [hMajor]
    exact exists_of_map h
  · next hMajor =>
    rw [hMajor]
    trivial
  · unfold Value.IsOfType
    split <;> trivial

theorem isOfType_of_decode {b : UInt8} (h : decode (b :: bs) = .ok (v, rest)) :
    v.IsOfType (b.toNat / 32) :=
  isOfType_of_body h

end Kinds

end TenantVault.Cbor
