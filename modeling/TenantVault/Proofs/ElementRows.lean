import Mathlib.Data.Nat.Size
import Mathlib.Order.Nat
import TenantVault.Proofs.Elements
import TenantVault.Proofs.Encodings

/-! # Elements in a row

The bits of a length tell how many octets it takes, and that count fits beside the mark of the long form as
long as it is below 127. Such an element shows where it ends, so it is read back whatever follows, and a row of
elements can be cut into elements in one way only.
-/

namespace TenantVault.Der

variable {n k : Nat}

/-! ## The width of a length -/

/-- The octets that the bits of a number fill. -/
def width (n : Nat) : Nat := (n.size + 7) / 8

theorem width_le_iff : width n ≤ k ↔ n < 256 ^ k := by
  have hPower : 256 ^ k = 2 ^ (8 * k) := (Nat.pow_mul 2 8 k).symm
  rw [hPower, ← Nat.size_le, width]
  omega

theorem width_toNatBE_le (octets : Bytes) : width (Bytes.toNatBE octets) ≤ octets.length :=
  width_le_iff.mpr (Bytes.toNatBE_lt octets)

theorem length_minimal (n : Nat) : (minimal n).length = width n := by
  apply Nat.le_antisymm
  · exact length_minimal_le (width_le_iff.mp (Nat.le_refl _))
  · have hWidth := width_toNatBE_le (minimal n)
    rwa [toNatBE_minimal] at hWidth

theorem minimal_eq_ofNatBE (n : Nat) : minimal n = Bytes.ofNatBE (width n) n := by
  have hSame := Bytes.ofNatBE_toNatBE (minimal n)
  rw [toNatBE_minimal, length_minimal] at hSame
  exact hSame.symm

theorem mark_or (h : k < 128) : 0x80 ||| UInt8.ofNat k = UInt8.ofNat (128 + k) := by
  have hMark : ∀ k < 128, 0x80 ||| UInt8.ofNat k = UInt8.ofNat (128 + k) := by decide
  exact hMark k h

theorem lengthOctets_eq (h : n < 256 ^ 126) : lengthOctets n =
    if n < 128 then [UInt8.ofNat n] else (0x80 ||| UInt8.ofNat (width n)) :: Bytes.ofNatBE (width n) n := by
  split
  · next hSmall => exact lengthOctets_small hSmall
  · next hLarge =>
    have hWidth : width n ≤ 126 := width_le_iff.mpr h
    rw [lengthOctets_large (by omega), length_minimal, minimal_eq_ofNatBE, mark_or (by omega)]

/-! ## One element -/

/-- A tag of one octet, the low five bits of which are not all set, and a content with a length of at most
126 octets, which are 1008 bits. -/
structure Element where
  tag : UInt8
  content : Bytes
  single : tag &&& 0x1F ≠ 0x1F
  fits : content.length < 256 ^ 126

namespace Element

variable {e e' : Element} {es es' : List Element} {bs rest rest' : Bytes}

def octets (e : Element) : Bytes := element e.tag e.content

/-- The first element of a string, and what follows. Tags of more than one octet are not read, and neither are
lengths of more than 126. -/
def read? (bs : Bytes) : Option (Element × Bytes) := do
  let (tag, content, rest) ← Der.read? bs
  if h : tag &&& 0x1F ≠ 0x1F ∧ content.length < 256 ^ 126 then some (⟨tag, content, h.1, h.2⟩, rest) else none

theorem isElement_octets (e : Element) : IsElement e.tag e.content e.octets :=
  isElement_element e.fits e.tag

theorem octets_ne_nil (e : Element) : e.octets ≠ [] := List.cons_ne_nil _ _

theorem read?_octets (e : Element) (rest : Bytes) : read? (e.octets ++ rest) = some (e, rest) := by
  simp only [read?, octets, read?_element e.fits, Option.bind_eq_bind, Option.bind_some]
  exact dif_pos ⟨e.single, e.fits⟩

theorem eq_of_read? (h : read? bs = some (e, rest)) : bs = e.octets ++ rest := by
  obtain ⟨⟨tag, content, rest'⟩, hRead, hElement⟩ := Option.bind_eq_some_iff.mp h
  dsimp only at hElement
  split at hElement
  · cases hElement
    exact Der.eq_of_read? hRead
  · cases hElement

/-- The reader accepts the strict form and no other. -/
theorem read?_eq_some_iff :
    read? bs = some (e, rest) ↔ ∃ piece, bs = piece ++ rest ∧ IsElement e.tag e.content piece := by
  constructor
  · intro hRead
    exact ⟨e.octets, eq_of_read? hRead, e.isElement_octets⟩
  · rintro ⟨piece, rfl, hElement⟩
    rw [hElement.eq_element]
    exact e.read?_octets rest

theorem octets_append_inj (h : e.octets ++ rest = e'.octets ++ rest') : e = e' ∧ rest = rest' := by
  have hRead := e.read?_octets rest
  rw [h, read?_octets, Option.some.injEq, Prod.mk.injEq] at hRead
  exact ⟨hRead.1.symm, hRead.2.symm⟩

/-! ## Rows of elements -/

/-- Elements written one behind the other. -/
def row (es : List Element) : Bytes := es.flatMap octets

@[simp] theorem row_nil : row [] = [] := rfl

@[simp] theorem row_cons (e : Element) (es : List Element) : row (e :: es) = e.octets ++ row es :=
  List.flatMap_cons

theorem row_eq_nil_iff : row es = [] ↔ es = [] := by
  cases es with
  | nil => exact iff_of_true row_nil rfl
  | cons e es =>
    rw [row_cons, List.append_eq_nil_iff]
    exact iff_of_false (fun hPieces => e.octets_ne_nil hPieces.1) (List.cons_ne_nil e es)

theorem row_inj (h : row es = row es') : es = es' := by
  induction es generalizing es' with
  | nil => exact (row_eq_nil_iff.mp h.symm).symm
  | cons e es ih =>
    cases es' with
    | nil => exact row_eq_nil_iff.mp h
    | cons e' es' =>
      rw [row_cons, row_cons] at h
      obtain ⟨rfl, hRest⟩ := octets_append_inj h
      rw [ih hRest]

/-- A string is cut into pieces, each of which is the element that stands for it. -/
inductive Splits : Bytes → List Element → Prop
  | nil : Splits [] []
  | cons {piece rest : Bytes} {e : Element} {es : List Element} (first : IsElement e.tag e.content piece)
      (others : Splits rest es) : Splits (piece ++ rest) (e :: es)

theorem splits_iff : Splits bs es ↔ bs = row es := by
  constructor
  · intro hSplits
    induction hSplits with
    | nil => exact row_nil.symm
    | cons first others ih => rw [first.eq_element, ih, row_cons, octets]
  · rintro rfl
    induction es with
    | nil => exact .nil
    | cons e es ih => exact .cons e.isElement_octets ih

/-- Elements are read back, one by one and in rows.

Between tag and content stands the length in its strict form. Below 128 it is one octet, and from there on it is
as many octets as its bits fill, which are the fewest, behind an octet in which their count stands beside the mark.
A reader that accepts the strict form and no other returns the element and whatever follows it. A row of elements
can be cut into them, and into nothing else. -/
theorem rows_split_uniquely (e : Element) (es : List Element) :
    (∃ field, e.octets = e.tag :: field ++ e.content ∧ IsLength e.content.length field ∧
      field = if e.content.length < 128 then [UInt8.ofNat e.content.length] else
        (0x80 ||| UInt8.ofNat (width e.content.length)) ::
          Bytes.ofNatBE (width e.content.length) e.content.length) ∧
    (∀ bs, Bytes.toNatBE bs = e.content.length → width e.content.length ≤ bs.length) ∧
    (∀ bs e' rest, read? bs = some (e', rest) ↔
      ∃ piece, bs = piece ++ rest ∧ IsElement e'.tag e'.content piece) ∧
    (∀ rest, read? (e.octets ++ rest) = some (e, rest)) ∧
    ∀ es', Splits (row es) es' ↔ es' = es := by
  refine ⟨⟨_, rfl, isLength_lengthOctets e.fits, lengthOctets_eq e.fits⟩, ?_, ?_, e.read?_octets, ?_⟩
  · intro bs hValue
    rw [← hValue]
    exact width_toNatBE_le bs
  · intro bs e' rest
    exact read?_eq_some_iff
  · intro es'
    rw [splits_iff]
    constructor
    · intro hSame
      exact (row_inj hSame).symm
    · rintro rfl
      rfl

example : lengthOctets 127 = [0x7F] ∧ lengthOctets 128 = [0x81, 0x80] ∧ lengthOctets 255 = [0x81, 0xFF] ∧
    lengthOctets 65535 = [0x82, 0xFF, 0xFF] ∧ lengthOctets 65536 = [0x83, 0x01, 0x00, 0x00] := by decide +kernel

example : (read? (0x30 :: 0x81 :: 0x80 :: List.replicate 130 7)).map (fun (e, rest) => (e.content.length, rest)) =
      some (128, [7, 7]) ∧
    (read? (0x30 :: 0x81 :: 0x7F :: List.replicate 127 7)).isNone ∧ (read? [0x3F, 0x01, 0x00]).isNone := by
  decide +kernel

end Element

end TenantVault.Der
