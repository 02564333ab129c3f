import TenantVault.Binary64

/-! # Scalars

A null, a flag, a number or a text, as documents and requests hold them. Scalars are compared by content:
numbers by value across all kinds, with `true` as one and `false` as zero. Numbers are ordered among
themselves, and so are texts; between these there is no order. `sort?` therefore sorts a list only if
everything in it can be compared.
-/

namespace TenantVault

inductive Scalar where
  | null
  | bool (b : Bool)
  | int (n : Int)
  | float (x : Binary64)
  | text (s : String)
  deriving Inhabited

namespace Scalar

/-- What equal scalars have in common. A number that is whole is an integer, of whatever kind it was. -/
inductive Content where
  | null
  | whole (n : Int)
  | fractional (x : Binary64)
  | text (s : String)
  deriving DecidableEq

def content : Scalar → Content
  | null => .null
  | bool b => .whole (if b then 1 else 0)
  | int n => .whole n
  | float x => if x.isIntegral then .whole x.truncate else .fractional x
  | text s => .text s

instance : BEq Scalar := ⟨fun a b => decide (a.content = b.content)⟩

theorem beq_iff {a b : Scalar} : (a == b) = true ↔ a.content = b.content := decide_eq_true_iff

instance : EquivBEq Scalar where
  rfl := beq_iff.mpr rfl
  symm h := beq_iff.mpr (beq_iff.mp h).symm
  trans h k := beq_iff.mpr ((beq_iff.mp h).trans (beq_iff.mp k))

@[simp] theorem int_beq_int (m n : Int) : (int m == int n) = decide (m = n) := by
  simp [BEq.beq, content]

@[simp] theorem text_beq_text (s t : String) : (text s == text t) = decide (s = t) := by
  simp [BEq.beq, content]

/-- Contents of one kind can be compared. -/
def Content.kind : Content → Nat
  | null => 0
  | whole _ | fractional _ => 1
  | text _ => 2

/-- A number as a numerator and a positive denominator. -/
def Content.ratio : Content → Int × Int
  | whole n => (n, 1)
  | fractional x => x.ratio
  | _ => (0, 1)

/-- The order of contents, those of different kinds one kind after the other. -/
def Content.compare : Content → Content → Ordering
  | text s, text t => Ord.compare s t
  | whole m, whole n => Ord.compare m n
  | a, b => (Ord.compare a.kind b.kind).then (Ord.compare (a.ratio.1 * b.ratio.2) (b.ratio.1 * a.ratio.2))

def compare (a b : Scalar) : Ordering := a.content.compare b.content

def isComparable (a b : Scalar) : Bool := a.content.kind == b.content.kind

end Scalar

/-- Whether every item can be compared with the next. -/
def linked {α : Type} (comparable : α → α → Bool) : List α → Bool
  | a :: b :: rest => comparable a b && linked comparable (b :: rest)
  | _ => true

/-- The items in order, if all neighbours in it can be compared. -/
def sort? {α : Type} (compare : α → α → Ordering) (comparable : α → α → Bool) (items : List α) :
    Option (List α) :=
  let sorted := items.mergeSort fun a b => compare a b != .gt
  if linked comparable sorted then some sorted else none

end TenantVault
