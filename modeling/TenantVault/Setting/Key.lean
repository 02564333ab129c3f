import TenantVault.Encoding.Base64
import TenantVault.Json.Value
import TenantVault.Principal

/-! # Keys of settings

A setting is known by its namespace, its scope, its subject and the octets of its key, and one of its
versions by a version number besides; number 0 stands for the live record.

Callers give keys of this kind. The keys of stored rows are of a wider kind, since a snapshot may hold any
scalar in the place of a name or a number, and no octets at all. Stored keys are the same if their fields
are of the same content, and they are ordered field by field, as far as the first fields in which they
differ can be compared.
-/

namespace TenantVault

structure SettingKey where
  ns : String
  /-- 0 for settings of the namespace, 1 for settings that belong to their subject. -/
  scope : Int
  subject : Principal
  key : Bytes
  version : Int
  deriving DecidableEq

structure StoredKey where
  ns : Scalar
  scope : Scalar
  subject : Principal
  key : Option Bytes
  version : Scalar

/-- How a key is shown. -/
def keyText (ns scope : String) (subject : Principal) (key : Bytes) (version : String) : String :=
  "(" ++ ns ++ "," ++ scope ++ "," ++ subject.toText ++ "," ++ Bytes.toHex key ++ "," ++ version ++ ")"

namespace SettingKey

def serverScope : Int := 0

def userScope : Int := 1

def withVersion (k : SettingKey) (version : Int) : SettingKey := { k with version }

/-- The key of the live record. -/
def current (k : SettingKey) : SettingKey := k.withVersion 0

def stored (k : SettingKey) : StoredKey where
  ns := .text k.ns
  scope := .int k.scope
  subject := k.subject
  key := some k.key
  version := .int k.version

/-- The tenant that a derived key is bound to; none if the scope does not fit into an octet. -/
def tenant? (k : SettingKey) : Option (List Bytes) :=
  if 0 ≤ k.scope ∧ k.scope < 256 then
    some [k.subject.raw, [UInt8.ofNat k.scope.toNat], Bytes.ofText k.ns]
  else none

def intText (n : Int) : String := String.ofList (Json.intChars n)

def toText (k : SettingKey) : String := keyText k.ns (intText k.scope) k.subject k.key (intText k.version)

end SettingKey

namespace StoredKey

/-- What the same keys have in common. -/
def content (k : StoredKey) :
    Scalar.Content × Scalar.Content × Principal × Option Bytes × Scalar.Content :=
  (k.ns.content, k.scope.content, k.subject, k.key, k.version.content)

instance : BEq StoredKey := ⟨fun a b => decide (a.content = b.content)⟩

theorem beq_iff {a b : StoredKey} : (a == b) = true ↔ a.content = b.content := decide_eq_true_iff

instance : EquivBEq StoredKey where
  rfl := beq_iff.mpr rfl
  symm h := beq_iff.mpr (beq_iff.mp h).symm
  trans h k := beq_iff.mpr ((beq_iff.mp h).trans (beq_iff.mp k))

@[simp] theorem stored_beq_stored (a b : SettingKey) : (a.stored == b.stored) = decide (a = b) := by
  cases a; cases b
  simp [BEq.beq, content, SettingKey.stored, Scalar.content]

def withVersion (k : StoredKey) (version : Scalar) : StoredKey := { k with version }

/-- The key of the live record. -/
def current (k : StoredKey) : StoredKey := k.withVersion (.int 0)

@[simp] theorem current_stored (k : SettingKey) : k.stored.current = k.current.stored := rfl

theorem current_beq_current {a b : StoredKey} (h : a == b) : a.current == b.current := by
  rw [beq_iff, content, content] at *
  simp only [Prod.mk.injEq] at h
  simp [current, withVersion, h.1, h.2.1, h.2.2.1, h.2.2.2.1]

def compareOctets : Option Bytes → Option Bytes → Ordering
  | none, none => .eq
  | none, some _ => .lt
  | some _, none => .gt
  | some a, some b => compareOfLessAndEq a b

/-- The order of listings and snapshots. -/
def compare (a b : StoredKey) : Ordering :=
  (a.ns.compare b.ns).then <|
    (a.scope.compare b.scope).then <|
      (compareOfLessAndEq a.subject b.subject).then <|
        (compareOctets a.key b.key).then (a.version.compare b.version)

/-- Whether the first fields in which two keys differ can be compared. -/
def isComparable (a b : StoredKey) : Bool :=
  if a.ns != b.ns then a.ns.isComparable b.ns
  else if a.scope != b.scope then a.scope.isComparable b.scope
  else if a.subject ≠ b.subject then true
  else if a.key ≠ b.key then a.key.isSome && b.key.isSome
  else a.version.isComparable b.version

/-- Rows in the order of their keys, if these can be compared. -/
def sort? {α : Type} (rows : List (StoredKey × α)) : Option (List (StoredKey × α)) :=
  TenantVault.sort? (fun a b => a.1.compare b.1) (fun a b => a.1.isComparable b.1) rows

def toText? (k : StoredKey) : Option String :=
  k.key.map fun key => keyText k.ns.display k.scope.display k.subject key k.version.display

end StoredKey

end TenantVault
