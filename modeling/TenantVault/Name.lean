import TenantVault.Failure

/-! # Names

Namespaces, tags and delegated identities have names of lowercase letters, digits and underscores, at
least one of them.
-/

namespace TenantVault.Name

def isNameChar (c : Char) : Bool := ('a' ≤ c && c ≤ 'z') || ('0' ≤ c && c ≤ '9') || c = '_'

/-- The reason why a text is no name, if there is one. -/
def fault? (s : String) : Option BadArgument :=
  if s.isEmpty then some .emptyName
  else (s.toList.find? fun c => !isNameChar c).map .nameCharacter

def check (s : String) : Result Unit :=
  match fault? s with
  | some why => .error (.argument why)
  | none => .ok ()

theorem fault?_eq_none_iff (s : String) : fault? s = none ↔ s ≠ "" ∧ ∀ c ∈ s.toList, isNameChar c := by
  unfold fault?
  by_cases h : s = "" <;> simp [h, String.isEmpty_iff]

end TenantVault.Name
