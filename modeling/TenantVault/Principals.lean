import TenantVault.Failure
import TenantVault.SortedSet

/-! # Sets of principals

The members of a group, in ascending order. A set that is to be granted something has to name somebody,
and never the anonymous principal.
-/

namespace TenantVault

abbrev Principals := SortedSet Principal

namespace Principals

/-- Why a set is refused, if it is. -/
def fault? (ps : Principals) : Option BadArgument :=
  if ps.isEmpty then some .noPrincipals
  else if Principal.anonymous ∈ ps then some .anonymousPrincipal
  else none

def check (ps : Principals) : Result Unit :=
  match fault? ps with
  | some why => .error (.argument why)
  | none => .ok ()

theorem fault?_eq_none_iff (ps : Principals) :
    fault? ps = none ↔ ps.isEmpty = false ∧ Principal.anonymous ∉ ps := by
  unfold fault?
  cases ps.isEmpty <;> simp

def texts (ps : Principals) : List String := ps.toList.map Principal.toText

end Principals

/-- Whether members join a group or leave it. -/
inductive Direction where
  | add
  | remove
  deriving DecidableEq, Repr

def Direction.apply (d : Direction) (group change : Principals) : Principals :=
  match d with
  | .add => group.union change
  | .remove => group.diff change

end TenantVault
