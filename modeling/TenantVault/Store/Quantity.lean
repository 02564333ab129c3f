import TenantVault.Failure

/-! # Quantities in stored records

A snapshot may hold anything in the place of a number, and a record keeps it as it is. It counts as a
quantity as long as it is a number of some kind; what is not cannot be compared or added to. Quantities
that are integers stay integers.
-/

namespace TenantVault.Json

def less (v : Json) (n : Int) : Result Bool :=
  match v.content? with
  | some (.whole m) => .ok (decide (m < n))
  | some (.fractional x) => .ok (decide (x.ratio.1 < n * x.ratio.2))
  | _ => .error (.breakdown .wrongType)

def more (v : Json) (n : Int) : Result Bool :=
  match v.content? with
  | some (.whole m) => .ok (decide (n < m))
  | some (.fractional x) => .ok (decide (n * x.ratio.2 < x.ratio.1))
  | _ => .error (.breakdown .wrongType)

@[simp] theorem less_int (m n : Int) : (int m).less n = .ok (decide (m < n)) := rfl

@[simp] theorem more_int (m n : Int) : (int m).more n = .ok (decide (n < m)) := rfl

/-- A flag counts as zero or one, and a double makes the sum a double. -/
def plus (v : Json) (n : Int) : Result Json :=
  match v with
  | int m => .ok (int (m + n))
  | bool b => .ok (int ((if b then 1 else 0) + n))
  | float x =>
    let y := Binary64.ofInt n
    if y.isFinite then .ok (float (x.add y)) else .error (.breakdown .infiniteNumber)
  | _ => .error (.breakdown .wrongType)

@[simp] theorem plus_int (m n : Int) : (int m).plus n = .ok (int (m + n)) := rfl

/-- What is not above zero is replaced by zero. -/
def atLeastZero (v : Json) : Json :=
  match v.more 0 with
  | .ok true => v
  | _ => int 0

@[simp] theorem atLeastZero_int (m : Int) : (int m).atLeastZero = int (max 0 m) := by
  unfold atLeastZero
  rw [more_int]
  by_cases h : 0 < m
  · simp [h, Int.max_eq_right (Int.le_of_lt h)]
  · simp [h, Int.max_eq_left (Int.not_lt.mp h)]

end TenantVault.Json
