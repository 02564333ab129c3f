import TenantVault.Power

/-! # Byte strings

A byte string is a list of octets, so a statement about a message is a statement about a list. Numbers
are written in a fixed width in either byte order and read back by `toNatBE` and `toNatLE`; the printed
form is lowercase hexadecimal.
-/

namespace TenantVault

abbrev Bytes := List UInt8

namespace Bytes

/-- The low `width` octets of a number, the least significant first. -/
def ofNatLE : Nat → Nat → Bytes
  | 0, _ => []
  | width + 1, n => UInt8.ofNat n :: ofNatLE width (n / 256)

def ofNatBE (width n : Nat) : Bytes := (ofNatLE width n).reverse

def toNatLE : Bytes → Nat
  | [] => 0
  | b :: rest => b.toNat + 256 * toNatLE rest

def toNatBE (bs : Bytes) : Nat := toNatLE bs.reverse

/-- Reading from the most significant octet in one pass, which is how a long string is read. -/
def foldBE (bs : Bytes) : Nat := bs.foldl (fun acc b => 256 * acc + b.toNat) 0

@[simp] theorem length_ofNatLE (width n : Nat) : (ofNatLE width n).length = width := by
  induction width generalizing n with
  | zero => rfl
  | succ width ih => simp [ofNatLE, ih]

@[simp] theorem length_ofNatBE (width n : Nat) : (ofNatBE width n).length = width := by
  simp [ofNatBE]

theorem toNatLE_ofNatLE (width n : Nat) : toNatLE (ofNatLE width n) = n % 256 ^ width := by
  induction width generalizing n with
  | zero => simp [ofNatLE, toNatLE, Nat.mod_one]
  | succ width ih =>
    have digit : (UInt8.ofNat n).toNat = n % 256 := UInt8.toNat_ofNat'
    rw [ofNatLE, toNatLE, ih, digit, Nat.pow_succ, Nat.mul_comm (256 ^ width) 256, Nat.mod_mul]

theorem toNatBE_ofNatBE (width n : Nat) : toNatBE (ofNatBE width n) = n % 256 ^ width := by
  simp [toNatBE, ofNatBE, toNatLE_ofNatLE]

theorem toNatLE_append (xs ys : Bytes) :
    toNatLE (xs ++ ys) = toNatLE xs + 256 ^ xs.length * toNatLE ys := by
  induction xs with
  | nil => simp [toNatLE]
  | cons b xs ih =>
    simp only [List.cons_append, toNatLE, ih, List.length_cons, Nat.pow_succ]
    rw [Nat.mul_add, Nat.mul_comm (256 ^ xs.length) 256, Nat.mul_assoc, Nat.add_assoc]

private theorem foldl_eq (bs : Bytes) (acc : Nat) :
    bs.foldl (fun acc b => 256 * acc + b.toNat) acc = 256 ^ bs.length * acc + toNatBE bs := by
  induction bs generalizing acc with
  | nil => simp [toNatBE, toNatLE]
  | cons b bs ih =>
    rw [List.foldl_cons, ih, toNatBE, toNatBE, List.reverse_cons, toNatLE_append]
    simp only [toNatLE, List.length_cons, List.length_reverse, Nat.pow_succ, Nat.mul_add, Nat.mul_zero,
      Nat.add_zero]
    rw [← Nat.mul_assoc]
    omega

theorem foldBE_eq (bs : Bytes) : foldBE bs = toNatBE bs := by
  simp [foldBE, foldl_eq]

theorem toList_loop (bs : ByteArray) (i : Nat) (acc : Bytes) :
    ByteArray.toList.loop bs i acc = acc.reverse ++ bs.data.toList.drop i := by
  induction i, acc using ByteArray.toList.loop.induct bs with
  | case1 i acc hBelow ih =>
    have hSize : i < bs.data.toList.length := hBelow
    have hGet : bs.get! i = bs.data.toList[i] := by simp [ByteArray.get!, getElem!_pos bs.data i hBelow]
    rw [ByteArray.toList.loop, if_pos hBelow, ih, List.drop_eq_getElem_cons hSize, hGet]
    simp
  | case2 i acc hEnd =>
    have hSize : bs.data.toList.length ≤ i := Nat.le_of_not_lt hEnd
    rw [ByteArray.toList.loop, if_neg hEnd, List.drop_eq_nil_of_le hSize, List.append_nil]

theorem toList_byteArray (bs : ByteArray) : bs.toList = bs.data.toList := toList_loop bs 0 []

/-- The octets of a text in UTF-8. -/
def ofText (s : String) : Bytes := s.toUTF8.toList

theorem length_ofText (s : String) : (ofText s).length = s.utf8ByteSize := by
  rw [ofText, toList_byteArray]
  rfl

theorem ofText_inj {s t : String} : ofText s = ofText t ↔ s = t := by
  rw [ofText, ofText, toList_byteArray, toList_byteArray, Array.toList_inj, ← ByteArray.ext_iff]
  exact String.toByteArray_inj

def toText? (bs : Bytes) : Option String := String.fromUTF8? (ByteArray.mk bs.toArray)

/-- Position by position exclusive or; the result is as long as the shorter string. -/
def xor (xs ys : Bytes) : Bytes := List.zipWith (· ^^^ ·) xs ys

theorem length_xor (xs ys : Bytes) : (xor xs ys).length = min xs.length ys.length := by
  simp [xor]

theorem xor_xor_cancel (xs ys : Bytes) (h : xs.length ≤ ys.length) : xor (xor xs ys) ys = xs := by
  induction xs generalizing ys with
  | nil => simp [xor]
  | cons x xs ih =>
    cases ys with
    | nil => simp at h
    | cons y ys =>
      have := ih ys (by simpa using h)
      simp only [xor] at this ⊢
      simp only [List.zipWith_cons_cons, this, UInt8.xor_assoc, UInt8.xor_self, UInt8.xor_zero]

/-- The string cut into pieces of `size` octets, at least one; the last piece may be shorter. -/
def chunks (size : Nat) : Bytes → List Bytes
  | [] => []
  | b :: rest => (b :: rest.take (size - 1)) :: chunks size (rest.drop (size - 1))
termination_by bs => bs.length
decreasing_by simp only [List.length_drop, List.length_cons]; omega

theorem flatten_chunks (size : Nat) (bs : Bytes) : (chunks size bs).flatten = bs := by
  fun_induction chunks size bs with
  | case1 => rfl
  | case2 b rest ih => simp [ih]

def hexDigit (n : Nat) : Char :=
  if n < 10 then Char.ofNat (48 + n) else Char.ofNat (87 + n)

def hexChars : Bytes → List Char
  | [] => []
  | b :: rest => hexDigit (b.toNat / 16) :: hexDigit (b.toNat % 16) :: hexChars rest

def toHex (bs : Bytes) : String := String.ofList (hexChars bs)

def hexValue? (c : Char) : Option Nat :=
  if '0' ≤ c ∧ c ≤ '9' then some (c.toNat - 48)
  else if 'a' ≤ c ∧ c ≤ 'f' then some (c.toNat - 87)
  else if 'A' ≤ c ∧ c ≤ 'F' then some (c.toNat - 55)
  else none

/-- The octets of a hexadecimal text, collected backwards behind `acc`. -/
def ofHexChars? (acc : Bytes) : List Char → Option Bytes
  | [] => some acc.reverse
  | [_] => none
  | c :: d :: rest =>
    match hexValue? c, hexValue? d with
    | some high, some low => ofHexChars? (UInt8.ofNat (16 * high + low) :: acc) rest
    | _, _ => none

def ofHex? (s : String) : Option Bytes := ofHexChars? [] s.toList

end Bytes

end TenantVault
