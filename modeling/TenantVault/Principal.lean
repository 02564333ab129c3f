import TenantVault.Encoding.Base32
import TenantVault.Encoding.Crc32
import TenantVault.Hash.Sha256
import TenantVault.Text.Blank

/-! # Principals

A principal is the identity of a caller: at most 29 octets, ordered as octet strings. Its text is the
base 32 form of a checksum and the octets, in lowercase, in groups of five characters. `ofText` accepts
that text and no other, apart from blanks around it.
-/

namespace TenantVault

structure Principal where
  raw : Bytes
  length_le : raw.length ≤ 29
  deriving DecidableEq

namespace Principal

def maxLength : Nat := 29

theorem ext {p q : Principal} (h : p.raw = q.raw) : p = q := by
  cases p; cases q; cases h; rfl

instance : LT Principal := ⟨fun p q => p.raw < q.raw⟩

instance : LE Principal := ⟨fun p q => p.raw ≤ q.raw⟩

instance (p q : Principal) : Decidable (p < q) := inferInstanceAs (Decidable (p.raw < q.raw))

instance (p q : Principal) : Decidable (p ≤ q) := inferInstanceAs (Decidable (p.raw ≤ q.raw))

instance : Std.IsLinearOrder Principal where
  le_refl p := Std.le_refl p.raw
  le_trans p q r := Std.le_trans (a := p.raw) (b := q.raw) (c := r.raw)
  le_antisymm _ _ h h' := ext (Std.le_antisymm h h')
  le_total p q := Std.le_total (a := p.raw) (b := q.raw)

instance : Std.LawfulOrderLT Principal where
  lt_iff p q := Std.lt_iff_le_and_not_ge (a := p.raw) (b := q.raw)

def ofRaw? (raw : Bytes) : Option Principal :=
  if h : raw.length ≤ 29 then some ⟨raw, h⟩ else none

def anonymous : Principal := ⟨[0x04], by decide⟩

instance : Inhabited Principal := ⟨anonymous⟩

def isAnonymous (p : Principal) : Bool := p = anonymous

/-- The principal of whoever holds a public key. -/
def selfAuthenticating (publicKey : Bytes) : Principal where
  raw := Sha256.sha224 publicKey ++ [0x02]
  length_le := by simp

def groups : List Char → List (List Char)
  | [] => []
  | c :: cs => (c :: cs.take 4) :: groups (cs.drop 4)
termination_by cs => cs.length
decreasing_by simp only [List.length_drop, List.length_cons]; omega

def textChars (p : Principal) : List Char :=
  let encoded := (Base32.encode (Crc32.octets p.raw ++ p.raw)).map Char.toLower
  List.intercalate ['-'] (groups encoded)

def toText (p : Principal) : String := String.ofList p.textChars

inductive TextFault where
  | empty
  | invalid (text : String)
  | checksum (text : String)
  | tooLong (size : Nat)
  | notCanonical (text : String)
  deriving DecidableEq

/-- The capital form of a character as far as it is ASCII. The other characters listed are those whose
capital form is ASCII; all the rest map to characters outside the alphabet anyway. -/
def capital (c : Char) : List Char :=
  match c.toNat with
  | 0xDF => ['S', 'S']
  | 0x131 => ['I']
  | 0x17F => ['S']
  | 0xFB00 => ['F', 'F']
  | 0xFB01 => ['F', 'I']
  | 0xFB02 => ['F', 'L']
  | 0xFB03 => ['F', 'F', 'I']
  | 0xFB04 => ['F', 'F', 'L']
  | 0xFB05 => ['S', 'T']
  | 0xFB06 => ['S', 'T']
  | _ => [c.toUpper]

def compact (cs : List Char) : List Char := (cs.filter (· ≠ '-')).flatMap capital

def ofText (text : String) : Except TextFault Principal :=
  let trimmed := Text.trim text.toList
  let digits := compact trimmed
  if digits.isEmpty then .error .empty
  else match Base32.decode? digits with
    | none => .error (.invalid text)
    | some octets =>
      let raw := octets.drop 4
      if octets.length < 4 then .error (.invalid text)
      else if Crc32.octets raw ≠ octets.take 4 then .error (.checksum text)
      else if h : raw.length ≤ 29 then
        let p : Principal := ⟨raw, h⟩
        if p.textChars = trimmed then .ok p else .error (.notCanonical text)
      else .error (.tooLong raw.length)

end Principal

end TenantVault
