import TenantVault.Text.Quoted
import TenantVault.Text.Table.Lowercase
import TenantVault.Text.Table.Cased

/-! # Lowercase text

The full lowercase mapping. Apart from the simple mappings, the dotted capital I becomes two code points,
and a capital sigma becomes the final form behind a cased letter and not before one, ignorable marks
being skipped on both sides.
-/

namespace TenantVault.Text

def lowerChar (c : Char) : Char :=
  let n := c.toNat
  if n < 0x80 then c.toLower
  else match Table.lowercase.find? fun r => r.1 ≤ n && n ≤ r.2.1 && (n - r.1) % r.2.2.1 == 0 with
    | some r => Char.ofNat ((n : Int) + r.2.2.2).toNat
    | none => c

def isCaseIgnorable (c : Char) : Bool := inRanges Table.caseIgnorable c.toNat

def isCased (c : Char) : Bool := inRanges Table.cased c.toNat

/-- Whether the nearest character that is not ignorable is a cased letter. -/
def meetsCased (cs : List Char) : Bool :=
  match cs.dropWhile isCaseIgnorable with
  | [] => false
  | c :: _ => isCased c

/-- Lowercase of the rest of a text whose characters so far are `before`, the last one first. -/
def lowerAfter (before : List Char) : List Char → List Char
  | [] => []
  | c :: rest =>
    let here :=
      if c.toNat = 0x3A3 then [if meetsCased before && !meetsCased rest then 'ς' else 'σ']
      else if c.toNat = 0x130 then ['i', Char.ofNat 0x307]
      else [lowerChar c]
    here ++ lowerAfter (c :: before) rest

def lower (s : String) : String := String.ofList (lowerAfter [] s.toList)

end TenantVault.Text
