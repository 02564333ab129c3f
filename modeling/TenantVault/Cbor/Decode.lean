import TenantVault.Cbor.Timestamp
import TenantVault.Cbor.Value
import TenantVault.Text.Ratio

/-! # Reading CBOR

`decode` reads the first data item of a string and returns what follows it. All major types are read, with
definite and indefinite lengths, and arguments need not be in their shortest form. At most `maxNesting`
lists, maps and tags may stand inside one another, empty lists and maps not counted; the recursion is on
this number.

The content of a tag must not change, so it is read as fixed. Tag 256 is the exception: it is passed over
as if its content stood alone.
-/

namespace TenantVault.Cbor

inductive Fault where
  /-- The string ends inside an item. -/
  | ended
  | malformed
  deriving DecidableEq, Repr

/-- A reader of one item; the flag says whether the item stands where it must not change. -/
abbrev Reader := Bool → Bytes → Except Fault (Value × Bytes)

def maxNesting : Nat := 400

/-- The first `size` octets, collected backwards behind `acc`, and what follows. -/
def splitFrom? : Nat → Bytes → Bytes → Option (Bytes × Bytes)
  | 0, acc, rest => some (acc.reverse, rest)
  | _ + 1, _, [] => none
  | size + 1, acc, b :: rest => splitFrom? size (b :: acc) rest

def take (size : Nat) (bs : Bytes) : Except Fault (Bytes × Bytes) :=
  match splitFrom? size [] bs with
  | some parts => .ok parts
  | none => .error .ended

/-- The argument of a head with the given additional information; none for an indefinite length. -/
def argument (info : Nat) (rest : Bytes) : Except Fault (Option Nat × Bytes) :=
  if info < 24 then .ok (some info, rest)
  else if info < 28 then do
    let (octets, rest) ← take (2 ^ (info - 24)) rest
    return (some (Bytes.foldBE octets), rest)
  else if info = 31 then .ok (none, rest)
  else .error .malformed

/-- An argument that may not be indefinite. -/
def definite (info : Nat) (rest : Bytes) : Except Fault (Nat × Bytes) := do
  match ← argument info rest with
  | (some n, rest) => return (n, rest)
  | (none, _) => .error .malformed

/-- The longest string that is tried. -/
def maxLength : Nat := 2 ^ 63 - 1

/-- A string of a given length, with a reader for its octets. -/
def piece {α : Type} (read? : Bytes → Option α) (size : Nat) (rest : Bytes) : Except Fault (α × Bytes) := do
  if maxLength < size then throw .malformed
  let (octets, rest) ← take size rest
  match read? octets with
  | some a => return (a, rest)
  | none => throw .malformed

/-- The chunks of a string of indefinite length up to the closing mark, the last one first. -/
def chunks {α : Type} (read? : Bytes → Option α) (major : Nat) :
    Nat → List α → Bytes → Except Fault (List α × Bytes)
  | 0, _, _ => .error .ended
  | _ + 1, _, [] => .error .ended
  | fuel + 1, acc, b :: rest =>
    if b = 0xFF then .ok (acc, rest)
    else if b.toNat / 32 = major then do
      let (size, rest) ← definite (b.toNat % 32) rest
      let (chunk, rest) ← piece read? size rest
      chunks read? major fuel (chunk :: acc) rest
    else .error .malformed

/-- The pieces of a byte string or text: one, or the chunks of an indefinite length. -/
def pieces {α : Type} (read? : Bytes → Option α) (major info : Nat) (rest : Bytes) :
    Except Fault (List α × Bytes) := do
  match ← argument info rest with
  | (some size, rest) =>
    let (a, rest) ← piece read? size rest
    return ([a], rest)
  | (none, rest) =>
    let (backwards, rest) ← chunks read? major (rest.length + 1) [] rest
    return (backwards.reverse, rest)

def items (item : Bytes → Except Fault (Value × Bytes)) :
    Nat → List Value → Bytes → Except Fault (List Value × Bytes)
  | 0, acc, rest => .ok (acc.reverse, rest)
  | count + 1, acc, rest => do
    let (v, rest) ← item rest
    items item count (v :: acc) rest

def itemsToBreak (item : Bytes → Except Fault (Value × Bytes)) :
    Nat → List Value → Bytes → Except Fault (List Value × Bytes)
  | 0, _, _ => .error .ended
  | fuel + 1, acc, rest =>
    match rest with
    | 0xFF :: rest => .ok (acc.reverse, rest)
    | rest => do
      let (v, rest) ← item rest
      itemsToBreak item fuel (v :: acc) rest

abbrev Entries := List (Value × Value)

def entries (nested : Reader) (fixed : Bool) : Nat → Entries → Bytes → Except Fault (Entries × Bytes)
  | 0, acc, rest => .ok (acc, rest)
  | count + 1, acc, rest => do
    let (k, rest) ← nested true rest
    let (v, rest) ← nested fixed rest
    entries nested fixed count (Value.putEntry k v acc) rest

def entriesToBreak (nested : Reader) (fixed : Bool) :
    Nat → Entries → Bytes → Except Fault (Entries × Bytes)
  | 0, _, _ => .error .ended
  | fuel + 1, acc, rest =>
    match rest with
    | 0xFF :: rest => .ok (acc, rest)
    | rest => do
      let (k, rest) ← nested true rest
      let (v, rest) ← nested fixed rest
      entriesToBreak nested fixed fuel (Value.putEntry k v acc) rest

/-- The reader for what stands inside an item, if the item may hold anything. -/
def within (nested : Option Reader) : Except Fault Reader :=
  match nested with
  | some nested => .ok nested
  | none => .error .malformed

def list (nested : Option Reader) (fixed : Bool) (info : Nat) (rest : Bytes) :
    Except Fault (Value × Bytes) := do
  match ← argument info rest with
  | (some 0, rest) => return (.list fixed [], rest)
  | (some count, rest) =>
    let (vs, rest) ← items ((← within nested) fixed) count [] rest
    return (.list fixed vs, rest)
  | (none, rest) =>
    let (vs, rest) ← itemsToBreak ((← within nested) fixed) (rest.length + 1) [] rest
    return (.list fixed vs, rest)

def map (nested : Option Reader) (fixed : Bool) (info : Nat) (rest : Bytes) :
    Except Fault (Value × Bytes) := do
  match ← argument info rest with
  | (some 0, rest) => return (.map fixed [], rest)
  | (some count, rest) =>
    let (es, rest) ← entries (← within nested) fixed count [] rest
    return (.map fixed es, rest)
  | (none, rest) =>
    let (es, rest) ← entriesToBreak (← within nested) fixed (rest.length + 1) [] rest
    return (.map fixed es, rest)

/-- A list with every value once, at its first place. -/
def distinct (vs : List Value) : List Value :=
  (vs.foldl (fun acc v => if acc.any (Value.same v) then acc else v :: acc) []).reverse

/-- Whether a tag has a meaning of its own. -/
def isMeaningful (tag : Nat) : Bool := [0, 1, 2, 3, 4, 5, 30, 37, 258, 55799].contains tag

/-- A single number, or a text that a fraction is written in, as a fraction. -/
def fractionOf? : Value → Option Value
  | .float x => if x.isFinite then Value.quotient? x.ratio.1 x.ratio.2 else none
  | .decimal d => Value.quotient? d.ratio.1 d.ratio.2
  | .text s => (Text.readRatio? s).bind fun r => Value.quotient? r.1 r.2
  | v => v.rational?.bind fun r => Value.quotient? r.1 r.2

/-- What a tag makes of its content; none if the content is of the wrong kind. A fraction is given by two
numbers or by a single one beside a null. -/
def meaning? (fixed : Bool) (tag : Nat) (content : Value) : Option Value :=
  match tag, content with
  | 0, .text s => (Timestamp.moment? s).map .moment
  | 1, .float x => (Moment.ofFloat? x).map .moment
  | 1, v => v.integer?.bind fun n => (Moment.ofSeconds? n).map .moment
  | 2, .bytes bs => some (.int (Bytes.foldBE bs : Nat))
  | 3, .bytes bs => some (.int (-1 - (Bytes.foldBE bs : Nat)))
  | 4, .list _ [.int e, .int m] => (Decimal.Number.ofDecimal? m e).map .decimal
  | 5, .list _ [.int e, .int m] => (Decimal.Number.ofBinary? m e).map .decimal
  | 30, .list _ [v, .null] => fractionOf? v
  | 30, .list _ [v, w] => do
    let (top, bottom) ← v.rational?
    let (num, den) ← w.rational?
    Value.quotient? (top * den) (bottom * num)
  | 37, .bytes bs => if bs.length = 16 then some (.identifier bs) else none
  | 258, .list _ vs => some (.set fixed (distinct vs))
  | 55799, v => some v
  | tag, v => if isMeaningful tag then none else some (.tagged tag v)

/-- The tag that is passed over. -/
def transparentTag : Nat := 256

def tagged (nested : Option Reader) (fixed : Bool) (info : Nat) (rest : Bytes) :
    Except Fault (Value × Bytes) := do
  let (tag, rest) ← definite info rest
  let nested ← within nested
  if tag = transparentTag then nested fixed rest
  else
    let (content, rest) ← nested true rest
    match meaning? fixed tag content with
    | some v => return (v, rest)
    | none => .error .malformed

/-- Simple values and floating-point numbers. -/
def simple (info : Nat) (rest : Bytes) : Except Fault (Value × Bytes) :=
  match info with
  | 20 => .ok (.bool false, rest)
  | 21 => .ok (.bool true, rest)
  | 22 => .ok (.null, rest)
  | 23 => .ok (.undefined, rest)
  | 24 => do
    let (octets, rest) ← take 1 rest
    let code := Bytes.foldBE octets
    if code < 32 then .error .malformed else return (.simple code, rest)
  | 25 => do
    let (octets, rest) ← take 2 rest
    return (.float (Binary64.ofHalf (Bytes.foldBE octets)), rest)
  | 26 => do
    let (octets, rest) ← take 4 rest
    return (.float (Binary64.ofSingle (Bytes.foldBE octets)), rest)
  | 27 => do
    let (octets, rest) ← take 8 rest
    return (.float ⟨UInt64.ofNat (Bytes.foldBE octets)⟩, rest)
  | info => if info < 20 then .ok (.simple info, rest) else .error .malformed

/-- One item, with `nested` as the reader for what it holds; without one it may hold nothing. -/
def body (nested : Option Reader) : Reader := fun fixed bs =>
  match bs with
  | [] => .error .ended
  | b :: rest =>
    let info := b.toNat % 32
    match b.toNat / 32 with
    | 0 => do
      let (n, rest) ← definite info rest
      return (.int n, rest)
    | 1 => do
      let (n, rest) ← definite info rest
      return (.int (-1 - n), rest)
    | 2 => do
      let (parts, rest) ← pieces some 2 info rest
      return (.bytes parts.flatten, rest)
    | 3 => do
      let (parts, rest) ← pieces Bytes.toText? 3 info rest
      return (.text (String.join parts), rest)
    | 4 => list nested fixed info rest
    | 5 => map nested fixed info rest
    | 6 => tagged nested fixed info rest
    | _ => simple info rest

def itemWithin : Nat → Reader
  | 0 => body none
  | depth + 1 => body (some (itemWithin depth))

/-- A reader of the first item, which gives what follows it as well. -/
abbrev Decoder := Bytes → Except Fault (Value × Bytes)

def decode : Decoder := fun bs => itemWithin maxNesting false bs

end TenantVault.Cbor
