import TenantVault.Principals
import TenantVault.Scalar
import TenantVault.Table
import TenantVault.Text.Numeral

/-! # Entries of a request

A request comes as a table of named entries of any kind. A reader turns an entry into a value of a type
or lists everything that is wrong with it. Readings are combined so that the errors of all fields are
collected, in the order of the fields.

Readers for integers and flags are lenient: an integer may be given as a flag, as a whole number in
floating point or in text, and a flag as zero, one or one of a few words.
-/

namespace TenantVault

inductive Entry where
  | null
  | flag (b : Bool)
  | number (n : Int)
  | real (x : Binary64)
  | text (s : String)
  | bytes (bs : Bytes)
  | principal (p : Principal)
  | list (items : List Entry)
  | record (fields : List (String × Entry))

instance : Inhabited Entry := ⟨.null⟩

namespace Entry

def scalar? : Entry → Option Scalar
  | null => some .null
  | flag b => some (.bool b)
  | number n => some (.int n)
  | real x => some (.float x)
  | text s => some (.text s)
  | _ => none

/-- Whether two entries stand for one member of a set. -/
def isSame : Entry → Entry → Bool
  | bytes a, bytes b => decide (a = b)
  | principal p, principal q => decide (p = q)
  | a, b => match a.scalar?, b.scalar? with
    | some s, some t => s == t
    | _, _ => false

end Entry

/-- A value or the errors in place of it. -/
inductive Checked (α : Type) where
  | good (a : α)
  | bad (errors : List FieldError)

namespace Checked

variable {α β : Type}

def map (f : α → β) : Checked α → Checked β
  | good a => good (f a)
  | bad errors => bad errors

/-- Errors of the function come before errors of the argument. -/
def apply : Checked (α → β) → Checked α → Checked β
  | good f, a => a.map f
  | bad errors, good _ => bad errors
  | bad errors, bad more => bad (errors ++ more)

instance : Applicative Checked where
  pure := good
  map := map
  seq f a := apply f (a ())

/-- The errors moved to a place within another entry. -/
def within (place : String) : Checked α → Checked α
  | good a => good a
  | bad errors => bad (errors.map fun e => { e with place := place :: e.place })

def fault (why : FieldFault) : Checked α := bad [⟨[], why⟩]

/-- A further condition on a value that was read. -/
def refine (fault? : α → Option FieldFault) : Checked α → Checked α
  | good a => match fault? a with
    | some why => fault why
    | none => good a
  | bad errors => bad errors

def toResult : Checked α → Result α
  | good a => .ok a
  | bad errors => .error (.fields errors)

end Checked

abbrev Entry.Reader (α : Type) := Entry → Checked α

namespace Entry

variable {α : Type}

def readText : Reader String
  | text s => .good s
  | _ => .fault .notText

def readBytes : Reader Bytes
  | bytes bs => .good bs
  | _ => .fault .notBytes

def readPrincipal : Reader Principal
  | principal p => .good p
  | _ => .fault .notPrincipal

/-- The integer that a double holds, if it is one and needs less than 64 bits. -/
def narrow? (x : Binary64) : Option Int :=
  if x.isIntegral && x.truncate.natAbs < 2 ^ 63 then some x.truncate else none

def readInteger : Reader Int
  | number n => .good n
  | flag b => .good (if b then 1 else 0)
  | real x =>
    if !x.isIntegral then .fault .fractionalInteger
    else match narrow? x with
      | some n => .good n
      | none => .fault .integerTooWide
  | text s => match Text.readCount? s with
    | some n => if Text.isTooWide n then .fault .integerTooWide else .good n
    | none => .fault .unreadableInteger
  | _ => .fault .notInteger

def trueWords : List String := ["1", "t", "true", "y", "yes", "on"]

def falseWords : List String := ["0", "f", "false", "n", "no", "off"]

/-- A flag given as a number of 64 bits. -/
def flagOf (n : Int) : Checked Bool :=
  if n = 0 then .good false
  else if n = 1 then .good true
  else if -(2 ^ 63) ≤ n ∧ n < 2 ^ 63 then .fault .unreadableFlag
  else .fault .notFlag

def readFlag : Reader Bool
  | flag b => .good b
  | number n => flagOf n
  | real x => match narrow? x with
    | some n => flagOf n
    | none => .fault .notFlag
  | text s =>
    let word := s.toLower
    if trueWords.contains word then .good true
    else if falseWords.contains word then .good false
    else .fault .unreadableFlag
  | _ => .fault .notFlag

/-- The items of a list, each error at the number of its item. -/
def readItems (item : Reader α) : Nat → List Entry → Checked (List α)
  | _, [] => .good []
  | index, v :: vs =>
    List.cons <$> (item v).within (toString index) <*> readItems item (index + 1) vs

/-- A member that is given twice is read once. -/
def readSet [LT α] [LE α] [DecidableEq α] [DecidableLT α] [Std.IsLinearOrder α] [Std.LawfulOrderLT α]
    (item : Reader α) : Reader (SortedSet α)
  | list items => SortedSet.ofList <$> readItems item 0 (items.eraseDupsBy isSame)
  | _ => .fault .notSet

def readRows (item : Reader α) : List (String × Entry) → Checked (List (String × α))
  | [] => .good []
  | (name, v) :: rest =>
    (fun a rows => (name, a) :: rows) <$> (item v).within name <*> readRows item rest

def readTable (item : Reader α) : Reader (Table String α)
  | record fields => Table.ofRows <$> readRows item fields
  | _ => .fault .notTable

/-- A null stands for no value. -/
def optional (reader : Reader α) : Reader (Option α)
  | null => .good none
  | v => some <$> reader v

/-- The same condition on a value that may be absent. -/
def onSome (fault? : α → Option FieldFault) : Option α → Option FieldFault
  | some a => fault? a
  | none => none

def atLeast (low : Int) (n : Int) : Option FieldFault := if n < low then some .tooSmall else none

def between (low high : Int) (n : Int) : Option FieldFault :=
  if n < low then some .tooSmall else if high < n then some .tooLarge else none

abbrev Fields := List (String × Entry)

def required (fields : Fields) (name : String) (reader : Reader α) : Checked α :=
  match Table.lookup name fields with
  | some v => (reader v).within name
  | none => .bad [⟨[name], .missing⟩]

/-- A field that may be left out. -/
def withDefault (fields : Fields) (name : String) (default : α) (reader : Reader α) : Checked α :=
  match Table.lookup name fields with
  | some v => (reader v).within name
  | none => .good default

end Entry

end TenantVault
