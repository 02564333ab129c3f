import TenantVault.Decimal.Shortest
import TenantVault.Scalar
import TenantVault.Table
import TenantVault.Text.Quoted

/-! # JSON documents

A document keeps integers apart from doubles and the order of the members of an object. `render` writes it
without blanks; `display` is the form in which a value is shown inside a message, and `inspect` the one in
which it is shown there as a part of something.
-/

namespace TenantVault

inductive Json where
  | null
  | bool (b : Bool)
  | int (n : Int)
  | float (x : Binary64)
  | text (s : String)
  | list (items : List Json)
  | object (members : List (String × Json))
  deriving Inhabited

namespace Json

def member? (v : Json) (name : String) : Option Json :=
  match v with
  | object members => Table.lookup name members
  | _ => none

/-- A document that is neither a list nor an object. -/
def scalar? : Json → Option Scalar
  | null => some .null
  | bool b => some (.bool b)
  | int n => some (.int n)
  | float x => some (.float x)
  | text s => some (.text s)
  | list _ | object _ => none

def ofScalar : Scalar → Json
  | .null => null
  | .bool b => bool b
  | .int n => int n
  | .float x => float x
  | .text s => text s

@[simp] theorem scalar?_ofScalar (s : Scalar) : (ofScalar s).scalar? = some s := by cases s <;> rfl

def content? (v : Json) : Option Scalar.Content := v.scalar?.map Scalar.content

/-- Whether a document is a number with the value of an integer. -/
def isInt (v : Json) (n : Int) : Bool := decide (v.content? = some (.whole n))

@[simp] theorem isInt_int (m n : Int) : (int m).isInt n = decide (m = n) := by
  simp [isInt, content?, scalar?, Scalar.content]

/-- What can be gone through stands for a list: a text for its characters, an object for its names. -/
def elements? : Json → Option (List Json)
  | list vs => some vs
  | text s => some (s.toList.map fun c => text (String.singleton c))
  | object members => some (members.map fun m => text m.1)
  | _ => none

def intChars : Int → List Char
  | .ofNat n => Nat.toDigits 10 n
  | .negSucc n => '-' :: Nat.toDigits 10 (n + 1)

/-- Doubles in a document: positional from `1e-5` up to sixteen digits, a signed exponent otherwise. -/
def floatLayout : Decimal.Layout where
  positionalFrom := -5
  positionalBelow := 16
  plusSign := true
  exponentWidth := 1

def floatChars (x : Binary64) : List Char :=
  if x.isFinite then Decimal.render floatLayout x else ['n', 'u', 'l', 'l']

def escapeChar (c : Char) : List Char :=
  if c = Text.doubleQuote then ['\\', c]
  else if c = '\\' then ['\\', '\\']
  else if c.toNat = 8 then ['\\', 'b']
  else if c = '\t' then ['\\', 't']
  else if c = '\n' then ['\\', 'n']
  else if c.toNat = 12 then ['\\', 'f']
  else if c = '\r' then ['\\', 'r']
  else if c.toNat < 0x20 then '\\' :: 'u' :: Text.hex 4 c.toNat
  else [c]

def textChars (s : String) : List Char :=
  Text.doubleQuote :: s.toList.flatMap escapeChar ++ [Text.doubleQuote]

mutual

/-- The document in front of the characters that follow it. -/
def write : Json → List Char → List Char
  | null, rest => 'n' :: 'u' :: 'l' :: 'l' :: rest
  | bool true, rest => 't' :: 'r' :: 'u' :: 'e' :: rest
  | bool false, rest => 'f' :: 'a' :: 'l' :: 's' :: 'e' :: rest
  | int n, rest => intChars n ++ rest
  | float x, rest => floatChars x ++ rest
  | text s, rest => textChars s ++ rest
  | list [], rest => '[' :: ']' :: rest
  | list (v :: vs), rest => '[' :: write v (writeItems vs (']' :: rest))
  | object [], rest => Char.ofNat 0x7B :: Char.ofNat 0x7D :: rest
  | object ((name, v) :: members), rest =>
    Char.ofNat 0x7B :: textChars name ++ ':' :: write v (writeMembers members (Char.ofNat 0x7D :: rest))

def writeItems : List Json → List Char → List Char
  | [], rest => rest
  | v :: vs, rest => ',' :: write v (writeItems vs rest)

def writeMembers : List (String × Json) → List Char → List Char
  | [], rest => rest
  | (name, v) :: members, rest => ',' :: textChars name ++ ':' :: write v (writeMembers members rest)

end

def render (v : Json) : String := String.ofList (write v [])

/-- Doubles inside a message: positional from `1e-4` up to sixteen digits, a signed exponent of at least
two digits otherwise. -/
def messageLayout : Decimal.Layout where
  positionalFrom := -4
  positionalBelow := 16
  plusSign := true
  exponentWidth := 2

def inspectFloat (x : Binary64) : List Char :=
  if x.isNaN then ['n', 'a', 'n']
  else if x.isInfinite then (if x.isNegative then ['-', 'i', 'n', 'f'] else ['i', 'n', 'f'])
  else Decimal.render messageLayout x

mutual

def inspectTo : Json → List Char → List Char
  | null, rest => "None".toList ++ rest
  | bool true, rest => "True".toList ++ rest
  | bool false, rest => "False".toList ++ rest
  | int n, rest => intChars n ++ rest
  | float x, rest => inspectFloat x ++ rest
  | text s, rest => Text.quoteChars s.toList ++ rest
  | list [], rest => '[' :: ']' :: rest
  | list (v :: vs), rest => '[' :: inspectTo v (inspectItems vs (']' :: rest))
  | object [], rest => Char.ofNat 0x7B :: Char.ofNat 0x7D :: rest
  | object ((name, v) :: members), rest =>
    Char.ofNat 0x7B :: Text.quoteChars name.toList ++ ':' :: ' ' ::
      inspectTo v (inspectMembers members (Char.ofNat 0x7D :: rest))

def inspectItems : List Json → List Char → List Char
  | [], rest => rest
  | v :: vs, rest => ',' :: ' ' :: inspectTo v (inspectItems vs rest)

def inspectMembers : List (String × Json) → List Char → List Char
  | [], rest => rest
  | (name, v) :: members, rest =>
    ',' :: ' ' :: Text.quoteChars name.toList ++ ':' :: ' ' :: inspectTo v (inspectMembers members rest)

end

def inspect (v : Json) : String := String.ofList (inspectTo v [])

/-- A text stands for itself. -/
def display : Json → String
  | text s => s
  | v => v.inspect

end Json

def Scalar.display (s : Scalar) : String := (Json.ofScalar s).display

end TenantVault
