import TenantVault.Cbor.Value
import TenantVault.Json.Value

/-! # Printed form of data items

How an item is shown inside a message. Text is quoted by `inspect` and bare by `display`, which agree on
everything made of other items. An integer of more than 4300 digits has no printed form.
-/

namespace TenantVault.Cbor.Value

def quoted (cs : List Char) : List Char := Text.apostrophe :: cs ++ [Text.apostrophe]

/-- Sixteen octets in hexadecimal, in five groups. -/
def identifierChars (octets : Bytes) : List Char :=
  let part (start size : Nat) := Bytes.hexChars ((octets.drop start).take size)
  List.intercalate ['-'] [part 0 4, part 4 2, part 6 2, part 8 2, part 10 6]

mutual

def inspectTo : Value → List Char → List Char
  | null, rest => "None".toList ++ rest
  | undefined, rest => "undefined".toList ++ rest
  | bool true, rest => "True".toList ++ rest
  | bool false, rest => "False".toList ++ rest
  | int n, rest => Json.intChars n ++ rest
  | float x, rest => Json.inspectFloat x ++ rest
  | bytes bs, rest => Text.quoteOctets bs ++ rest
  | text s, rest => Text.quoteChars s.toList ++ rest
  | list false [], rest => '[' :: ']' :: rest
  | list false (v :: vs), rest => '[' :: inspectTo v (inspectItems vs (']' :: rest))
  | list true [], rest => '(' :: ')' :: rest
  | list true [v], rest => '(' :: inspectTo v (',' :: ')' :: rest)
  | list true (v :: vs), rest => '(' :: inspectTo v (inspectItems vs (')' :: rest))
  | map false entries, rest => inspectMap entries rest
  | map true entries, rest => "frozendict(".toList ++ inspectMap entries (')' :: rest)
  | tagged tag v, rest =>
    "CBORTag(".toList ++ Nat.toDigits 10 tag ++ ',' :: ' ' :: inspectTo v (')' :: rest)
  | simple code, rest => "CBORSimpleValue(".toList ++ Nat.toDigits 10 code ++ ')' :: rest
  | set false [], rest => "set()".toList ++ rest
  | set false (v :: vs), rest =>
    Char.ofNat 0x7B :: inspectTo v (inspectItems vs (Char.ofNat 0x7D :: rest))
  | set true [], rest => "frozenset()".toList ++ rest
  | set true (v :: vs), rest =>
    "frozenset(".toList ++ Char.ofNat 0x7B :: inspectTo v (inspectItems vs (Char.ofNat 0x7D :: ')' :: rest))
  | decimal d, rest => "Decimal(".toList ++ quoted d.chars ++ ')' :: rest
  | special d, rest => "Decimal(".toList ++ quoted d.chars ++ ')' :: rest
  | fraction num den, rest =>
    "Fraction(".toList ++ Json.intChars num ++ ',' :: ' ' :: Nat.toDigits 10 den ++ ')' :: rest
  | moment m, rest => m.inspectChars ++ rest
  | identifier octets, rest => "UUID(".toList ++ quoted (identifierChars octets) ++ ')' :: rest

def inspectItems : List Value → List Char → List Char
  | [], rest => rest
  | v :: vs, rest => ',' :: ' ' :: inspectTo v (inspectItems vs rest)

def inspectMap : List (Value × Value) → List Char → List Char
  | [], rest => Char.ofNat 0x7B :: Char.ofNat 0x7D :: rest
  | (k, v) :: entries, rest =>
    Char.ofNat 0x7B :: inspectTo k (':' :: ' ' :: inspectTo v (inspectEntries entries (Char.ofNat 0x7D :: rest)))

def inspectEntries : List (Value × Value) → List Char → List Char
  | [], rest => rest
  | (k, v) :: entries, rest =>
    ',' :: ' ' :: inspectTo k (':' :: ' ' :: inspectTo v (inspectEntries entries rest))

end

def inspect (v : Value) : String := String.ofList (inspectTo v [])

def display : Value → String
  | text s => s
  | decimal d => String.ofList d.chars
  | special d => String.ofList d.chars
  | fraction num den =>
    String.ofList (Json.intChars num ++ if den = 1 then [] else '/' :: Nat.toDigits 10 den)
  | moment m => String.ofList m.chars
  | simple code => String.ofList (Nat.toDigits 10 code)
  | identifier octets => String.ofList (identifierChars octets)
  | v => v.inspect

/-- The first number that is too long to be printed. -/
def unprintable : Nat := 10 ^ 4300

theorem one_lt_unprintable : 1 < unprintable := by decide +kernel

mutual

def isPrintable : Value → Bool
  | int n => n.natAbs < unprintable
  | fraction num den => num.natAbs < unprintable && den < unprintable
  | list _ vs => arePrintable vs
  | set _ vs => arePrintable vs
  | map _ entries => arePrintableEntries entries
  | tagged _ v => isPrintable v
  | _ => true

def arePrintable : List Value → Bool
  | [] => true
  | v :: vs => isPrintable v && arePrintable vs

def arePrintableEntries : List (Value × Value) → Bool
  | [] => true
  | (k, v) :: entries => isPrintable k && isPrintable v && arePrintableEntries entries

end

/-- Every decimal without a value can be shown. -/
theorem signals_of_not_isPrintable {v : Value} (h : v.isPrintable = false) : v.signals = false := by
  cases v with
  | special d => cases h
  | _ => rfl

end TenantVault.Cbor.Value
