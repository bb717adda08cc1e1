import BlockFetch.PeerAddress
import BlockFetch.Reading

/-!
# Reading peer addresses

The accepted texts are `a.b.c.d:port` and `[address]:port`. Octets have no leading zeros and at
most three digits, groups have one to four digits, ports and scopes any number of digits as long
as the value fits. Two colons stand for at least one zero group, and the last two groups may be
written as a dotted quad.
-/
namespace BlockFetch.PeerAddress

open Reading (skip? isDigit numeral)

/-- Reads all digits at the start of a text: their number, their value and the rest. -/
def takeDigits (radix : Nat) (text : List Char) : Nat × Nat × List Char :=
  let digits := text.takeWhile (isDigit radix)
  (digits.length, numeral radix digits, text.drop digits.length)

/-- Reads a number below a bound, written with any positive number of digits. -/
def number? (radix bound : Nat) (text : List Char) : Option (Nat × List Char) :=
  let (count, value, rest) := takeDigits radix text
  if 0 < count ∧ value < bound then some (value, rest) else none

/-- Reads a decimal octet: at most three digits, and no leading zero before others. -/
def octet? (text : List Char) : Option (UInt8 × List Char) :=
  let (count, value, rest) := takeDigits 10 text
  if 0 < count ∧ count ≤ 3 ∧ ¬(count > 1 ∧ text.head? = some '0') ∧ value < 256 then
    some (value.toUInt8, rest)
  else none

/-- Reads a group: one to four digits in base 16. -/
def group? (text : List Char) : Option (UInt16 × List Char) :=
  let (count, value, rest) := takeDigits 16 text
  if 0 < count ∧ count ≤ 4 then some (value.toUInt16, rest) else none

def quad? (text : List Char) : Option (Vector UInt8 4 × List Char) := do
  let (a, rest) ← octet? text
  let (b, rest) ← octet? (← skip? '.' rest)
  let (c, rest) ← octet? (← skip? '.' rest)
  let (d, rest) ← octet? (← skip? '.' rest)
  return (#v[a, b, c, d], rest)

/-- The groups at the start of a text. -/
structure Groups where
  values : List UInt16
  /-- Whether the last two groups were written as a dotted quad. -/
  endsInQuad : Bool
  rest : List Char

/-- Reads as many groups as there are, up to a number of free slots, with colons between them.
A dotted quad takes two slots and ends the groups. -/
def takeGroups : (slots : Nat) → (first : Bool) → List Char → Groups
  | 0, _, text => ⟨[], false, text⟩
  | slots + 1, first, text =>
    match if first then some text else skip? ':' text with
    | none => ⟨[], false, text⟩
    | some start =>
      match if slots = 0 then none else quad? start with
      | some (octets, rest) =>
        let pair (high low : UInt8) : UInt16 := high.toUInt16 * 256 + low.toUInt16
        ⟨[pair octets[0] octets[1], pair octets[2] octets[3]], true, rest⟩
      | none =>
        match group? start with
        | none => ⟨[], false, text⟩
        | some (value, rest) =>
          let more := takeGroups slots false rest
          ⟨value :: more.values, more.endsInQuad, more.rest⟩

/-- Eight groups, if a list has as many. -/
def eight? (groups : List UInt16) : Option (Vector UInt16 8) :=
  if h : groups.length = 8 then some ⟨groups.toArray, by simpa using h⟩ else none

/-- Reads an address of version 6, without brackets. -/
def address? (text : List Char) : Option (Vector UInt16 8 × List Char) := do
  let head := takeGroups 8 true text
  if head.values.length = 8 then
    return (← eight? head.values, head.rest)
  else if head.endsInQuad then none
  else
    let rest ← skip? ':' (← skip? ':' head.rest)
    let tail := takeGroups (7 - head.values.length) true rest
    let zeros := List.replicate (8 - head.values.length - tail.values.length) 0
    return (← eight? (head.values ++ zeros ++ tail.values), tail.rest)

def port? (text : List Char) : Option (UInt16 × List Char) := do
  let (value, rest) ← number? 10 65536 (← skip? ':' text)
  return (value.toUInt16, rest)

def scope? (text : List Char) : Option (UInt32 × List Char) :=
  match skip? '%' text with
  | none => some (0, text)
  | some rest => (number? 10 UInt32.size rest).map fun (value, rest) => (value.toUInt32, rest)

def socketV4? (text : List Char) : Option (PeerAddress × List Char) := do
  let (octets, rest) ← quad? text
  let (port, rest) ← port? rest
  return (v4 octets port, rest)

/-- Reads an address of version 6, in brackets, with its port. -/
def socketV6? (text : List Char) : Option (PeerAddress × List Char) := do
  let (groups, rest) ← address? (← skip? '[' text)
  let (scope, rest) ← scope? rest
  let (port, rest) ← port? (← skip? ']' rest)
  return (v6 groups port scope, rest)

def ofText? (text : String) : Option PeerAddress :=
  match socketV4? text.toList <|> socketV6? text.toList with
  | some (address, []) => some address
  | _ => none

/-- A text that is no peer address. -/
structure Error where
  text : String
  deriving DecidableEq, Repr

def Error.message (error : Error) : String :=
  "Invalid peer address: " ++ error.text

/-- Reads a peer address, or says which text is none. -/
def ofText (text : String) : Except Error PeerAddress :=
  match ofText? text with
  | some address => .ok address
  | none => .error ⟨text⟩

end BlockFetch.PeerAddress
