import BlockFetch.Document
import BlockFetch.Document.Magnitude
import BlockFetch.Reading

/-!
# JSON text

Reading is strict: nothing may follow the value but blanks, no comma may trail, and numbers have no
leading zeros. Integers are those that fit an unsigned or a signed word of sixty-four bits; a
negative zero, a longer number, and one with a fraction or an exponent are decimals. What cannot be
read is kept as `unreadable`, so that it does no harm where nobody reads it. Writing uses no blanks.
-/
namespace BlockFetch.Document

/-! ## Writing -/

def jsonChar (c : Char) : String :=
  if c = '"' then "\\\""
  else if c = '\\' then "\\\\"
  else if c = '\n' then "\\n"
  else if c = '\r' then "\\r"
  else if c = '\t' then "\\t"
  else if c.toNat = 8 then "\\b"
  else if c.toNat = 12 then "\\f"
  else if c.toNat < 32 then
    "\\u00" ++ String.ofList [Nat.digitChar (c.toNat / 16), Nat.digitChar (c.toNat % 16)]
  else String.singleton c

def jsonString (value : String) : String :=
  "\"" ++ value.foldl (fun written c => written ++ jsonChar c) "" ++ "\""

mutual

def toJson : Document → String
  | null => "null"
  | bool value => if value then "true" else "false"
  | integer value => toString value
  | decimal literal => literal
  | text value => jsonString value
  | list items => "[" ++ itemsToJson items ++ "]"
  | record fields => "\x7b" ++ fieldsToJson fields ++ "\x7d"
  | unreadable => "\"\\ud800\""

def itemsToJson : List Document → String
  | [] => ""
  | [item] => toJson item
  | item :: rest => toJson item ++ "," ++ itemsToJson rest

def fieldsToJson : List (String × Document) → String
  | [] => ""
  | [(name, content)] => jsonString name ++ ":" ++ toJson content
  | (name, content) :: rest => jsonString name ++ ":" ++ toJson content ++ "," ++ fieldsToJson rest

end

/-! ## Reading -/

namespace Json

open Reading (isDigit numeral)

def skipBlanks (input : List Char) : List Char :=
  input.dropWhile fun c => c = ' ' || c = '\n' || c = '\t' || c = '\r'

def unit? (digits : List Char) : Option Nat :=
  if digits.all (isDigit 16) then some (numeral 16 digits) else none

def escape? : Char → Option Char
  | '"' => some '"'
  | '\\' => some '\\'
  | '/' => some '/'
  | 'b' => some (Char.ofNat 8)
  | 'f' => some (Char.ofNat 12)
  | 'n' => some '\n'
  | 'r' => some '\r'
  | 't' => some '\t'
  | _ => none

/-- Reads the rest of a string literal up to its closing quote, as a list of code points in which
escaped surrogates are still apart. -/
def codePoints? : List Char → Option (List Nat × List Char)
  | [] => none
  | '"' :: rest => some ([], rest)
  | '\\' :: 'u' :: a :: b :: c :: d :: rest => do
    let unit ← unit? [a, b, c, d]
    let (points, rest) ← codePoints? rest
    return (unit :: points, rest)
  | '\\' :: c :: rest => do
    let c ← escape? c
    let (points, rest) ← codePoints? rest
    return (c.toNat :: points, rest)
  | c :: rest =>
    if c.toNat < 32 then none
    else do
      let (points, rest) ← codePoints? rest
      return (c.toNat :: points, rest)

/-- Joins surrogate pairs; `none` where one half stands alone. -/
def joinSurrogates? : List Nat → Option (List Char)
  | [] => some []
  | point :: rest =>
    if 0xD800 ≤ point ∧ point < 0xDC00 then
      match rest with
      | low :: rest =>
        if 0xDC00 ≤ low ∧ low < 0xE000 then do
          let chars ← joinSurrogates? rest
          return Char.ofNat (0x10000 + (point - 0xD800) * 0x400 + (low - 0xDC00)) :: chars
        else none
      | [] => none
    else if 0xDC00 ≤ point ∧ point < 0xE000 then none
    else do
      let chars ← joinSurrogates? rest
      return Char.ofNat point :: chars

/-- Reads the rest of a string literal; the text is missing when a surrogate stands alone. -/
def string? (input : List Char) : Option (Option String × List Char) := do
  let (points, rest) ← codePoints? input
  return ((joinSurrogates? points).map String.ofList, rest)

def takeDigits (input : List Char) : List Char × List Char :=
  input.span (isDigit 10)

def fraction? : List Char → Option (List Char × List Char)
  | '.' :: rest =>
    match takeDigits rest with
    | ([], _) => none
    | found => some found
  | input => some ([], input)

def exponent? (input : List Char) : Option (List Char × List Char) :=
  match input with
  | c :: rest =>
    if c = 'e' ∨ c = 'E' then
      let (sign, rest) := match rest with
        | '+' :: rest => (['+'], rest)
        | '-' :: rest => (['-'], rest)
        | rest => ([], rest)
      match takeDigits rest with
      | ([], _) => none
      | (digits, rest) => some (c :: sign ++ digits, rest)
    else some ([], input)
  | [] => some ([], [])

/-- Appends digits to a number while it fits sixty-four bits, and returns the digits that are
left. -/
def appendDigits (value : Nat) : List Char → Nat × List Char
  | [] => (value, [])
  | c :: rest =>
    let longer := 10 * value + numeral 10 [c]
    if longer < UInt64.size then appendDigits longer rest else (value, c :: rest)

/-- Whether a number is out of range. Only the digits that fit sixty-four bits count; the others
matter by their places alone. -/
def isBeyond (digits fraction exponent : List Char) : Bool :=
  let (value, skipped) := appendDigits 0 digits
  let (value, unused) := appendDigits value fraction
  let places : Int := (skipped.length : Int) + unused.length - fraction.length
  Magnitude.isRoughlyBeyond value (Magnitude.exponentValue exponent + places)

/-- The document of a number, given its sign, its whole digits, the digits of its fraction, and its
exponent. -/
def ofNumber (negative : Bool) (digits fraction exponent : List Char) : Document :=
  let value := numeral 10 digits
  let fits := if negative then 0 < value ∧ value ≤ UInt64.size / 2 else value < UInt64.size
  if fraction.isEmpty ∧ exponent.isEmpty ∧ fits then
    integer (if negative then -(value : Int) else value)
  else if isBeyond digits fraction exponent then unreadable
  else
    let mark := if negative then ['-'] else []
    let point := if fraction.isEmpty then [] else ['.']
    decimal (String.ofList (mark ++ digits ++ point ++ fraction ++ exponent))

def number? (input : List Char) : Option (Document × List Char) := do
  let (negative, input) := match input with
    | '-' :: rest => (true, rest)
    | input => (false, input)
  let (digits, rest) := takeDigits input
  if digits.isEmpty ∨ (digits.length > 1 ∧ digits.head? = some '0') then none
  else
    let (fraction, rest) ← fraction? rest
    let (exponent, rest) ← exponent? rest
    return (ofNumber negative digits fraction exponent, rest)

/-- How deep lists and records may nest. Nothing below that can be read. -/
def maxLevels : Nat := 127

/-- A list or record, when it may be nested `levels` deep. -/
def nested (levels : Nat) (document : Document) : Document :=
  if levels = 0 then unreadable else document

/-- The record of entries, unless one of their keys is missing. -/
def ofEntries (entries : List (Option String × Document)) : Document :=
  let fields? := entries.mapM fun (entry : Option String × Document) =>
    entry.1.map fun key => (key, entry.2)
  fields?.elim unreadable record

mutual

/-- Reads a value that starts right here and may be nested `levels` deep. Every step down or along
takes one unit of fuel. -/
def value? : (fuel levels : Nat) → List Char → Option (Document × List Char)
  | 0, _, _ => none
  | fuel + 1, levels, input =>
    match input with
    | 'n' :: 'u' :: 'l' :: 'l' :: rest => some (null, rest)
    | 't' :: 'r' :: 'u' :: 'e' :: rest => some (bool true, rest)
    | 'f' :: 'a' :: 'l' :: 's' :: 'e' :: rest => some (bool false, rest)
    | '"' :: rest => do
      let (value, rest) ← string? rest
      return (value.elim unreadable text, rest)
    | '[' :: rest =>
      match skipBlanks rest with
      | ']' :: rest => some (nested levels (list []), rest)
      | rest => do
        let (items, rest) ← items? fuel (levels - 1) rest
        return (nested levels (list items), rest)
    | '{' :: rest =>
      match skipBlanks rest with
      | '}' :: rest => some (nested levels (record []), rest)
      | rest => do
        let (entries, rest) ← entries? fuel (levels - 1) rest
        return (nested levels (ofEntries entries), rest)
    | input => number? input

def items? : (fuel levels : Nat) → List Char → Option (List Document × List Char)
  | 0, _, _ => none
  | fuel + 1, levels, input => do
    let (item, rest) ← value? fuel levels input
    match skipBlanks rest with
    | ']' :: rest => return ([item], rest)
    | ',' :: rest =>
      let (items, rest) ← items? fuel levels (skipBlanks rest)
      return (item :: items, rest)
    | _ => none

def entries? : (fuel levels : Nat) → List Char →
    Option (List (Option String × Document) × List Char)
  | 0, _, _ => none
  | fuel + 1, levels, input =>
    match input with
    | '"' :: rest => do
      let (key?, rest) ← string? rest
      match skipBlanks rest with
      | ':' :: rest =>
        let (content, rest) ← value? fuel levels (skipBlanks rest)
        match skipBlanks rest with
        | '}' :: rest => return ([(key?, content)], rest)
        | ',' :: rest =>
          let (entries, rest) ← entries? fuel levels (skipBlanks rest)
          return ((key?, content) :: entries, rest)
        | _ => none
      | _ => none
    | _ => none

end

end Json

def ofJson? (input : String) : Option Document :=
  let chars := Json.skipBlanks input.toList
  match Json.value? (chars.length + 1) Json.maxLevels chars with
  | some (document, rest) => if (Json.skipBlanks rest).isEmpty then some document else none
  | none => none

end BlockFetch.Document
