import BlockFetch.Document
import BlockFetch.Document.Magnitude
import BlockFetch.Reading

/-!
# Texts, numbers and dates of a configuration file

Each reader takes what it can from the start of a text and returns the rest. A date or time has no
type in this library: it becomes a record with one reserved key, which no other record has.
-/
namespace BlockFetch.Document.Toml

open Reading (skip? isDigit numeral)

def lineEnd? : List Char → Option (List Char)
  | '\n' :: rest => some rest
  | '\r' :: '\n' :: rest => some rest
  | _ => none

def isBlank (c : Char) : Bool :=
  c = ' ' || c = '\t'

def skipBlanks (input : List Char) : List Char :=
  input.dropWhile isBlank

/-- Whether a character may stand in a text or a comment: everything but control characters, of
which only the tab is allowed. -/
def isPlain (c : Char) : Bool :=
  c = '\t' || (32 ≤ c.toNat && c.toNat ≠ 127)

/-! ## Texts -/

/-- Reads a character by its code point, written with a fixed number of digits in base 16. -/
def codePoint? (count : Nat) (input : List Char) : Option (Char × List Char) :=
  let digits := input.take count
  let value := numeral 16 digits
  if digits.length = count ∧ digits.all (isDigit 16) ∧ value.isValidChar then
    some (Char.ofNat value, input.drop count)
  else none

/-- Reads what stands for one character after a backslash. -/
def escape? : List Char → Option (Char × List Char)
  | 'b' :: rest => some (Char.ofNat 8, rest)
  | 't' :: rest => some ('\t', rest)
  | 'n' :: rest => some ('\n', rest)
  | 'f' :: rest => some (Char.ofNat 12, rest)
  | 'r' :: rest => some ('\r', rest)
  | '"' :: rest => some ('"', rest)
  | '\\' :: rest => some ('\\', rest)
  | 'u' :: rest => codePoint? 4 rest
  | 'U' :: rest => codePoint? 8 rest
  | _ => none

def basicText? : (fuel : Nat) → List Char → Option (List Char × List Char)
  | 0, _ => none
  | fuel + 1, input =>
    match input with
    | '"' :: rest => some ([], rest)
    | '\\' :: rest => do
      let (c, rest) ← escape? rest
      let (chars, rest) ← basicText? fuel rest
      return (c :: chars, rest)
    | c :: rest =>
      if isPlain c then do
        let (chars, rest) ← basicText? fuel rest
        return (c :: chars, rest)
      else none
    | [] => none

def literalText? : List Char → Option (List Char × List Char)
  | [] => none
  | c :: rest =>
    if c = '\'' then some ([], rest)
    else if isPlain c then do
      let (chars, rest) ← literalText? rest
      return (c :: chars, rest)
    else none

def skipBlankLines : List Char → List Char
  | '\r' :: '\n' :: rest => skipBlankLines rest
  | c :: rest => if isBlank c || c = '\n' then skipBlankLines rest else c :: rest
  | [] => []

/-- The quotes at the end of a text of several lines: the last three close it, and up to two
before them belong to it. -/
def closing? (quote : Char) (input : List Char) : Option (List Char × List Char) :=
  let count := (input.takeWhile (· = quote)).length
  if count < 3 then none
  else
    let own := min (count - 3) 2
    some (List.replicate own quote, input.drop (own + 3))

/-- Reads the rest of a text of several lines. A backslash at the end of a line takes the line end
and the blanks and line ends behind it away; only texts between double quotes have escapes. -/
def longText? (quote : Char) : (fuel : Nat) → List Char → Option (List Char × List Char)
  | 0, _ => none
  | fuel + 1, input =>
    match closing? quote input with
    | some closed => some closed
    | none =>
      match input with
      | [] => none
      | c :: rest =>
        if c = '\\' ∧ quote = '"' then
          match lineEnd? (skipBlanks rest) with
          | some rest => longText? quote fuel (skipBlankLines rest)
          | none => do
            let (c, rest) ← escape? rest
            let (chars, rest) ← longText? quote fuel rest
            return (c :: chars, rest)
        else
          match lineEnd? input with
          | some rest => do
            let (chars, rest) ← longText? quote fuel rest
            return ('\n' :: chars, rest)
          | none =>
            if isPlain c then do
              let (chars, rest) ← longText? quote fuel rest
              return (c :: chars, rest)
            else none

/-- Takes a line end off the start of a text of several lines, if there is one. -/
def skipFirstLineEnd (input : List Char) : List Char :=
  (lineEnd? input).getD input

def text? (input : List Char) : Option (String × List Char) :=
  let found := match input with
    | '"' :: '"' :: '"' :: rest => longText? '"' (rest.length + 1) (skipFirstLineEnd rest)
    | '\'' :: '\'' :: '\'' :: rest => longText? '\'' (rest.length + 1) (skipFirstLineEnd rest)
    | '"' :: rest => basicText? (rest.length + 1) rest
    | '\'' :: rest => literalText? rest
    | _ => none
  found.map fun (chars, rest) => (String.ofList chars, rest)

/-! ## Numbers -/

/-- Whether every underscore stands between two digits. `inside` tells whether a digit has just
been passed. -/
def isSeparated (inside : Bool) : List Char → Bool
  | [] => inside
  | c :: rest => if c = '_' then inside && isSeparated false rest else isSeparated true rest

/-- Reads digits of which any two neighbours may have one underscore between them. -/
def digits? (radix : Nat) (input : List Char) : Option (List Char × List Char) :=
  let (chars, rest) := input.span fun c => isDigit radix c || c = '_'
  if isSeparated false chars then some (chars.filter (· ≠ '_'), rest) else none

/-- Reads whole digits: a zero stands alone. -/
def wholeDigits? : List Char → Option (List Char × List Char)
  | '0' :: rest => some (['0'], rest)
  | input => digits? 10 input

def sign : List Char → Bool × List Char
  | '-' :: rest => (true, rest)
  | '+' :: rest => (false, rest)
  | input => (false, input)

/-- An integer of sixty-four bits with sign. -/
def signed? (negative : Bool) (value : Nat) : Option Document :=
  if negative then if value ≤ UInt64.size / 2 then some (integer (-(value : Int))) else none
  else if value < UInt64.size / 2 then some (integer value) else none

/-- Reads an integer in a radix other than ten, after its two-character mark. -/
def radixInteger? (radix : Nat) (input : List Char) : Option (Document × List Char) := do
  let (digits, rest) ← digits? radix input
  return (← signed? false (numeral radix digits), rest)

def integer? (input : List Char) : Option (Document × List Char) :=
  match input with
  | '0' :: 'x' :: rest => radixInteger? 16 rest
  | '0' :: 'o' :: rest => radixInteger? 8 rest
  | '0' :: 'b' :: rest => radixInteger? 2 rest
  | _ => do
    let (negative, rest) := sign input
    let (digits, rest) ← wholeDigits? rest
    return (← signed? negative (numeral 10 digits), rest)

def exponent? : List Char → Option (List Char × List Char)
  | c :: rest =>
    if c = 'e' ∨ c = 'E' then do
      let (negative, rest) := sign rest
      let (digits, rest) ← digits? 10 rest
      return ('e' :: (if negative then ['-'] else []) ++ digits, rest)
    else none
  | [] => none

def ofLiteral (negative : Bool) (literal : List Char) : Document :=
  decimal (String.ofList ((if negative then ['-'] else []) ++ literal))

/-- The decimal of a sign, whole digits, the digits of a fraction, and an exponent. Above the range
there is none; below it, every number counts as infinite. -/
def finite? (negative : Bool) (whole fraction exponent : List Char) : Option Document :=
  let shift := Magnitude.exponentValue exponent - fraction.length
  if !negative && Magnitude.isBeyond (numeral 10 (whole ++ fraction)) shift then none
  else
    let point := if fraction.isEmpty then [] else ['.']
    some (ofLiteral negative (whole ++ point ++ fraction ++ exponent))

/-- Reads a number with a fraction or an exponent, or one that is infinite or undefined. -/
def decimal? (input : List Char) : Option (Document × List Char) :=
  let (negative, unsigned) := sign input
  match unsigned with
  | 'i' :: 'n' :: 'f' :: rest => some (ofLiteral negative ['i', 'n', 'f'], rest)
  | 'n' :: 'a' :: 'n' :: rest => some (ofLiteral negative ['n', 'a', 'n'], rest)
  | _ => do
    let (whole, rest) ← wholeDigits? unsigned
    match exponent? rest with
    | some (exponent, rest) => return (← finite? negative whole [] exponent, rest)
    | none =>
      let (fraction, rest) ← digits? 10 (← skip? '.' rest)
      let (exponent, rest) := (exponent? rest).getD ([], rest)
      return (← finite? negative whole fraction exponent, rest)

/-! ## Dates and times -/

def fixedDigits? (count : Nat) (input : List Char) : Option (Nat × List Char) :=
  let digits := input.take count
  if digits.length = count ∧ digits.all (isDigit 10) then
    some (numeral 10 digits, input.drop count)
  else none

def daysIn (year month : Nat) : Nat :=
  if month = 2 then
    if (year % 4 = 0 ∧ year % 100 ≠ 0) ∨ year % 400 = 0 then 29 else 28
  else if month = 4 ∨ month = 6 ∨ month = 9 ∨ month = 11 then 30
  else 31

def skipDate? (input : List Char) : Option (List Char) := do
  let (year, rest) ← fixedDigits? 4 input
  let (month, rest) ← fixedDigits? 2 (← skip? '-' rest)
  let (day, rest) ← fixedDigits? 2 (← skip? '-' rest)
  if 1 ≤ month ∧ month ≤ 12 ∧ 1 ≤ day ∧ day ≤ daysIn year month then return rest else none

def skipFraction (input : List Char) : List Char :=
  match input with
  | '.' :: rest =>
    if (rest.head?).any (isDigit 10) then rest.dropWhile (isDigit 10) else input
  | _ => input

def skipTime? (input : List Char) : Option (List Char) := do
  let (hour, rest) ← fixedDigits? 2 input
  let (minute, rest) ← fixedDigits? 2 (← skip? ':' rest)
  let (second, rest) ← fixedDigits? 2 (← skip? ':' rest)
  if hour ≤ 23 ∧ minute ≤ 59 ∧ second ≤ 60 then return skipFraction rest else none

/-- Takes an offset from universal time off a text. -/
def skipOffset? (input : List Char) : Option (List Char) :=
  match input with
  | 'Z' :: rest | 'z' :: rest => some rest
  | '+' :: rest | '-' :: rest => do
    let (hour, rest) ← fixedDigits? 2 rest
    let (minute, rest) ← fixedDigits? 2 (← skip? ':' rest)
    if hour ≤ 23 ∧ minute ≤ 59 then return rest else none
  | _ => none

def skipTimeOfDate (input : List Char) : List Char :=
  match input with
  | c :: rest =>
    if c = 'T' ∨ c = 't' ∨ c = ' ' then
      match skipTime? rest with
      | some rest => (skipOffset? rest).getD rest
      | none => input
    else input
  | [] => []

/-- The key of the only entry of the record that stands for a date or time. -/
def dateKey : String := "$__toml_private_datetime"

/-- Reads a date, a time, or both. -/
def date? (input : List Char) : Option (Document × List Char) := do
  let rest ← ((skipDate? input).map skipTimeOfDate) <|> skipTime? input
  let literal := String.ofList (input.take (input.length - rest.length))
  return (record [(dateKey, text literal)], rest)

def scalar? (input : List Char) : Option (Document × List Char) :=
  match input with
  | 't' :: 'r' :: 'u' :: 'e' :: rest => some (bool true, rest)
  | 'f' :: 'a' :: 'l' :: 's' :: 'e' :: rest => some (bool false, rest)
  | _ => date? input <|> decimal? input <|> integer? input

end BlockFetch.Document.Toml
