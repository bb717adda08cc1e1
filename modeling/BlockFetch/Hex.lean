import BlockFetch.Reading

/-!
# Base-16 text

Bytes are written as two lower-case digits each. Reading accepts either case and looks at the
UTF-8 bytes of a text: an odd number of bytes is reported before any bad digit, and a bad digit
is reported with its byte index.
-/
namespace BlockFetch.Hex

/-- The two digits of a byte, high half first, in lower case. -/
def digits (byte : UInt8) : List Char :=
  [Nat.digitChar (byte.toNat / 16), Nat.digitChar (byte.toNat % 16)]

/-- Bytes in base 16, two lower-case digits each. -/
def encode (bytes : List UInt8) : String :=
  String.ofList (bytes.flatMap digits)

/-- The value of a digit of either case, given as an ASCII byte. -/
def digitValue? (byte : UInt8) : Option UInt8 :=
  (Reading.digit? 16 (Char.ofNat byte.toNat)).map Nat.toUInt8

/-- Why a text is not base 16. -/
inductive Error where
  | oddLength
  | badDigit (byte : UInt8) (index : Nat)
  deriving DecidableEq, Repr

/-- A byte as a quoted character literal: control characters and the quotes that would end the
literal are escaped. -/
def quoteByte (byte : UInt8) : String :=
  let body :=
    if byte = 0 then "\\0"
    else if byte = 9 then "\\t"
    else if byte = 10 then "\\n"
    else if byte = 13 then "\\r"
    else if byte = 39 then "\\'"
    else if byte = 92 then "\\\\"
    else if byte < 32 ∨ (127 ≤ byte ∧ byte ≤ 160) ∨ byte = 173 then
      "\\u\x7b" ++ String.ofList (Nat.toDigits 16 byte.toNat) ++ "\x7d"
    else String.singleton (Char.ofNat byte.toNat)
  "'" ++ body ++ "'"

def Error.message : Error → String
  | .oddLength => "Odd number of digits"
  | .badDigit byte index => "Invalid character " ++ quoteByte byte ++ s!" at position {index}"

def digitAt (index : Nat) (byte : UInt8) : Except Error UInt8 :=
  match digitValue? byte with
  | some value => .ok value
  | none => .error (.badDigit byte index)

/-- Reads pairs of digits; `index` is the position of the first of them in the whole text. -/
def decodePairs (index : Nat) : List UInt8 → Except Error (List UInt8)
  | high :: low :: rest => do
    let h ← digitAt index high
    let l ← digitAt (index + 1) low
    return (16 * h + l) :: (← decodePairs (index + 2) rest)
  | _ => .ok []

/-- Reads base-16 text of either case. -/
def decode (text : String) : Except Error (List UInt8) :=
  let bytes := text.toUTF8.data.toList
  if bytes.length % 2 = 1 then .error .oddLength else decodePairs 0 bytes

end BlockFetch.Hex
