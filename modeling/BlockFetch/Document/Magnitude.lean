import BlockFetch.Reading

/-!
# The range of decimals

A decimal stands for a binary number of fifty-three digits that may be shifted by any power of two,
up to `2 ^ 1024`. A decimal that is nearer to `2 ^ 1024` than to every such number below it is out
of range. No type of this library reads decimals, so all that matters here is which of them are out
of range. Everything is computed exactly, on natural numbers.
-/
namespace BlockFetch.Document.Magnitude

open Reading (numeral)

/-- The least number out of range: half way between the greatest number in range and `2 ^ 1024`. -/
def limit : Nat := (1 <<< 1024) - (1 <<< 970)

def tenTo (exponent : Nat) : Nat := Nat.pow 10 exponent

/-- The value of an exponent with its mark and its sign, or of none at all. -/
def exponentValue : List Char → Int
  | _ :: '-' :: digits => -(numeral 10 digits : Int)
  | _ :: '+' :: digits => numeral 10 digits
  | _ :: digits => numeral 10 digits
  | [] => 0

/-- Whether a whole number times a power of ten is out of range. Powers of ten that decide the
matter on their own are not computed: `10 ^ 309` is out of range, and `10 ^ n` has more than `3 * n`
binary digits. -/
def isBeyond (value : Nat) : (exponent : Int) → Bool
  | .ofNat exponent => value ≠ 0 && (308 < exponent || limit ≤ value * tenTo exponent)
  | .negSucc lower => 3 * (lower + 1) ≤ value.log2 && limit * tenTo (lower + 1) ≤ value

/-- Keeps the first fifty-three binary digits of a number, rounded to the nearest; half way between
two numbers it goes to the even one. -/
def rounded (value : Nat) : Nat :=
  let unit := 1 <<< (value.log2 - 52)
  let quotient := value / unit
  let rest := value % unit
  if 2 * rest < unit || (2 * rest = unit && quotient % 2 = 0) then quotient * unit
  else (quotient + 1) * unit

/-- The same question as `isBeyond`, for a number whose two factors are rounded before they are
multiplied. -/
def isRoughlyBeyond (value : Nat) : (exponent : Int) → Bool
  | .ofNat exponent =>
    value ≠ 0 && (308 < exponent || limit ≤ rounded value * rounded (tenTo exponent))
  | .negSucc _ => false

end BlockFetch.Document.Magnitude
