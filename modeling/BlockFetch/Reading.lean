/-!
# Reading from characters

A reader takes what it can from the start of a list of characters and returns the rest. Here is
what several formats share: single characters, digits of a radix of at most sixteen, and the number
that digits spell.
-/
namespace BlockFetch.Reading

def skip? (expected : Char) : List Char → Option (List Char)
  | [] => none
  | c :: rest => if c = expected then some rest else none

@[simp] theorem skip?_cons_self (c : Char) (rest : List Char) : skip? c (c :: rest) = some rest := by
  simp [skip?]

/-- The value of an ASCII digit of either case, below a radix of at most sixteen. -/
def digit? (radix : Nat) (c : Char) : Option Nat :=
  let value :=
    if '0' ≤ c ∧ c ≤ '9' then c.toNat - 48
    else if 'a' ≤ c ∧ c ≤ 'f' then c.toNat - 87
    else if 'A' ≤ c ∧ c ≤ 'F' then c.toNat - 55
    else radix
  if value < radix then some value else none

theorem lt_of_digit?_eq_some {radix value : Nat} {c : Char} (h : digit? radix c = some value) :
    value < radix := by
  obtain ⟨bounded, same⟩ := Option.ite_none_right_eq_some.mp h
  exact Option.some.inj same ▸ bounded

def isDigit (radix : Nat) (c : Char) : Bool :=
  (digit? radix c).isSome

def numeral (radix : Nat) (digits : List Char) : Nat :=
  digits.foldl (fun value c => value * radix + (digit? radix c).getD 0) 0

/-- The last digit counts once, and those before it count as often as the radix says. -/
@[simp] theorem numeral_append_singleton (radix : Nat) (digits : List Char) (c : Char) :
    numeral radix (digits ++ [c]) = numeral radix digits * radix + (digit? radix c).getD 0 := by
  simp [numeral]

end BlockFetch.Reading
