import Mathlib.Data.Nat.Digits.Lemmas
import BlockFetch.Reading

/-!
# Numerals

The digits of a number are read back as this number, in every radix that the readers know. What
follows the digits has to begin with something else, so that it is not taken for more of them.
-/
namespace BlockFetch.Reading

def NoDigit (radix : Nat) (rest : List Char) : Prop :=
  ∀ c ∈ rest.head?, isDigit radix c = false

variable {radix n : Nat} {rest : List Char}

theorem noDigit_cons {c : Char} : NoDigit radix (c :: rest) ↔ isDigit radix c = false := by
  simp [NoDigit]

theorem digit?_digitChar_of_lt (narrow : radix ≤ 16) {value : Nat} (h : value < radix) :
    digit? radix (Nat.digitChar value) = some value := by
  have each : ∀ radix ≤ 16, ∀ value < radix, digit? radix (Nat.digitChar value) = some value := by
    decide
  exact each radix narrow value h

/-- A decimal digit is the character of its value. -/
theorem eq_digitChar_of_digit? {c : Char} {value : Nat} (h : digit? 10 c = some value) :
    c = Nat.digitChar value := by
  have small := lt_of_digit?_eq_some h
  have place : c.toNat = 48 + value := by
    simp only [digit?, Option.ite_none_right_eq_some, Option.some.injEq, Char.le_def,
      UInt32.le_iff_toNat_le, Char.toNat_val, Char.reduceToNat] at h
    obtain ⟨below, same⟩ := h
    -- A letter would be worth ten or more.
    split_ifs at below same <;> omega
  exact Char.toNat_inj.mp (place.trans (Nat.toNat_digitChar_of_lt_ten small).symm)

/-- A text of decimal digits consists of the characters of their values. -/
theorem all_isDigit_iff {chars : List Char} :
    chars.all (isDigit 10) = true ↔
      ∃ digits : List Nat, (∀ digit ∈ digits, digit < 10) ∧ chars = digits.map Nat.digitChar := by
  constructor
  · intro all
    induction chars with
    | nil => exact ⟨[], nofun, rfl⟩
    | cons c rest ih =>
      rw [List.all_cons, Bool.and_eq_true] at all
      obtain ⟨value, found⟩ := Option.isSome_iff_exists.mp all.1
      obtain ⟨digits, small, same⟩ := ih all.2
      refine ⟨value :: digits, ?_, ?_⟩
      · exact List.forall_mem_cons.mpr ⟨lt_of_digit?_eq_some found, small⟩
      · rw [List.map_cons, ← eq_digitChar_of_digit? found, same]
  · rintro ⟨digits, small, rfl⟩
    rw [List.all_map, List.all_eq_true]
    intro digit member
    rw [Function.comp_apply, isDigit, digit?_digitChar_of_lt (by decide) (small digit member),
      Option.isSome_some]

/-- Decimal digits are worth what they count in their places, the last one counting once. -/
theorem numeral_map_digitChar {digits : List Nat} (small : ∀ digit ∈ digits, digit < 10) :
    numeral 10 (digits.map Nat.digitChar) = Nat.ofDigits 10 digits.reverse := by
  induction digits using List.reverseRecOn with
  | nil => rfl
  | append_singleton digits last ih =>
    have known := digit?_digitChar_of_lt (by decide) (small last (by simp))
    have before := ih fun digit member => small digit (List.mem_append_left _ member)
    rw [List.map_append, List.map_singleton, numeral_append_singleton, before, known,
      List.reverse_append, List.reverse_singleton, List.singleton_append, Nat.ofDigits_cons,
      Option.getD_some]
    omega

theorem isDigit_of_mem_toDigits (wide : 1 < radix) (narrow : radix ≤ 16) {c : Char}
    (member : c ∈ Nat.toDigits radix n) : isDigit radix c = true := by
  have digit : ∀ value < radix, isDigit radix (Nat.digitChar value) = true := fun value h => by
    rw [isDigit, digit?_digitChar_of_lt narrow h, Option.isSome_some]
  induction n using Nat.strongRecOn with
  | ind n ih =>
    by_cases single : n < radix
    · rw [Nat.toDigits_of_lt_base single, List.mem_singleton] at member
      exact member ▸ digit n single
    · have longer : radix ≤ n := Nat.le_of_not_lt single
      rw [Nat.toDigits_of_base_le wide longer, List.mem_append, List.mem_singleton] at member
      rcases member with early | last
      · exact ih (n / radix) (Nat.div_lt_self (by omega) wide) early
      · exact last ▸ digit _ (Nat.mod_lt n (by omega))

/-- A numeral is the sum of its digits by their places. -/
theorem numeral_toDigits (wide : 1 < radix) (narrow : radix ≤ 16) (n : Nat) :
    numeral radix (Nat.toDigits radix n) = n := by
  induction n using Nat.strongRecOn with
  | ind n ih =>
    by_cases single : n < radix
    · rw [Nat.toDigits_of_lt_base single]
      simp [numeral, digit?_digitChar_of_lt narrow single]
    · have longer : radix ≤ n := Nat.le_of_not_lt single
      have last : n % radix < radix := Nat.mod_lt n (by omega)
      rw [Nat.toDigits_of_base_le wide longer, numeral_append_singleton,
        ih (n / radix) (Nat.div_lt_self (by omega) wide), digit?_digitChar_of_lt narrow last,
        Option.getD_some]
      exact Nat.div_add_mod' n radix

/-- Only the number zero is written with a zero in front. -/
theorem eq_zero_of_head?_toDigits (wide : 1 < radix) (narrow : radix ≤ 16)
    (zero : (Nat.toDigits radix n).head? = some '0') : n = 0 := by
  induction n using Nat.strongRecOn with
  | ind n ih =>
    by_cases single : n < radix
    · rw [Nat.toDigits_of_lt_base single] at zero
      have same := digit?_digitChar_of_lt narrow single
      rw [Option.some_inj.mp zero] at same
      have worth : digit? radix '0' = some 0 := by
        simp [digit?, Nat.zero_lt_of_lt wide]
      exact Option.some_inj.mp (same.symm.trans worth)
    · have longer : radix ≤ n := Nat.le_of_not_lt single
      have fewer : n / radix ≠ 0 := Nat.div_ne_zero_iff.mpr ⟨by omega, longer⟩
      rw [Nat.toDigits_of_base_le wide longer, List.head?_append_of_ne_nil _ Nat.toDigits_ne_nil]
        at zero
      exact absurd (ih (n / radix) (Nat.div_lt_self (by omega) wide) zero) fewer

theorem NoDigit.ten_of_sixteen (h : NoDigit 16 rest) : NoDigit 10 rest := by
  have decimal : ∀ c : Char, isDigit 10 c = true → isDigit 16 c = true := by
    intro c digit
    simp only [isDigit, digit?] at digit ⊢
    split_ifs at digit ⊢ <;> simp_all <;> omega
  intro c here
  rw [← Bool.not_eq_true]
  exact fun digit => Bool.false_ne_true ((h c here).symm.trans (decimal c digit))

theorem takeWhile_isDigit_eq_nil (h : NoDigit radix rest) :
    rest.takeWhile (isDigit radix) = [] := by
  cases rest with
  | nil => rfl
  | cons c rest => rw [List.takeWhile_cons, noDigit_cons.mp h, if_neg Bool.false_ne_true]

/-- The digits of a number are taken as a whole. -/
theorem takeWhile_toDigits (wide : 1 < radix) (narrow : radix ≤ 16) (n : Nat)
    (h : NoDigit radix rest) :
    (Nat.toDigits radix n ++ rest).takeWhile (isDigit radix) = Nat.toDigits radix n := by
  rw [List.takeWhile_append_of_pos fun c member => isDigit_of_mem_toDigits wide narrow member,
    takeWhile_isDigit_eq_nil h, List.append_nil]

end BlockFetch.Reading
