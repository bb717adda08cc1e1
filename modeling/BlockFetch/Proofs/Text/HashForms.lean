import Mathlib.Data.String.Basic
import BlockFetch.Proofs.Text.Hashes

/-!
# Which texts name a block

A text names a block if it consists of sixty-four digits of base 16, in either case, and the block
writes it in lower case. Of every other text the reader says what is wrong with it: a number of
bytes that is odd, and else the first byte that is no digit, and else the number of bytes that the
digits spell. The order of hashes is the order of their texts.
-/
namespace BlockFetch

namespace Hex

/-! ## Digits and their bytes -/

/-- A character is a digit of base 16, in either case. -/
def IsDigit (c : Char) : Prop :=
  ('0' ≤ c ∧ c ≤ '9') ∨ ('a' ≤ c ∧ c ≤ 'f') ∨ ('A' ≤ c ∧ c ≤ 'F')

def IsDigitByte (byte : UInt8) : Prop :=
  (48 ≤ byte ∧ byte ≤ 57) ∨ (97 ≤ byte ∧ byte ≤ 102) ∨ (65 ≤ byte ∧ byte ≤ 70)

instance : DecidablePred IsDigitByte := fun _ =>
  inferInstanceAs (Decidable (_ ∨ _))

def utf8 (text : String) : List UInt8 :=
  text.toUTF8.data.toList

def lowerChar (byte : UInt8) : Char :=
  (Char.ofNat byte.toNat).toLower

theorem exists_digitValue?_of_isDigitByte {byte : UInt8} (h : IsDigitByte byte) :
    ∃ value < 16, digitValue? byte = some value.toUInt8 ∧ Nat.digitChar value = lowerChar byte := by
  have each : ∀ n < 256, IsDigitByte (UInt8.ofNat n) → ∃ value < 16,
      digitValue? (UInt8.ofNat n) = some value.toUInt8 ∧
        Nat.digitChar value = lowerChar (UInt8.ofNat n) := by
    decide +kernel
  have found := each byte.toNat byte.toNat_lt
  rw [UInt8.ofNat_toNat] at found
  exact found h

theorem digitValue?_eq_none_of_not_isDigitByte {byte : UInt8} (h : ¬ IsDigitByte byte) :
    digitValue? byte = none := by
  have each : ∀ n < 256, ¬ IsDigitByte (UInt8.ofNat n) → digitValue? (UInt8.ofNat n) = none := by
    decide +kernel
  have found := each byte.toNat byte.toNat_lt
  rw [UInt8.ofNat_toNat] at found
  exact found h

theorem utf8_eq_flatMap (text : String) :
    utf8 text = text.toList.flatMap String.utf8EncodeChar := by
  rw [utf8, String.toUTF8, ← String.utf8Encode_toList, List.utf8Encode,
    List.toList_data_toByteArray]

theorem length_utf8 (text : String) : (utf8 text).length = text.utf8ByteSize := by
  rw [utf8, Array.length_toList, ← String.size_toByteArray]
  rfl

theorem isDigit_iff_toNat (c : Char) :
    IsDigit c ↔ (48 ≤ c.toNat ∧ c.toNat ≤ 57) ∨ (97 ≤ c.toNat ∧ c.toNat ≤ 102) ∨
      (65 ≤ c.toNat ∧ c.toNat ≤ 70) := by
  simp [IsDigit, Char.le_def, UInt32.le_iff_toNat_le, Char.toNat_val]

theorem isDigitByte_iff_toNat (byte : UInt8) :
    IsDigitByte byte ↔ (48 ≤ byte.toNat ∧ byte.toNat ≤ 57) ∨
      (97 ≤ byte.toNat ∧ byte.toNat ≤ 102) ∨ (65 ≤ byte.toNat ∧ byte.toNat ≤ 70) := by
  simp [IsDigitByte, UInt8.le_iff_toNat_le]

theorem utf8EncodeChar_of_ascii {c : Char} (ascii : c.toNat < 128) :
    String.utf8EncodeChar c = [c.toNat.toUInt8] := by
  have small : c.toNat ≤ 127 := by omega
  simp [String.utf8EncodeChar, Char.toNat_val, small]

/-- What is not written as one byte is written with a first byte that marks several. -/
theorem exists_mem_utf8EncodeChar_of_not_ascii {c : Char} (wide : 128 ≤ c.toNat) :
    ∃ byte ∈ String.utf8EncodeChar c, 128 ≤ byte.toNat := by
  have large : ¬ c.val.toNat ≤ 127 := by
    rw [Char.toNat_val]
    omega
  unfold String.utf8EncodeChar
  simp only [large, if_false]
  split
  · exact ⟨_, List.mem_cons_self, by simp; omega⟩
  · split
    · exact ⟨_, List.mem_cons_self, by simp; omega⟩
    · exact ⟨_, List.mem_cons_self, by simp; omega⟩

/-- A digit takes one byte, and the other characters have a byte that is no digit. -/
theorem forall_mem_utf8EncodeChar_iff (c : Char) :
    (∀ byte ∈ String.utf8EncodeChar c, IsDigitByte byte) ↔ IsDigit c := by
  rw [isDigit_iff_toNat]
  by_cases ascii : c.toNat < 128
  · have same : c.toNat.toUInt8.toNat = c.toNat := by
      simp [Nat.toUInt8]
      omega
    rw [utf8EncodeChar_of_ascii ascii]
    simp [isDigitByte_iff_toNat, same]
  · obtain ⟨byte, member, high⟩ := exists_mem_utf8EncodeChar_of_not_ascii (Nat.le_of_not_lt ascii)
    constructor
    · intro all
      have digit := (isDigitByte_iff_toNat byte).mp (all byte member)
      omega
    · intro digit
      omega

theorem forall_mem_utf8_iff (text : String) :
    (∀ byte ∈ utf8 text, IsDigitByte byte) ↔ ∀ c ∈ text.toList, IsDigit c := by
  rw [utf8_eq_flatMap]
  constructor
  · intro all c member
    rw [← forall_mem_utf8EncodeChar_iff]
    exact fun byte part => all byte (List.mem_flatMap.mpr ⟨c, member, part⟩)
  · intro all byte member
    obtain ⟨c, here, part⟩ := List.mem_flatMap.mp member
    exact (forall_mem_utf8EncodeChar_iff c).mpr (all c here) byte part

theorem utf8_of_digits {text : String} (h : ∀ c ∈ text.toList, IsDigit c) :
    utf8 text = text.toList.map fun c => c.toNat.toUInt8 := by
  rw [utf8_eq_flatMap]
  generalize text.toList = chars at h
  induction chars with
  | nil => rfl
  | cons c rest ih =>
    have digit := (isDigit_iff_toNat c).mp (h c List.mem_cons_self)
    rw [List.flatMap_cons, utf8EncodeChar_of_ascii (by omega),
      ih fun d member => h d (List.mem_cons_of_mem c member)]
    rfl

theorem map_lowerChar_utf8 {text : String} (h : ∀ c ∈ text.toList, IsDigit c) :
    (utf8 text).map lowerChar = text.toLower.toList := by
  have lower : text.toLower.toList = text.toList.map Char.toLower := String.toList_map
  rw [utf8_of_digits h, lower, List.map_map]
  refine List.map_congr_left fun c member => ?_
  have digit := (isDigit_iff_toNat c).mp (h c member)
  have same : c.toNat.toUInt8.toNat = c.toNat := by
    simp [Nat.toUInt8]
    omega
  simp [lowerChar, same]

/-! ## What the reader answers -/

theorem digitAt_of_isDigitByte {byte : UInt8} (h : IsDigitByte byte) (index : Nat) :
    ∃ value < 16, digitAt index byte = .ok value.toUInt8 ∧
      Nat.digitChar value = lowerChar byte := by
  obtain ⟨value, small, read, lower⟩ := exists_digitValue?_of_isDigitByte h
  refine ⟨value, small, ?_, lower⟩
  rw [digitAt, read]

theorem digitAt_of_not_isDigitByte {byte : UInt8} (h : ¬ IsDigitByte byte) (index : Nat) :
    digitAt index byte = .error (.badDigit byte index) := by
  rw [digitAt, digitValue?_eq_none_of_not_isDigitByte h]

theorem digits_pair {high low : Nat} (small : high < 16) (smallToo : low < 16) :
    digits (16 * high.toUInt8 + low.toUInt8) = [Nat.digitChar high, Nat.digitChar low] := by
  have value : (16 * high.toUInt8 + low.toUInt8).toNat = 16 * high + low := by
    simp [Nat.toUInt8]
    omega
  have upper : (16 * high + low) / 16 = high := by omega
  have lower : (16 * high + low) % 16 = low := by omega
  rw [digits, value, upper, lower]

/-- Pairs of digits are read, and written again in lower case. -/
theorem decodePairs_of_digits {bytes : List UInt8} (even : bytes.length % 2 = 0)
    (all : ∀ byte ∈ bytes, IsDigitByte byte) (index : Nat) :
    ∃ read, decodePairs index bytes = .ok read ∧ 2 * read.length = bytes.length ∧
      read.flatMap digits = bytes.map lowerChar := by
  induction index, bytes using decodePairs.induct with
  | case1 index high low rest ih =>
    have evenRest : rest.length % 2 = 0 := by
      simp only [List.length_cons] at even
      omega
    have allRest : ∀ byte ∈ rest, IsDigitByte byte := fun byte member =>
      all byte (List.mem_cons_of_mem _ (List.mem_cons_of_mem _ member))
    obtain ⟨h, smallHigh, readHigh, lowerHigh⟩ := digitAt_of_isDigitByte (all high (by simp)) index
    obtain ⟨l, smallLow, readLow, lowerLow⟩ :=
      digitAt_of_isDigitByte (all low (by simp)) (index + 1)
    obtain ⟨read, found, length, written⟩ := ih evenRest allRest
    refine ⟨(16 * h.toUInt8 + l.toUInt8) :: read, ?_, ?_, ?_⟩
    · rw [decodePairs, readHigh, readLow, found]
      rfl
    · simp only [List.length_cons]
      omega
    · rw [List.flatMap_cons, digits_pair smallHigh smallLow, written, lowerHigh, lowerLow]
      rfl
  | case2 bytes index short =>
    cases bytes with
    | nil => exact ⟨[], by simp [decodePairs], rfl, rfl⟩
    | cons byte rest =>
      cases rest with
      | nil => simp at even
      | cons next rest => exact absurd rfl (short byte next rest)

/-- The first byte that is no digit is reported with its place. -/
theorem decodePairs_of_bad {before after : List UInt8} {bad : UInt8}
    (even : (before ++ bad :: after).length % 2 = 0) (digits : ∀ byte ∈ before, IsDigitByte byte)
    (notDigit : ¬ IsDigitByte bad) (index : Nat) :
    decodePairs index (before ++ bad :: after) =
      .error (.badDigit bad (index + before.length)) := by
  match before with
  | [] =>
    cases after with
    | nil => simp at even
    | cons low rest =>
      rw [List.nil_append, decodePairs, digitAt_of_not_isDigitByte notDigit]
      rfl
  | [high] =>
    obtain ⟨h, -, readHigh, -⟩ := digitAt_of_isDigitByte (digits high (by simp)) index
    rw [List.singleton_append, decodePairs, readHigh, digitAt_of_not_isDigitByte notDigit]
    rfl
  | high :: low :: rest =>
    obtain ⟨h, -, readHigh, -⟩ := digitAt_of_isDigitByte (digits high (by simp)) index
    obtain ⟨l, -, readLow, -⟩ := digitAt_of_isDigitByte (digits low (by simp)) (index + 1)
    have evenRest : (rest ++ bad :: after).length % 2 = 0 := by
      simp only [List.cons_append, List.length_cons, List.length_append] at even ⊢
      omega
    have found := decodePairs_of_bad evenRest (fun byte member =>
      digits byte (List.mem_cons_of_mem _ (List.mem_cons_of_mem _ member))) notDigit (index + 2)
    have place : index + 2 + rest.length = index + (high :: low :: rest).length := by
      simp only [List.length_cons]
      omega
    rw [List.cons_append, List.cons_append, decodePairs, readHigh, readLow, found, ← place]
    rfl

/-- A byte is the first in a text that is no digit, and `index` bytes stand before it. -/
def FirstBad (bytes : List UInt8) (bad : UInt8) (index : Nat) : Prop :=
  ∃ before after, bytes = before ++ bad :: after ∧ before.length = index ∧
    (∀ byte ∈ before, IsDigitByte byte) ∧ ¬ IsDigitByte bad

theorem forall_or_exists_firstBad (bytes : List UInt8) :
    (∀ byte ∈ bytes, IsDigitByte byte) ∨ ∃ bad index, FirstBad bytes bad index := by
  cases found : bytes.find? fun byte => !decide (IsDigitByte byte) with
  | none =>
    left
    intro byte member
    simpa using List.find?_eq_none.mp found byte member
  | some bad =>
    obtain ⟨notDigit, before, after, split, digits⟩ := List.find?_eq_some_iff_append.mp found
    exact Or.inr ⟨bad, before.length, before, after, split, rfl, by simpa using digits,
      by simpa using notDigit⟩

theorem decode_of_odd {text : String} (odd : text.utf8ByteSize % 2 = 1) :
    decode text = .error .oddLength := by
  rw [← length_utf8] at odd
  exact if_pos odd

theorem decode_of_firstBad {text : String} (even : text.utf8ByteSize % 2 = 0) {bad : UInt8}
    {index : Nat} (h : FirstBad (utf8 text) bad index) :
    decode text = .error (.badDigit bad index) := by
  obtain ⟨before, after, split, rfl, digits, notDigit⟩ := h
  rw [← length_utf8] at even
  have found := decodePairs_of_bad (split ▸ even) digits notDigit 0
  rw [← split, Nat.zero_add] at found
  have notOdd : ¬ (utf8 text).length % 2 = 1 := by omega
  exact (if_neg notOdd).trans found

theorem utf8ByteSize_of_digits {text : String} (digits : ∀ c ∈ text.toList, IsDigit c) :
    text.utf8ByteSize = text.length := by
  rw [← length_utf8, utf8_of_digits digits, List.length_map, String.length_toList]

theorem decode_of_digits {text : String} (even : text.utf8ByteSize % 2 = 0)
    (digits : ∀ c ∈ text.toList, IsDigit c) :
    ∃ read, decode text = .ok read ∧ 2 * read.length = text.utf8ByteSize ∧
      encode read = text.toLower := by
  rw [← length_utf8] at even ⊢
  have all := (forall_mem_utf8_iff text).mpr digits
  obtain ⟨read, found, length, written⟩ := decodePairs_of_digits even all 0
  have notOdd : ¬ (utf8 text).length % 2 = 1 := by omega
  refine ⟨read, (if_neg notOdd).trans found, length, ?_⟩
  rw [encode, written, map_lowerChar_utf8 digits, String.ofList_toList]

/-! ## Order -/

theorem digitChar_lt_iff {a b : Nat} (small : a < 16) (smallToo : b < 16) :
    Nat.digitChar a < Nat.digitChar b ↔ a < b := by
  have each : ∀ a < 16, ∀ b < 16, (Nat.digitChar a < Nat.digitChar b ↔ a < b) := by decide
  exact each a small b smallToo

theorem digitChar_inj {a b : Nat} (small : a < 16) (smallToo : b < 16) :
    Nat.digitChar a = Nat.digitChar b ↔ a = b := by
  have each : ∀ a < 16, ∀ b < 16, (Nat.digitChar a = Nat.digitChar b ↔ a = b) := by decide
  exact each a small b smallToo

/-- Bytes are ordered by their high halves and then by their low ones, and so are their digits. -/
theorem digits_append_lt_iff (a b : UInt8) (as bs : List Char) :
    digits a ++ as < digits b ++ bs ↔ a < b ∨ a = b ∧ as < bs := by
  have highA : a.toNat / 16 < 16 := Nat.div_lt_of_lt_mul a.toNat_lt
  have highB : b.toNat / 16 < 16 := Nat.div_lt_of_lt_mul b.toNat_lt
  have lowA : a.toNat % 16 < 16 := Nat.mod_lt _ (by decide)
  have lowB : b.toNat % 16 < 16 := Nat.mod_lt _ (by decide)
  simp only [digits, List.cons_append, List.nil_append, List.cons_lt_cons_iff,
    digitChar_lt_iff highA highB, digitChar_inj highA highB, digitChar_lt_iff lowA lowB,
    digitChar_inj lowA lowB, UInt8.lt_iff_toNat_lt, ← UInt8.toNat_inj]
  by_cases below : as < bs
  · simp only [below, and_true]
    omega
  · simp only [below, and_false, or_false]
    omega

theorem compare_eq_lt_iff (as bs : List UInt8) :
    compare as bs = .lt ↔ as.flatMap digits < bs.flatMap digits := by
  induction as generalizing bs with
  | nil =>
    cases bs with
    | nil => decide
    | cons b bs => simp [digits]
  | cons a as ih =>
    cases bs with
    | nil => simp
    | cons b bs =>
      rw [List.compare_cons_cons, Ordering.then_eq_lt, ih bs, List.flatMap_cons, List.flatMap_cons,
        digits_append_lt_iff, Std.LawfulEqCmp.compare_eq_iff_eq, Std.LawfulLTCmp.eq_lt_iff_lt]

/-- What the texts of hashes take from base 16. Bytes are written as two lower-case digits each and
are read back; digits of either case are read as the bytes that have them in lower case; an odd
number of bytes is reported before any bad digit, and the first bad digit is reported with its
index. -/
structure Base16 (encode : List UInt8 → String) (decode : String → Except Error (List UInt8)) :
    Prop where
  writes : ∀ bytes, encode bytes = String.ofList (bytes.flatMap digits)
  restores : ∀ bytes, decode (encode bytes) = .ok bytes
  reads : ∀ text : String, text.utf8ByteSize % 2 = 0 → (∀ c ∈ text.toList, IsDigit c) →
    ∃ bytes, decode text = .ok bytes ∧ 2 * bytes.length = text.utf8ByteSize ∧
      encode bytes = text.toLower
  odd : ∀ text : String, text.utf8ByteSize % 2 = 1 → decode text = .error .oddLength
  bad : ∀ (text : String) (byte : UInt8) (index : Nat), text.utf8ByteSize % 2 = 0 →
    FirstBad (utf8 text) byte index → decode text = .error (.badDigit byte index)

theorem base16 : Base16 encode decode where
  writes _ := rfl
  restores := decode_encode
  reads _ := decode_of_digits
  odd _ := decode_of_odd
  bad _ _ _ even first := decode_of_firstBad even first

end Hex

namespace BlockHash

/-- A text consists of sixty-four digits of base 16. -/
def IsHashText (text : String) : Prop :=
  text.length = 64 ∧ ∀ c ∈ text.toList, Hex.IsDigit c

inductive Reads (text : String) : Except Error BlockHash → Prop
  | hash {hash : BlockHash} (named : IsHashText text) (lower : hash.toHex = text.toLower) :
    Reads text (.ok hash)
  | odd (odd : text.utf8ByteSize % 2 = 1) : Reads text (.error (.notHex .oddLength))
  | bad {byte : UInt8} {index : Nat} (even : text.utf8ByteSize % 2 = 0)
    (first : Hex.FirstBad (Hex.utf8 text) byte index) :
    Reads text (.error (.notHex (.badDigit byte index)))
  | length {got : Nat} (digits : ∀ c ∈ text.toList, Hex.IsDigit c)
    (half : text.utf8ByteSize = 2 * got) (wrong : got ≠ 32) :
    Reads text (.error (.wrongLength got))

theorem toHex_injective {a b : BlockHash} (h : a.toHex = b.toHex) : a = b := by
  have same := congrArg Hex.decode h
  rw [toHex, toHex, Hex.base16.restores, Hex.base16.restores] at same
  exact BlockHash.ext (Except.ok.inj same)

theorem exists_ofHex_of_isHashText {text : String} (named : IsHashText text) :
    ∃ hash, ofHex text = .ok hash ∧ hash.toHex = text.toLower := by
  obtain ⟨length, digits⟩ := named
  have size : text.utf8ByteSize = 64 := (Hex.utf8ByteSize_of_digits digits).trans length
  obtain ⟨read, found, half, written⟩ := Hex.base16.reads text (by omega) digits
  have full : read.length = 32 := by omega
  refine ⟨⟨read, full⟩, ?_, written⟩
  simp only [ofHex, found]
  exact dif_pos full

variable {text : String} {outcome : Except Error BlockHash}

theorem Reads.ofHex_eq (h : Reads text outcome) : ofHex text = outcome := by
  cases h with
  | hash named lower =>
    obtain ⟨hash, found, written⟩ := exists_ofHex_of_isHashText named
    rw [found, toHex_injective (written.trans lower.symm)]
  | odd odd => rw [ofHex, Hex.base16.odd text odd]
  | bad even first => rw [ofHex, Hex.base16.bad text _ _ even first]
  | @length got digits half wrong =>
    obtain ⟨read, found, twice, -⟩ := Hex.base16.reads text (by omega) digits
    have size : read.length = got := by omega
    simp only [ofHex, found]
    rw [dif_neg (size ▸ wrong), size]

/-- Every text is read in one of the four ways. -/
theorem exists_reads (text : String) : ∃ outcome, Reads text outcome := by
  by_cases odd : text.utf8ByteSize % 2 = 1
  · exact ⟨_, .odd odd⟩
  · have even : text.utf8ByteSize % 2 = 0 := by omega
    rcases Hex.forall_or_exists_firstBad (Hex.utf8 text) with all | ⟨bad, index, first⟩
    · have digits := (Hex.forall_mem_utf8_iff text).mp all
      by_cases full : text.utf8ByteSize = 64
      · have named : IsHashText text :=
          ⟨(Hex.utf8ByteSize_of_digits digits).symm.trans full, digits⟩
        obtain ⟨hash, -, lower⟩ := exists_ofHex_of_isHashText named
        exact ⟨_, .hash named lower⟩
      · exact ⟨_, .length digits (show _ = 2 * (text.utf8ByteSize / 2) by omega) (by omega)⟩
    · exact ⟨_, .bad even first⟩

theorem ofHex_eq_iff : ofHex text = outcome ↔ Reads text outcome := by
  constructor
  · rintro rfl
    obtain ⟨outcome, reads⟩ := exists_reads text
    rw [reads.ofHex_eq]
    exact reads
  · exact Reads.ofHex_eq

theorem compare_toHex (a b : BlockHash) : compare a.toHex b.toHex = compare a b := by
  have below : ∀ a b : BlockHash, compare a b = .lt → compare a.toHex b.toHex = .lt := by
    intro a b h
    have digits := (Hex.compare_eq_lt_iff a.bytes b.bytes).mp h
    rw [compare_lt_iff_lt, String.lt_iff_toList_lt]
    simpa [toHex, Hex.base16.writes] using digits
  cases h : compare a b with
  | lt => exact below a b h
  | eq =>
    rw [Std.LawfulEqCmp.compare_eq_iff_eq] at h
    rw [h]
    exact Std.ReflCmp.compare_self
  | gt =>
    rw [Std.OrientedCmp.gt_iff_lt] at h ⊢
    exact below b a h

/-- The text form of hashes. A hash is read back from its text; a text is read as a hash exactly if
it has sixty-four digits, of either case, and the hash is written with the same digits in lower
case; what is wrong with another text is reported in a fixed order; and hashes are ordered like
their texts. -/
theorem text_form :
    (∀ hash : BlockHash, ofHex hash.toHex = .ok hash) ∧
    (∀ text, (∃ hash, ofHex text = .ok hash) ↔ IsHashText text) ∧
    (∀ text outcome, ofHex text = outcome ↔ Reads text outcome) ∧
    ∀ a b : BlockHash, compare a b = compare a.toHex b.toHex := by
  refine ⟨ofHex_toHex, fun text => ?_, fun text outcome => ofHex_eq_iff, fun a b =>
    (compare_toHex a b).symm⟩
  constructor
  · rintro ⟨hash, found⟩
    cases ofHex_eq_iff.mp found with
    | hash named _ => exact named
  · intro named
    obtain ⟨hash, found, -⟩ := exists_ofHex_of_isHashText named
    exact ⟨hash, found⟩

/-- The first byte of a character that takes two is the first that is no digit. -/
example : ofHex "aé0" = .error (.notHex (.badDigit 0xC3 1)) := by decide +kernel

end BlockHash
end BlockFetch
