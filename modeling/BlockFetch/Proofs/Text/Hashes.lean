import BlockFetch.BlockHash

/-!
# The texts of block hashes

Every byte string, and so every hash, is read back from its digits. The reader looks at the bytes
of a text, and a digit is a single byte.
-/
namespace BlockFetch

namespace Hex

def digitByte (value : Nat) : UInt8 :=
  (Nat.digitChar value).toNat.toUInt8

theorem utf8EncodeChar_digitChar {value : Nat} (h : value < 16) :
    String.utf8EncodeChar (Nat.digitChar value) = [digitByte value] := by
  have each : ∀ value < 16, String.utf8EncodeChar (Nat.digitChar value) = [digitByte value] := by
    decide
  exact each value h

theorem digitAt_digitByte {value : Nat} (h : value < 16) (index : Nat) :
    digitAt index (digitByte value) = .ok value.toUInt8 := by
  have each : ∀ value < 16, digitValue? (digitByte value) = some value.toUInt8 := by decide
  rw [digitAt, each value h]

theorem halves_toUInt8 (byte : UInt8) :
    16 * (byte.toNat / 16).toUInt8 + (byte.toNat % 16).toUInt8 = byte := by
  have bound := byte.toNat_lt
  rw [← UInt8.toNat_inj]
  simp
  omega

theorem decodePairs_digitBytes (bytes : List UInt8) (index : Nat) :
    decodePairs index
      (bytes.flatMap fun byte => [digitByte (byte.toNat / 16), digitByte (byte.toNat % 16)]) =
      .ok bytes := by
  induction bytes generalizing index with
  | nil => rfl
  | cons byte rest ih =>
    have high : byte.toNat / 16 < 16 := Nat.div_lt_of_lt_mul byte.toNat_lt
    have low : byte.toNat % 16 < 16 := Nat.mod_lt _ (by decide)
    rw [List.flatMap_cons, List.cons_append, List.cons_append, List.nil_append, decodePairs,
      digitAt_digitByte high, digitAt_digitByte low, ih (index + 2)]
    change Except.ok (_ :: rest) = _
    rw [halves_toUInt8]

theorem decode_encode (bytes : List UInt8) : decode (encode bytes) = .ok bytes := by
  have text : (encode bytes).toUTF8.data.toList =
      bytes.flatMap fun byte => [digitByte (byte.toNat / 16), digitByte (byte.toNat % 16)] := by
    rw [encode, String.toUTF8, String.toByteArray_ofList, List.utf8Encode, List.data_toByteArray,
      List.toList_toArray, List.flatMap_assoc]
    refine congrArg (bytes.flatMap ·) (funext fun byte => ?_)
    have high : byte.toNat / 16 < 16 := Nat.div_lt_of_lt_mul byte.toNat_lt
    have low : byte.toNat % 16 < 16 := Nat.mod_lt _ (by decide)
    simp only [digits, List.flatMap_cons, List.flatMap_nil, utf8EncodeChar_digitChar high,
      utf8EncodeChar_digitChar low, List.cons_append, List.nil_append]
  have even : (bytes.flatMap fun byte =>
      [digitByte (byte.toNat / 16), digitByte (byte.toNat % 16)]).length % 2 ≠ 1 := by
    simp [List.length_flatMap, List.map_const']
  rw [decode, text]
  exact (if_neg even).trans (decodePairs_digitBytes bytes 0)

end Hex

theorem BlockHash.ofHex_toHex (hash : BlockHash) : ofHex hash.toHex = .ok hash := by
  rw [ofHex, toHex, Hex.decode_encode]
  exact dif_pos hash.length_bytes

end BlockFetch
