import BlockFetch.Hex
import Std.Data.ExtTreeMap
import Std.Data.ExtTreeSet

/-!
# Block hashes

A block is named by thirty-two bytes. Hashes are ordered by their bytes, first byte first, which
is also the order of their base-16 texts; sets and tables of blocks are kept in that order.
-/
namespace BlockFetch

/-- The name of a block: thirty-two bytes. -/
structure BlockHash where
  bytes : List UInt8
  length_bytes : bytes.length = 32
  deriving DecidableEq

namespace BlockHash

@[ext] theorem ext {a b : BlockHash} (h : a.bytes = b.bytes) : a = b := by
  cases a; cases b; simp_all

instance : Ord BlockHash := ⟨compareOn bytes⟩

instance : Std.TransOrd BlockHash :=
  inferInstanceAs (Std.TransCmp (compareOn bytes))

instance : Std.LawfulEqOrd BlockHash where
  eq_of_compare h := ext (Std.LawfulEqOrd.eq_of_compare h)

def zero : BlockHash := ⟨List.replicate 32 0, List.length_replicate⟩

instance : Inhabited BlockHash := ⟨zero⟩

/-- Why a text does not name a block. -/
inductive Error where
  | notHex (cause : Hex.Error)
  | wrongLength (got : Nat)
  deriving DecidableEq, Repr

def Error.message : Error → String
  | .notHex cause => "Invalid block hash hex: " ++ cause.message
  | .wrongLength got => s!"Invalid block hash length: {got} bytes, expected 32"

/-- The sixty-four lower-case digits of a hash. -/
def toHex (hash : BlockHash) : String :=
  Hex.encode hash.bytes

/-- Reads a hash from base-16 text of either case. -/
def ofHex (text : String) : Except Error BlockHash :=
  match Hex.decode text with
  | .error cause => .error (.notHex cause)
  | .ok bytes =>
    if h : bytes.length = 32 then .ok ⟨bytes, h⟩ else .error (.wrongLength bytes.length)

end BlockHash

/-- A set of blocks, listed in ascending order. -/
abbrev BlockSet := Std.ExtTreeSet BlockHash

/-- A table with one entry per block, listed in ascending order of blocks. -/
abbrev BlockMap (α : Type) := Std.ExtTreeMap BlockHash α

end BlockFetch
