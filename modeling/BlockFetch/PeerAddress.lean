import Std.Data.ExtTreeMap
import Std.Data.ExtTreeSet

/-!
# Peer addresses

A peer is named by the network address and port under which it is reached. Addresses of version 4
come before those of version 6; within a version the address decides, then the port, then the
scope. Text is written in the shortest customary form: the first longest run of two or more zero
groups is replaced by two colons, and an address of version 6 that embeds one of version 4 shows
the latter as a dotted quad.
-/
namespace BlockFetch

/-- Network address and port of a peer. -/
inductive PeerAddress where
  | v4 (octets : Vector UInt8 4) (port : UInt16)
  | v6 (groups : Vector UInt16 8) (port : UInt16) (scope : UInt32)
  deriving DecidableEq

namespace PeerAddress

/-- The numbers that decide the order of addresses, most significant first. -/
def key : PeerAddress → List Nat
  | v4 octets port => 4 :: (octets.toList.map UInt8.toNat ++ [port.toNat])
  | v6 groups port scope => 6 :: (groups.toList.map UInt16.toNat ++ [port.toNat, scope.toNat])

theorem key_injective {a b : PeerAddress} (h : a.key = b.key) : a = b := by
  cases a <;> cases b <;>
    simp only [key, List.cons.injEq, Nat.reduceEqDiff, false_and, true_and] at h
  · obtain ⟨octets, port⟩ := List.append_inj h (by simp)
    have := List.map_inj_right (fun _ _ e => UInt8.toNat_inj.mp e) |>.mp octets
    simp_all [UInt16.toNat_inj, Vector.toList_inj]
  · obtain ⟨groups, rest⟩ := List.append_inj h (by simp)
    have := List.map_inj_right (fun _ _ e => UInt16.toNat_inj.mp e) |>.mp groups
    simp_all [UInt16.toNat_inj, UInt32.toNat_inj, Vector.toList_inj]

instance : Ord PeerAddress := ⟨compareOn key⟩

instance : Std.TransOrd PeerAddress :=
  inferInstanceAs (Std.TransCmp (compareOn key))

instance : Std.LawfulEqOrd PeerAddress where
  eq_of_compare h := key_injective (Std.LawfulEqOrd.eq_of_compare h)

def port : PeerAddress → UInt16
  | v4 _ port => port
  | v6 _ port _ => port

def isV6 : PeerAddress → Bool
  | v4 .. => false
  | v6 .. => true

/-! ## Writing -/

def quadText (octets : List UInt8) : String :=
  ".".intercalate (octets.map fun octet => toString octet.toNat)

/-- A number in base 16, without leading zeros. -/
def groupText (group : UInt16) : String :=
  String.ofList (Nat.toDigits 16 group.toNat)

def groupsText (groups : List UInt16) : String :=
  ":".intercalate (groups.map groupText)

def zeroRun (groups : List UInt16) (index : Nat) : Nat :=
  ((groups.drop index).takeWhile (· = 0)).length

/-- Start and length of the first longest run of zero groups. -/
def longestZeroRun (groups : List UInt16) : Nat × Nat :=
  (List.range groups.length).foldl
    (fun best index =>
      if zeroRun groups index > best.2 then (index, zeroRun groups index) else best)
    (0, 0)

/-- The octets of an address of version 4 that is embedded in one of version 6. -/
def embeddedQuad? : List UInt16 → Option (List UInt8)
  | [0, 0, 0, 0, 0, 0xffff, high, low] =>
    some [(high >>> 8).toUInt8, high.toUInt8, (low >>> 8).toUInt8, low.toUInt8]
  | _ => none

/-- The text of an address of version 6, without brackets. -/
def addressText (groups : List UInt16) : String :=
  match embeddedQuad? groups with
  | some octets => "::ffff:" ++ quadText octets
  | none =>
    let (start, length) := longestZeroRun groups
    if length > 1 then
      groupsText (groups.take start) ++ "::" ++ groupsText (groups.drop (start + length))
    else groupsText groups

def toText : PeerAddress → String
  | v4 octets port => quadText octets.toList ++ ":" ++ toString port.toNat
  | v6 groups port scope =>
    let zone := if scope = 0 then "" else "%" ++ toString scope.toNat
    "[" ++ addressText groups.toList ++ zone ++ "]:" ++ toString port.toNat

end PeerAddress

/-- A set of peers, listed in ascending order. -/
abbrev PeerSet := Std.ExtTreeSet PeerAddress

/-- A table with one entry per peer, listed in ascending order of peers. -/
abbrev PeerMap (α : Type) := Std.ExtTreeMap PeerAddress α

end BlockFetch
