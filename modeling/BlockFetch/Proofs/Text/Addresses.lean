import BlockFetch.PeerAddress.Parser
import BlockFetch.Proofs.Text.Numerals

/-!
# The texts of peer addresses

The text of an address is read back as this address. The reader takes groups one after the other,
so most of what follows is about where it stops: at the two colons that stand for zero groups, at a
dotted quad, or at the end of the address.
-/
namespace BlockFetch.PeerAddress

open Reading

variable {rest text : List Char} {slots : Nat} {first : Bool}

/-! ## Numbers -/

theorem takeDigits_toDigits {radix : Nat} (wide : 1 < radix) (narrow : radix ≤ 16) (n : Nat)
    (h : NoDigit radix rest) :
    takeDigits radix (Nat.toDigits radix n ++ rest) =
      ((Nat.toDigits radix n).length, n, rest) := by
  simp only [takeDigits, takeWhile_toDigits wide narrow n h, numeral_toDigits wide narrow,
    List.drop_left]

theorem number?_toDigits {n bound : Nat} (fits : n < bound) (h : NoDigit 10 rest) :
    number? 10 bound (Nat.toDigits 10 n ++ rest) = some (n, rest) := by
  simp [number?, takeDigits_toDigits (by decide) (by decide) n h, Nat.length_toDigits_pos, fits]

theorem octet?_toDigits (octet : UInt8) (h : NoDigit 10 rest) :
    octet? (Nat.toDigits 10 octet.toNat ++ rest) = some (octet, rest) := by
  have fits : octet.toNat < 256 := octet.toNat_lt
  have short : (Nat.toDigits 10 octet.toNat).length ≤ 3 :=
    (Nat.length_toDigits_le_iff (by decide) (by decide)).mpr (by omega)
  have plain : ¬ ((Nat.toDigits 10 octet.toNat).length > 1 ∧
      (Nat.toDigits 10 octet.toNat ++ rest).head? = some '0') := by
    rintro ⟨long, zero⟩
    rw [List.head?_append_of_ne_nil _ Nat.toDigits_ne_nil] at zero
    rw [eq_zero_of_head?_toDigits (by decide) (by decide) zero] at long
    exact absurd long (by decide)
  rw [octet?, takeDigits_toDigits (by decide) (by decide) _ h]
  dsimp only
  rw [if_pos ⟨Nat.length_toDigits_pos, short, plain, fits⟩]
  simp

theorem group?_toDigits (group : UInt16) (h : NoDigit 16 rest) :
    group? (Nat.toDigits 16 group.toNat ++ rest) = some (group, rest) := by
  have short : (Nat.toDigits 16 group.toNat).length ≤ 4 :=
    (Nat.length_toDigits_le_iff (by decide) (by decide)).mpr group.toNat_lt
  rw [group?, takeDigits_toDigits (by decide) (by decide) _ h]
  dsimp only
  rw [if_pos ⟨Nat.length_toDigits_pos, short⟩]
  simp

/-! ## Dotted quads -/

theorem toList_quadText (a b c d : UInt8) :
    (quadText [a, b, c, d]).toList =
      Nat.toDigits 10 a.toNat ++ '.' :: (Nat.toDigits 10 b.toNat ++ '.' ::
        (Nat.toDigits 10 c.toNat ++ '.' :: Nat.toDigits 10 d.toNat)) := by
  simp [quadText]

theorem quad?_quadText (a b c d : UInt8) (h : NoDigit 10 rest) :
    quad? ((quadText [a, b, c, d]).toList ++ rest) = some (#v[a, b, c, d], rest) := by
  have dot : ∀ rest, NoDigit 10 ('.' :: rest) := fun rest => noDigit_cons.mpr (by decide)
  rw [toList_quadText]
  simp only [List.append_assoc, List.cons_append, quad?, octet?_toDigits _ (dot _),
    octet?_toDigits _ h, skip?_cons_self, Option.bind_eq_bind, Option.bind_some]
  rfl

/-! ## Where groups end -/

/-- A group that ends here is over, and it is not the start of a dotted quad. -/
structure EndsGroup (rest : List Char) : Prop where
  noDigit : NoDigit 16 rest
  noDot : rest.head? ≠ some '.'

structure EndsGroups (rest : List Char) : Prop extends EndsGroup rest where
  noGroup : ∀ start, skip? ':' rest = some start → NoDigit 16 start

theorem endsGroup_cons {c : Char} (closes : c = ':' ∨ c = '%' ∨ c = ']') (rest : List Char) :
    EndsGroup (c :: rest) := by
  rcases closes with rfl | rfl | rfl <;> exact ⟨noDigit_cons.mpr (by decide), by simp⟩

theorem endsGroups_colons (rest : List Char) : EndsGroups (':' :: ':' :: rest) where
  toEndsGroup := endsGroup_cons (.inl rfl) _
  noGroup start opened := by
    rw [skip?_cons_self] at opened
    exact Option.some_inj.mp opened ▸ noDigit_cons.mpr (by decide)

theorem endsGroups_cons {c : Char} (closes : c = '%' ∨ c = ']') (rest : List Char) :
    EndsGroups (c :: rest) where
  toEndsGroup := endsGroup_cons (.inr closes) rest
  noGroup start opened := by
    have different : c ≠ ':' := by rcases closes with rfl | rfl <;> decide
    rw [skip?, if_neg different] at opened
    cases opened

theorem octet?_eq_none (h : NoDigit 10 text) : octet? text = none := by
  simp [octet?, takeDigits, takeWhile_isDigit_eq_nil h]

theorem group?_eq_none (h : NoDigit 16 text) : group? text = none := by
  simp [group?, takeDigits, takeWhile_isDigit_eq_nil h]

theorem octet?_eq_some {octet : UInt8} (h : octet? text = some (octet, rest)) :
    rest = text.dropWhile (isDigit 10) := by
  simp only [octet?, takeDigits] at h
  obtain ⟨-, read⟩ := Option.ite_none_right_eq_some.mp h
  have left : text.drop (text.takeWhile (isDigit 10)).length = rest :=
    congrArg Prod.snd (Option.some_inj.mp read)
  have cut : (text.takeWhile (isDigit 10) ++ text.dropWhile (isDigit 10)).drop
      (text.takeWhile (isDigit 10)).length = text.dropWhile (isDigit 10) := List.drop_left
  rw [List.takeWhile_append_dropWhile] at cut
  exact left.symm.trans cut

/-- What is left of a numeral in base 16 without its first decimal digits. -/
theorem head?_dropWhile_digits {digits : List Char} (all : ∀ c ∈ digits, isDigit 16 c = true)
    (h : NoDigit 10 rest) {c : Char}
    (here : ((digits ++ rest).dropWhile (isDigit 10)).head? = some c) :
    isDigit 16 c = true ∨ rest.head? = some c := by
  induction digits with
  | nil =>
    cases rest with
    | nil => exact nomatch here
    | cons d tail =>
      rw [List.nil_append, List.dropWhile_cons, noDigit_cons.mp h, if_neg Bool.false_ne_true]
        at here
      exact .inr here
  | cons d tail ih =>
    obtain ⟨digit, all⟩ := List.forall_mem_cons.mp all
    rw [List.cons_append, List.dropWhile_cons] at here
    split at here
    · exact ih all here
    · exact .inl (Option.some_inj.mp here ▸ digit)

/-- A numeral in base 16 that no dot follows is not the start of a dotted quad. -/
theorem quad?_eq_none {digits : List Char} (all : ∀ c ∈ digits, isDigit 16 c = true)
    (ends : EndsGroup rest) : quad? (digits ++ rest) = none := by
  cases read : octet? (digits ++ rest) with
  | none => rw [quad?, read]; rfl
  | some found =>
    obtain ⟨octet, left⟩ := found
    have undotted : skip? '.' left = none := by
      rw [octet?_eq_some read]
      cases shape : (digits ++ rest).dropWhile (isDigit 10) with
      | nil => rfl
      | cons c tail =>
        have here : ((digits ++ rest).dropWhile (isDigit 10)).head? = some c := by rw [shape]; rfl
        have different : c ≠ '.' := by
          rintro rfl
          rcases head?_dropWhile_digits all ends.noDigit.ten_of_sixteen here with digit | dot
          · exact absurd digit (by decide)
          · exact ends.noDot dot
        rw [skip?, if_neg different]
    simp only [quad?, read, Option.bind_eq_bind, Option.bind_some, undotted, Option.bind_none]

/-! ## Taking groups -/

section

variable {start : List Char} (opened : (if first then some text else skip? ':' text) = some start)

include opened

theorem takeGroups_of_noDigit (h : NoDigit 16 start) :
    takeGroups slots first text = ⟨[], false, text⟩ := by
  cases slots with
  | zero => rfl
  | succ slots =>
    have undotted : (if slots = 0 then none else quad? start) = none := by
      rw [quad?, octet?_eq_none h.ten_of_sixteen]
      exact ite_self none
    rw [takeGroups, opened]
    simp only [undotted, group?_eq_none h]

/-- A group that a dotted quad does not begin with is taken, and then those after it. -/
theorem takeGroups_group {group : UInt16} (written : start = Nat.toDigits 16 group.toNat ++ rest)
    (ends : EndsGroup rest) :
    takeGroups (slots + 1) first text =
      ⟨group :: (takeGroups slots false rest).values, (takeGroups slots false rest).endsInQuad,
        (takeGroups slots false rest).rest⟩ := by
  have undotted : (if slots = 0 then none else quad? start) = none := by
    rw [written, quad?_eq_none (fun c => isDigit_of_mem_toDigits (by decide) (by decide)) ends]
    exact ite_self none
  have read : group? start = some (group, rest) := written ▸ group?_toDigits group ends.noDigit
  rw [takeGroups, opened]
  simp only [undotted, read]

theorem takeGroups_quad {a b c d : UInt8} (written : start = (quadText [a, b, c, d]).toList ++ rest)
    (h : NoDigit 10 rest) :
    takeGroups (slots + 2) first text =
      ⟨[a.toUInt16 * 256 + b.toUInt16, c.toUInt16 * 256 + d.toUInt16], true, rest⟩ := by
  have read : (if slots + 1 = 0 then none else quad? start) = some (#v[a, b, c, d], rest) := by
    rw [if_neg (Nat.succ_ne_zero slots), written, quad?_quadText a b c d h]
  rw [takeGroups, opened]
  simp only [read]
  rfl

end

theorem takeGroups_of_ends (ends : EndsGroups rest) (slots : Nat) (first : Bool) :
    takeGroups slots first rest = ⟨[], false, rest⟩ := by
  cases first with
  | true => exact takeGroups_of_noDigit rfl ends.noDigit
  | false =>
    cases read : skip? ':' rest with
    | none =>
      cases slots with
      | zero => rfl
      | succ slots => simp only [takeGroups, Bool.false_eq_true, if_false, read]
    | some start => exact takeGroups_of_noDigit read (ends.noGroup start read)

def nextGroup (group : UInt16) : List Char := ':' :: Nat.toDigits 16 group.toNat

theorem endsGroup_flatMap (ends : EndsGroup rest) (groups : List UInt16) :
    EndsGroup (groups.flatMap nextGroup ++ rest) := by
  cases groups with
  | nil => exact ends
  | cons group groups => exact endsGroup_cons (.inl rfl) _

theorem takeGroups_flatMap {groups : List UInt16} (fits : groups.length ≤ slots)
    (ends : EndsGroups rest) :
    takeGroups slots false (groups.flatMap nextGroup ++ rest) = ⟨groups, false, rest⟩ := by
  induction groups generalizing slots with
  | nil => exact takeGroups_of_ends ends slots false
  | cons group groups ih =>
    obtain ⟨slots, rfl⟩ := Nat.exists_eq_add_one_of_ne_zero (Nat.ne_zero_of_lt fits)
    have opened : (if false = true then some ((group :: groups).flatMap nextGroup ++ rest)
          else skip? ':' ((group :: groups).flatMap nextGroup ++ rest)) =
        some (Nat.toDigits 16 group.toNat ++ (groups.flatMap nextGroup ++ rest)) := by
      simp [nextGroup]
    rw [takeGroups_group opened rfl (endsGroup_flatMap ends.toEndsGroup groups),
      ih (Nat.le_of_succ_le_succ fits)]

theorem toList_groupsText_cons (group : UInt16) (groups : List UInt16) :
    (groupsText (group :: groups)).toList =
      Nat.toDigits 16 group.toNat ++ groups.flatMap nextGroup := by
  have digits : ∀ group, (groupText group).toList = Nat.toDigits 16 group.toNat := fun group => by
    rw [groupText, String.toList_ofList]
  rw [groupsText, String.toList_intercalate]
  induction groups generalizing group with
  | nil => simp [digits]
  | cons second rest ih =>
    have later := ih second
    simp only [List.map_cons, List.intercalate, List.intersperse_cons_cons, List.flatten_cons,
      digits] at later ⊢
    rw [later]
    rfl

/-- The groups of a text are taken as a whole, if there are slots for them. -/
theorem takeGroups_groupsText {groups : List UInt16} (fits : groups.length ≤ slots)
    (ends : EndsGroups rest) :
    takeGroups slots true ((groupsText groups).toList ++ rest) = ⟨groups, false, rest⟩ := by
  cases groups with
  | nil => exact takeGroups_of_ends ends slots true
  | cons group groups =>
    obtain ⟨slots, rfl⟩ := Nat.exists_eq_add_one_of_ne_zero (Nat.ne_zero_of_lt fits)
    rw [toList_groupsText_cons, List.append_assoc,
      takeGroups_group rfl rfl (endsGroup_flatMap ends.toEndsGroup groups),
      takeGroups_flatMap (Nat.le_of_succ_le_succ fits) ends]

/-! ## Zero groups -/

theorem longestZeroRun_le (groups : List UInt16) :
    (longestZeroRun groups).2 ≤ zeroRun groups (longestZeroRun groups).1 := by
  have kept : ∀ (indices : List Nat) (best : Nat × Nat), best.2 ≤ zeroRun groups best.1 →
      (indices.foldl (fun best index =>
        if zeroRun groups index > best.2 then (index, zeroRun groups index) else best) best).2 ≤
      zeroRun groups (indices.foldl (fun best index =>
        if zeroRun groups index > best.2 then (index, zeroRun groups index) else best) best).1 := by
    intro indices
    induction indices with
    | nil => exact fun _ fits => fits
    | cons index rest ih =>
      intro best fits
      rw [List.foldl_cons]
      split
      · exact ih _ (Nat.le_refl _)
      · exact ih best fits
  exact kept _ (0, 0) (Nat.zero_le _)

/-- Where a run of zeros begins, there are as many zeros as it is long. -/
theorem drop_eq_replicate_append {groups : List UInt16} {start length : Nat}
    (fits : length ≤ zeroRun groups start) :
    groups.drop start = List.replicate length 0 ++ groups.drop (start + length) := by
  obtain ⟨others, whole⟩ := List.takeWhile_prefix (· = 0) (l := groups.drop start)
  have zeros : ((groups.drop start).takeWhile (· = 0)).take length = List.replicate length 0 := by
    refine List.eq_replicate_iff.mpr ⟨List.length_take_of_le fits, fun group member => ?_⟩
    simpa using List.all_eq_true.mp List.all_takeWhile group (List.mem_of_mem_take member)
  have cut : (groups.drop start).take length = List.replicate length 0 := by
    rw [← zeros, ← whole, List.take_append_of_le_length]
    · rw [whole]
    · exact fits
  rw [← List.drop_drop, ← cut, List.take_append_drop]

/-! ## Addresses -/

theorem octets_toUInt16 (group : UInt16) :
    (group >>> 8).toUInt8.toUInt16 * 256 + group.toUInt8.toUInt16 = group := by
  rw [← UInt16.toNat_inj]
  have bound := group.toNat_lt
  simp [Nat.shiftRight_eq_div_pow]
  omega

theorem eight?_toList (groups : Vector UInt16 8) : eight? groups.toList = some groups := by
  rw [eight?, dif_pos (by simp)]
  rfl

/-- The only addresses that end in a dotted quad. -/
theorem eq_of_embeddedQuad? {groups : List UInt16} {octets : List UInt8}
    (h : embeddedQuad? groups = some octets) :
    ∃ high low, groups = [0, 0, 0, 0, 0, 0xffff, high, low] ∧
      octets = [(high >>> 8).toUInt8, high.toUInt8, (low >>> 8).toUInt8, low.toUInt8] := by
  unfold embeddedQuad? at h
  split at h
  · exact ⟨_, _, rfl, (Option.some_inj.mp h).symm⟩
  · exact nomatch h

theorem address?_groups (groups : Vector UInt16 8) (ends : EndsGroups rest) :
    address? ((groupsText groups.toList).toList ++ rest) = some (groups, rest) := by
  have fits : groups.toList.length ≤ 8 := Nat.le_of_eq groups.length_toList
  simp only [address?, takeGroups_groupsText fits ends, groups.length_toList, eight?_toList]
  rfl

/-- Two colons stand for the groups that are missing between those before and those after them. -/
theorem address?_colons {groups : Vector UInt16 8} {front back : List UInt16} {endsInQuad : Bool}
    {left : List Char} (before : takeGroups 8 true text = ⟨front, false, ':' :: ':' :: left⟩)
    (few : front.length ≠ 8)
    (after : takeGroups (7 - front.length) true left = ⟨back, endsInQuad, rest⟩)
    (whole : front ++ List.replicate (8 - front.length - back.length) 0 ++ back = groups.toList) :
    address? text = some (groups, rest) := by
  rw [address?, before]
  simp only [if_neg few, Bool.false_eq_true, if_false, skip?_cons_self, after, whole,
    eight?_toList, Option.bind_eq_bind, Option.bind_some]
  rfl

theorem address?_quad {groups : Vector UInt16 8} {octets : List UInt8}
    (embedded : embeddedQuad? groups.toList = some octets) (h : NoDigit 10 rest) :
    address? (':' :: ':' :: ("ffff:".toList ++ ((quadText octets).toList ++ rest))) =
      some (groups, rest) := by
  obtain ⟨high, low, same, rfl⟩ := eq_of_embeddedQuad? embedded
  generalize written : (quadText _).toList ++ rest = quad
  have last : takeGroups 6 false (':' :: quad) = ⟨[high, low], true, rest⟩ := by
    have opened : (if false = true then some (':' :: quad) else skip? ':' (':' :: quad)) =
        some quad := by simp
    rw [takeGroups_quad opened written.symm h, octets_toUInt16, octets_toUInt16]
  have after : takeGroups 7 true ("ffff:".toList ++ quad) = ⟨[0xffff, high, low], true, rest⟩ := by
    have digits : "ffff:".toList ++ quad =
        Nat.toDigits 16 (0xffff : UInt16).toNat ++ ':' :: quad := rfl
    rw [takeGroups_group rfl digits (endsGroup_cons (.inl rfl) quad), last]
  exact address?_colons (takeGroups_of_ends (endsGroups_colons _) 8 true) (by decide) after
    same.symm

theorem address?_zeroRun {groups : Vector UInt16 8} {start length : Nat} (long : 1 < length)
    (fits : length ≤ zeroRun groups.toList start) (ends : EndsGroups rest) :
    address? ((groupsText (groups.toList.take start)).toList ++ ':' :: ':' ::
        ((groupsText (groups.toList.drop (start + length))).toList ++ rest)) =
      some (groups, rest) := by
  have eight : groups.toList.length = 8 := groups.length_toList
  have inside : zeroRun groups.toList start ≤ 8 - start := by
    have shorter := (List.takeWhile_sublist (· = 0) (l := groups.toList.drop start)).length_le
    rwa [List.length_drop, eight] at shorter
  have frontLength : (groups.toList.take start).length = start := by
    rw [List.length_take, eight]
    omega
  have backLength : (groups.toList.drop (start + length)).length = 8 - (start + length) := by
    rw [List.length_drop, eight]
  have before := takeGroups_groupsText (frontLength.trans_le (by omega : start ≤ 8))
    (endsGroups_colons ((groupsText (groups.toList.drop (start + length))).toList ++ rest))
  have free : (groups.toList.drop (start + length)).length ≤
      7 - (groups.toList.take start).length := by omega
  refine address?_colons before (by omega) (takeGroups_groupsText free ends) ?_
  have zeros : 8 - start - (8 - (start + length)) = length := by omega
  rw [frontLength, backLength, zeros, List.append_assoc, ← drop_eq_replicate_append fits,
    List.take_append_drop]

theorem address?_addressText (groups : Vector UInt16 8) (ends : EndsGroups rest) :
    address? ((addressText groups.toList).toList ++ rest) = some (groups, rest) := by
  have mapped : "::ffff:".toList = ':' :: ':' :: "ffff:".toList := rfl
  have colons : "::".toList = [':', ':'] := rfl
  unfold addressText
  cases embedded : embeddedQuad? groups.toList with
  | some octets =>
    simp only [String.toList_append, mapped, List.append_assoc, List.cons_append]
    exact address?_quad embedded ends.noDigit.ten_of_sixteen
  | none =>
    dsimp only
    split
    · rename_i long
      simp only [String.toList_append, colons, List.append_assoc, List.cons_append,
        List.nil_append]
      exact address?_zeroRun long (longestZeroRun_le groups.toList) ends
    · exact address?_groups groups ends

/-! ## Whole addresses -/

theorem port?_toDigits (port : UInt16) :
    port? (':' :: Nat.toDigits 10 port.toNat) = some (port, []) := by
  have read : number? 10 65536 (Nat.toDigits 10 port.toNat ++ []) = some (port.toNat, []) :=
    number?_toDigits port.toNat_lt nofun
  rw [List.append_nil] at read
  simp only [port?, skip?_cons_self, Option.bind_eq_bind, Option.bind_some, read]
  simp

def zoneChars (scope : UInt32) : List Char :=
  if scope = 0 then [] else '%' :: Nat.toDigits 10 scope.toNat

theorem endsGroups_zone (scope : UInt32) (rest : List Char) :
    EndsGroups (zoneChars scope ++ ']' :: rest) := by
  unfold zoneChars
  split
  · exact endsGroups_cons (.inr rfl) rest
  · exact endsGroups_cons (.inl rfl) _

theorem scope?_zone (scope : UInt32) (rest : List Char) :
    scope? (zoneChars scope ++ ']' :: rest) = some (scope, ']' :: rest) := by
  unfold zoneChars
  split
  · rename_i zero
    rw [zero]
    rfl
  · have read : number? 10 UInt32.size (Nat.toDigits 10 scope.toNat ++ ']' :: rest) =
        some (scope.toNat, ']' :: rest) :=
      number?_toDigits scope.toNat_lt (noDigit_cons.mpr (by decide))
    rw [scope?, List.cons_append, skip?_cons_self]
    simp only [read]
    simp

theorem socketV4?_toText (octets : Vector UInt8 4) (port : UInt16) :
    socketV4? (v4 octets port).toText.toList = some (v4 octets port, []) := by
  have four : octets = #v[octets[0], octets[1], octets[2], octets[3]] := by
    ext i bound
    interval_cases i <;> rfl
  have text : (v4 octets port).toText.toList =
      (quadText [octets[0], octets[1], octets[2], octets[3]]).toList ++
        ':' :: Nat.toDigits 10 port.toNat := by
    rw [four]
    simp [toText]
  rw [text, socketV4?, quad?_quadText _ _ _ _ (noDigit_cons.mpr (by decide)), ← four]
  simp only [Option.bind_eq_bind, Option.bind_some, port?_toDigits]
  rfl

theorem toList_toText_v6 (groups : Vector UInt16 8) (port : UInt16) (scope : UInt32) :
    (v6 groups port scope).toText.toList =
      '[' :: ((addressText groups.toList).toList ++ (zoneChars scope ++
        ']' :: ':' :: Nat.toDigits 10 port.toNat)) := by
  have zone : (if scope = 0 then "" else "%" ++ toString scope.toNat).toList =
      zoneChars scope := by
    unfold zoneChars
    split <;> simp
  rw [toText]
  simp only [String.toList_append, zone]
  simp

theorem socketV6?_toText (groups : Vector UInt16 8) (port : UInt16) (scope : UInt32) :
    socketV6? (v6 groups port scope).toText.toList = some (v6 groups port scope, []) := by
  rw [toList_toText_v6, socketV6?]
  simp only [skip?_cons_self, Option.bind_eq_bind, Option.bind_some,
    address?_addressText groups (endsGroups_zone scope _), scope?_zone, port?_toDigits]
  rfl

theorem ofText?_toText (address : PeerAddress) : ofText? address.toText = some address := by
  cases address with
  | v4 octets port =>
    rw [ofText?, socketV4?_toText]
    rfl
  | v6 groups port scope =>
    have bracketed : socketV4? (v6 groups port scope).toText.toList = none := by
      rw [toList_toText_v6, socketV4?, quad?, octet?_eq_none (noDigit_cons.mpr (by decide))]
      rfl
    rw [ofText?, bracketed, socketV6?_toText]
    rfl

end BlockFetch.PeerAddress
