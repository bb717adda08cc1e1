import BlockFetch.Document.Json
import BlockFetch.Proofs.Text.Numerals

/-!
# JSON text is read back

Every document whose numbers have the width of a word is read back from its text, unless it is
nested too deep. Each part of a value is written so that the reader knows where it ends: a literal
at its quote, a number at the comma or the bracket behind it, a list or a record at its own bracket.
-/
namespace BlockFetch.Document

namespace Json

open Reading

variable {rest left : List Char} {points : List Nat}

/-! ## Literals -/

section

variable (read : codePoints? rest = some (points, left))

include read

theorem codePoints?_escaped {mark c : Char} (short : mark ≠ 'u') (known : escape? mark = some c) :
    codePoints? ('\\' :: mark :: rest) = some (c.toNat :: points, left) := by
  have plain : ∀ a b c d more, mark = 'u' → rest = a :: b :: c :: d :: more → False :=
    fun _ _ _ _ _ same _ => short same
  rw [codePoints?.eq_4 mark rest plain, known, read]
  rfl

theorem codePoints?_control {c : Char} (control : c.toNat < 32) :
    codePoints? ('\\' :: 'u' :: '0' :: '0' :: Nat.digitChar (c.toNat / 16) ::
      Nat.digitChar (c.toNat % 16) :: rest) = some (c.toNat :: points, left) := by
  have unit : ∀ n < 32,
      unit? ['0', '0', Nat.digitChar (n / 16), Nat.digitChar (n % 16)] = some n := by
    decide
  rw [codePoints?, unit c.toNat control, read]
  rfl

theorem codePoints?_plain {c : Char} (quote : c ≠ '"') (backslash : c ≠ '\\')
    (visible : ¬ c.toNat < 32) : codePoints? (c :: rest) = some (c.toNat :: points, left) := by
  rw [codePoints?.eq_5 c rest quote (fun _ _ _ _ _ same _ => backslash same)
    (fun _ _ same _ => backslash same), if_neg visible, read]
  rfl

/-- A character is read back from its form in a literal. -/
theorem codePoints?_jsonChar (c : Char) :
    codePoints? ((jsonChar c).toList ++ rest) = some (c.toNat :: points, left) := by
  have named : ∀ n < 128, c.toNat = n → c = Char.ofNat n := fun n _ same => by
    rw [← same, Char.ofNat_toNat]
  unfold jsonChar
  split_ifs with quote backslash newline ret tab backspace feed control
  · exact quote ▸ codePoints?_escaped read (by decide) rfl
  · exact backslash ▸ codePoints?_escaped read (by decide) rfl
  · exact newline ▸ codePoints?_escaped read (by decide) rfl
  · exact ret ▸ codePoints?_escaped read (by decide) rfl
  · exact tab ▸ codePoints?_escaped read (by decide) rfl
  · rw [named 8 (by decide) backspace]
    exact codePoints?_escaped read (by decide) rfl
  · rw [named 12 (by decide) feed]
    exact codePoints?_escaped read (by decide) rfl
  · simp only [String.toList_append, String.toList_ofList]
    exact codePoints?_control read control
  · rw [String.toList_singleton]
    exact codePoints?_plain read quote backslash control

end

theorem codePoints?_chars (chars rest : List Char) :
    codePoints? (chars.flatMap (fun c => (jsonChar c).toList) ++ '"' :: rest) =
      some (chars.map Char.toNat, rest) := by
  induction chars with
  | nil => rw [List.flatMap_nil, List.nil_append, codePoints?]; rfl
  | cons c chars ih =>
    rw [List.flatMap_cons, List.append_assoc]
    exact codePoints?_jsonChar ih c

/-- Characters are no surrogates, so nothing is joined. -/
theorem joinSurrogates?_chars (chars : List Char) :
    joinSurrogates? (chars.map Char.toNat) = some chars := by
  induction chars with
  | nil => rfl
  | cons c chars ih =>
    have valid : c.toNat < 0xD800 ∨ 0xDFFF < c.toNat := c.valid.imp_right And.left
    rw [List.map_cons, joinSurrogates?.eq_def]
    dsimp only
    rw [if_neg (by omega), if_neg (by omega), ih]
    simp

theorem toList_jsonString (value : String) :
    (jsonString value).toList =
      '"' :: (value.toList.flatMap (fun c => (jsonChar c).toList) ++ ['"']) := by
  have written : ∀ (chars : List Char) (before : String),
      (chars.foldl (fun written c => written ++ jsonChar c) before).toList =
        before.toList ++ chars.flatMap fun c => (jsonChar c).toList := by
    intro chars
    induction chars with
    | nil => simp
    | cons c chars ih => simp [ih]
  simp [jsonString, String.foldl_eq_foldl_toList, written]

theorem string?_jsonString (value : String) (rest : List Char) :
    ∃ literal, (jsonString value).toList = '"' :: literal ∧
      string? (literal ++ rest) = some (some value, rest) := by
  refine ⟨_, toList_jsonString value, ?_⟩
  rw [List.append_assoc, List.singleton_append, string?, codePoints?_chars]
  simp [joinSurrogates?_chars]

/-! ## Numbers -/

/-- What can stand behind a value. -/
def EndsValue (rest : List Char) : Prop :=
  ∀ c ∈ rest.head?, c = ',' ∨ c = ']' ∨ c = '}'

theorem endsValue_cons {c : Char} (closes : c = ',' ∨ c = ']' ∨ c = '}') (rest : List Char) :
    EndsValue (c :: rest) := by
  intro other here
  rw [List.head?_cons, Option.mem_some_iff] at here
  exact here ▸ closes

theorem EndsValue.noDigit (ends : EndsValue rest) : NoDigit 10 rest := by
  intro c here
  rcases ends c here with rfl | rfl | rfl <;> decide

theorem fraction?_of_ends (ends : EndsValue rest) : fraction? rest = some ([], rest) := by
  cases rest with
  | nil => rfl
  | cons c rest => rcases ends c rfl with rfl | rfl | rfl <;> rfl

theorem exponent?_of_ends (ends : EndsValue rest) : exponent? rest = some ([], rest) := by
  cases rest with
  | nil => rfl
  | cons c rest => rcases ends c rfl with rfl | rfl | rfl <;> rfl

theorem takeDigits_toDigits (n : Nat) (h : NoDigit 10 rest) :
    takeDigits (Nat.toDigits 10 n ++ rest) = (Nat.toDigits 10 n, rest) := by
  have taken := takeWhile_toDigits (by decide) (by decide) n h
  have whole := List.takeWhile_append_dropWhile (p := isDigit 10) (l := Nat.toDigits 10 n ++ rest)
  rw [taken] at whole
  rw [takeDigits, List.span_eq_takeWhile_dropWhile, taken, List.append_cancel_left whole]

theorem exists_toDigits_eq_cons (n : Nat) :
    ∃ c tail, Nat.toDigits 10 n = c :: tail ∧ isDigit 10 c = true := by
  obtain ⟨c, tail, shape⟩ := List.exists_cons_of_ne_nil (Nat.toDigits_ne_nil (n := n) (b := 10))
  have member : c ∈ Nat.toDigits 10 n := shape ▸ List.mem_cons_self
  exact ⟨c, tail, shape, isDigit_of_mem_toDigits (by decide) (by decide) member⟩

/-- The digits of a number have no zero in front that would have to be refused. -/
theorem not_padded (n : Nat) :
    ¬ ((Nat.toDigits 10 n).isEmpty = true ∨
      (Nat.toDigits 10 n).length > 1 ∧ (Nat.toDigits 10 n).head? = some '0') := by
  rintro (empty | ⟨long, zero⟩)
  · exact Nat.toDigits_ne_nil (List.isEmpty_iff.mp empty)
  · rw [eq_zero_of_head?_toDigits (by decide) (by decide) zero] at long
    exact absurd long (by decide)

theorem number?_toDigits {n : Nat} (fits : n < UInt64.size) (ends : EndsValue rest) :
    number? (Nat.toDigits 10 n ++ rest) = some (integer n, rest) := by
  have positive : ∀ more, Nat.toDigits 10 n ++ rest = '-' :: more → False := by
    obtain ⟨c, tail, shape, digit⟩ := exists_toDigits_eq_cons n
    intro more same
    rw [shape, List.cons_append] at same
    rw [(List.cons.inj same).1] at digit
    exact absurd digit (by decide)
  have value : ofNumber false (Nat.toDigits 10 n) [] [] = integer n := by
    simp [ofNumber, numeral_toDigits, fits]
  rw [number?.eq_2 _ positive]
  simp only [takeDigits_toDigits n ends.noDigit, if_neg (not_padded n), fraction?_of_ends ends,
    exponent?_of_ends ends, value, Option.bind_eq_bind, Option.bind_some]
  rfl

theorem number?_negative {n : Nat} (positive : 0 < n) (fits : n ≤ UInt64.size / 2)
    (ends : EndsValue rest) :
    number? ('-' :: (Nat.toDigits 10 n ++ rest)) = some (integer (-n), rest) := by
  have value : ofNumber true (Nat.toDigits 10 n) [] [] = integer (-n) := by
    simp [ofNumber, numeral_toDigits, positive, fits]
  rw [number?]
  simp only [takeDigits_toDigits n ends.noDigit, if_neg (not_padded n), fraction?_of_ends ends,
    exponent?_of_ends ends, value, Option.bind_eq_bind, Option.bind_some]
  rfl

/-! ## Values -/

/-- A text that begins with a value has no blank in front, and it is not the end of a list. -/
def StartsValue (input : List Char) : Prop :=
  ∃ c tail, input = c :: tail ∧ c ∉ [' ', '\n', '\t', '\r', ']']

theorem skipBlanks_cons {c : Char} (solid : c ∉ [' ', '\n', '\t', '\r']) (rest : List Char) :
    skipBlanks (c :: rest) = c :: rest := by
  rw [skipBlanks, List.dropWhile_cons, if_neg]
  simpa [or_assoc] using solid

theorem StartsValue.skipBlanks_append {input : List Char} (h : StartsValue input)
    (rest : List Char) : skipBlanks (input ++ rest) = input ++ rest := by
  obtain ⟨c, tail, rfl, solid⟩ := h
  exact skipBlanks_cons (fun blank => solid (by simp_all)) _

/-- A document that may stand in so many levels is read back from its text, with fuel for each of
its characters. -/
structure ReadsBack (levels : Nat) (document : Document) : Prop where
  starts : StartsValue document.toJson.toList
  read : ∀ fuel rest, document.toJson.toList.length < fuel → EndsValue rest →
    value? fuel levels (document.toJson.toList ++ rest) = some (document, rest)

variable {levels fuel : Nat}

theorem value?_eq_number? {c : Char} (h : isDigit 10 c = true ∨ c = '-') (rest : List Char) :
    value? (fuel + 1) levels (c :: rest) = number? (c :: rest) := by
  have other : ∀ d, isDigit 10 d = false → d ≠ '-' → ∀ more, c :: rest = d :: more → False := by
    rintro d letter sign more same
    rw [(List.cons.inj same).1, letter] at h
    exact h.elim nofun sign
  exact value?.eq_8 _ _ _ (fun _ => other 'n' (by decide) (by decide) _)
    (fun _ => other 't' (by decide) (by decide) _) (fun _ => other 'f' (by decide) (by decide) _)
    (fun _ => other '"' (by decide) (by decide) _) (fun _ => other '[' (by decide) (by decide) _)
    (fun _ => other '{' (by decide) (by decide) _)

theorem readsBack_null (levels : Nat) : ReadsBack levels null where
  starts := ⟨'n', "ull".toList, rfl, by decide⟩
  read
    | _ + 1, _, _, _ => value?.eq_2 ..

theorem readsBack_bool (levels : Nat) : ∀ value, ReadsBack levels (bool value)
  | true => ⟨⟨'t', "rue".toList, rfl, by decide⟩, fun | _ + 1, _, _, _ => value?.eq_3 ..⟩
  | false => ⟨⟨'f', "alse".toList, rfl, by decide⟩, fun | _ + 1, _, _, _ => value?.eq_4 ..⟩

theorem readsBack_text (levels : Nat) (value : String) : ReadsBack levels (text value) := by
  obtain ⟨literal, shape, -⟩ := string?_jsonString value []
  refine ⟨⟨'"', literal, shape, by decide⟩, fun fuel rest enough _ => ?_⟩
  obtain ⟨literal, shape, read⟩ := string?_jsonString value rest
  obtain ⟨fuel, rfl⟩ := Nat.exists_eq_add_one_of_ne_zero (Nat.ne_zero_of_lt enough)
  have written : (text value).toJson.toList = '"' :: literal := shape
  rw [written, List.cons_append, value?, read]
  rfl

theorem readsBack_integer (levels : Nat) {value : Int} (lower : -(UInt64.size / 2 : Nat) ≤ value)
    (upper : value < UInt64.size) : ReadsBack levels (integer value) := by
  cases value with
  | ofNat n =>
    have fits : n < UInt64.size := Int.ofNat_lt.mp upper
    obtain ⟨c, tail, shape, digit⟩ := exists_toDigits_eq_cons n
    have written : (integer (Int.ofNat n)).toJson.toList = Nat.toDigits 10 n := by
      change (toString n).toList = _
      simp
    have plain : ∀ d ∈ [' ', '\n', '\t', '\r', ']'], isDigit 10 d = false :=
      List.forall_iff_forall_mem.mp (by decide)
    have solid : c ∉ [' ', '\n', '\t', '\r', ']'] :=
      fun member => Bool.false_ne_true ((plain c member).symm.trans digit)
    refine ⟨⟨c, tail, written.trans shape, solid⟩, fun fuel rest enough ends => ?_⟩
    obtain ⟨fuel, rfl⟩ := Nat.exists_eq_add_one_of_ne_zero (Nat.ne_zero_of_lt enough)
    have number := number?_toDigits fits ends
    rw [shape, List.cons_append] at number
    rw [written, shape, List.cons_append, value?_eq_number? (.inl digit), number]
    rfl
  | negSucc n =>
    have written : (integer (Int.negSucc n)).toJson.toList = '-' :: Nat.toDigits 10 (n + 1) := by
      change ("-" ++ Nat.repr (n + 1)).toList = _
      simp [Nat.repr_eq_ofList_toDigits]
    refine ⟨⟨'-', _, written, by decide⟩, fun fuel rest enough ends => ?_⟩
    obtain ⟨fuel, rfl⟩ := Nat.exists_eq_add_one_of_ne_zero (Nat.ne_zero_of_lt enough)
    have fits : n + 1 ≤ UInt64.size / 2 := by omega
    rw [written, List.cons_append, value?_eq_number? (.inr rfl),
      number?_negative n.succ_pos fits ends]
    rfl

/-! ## Lists and records -/

theorem starts_itemsToJson {items : List Document} (some_item : items ≠ [])
    (each : ∀ item ∈ items, ReadsBack levels item) : StartsValue (itemsToJson items).toList := by
  cases items with
  | nil => exact absurd rfl some_item
  | cons first others =>
    obtain ⟨c, tail, shape, solid⟩ := (each first List.mem_cons_self).starts
    cases others with
    | nil => exact ⟨c, tail, by rw [itemsToJson, shape], solid⟩
    | cons second others =>
      refine ⟨c, tail ++ ("," ++ itemsToJson (second :: others)).toList, ?_, solid⟩
      rw [itemsToJson.eq_3 _ _ (List.cons_ne_nil second others), String.append_assoc,
        String.toList_append, shape, List.cons_append]

theorem items?_itemsToJson {items : List Document} (some_item : items ≠ [])
    (each : ∀ item ∈ items, ReadsBack levels item)
    (enough : (itemsToJson items).toList.length + 1 < fuel) (rest : List Char) :
    items? fuel levels ((itemsToJson items).toList ++ ']' :: rest) = some (items, rest) := by
  have close : skipBlanks (']' :: rest) = ']' :: rest := skipBlanks_cons (by decide) rest
  have comma : ∀ rest, skipBlanks (',' :: rest) = ',' :: rest := skipBlanks_cons (by decide)
  induction items generalizing fuel with
  | nil => exact absurd rfl some_item
  | cons first others ih =>
    obtain ⟨fuel, rfl⟩ := Nat.exists_eq_add_one_of_ne_zero (Nat.ne_zero_of_lt enough)
    obtain ⟨readsFirst, readsOthers⟩ := List.forall_mem_cons.mp each
    cases others with
    | nil =>
      rw [itemsToJson] at enough ⊢
      rw [items?, readsFirst.read fuel _ (by omega) (endsValue_cons (.inr (.inl rfl)) rest)]
      simp only [Option.bind_eq_bind, Option.bind_some, close]
      rfl
    | cons second others =>
      have some_other := List.cons_ne_nil second others
      have written : (itemsToJson (first :: second :: others)).toList =
          first.toJson.toList ++ ',' :: (itemsToJson (second :: others)).toList := by
        rw [itemsToJson.eq_3 _ _ some_other]
        simp
      rw [written, List.length_append, List.length_cons] at enough
      have more := ih some_other readsOthers (show _ < fuel by omega)
      have solid := (starts_itemsToJson some_other readsOthers).skipBlanks_append (']' :: rest)
      rw [written, List.append_assoc, List.cons_append, items?,
        readsFirst.read fuel _ (by omega) (endsValue_cons (.inl rfl) _)]
      simp only [Option.bind_eq_bind, Option.bind_some, comma, solid, more]
      rfl

theorem readsBack_list {items : List Document} (each : ∀ item ∈ items, ReadsBack levels item) :
    ReadsBack (levels + 1) (list items) := by
  have written : (list items).toJson.toList = '[' :: ((itemsToJson items).toList ++ [']']) := by
    simp [toJson]
  refine ⟨⟨_, _, written, by decide⟩, fun fuel rest enough _ => ?_⟩
  rw [written, List.length_cons, List.length_append] at enough
  obtain ⟨fuel, rfl⟩ := Nat.exists_eq_add_one_of_ne_zero (Nat.ne_zero_of_lt enough)
  rw [written, List.cons_append, List.append_assoc, List.singleton_append]
  cases items with
  | nil => rfl
  | cons first others =>
    obtain ⟨c, tail, shape, solid⟩ := starts_itemsToJson (List.cons_ne_nil first others) each
    have skipped := StartsValue.skipBlanks_append ⟨c, tail, shape, solid⟩ (']' :: rest)
    have read := items?_itemsToJson (List.cons_ne_nil first others) each
      (show _ < fuel by simp at enough; omega) rest
    rw [value?, skipped]
    split
    · rename_i same
      rw [shape, List.cons_append] at same
      rw [(List.cons.inj same).1] at solid
      exact absurd solid (by decide)
    · rw [Nat.add_sub_cancel, read]
      rfl

def entryChars (key : String) (content : Document) : List Char :=
  (jsonString key).toList ++ ':' :: content.toJson.toList

theorem toList_fieldsToJson_singleton (key : String) (content : Document) :
    (fieldsToJson [(key, content)]).toList = entryChars key content := by
  rw [fieldsToJson, entryChars]
  simp

theorem toList_fieldsToJson_cons (key : String) (content : Document)
    {others : List (String × Document)} (more : others ≠ []) :
    (fieldsToJson ((key, content) :: others)).toList =
      entryChars key content ++ ',' :: (fieldsToJson others).toList := by
  rw [fieldsToJson.eq_3 _ _ _ more, entryChars]
  simp

theorem starts_fieldsToJson {fields : List (String × Document)} (some_field : fields ≠ []) :
    ∃ tail, (fieldsToJson fields).toList = '"' :: tail := by
  cases fields with
  | nil => exact absurd rfl some_field
  | cons first others =>
    obtain ⟨key, content⟩ := first
    obtain ⟨tail, shape⟩ : ∃ tail, entryChars key content = '"' :: tail := by
      rw [entryChars, toList_jsonString]
      exact ⟨_, rfl⟩
    cases others with
    | nil => exact ⟨tail, (toList_fieldsToJson_singleton ..).trans shape⟩
    | cons second others =>
      refine ⟨tail ++ ',' :: (fieldsToJson (second :: others)).toList, ?_⟩
      rw [toList_fieldsToJson_cons _ _ (List.cons_ne_nil second others), shape, List.cons_append]

/-- An entry is read, and what follows it decides how the record goes on. -/
theorem entries?_entryChars {key : String} {content : Document} (reads : ReadsBack levels content)
    (enough : (entryChars key content).length < fuel) (ends : EndsValue rest) :
    entries? (fuel + 1) levels (entryChars key content ++ rest) =
      match skipBlanks rest with
      | '}' :: rest => some ([(some key, content)], rest)
      | ',' :: rest => (entries? fuel levels (skipBlanks rest)).bind fun found =>
        some ((some key, content) :: found.1, found.2)
      | _ => none := by
  obtain ⟨literal, shape, key_read⟩ :=
    string?_jsonString key (':' :: (content.toJson.toList ++ rest))
  have colon : ∀ rest, skipBlanks (':' :: rest) = ':' :: rest := skipBlanks_cons (by decide)
  rw [entryChars, List.length_append, List.length_cons] at enough
  have value := reads.read fuel rest (by omega) ends
  rw [entryChars, shape]
  simp only [List.cons_append, List.append_assoc, entries?, key_read, Option.bind_eq_bind,
    Option.bind_some, colon, reads.starts.skipBlanks_append, value]
  rfl

theorem entries?_fieldsToJson {fields : List (String × Document)} (some_field : fields ≠ [])
    (each : ∀ field ∈ fields, ReadsBack levels field.2)
    (enough : (fieldsToJson fields).toList.length + 1 < fuel) (rest : List Char) :
    entries? fuel levels ((fieldsToJson fields).toList ++ '}' :: rest) =
      some (fields.map fun field => (some field.1, field.2), rest) := by
  induction fields generalizing fuel with
  | nil => exact absurd rfl some_field
  | cons first others ih =>
    obtain ⟨key, content⟩ := first
    obtain ⟨fuel, rfl⟩ := Nat.exists_eq_add_one_of_ne_zero (Nat.ne_zero_of_lt enough)
    obtain ⟨readsFirst, readsOthers⟩ := List.forall_mem_cons.mp each
    change ReadsBack levels content at readsFirst
    cases others with
    | nil =>
      rw [toList_fieldsToJson_singleton] at enough ⊢
      rw [entries?_entryChars readsFirst (Nat.lt_of_succ_lt_succ enough)
        (endsValue_cons (.inr (.inr rfl)) rest), skipBlanks_cons (by decide)]
      rfl
    | cons second others =>
      have some_other := List.cons_ne_nil second others
      rw [toList_fieldsToJson_cons key content some_other] at enough ⊢
      rw [List.length_append, List.length_cons] at enough
      obtain ⟨tail, shape⟩ := starts_fieldsToJson some_other
      have more := ih some_other readsOthers (show _ < fuel by omega)
      rw [List.append_assoc, List.cons_append, entries?_entryChars readsFirst (by omega)
        (endsValue_cons (.inl rfl) _), skipBlanks_cons (by decide)]
      rw [shape, List.cons_append] at more ⊢
      simp only [skipBlanks_cons (show '"' ∉ [' ', '\n', '\t', '\r'] by decide), more]
      rfl

theorem ofEntries_map (fields : List (String × Document)) :
    ofEntries (fields.map fun field => (some field.1, field.2)) = record fields := by
  have all : (fields.map fun field => (some field.1, field.2)).mapM
      (fun (entry : Option String × Document) => entry.1.map fun key => (key, entry.2)) =
      some fields := by
    induction fields with
    | nil => rfl
    | cons first others ih => rw [List.map_cons, List.mapM_cons, ih]; rfl
  rw [ofEntries, all]
  rfl

theorem readsBack_record {fields : List (String × Document)}
    (each : ∀ field ∈ fields, ReadsBack levels field.2) :
    ReadsBack (levels + 1) (record fields) := by
  have written : (record fields).toJson.toList =
      '{' :: ((fieldsToJson fields).toList ++ ['}']) := by
    simp [toJson]
  refine ⟨⟨_, _, written, by decide⟩, fun fuel rest enough _ => ?_⟩
  rw [written, List.length_cons, List.length_append] at enough
  obtain ⟨fuel, rfl⟩ := Nat.exists_eq_add_one_of_ne_zero (Nat.ne_zero_of_lt enough)
  rw [written, List.cons_append, List.append_assoc, List.singleton_append]
  cases fields with
  | nil => rfl
  | cons first others =>
    obtain ⟨tail, shape⟩ := starts_fieldsToJson (List.cons_ne_nil first others)
    have read := entries?_fieldsToJson (List.cons_ne_nil first others) each
      (show _ < fuel by simp at enough; omega) rest
    rw [shape, List.cons_append] at read ⊢
    rw [value?, skipBlanks_cons (by decide)]
    split
    · rename_i same
      exact absurd (List.cons.inj same).1 (by decide)
    · rw [Nat.add_sub_cancel, read]
      simp only [Option.bind_eq_bind, Option.bind_some, ofEntries_map]
      rfl

end Json

/-! ## Whole texts -/

/-- A document that can be written and read back: its numbers have the width of a word, and what is
nested in it goes down so many levels at most. -/
inductive Writable : (levels : Nat) → Document → Prop
  | null {levels : Nat} : Writable levels null
  | bool {levels : Nat} (value : Bool) : Writable levels (bool value)
  | integer {levels : Nat} {value : Int} (lower : -(UInt64.size / 2 : Nat) ≤ value)
      (upper : value < UInt64.size) : Writable levels (integer value)
  | text {levels : Nat} (value : String) : Writable levels (text value)
  | list {levels : Nat} {items : List Document} (each : ∀ item ∈ items, Writable levels item) :
      Writable (levels + 1) (list items)
  | record {levels : Nat} {fields : List (String × Document)}
      (each : ∀ field ∈ fields, Writable levels field.2) : Writable (levels + 1) (record fields)

section

variable {levels : Nat}

@[simp] theorem writable_text (value : String) : Writable levels (.text value) := .text value

@[simp] theorem writable_bool (value : Bool) : Writable levels (.bool value) := .bool value

@[simp] theorem writable_ofUInt64 (value : UInt64) : Writable levels (ofUInt64 value) :=
  .integer (by omega) (Int.ofNat_lt.mpr value.toNat_lt_size)

@[simp] theorem writable_ofUInt32 (value : UInt32) : Writable levels (ofUInt32 value) := by
  have bound : value.toNat < UInt64.size := value.toNat_lt_size.trans (by decide)
  exact .integer (by omega) (Int.ofNat_lt.mpr bound)

theorem writable_ofOption {α : Type} {write : α → Document}
    (h : ∀ value, Writable levels (write value)) : ∀ value?, Writable levels (ofOption write value?)
  | none => .null
  | some value => h value

theorem writable_list_map {α : Type} {write : α → Document}
    (h : ∀ value, Writable levels (write value)) (values : List α) :
    Writable (levels + 1) (.list (values.map write)) :=
  .list (List.forall_mem_map.mpr fun value _ => h value)

@[simp] theorem writable_record_iff {fields : List (String × Document)} :
    Writable (levels + 1) (.record fields) ↔ ∀ field ∈ fields, Writable levels field.2 :=
  ⟨fun | .record each => each, .record⟩

end

theorem Writable.readsBack {levels : Nat} {document : Document} (h : Writable levels document) :
    Json.ReadsBack levels document := by
  induction h with
  | null => exact Json.readsBack_null _
  | bool value => exact Json.readsBack_bool _ value
  | integer lower upper => exact Json.readsBack_integer _ lower upper
  | text value => exact Json.readsBack_text _ value
  | list _ ih => exact Json.readsBack_list ih
  | record _ ih => exact Json.readsBack_record ih

/-- What is written is read back, up to the depth that the reader goes to. -/
theorem ofJson?_toJson {document : Document} (h : Writable Json.maxLevels document) :
    ofJson? document.toJson = some document := by
  have reads := h.readsBack
  have solid := reads.starts.skipBlanks_append []
  have read := reads.read (document.toJson.toList.length + 1) [] (Nat.lt_succ_self _) nofun
  rw [List.append_nil] at solid read
  rw [ofJson?, solid]
  simp only [read]
  rfl

end BlockFetch.Document
