import Pmbah.Format.Canonical
import Pmbah.Js.Parse

/-!
# Text that reads back

A value written without insignificant space, its fields in the order in which it
has them, and what `JSON.parse` makes of that text.
-/

namespace Pmbah.Format

open Js

/-! ## Strings -/

theorem hexValue_hexUnit : ∀ n : Fin 16, hexValue (hexUnit n) = some n.val := by decide

theorem unitOfHex_unicodeEscape (unit : UInt16) :
    unitOfHex (hexUnit (unit.toNat / 0x1000)) (hexUnit (unit.toNat / 0x100 % 16))
      (hexUnit (unit.toNat / 16 % 16)) (hexUnit (unit.toNat % 16)) = some unit := by
  have hunit : unit.toNat < 0x10000 := unit.toNat_lt
  have hvalue : ∀ n, n < 16 → hexValue (hexUnit n) = some n := fun n hn =>
    hexValue_hexUnit ⟨n, hn⟩
  unfold unitOfHex
  rw [hvalue _ (by omega), hvalue _ (by omega), hvalue _ (by omega), hvalue _ (by omega)]
  have hsum : unit.toNat / 0x1000 * 0x1000 + unit.toNat / 0x100 % 16 * 0x100 +
      unit.toNat / 16 % 16 * 16 + unit.toNat % 16 = unit.toNat := by
    omega
  show some (UInt16.ofNat _) = some unit
  rw [hsum, UInt16.ofNat_toNat]

/-- An escaped code unit is read back. -/
theorem readString_unicodeEscape (unit : UInt16) (rest : JsString) :
    readString (unicodeEscape unit ++ rest) =
      (readString rest).map fun read => (unit :: read.1, read.2) := by
  show readString (92 :: 117 :: _ :: _ :: _ :: _ :: rest) = _
  rw [readString.eq_def]
  simp only [unitOfHex_unicodeEscape]
  rfl

theorem readString_escape {escape unit : UInt16} (hnot : escape ≠ 117)
    (h : unitOfEscape escape = some unit) (rest : JsString) :
    readString (92 :: escape :: rest) =
      (readString rest).map fun read => (unit :: read.1, read.2) := by
  rw [readString.eq_def]
  simp only [h, if_neg hnot]
  rfl

theorem readString_plain {unit : UInt16} (hquote : unit ≠ 34) (hslash : unit ≠ 92)
    (hspace : ¬ unit.toNat < 0x20) (rest : JsString) :
    readString (unit :: rest) = (readString rest).map fun read => (unit :: read.1, read.2) := by
  rw [readString.eq_def]
  simp only [if_neg hquote, if_neg hslash, if_neg hspace]

theorem readString_quoteUnit (unit : UInt16) (rest : JsString) :
    readString (quoteUnit unit ++ rest) =
      (readString rest).map fun read => (unit :: read.1, read.2) := by
  unfold quoteUnit
  split
  · rename_i h
    subst h
    exact readString_escape (by decide) (by decide) rest
  · rename_i hquote
    split
    · rename_i h
      subst h
      exact readString_escape (by decide) (by decide) rest
    · rename_i hslash
      split
      · rename_i h
        subst h
        exact readString_escape (by decide) (by decide) rest
      · split
        · rename_i h
          subst h
          exact readString_escape (by decide) (by decide) rest
        · split
          · rename_i h
            subst h
            exact readString_escape (by decide) (by decide) rest
          · split
            · rename_i h
              subst h
              exact readString_escape (by decide) (by decide) rest
            · split
              · rename_i h
                subst h
                exact readString_escape (by decide) (by decide) rest
              · split
                · exact readString_unicodeEscape unit rest
                · rename_i hspace
                  exact readString_plain hquote hslash hspace rest

/-- A surrogate is no quote, no backslash and no control character. -/
theorem readString_surrogate {unit : UInt16}
    (h : isHighSurrogate unit = true ∨ isLowSurrogate unit = true) (rest : JsString) :
    readString (unit :: rest) = (readString rest).map fun read => (unit :: read.1, read.2) := by
  have hlow : 0xD800 ≤ unit.toNat := by
    rcases h with h | h
    · exact (of_decide_eq_true h).1
    · have := (of_decide_eq_true h).1
      omega
  have hne : ∀ other : UInt16, other.toNat < 0xD800 → unit ≠ other := by
    rintro other hother rfl
    omega
  exact readString_plain (hne 34 (by decide)) (hne 92 (by decide)) (by omega) rest

/-- A string literal is read back, whatever follows it. -/
theorem readString_quoteBody (text rest : JsString) :
    readString (quoteBody text ++ 34 :: rest) = some (text, rest) := by
  have hend : readString (34 :: rest) = some ([], rest) := by
    rw [readString.eq_def]
    rfl
  induction text using quoteBody.induct with
  | case1 => exact hend
  | case2 unit hsurrogate =>
      rw [quoteBody, if_pos hsurrogate, readString_unicodeEscape, hend]
      rfl
  | case3 unit hplain =>
      rw [quoteBody, if_neg hplain, readString_quoteUnit, hend]
      rfl
  | case4 unit next tail hpair ih =>
      rw [quoteBody, if_pos hpair, List.cons_append, List.cons_append,
        readString_surrogate (Or.inl hpair.1), readString_surrogate (Or.inr hpair.2), ih]
      rfl
  | case5 unit next tail hpair hsurrogate ih =>
      rw [quoteBody, if_neg hpair, if_pos hsurrogate, List.append_assoc,
        readString_unicodeEscape, ih]
      rfl
  | case6 unit next tail hpair hplain ih =>
      rw [quoteBody, if_neg hpair, if_neg hplain, List.append_assoc, readString_quoteUnit, ih]
      rfl

/-! ## Values -/

mutual

/-- The text of a value whose numbers are integers. -/
def jsonText (P : Platform) : Json → JsString
  | .null => js "null"
  | .bool value => if value then js "true" else js "false"
  | .num value => P.numberToString value
  | .str value => stringifyString value
  | .arr items => js "[" ++ joinWith (js ",") (itemTexts P items) ++ js "]"
  | .obj fields => js "\x7b" ++ joinWith (js ",") (fieldTexts P fields) ++ js "\x7d"

def itemTexts (P : Platform) : List Json → List JsString
  | [] => []
  | item :: items => jsonText P item :: itemTexts P items

def fieldTexts (P : Platform) : List (JsString × Json) → List JsString
  | [] => []
  | (key, value) :: fields =>
      (stringifyString key ++ js ":" ++ jsonText P value) :: fieldTexts P fields

end

mutual

/-- Every number in the value is an integer, and a double. -/
def integral : Json → Bool
  | .num value => value.toInt?.any isDouble
  | .arr items => itemsIntegral items
  | .obj fields => fieldsIntegral fields
  | _ => true

def itemsIntegral : List Json → Bool
  | [] => true
  | item :: items => integral item && itemsIntegral items

def fieldsIntegral : List (JsString × Json) → Bool
  | [] => true
  | (_, value) :: fields => integral value && fieldsIntegral fields

end

mutual

/-- How deep a reader has to go. -/
def jsonSize : Json → Nat
  | .arr items => itemsSize items + 1
  | .obj fields => fieldsSize fields + 1
  | _ => 1

def itemsSize : List Json → Nat
  | [] => 0
  | item :: items => jsonSize item + itemsSize items + 1

def fieldsSize : List (JsString × Json) → Nat
  | [] => 0
  | (_, value) :: fields => jsonSize value + fieldsSize fields + 1

end

variable {P : Platform}

theorem joinWith_cons (separator item : JsString) (items : List JsString) :
    joinWith separator (item :: items) =
      item ++ (if items = [] then [] else separator ++ joinWith separator items) := by
  cases items with
  | nil => rw [if_pos rfl, List.append_nil, joinWith]
  | cons next rest => rw [joinWith, if_neg (List.cons_ne_nil _ _), List.append_assoc]

theorem skipSpace_cons {unit : UInt16} (h : isSpaceUnit unit = false) (rest : JsString) :
    skipSpace (unit :: rest) = unit :: rest := by
  unfold skipSpace
  rw [List.dropWhile_cons_of_neg]
  rw [h]
  exact Bool.false_ne_true

/-- The first unit of a value's text. -/
theorem jsonText_head (numbers : NumberSyntax P) {value : Json} (h : integral value = true) :
    ∃ unit rest, jsonText P value = unit :: rest ∧ isSpaceUnit unit = false ∧ unit ≠ 93 := by
  have hnot : ∀ {unit : UInt16} {rest : JsString}, jsonText P value = unit :: rest →
      isSpaceUnit unit = false → unit ≠ 93 →
      ∃ unit rest, jsonText P value = unit :: rest ∧ isSpaceUnit unit = false ∧ unit ≠ 93 :=
    fun htext hspace hend => ⟨_, _, htext, hspace, hend⟩
  cases value with
  | null => exact hnot rfl (by decide) (by decide)
  | bool value =>
      cases value with
      | true => exact hnot rfl (by decide) (by decide)
      | false => exact hnot rfl (by decide) (by decide)
  | num value =>
      obtain ⟨z, hz, hdouble⟩ := (Option.any_eq_true _ _).1 h
      obtain ⟨unit, rest, htext, hunit⟩ := numbers.starts z hdouble
      rw [JsNumber.eq_ofInt_of_toInt? hz]
      have hrange : 45 ≤ unit.toNat ∧ unit.toNat ≤ 57 := by
        rcases hunit with rfl | hdigit
        · decide
        · unfold isDigitUnit at hdigit
          omega
      have hne : ∀ other : UInt16, other.toNat < 45 ∨ 57 < other.toNat → unit ≠ other := by
        rintro other hother rfl
        omega
      refine ⟨unit, rest, htext, ?_, hne 93 (by decide)⟩
      unfold isSpaceUnit
      simp only [beq_eq_false_iff_ne.2 (hne 32 (by decide)),
        beq_eq_false_iff_ne.2 (hne 9 (by decide)), beq_eq_false_iff_ne.2 (hne 10 (by decide)),
        beq_eq_false_iff_ne.2 (hne 13 (by decide)), Bool.or_self]
  | str value => exact hnot rfl (by decide) (by decide)
  | arr items => exact hnot rfl (by decide) (by decide)
  | obj fields => exact hnot rfl (by decide) (by decide)

theorem endsNumber_cons {unit : UInt16} (h : ¬ isNumberUnit unit) (rest : JsString) :
    EndsNumber (unit :: rest) := by
  intro first hfirst
  rw [List.head?_cons, Option.mem_some_iff] at hfirst
  rw [← hfirst]
  exact h

theorem readLiteral_append (literal : JsString) (value : Json) (rest : JsString) :
    readLiteral literal value (literal ++ rest) = some (value, rest) := by
  unfold readLiteral
  rw [if_pos, List.drop_left]
  exact List.isPrefixOf_iff_prefix.2 (List.prefix_append literal rest)

/-- A text that starts with a letter of a literal is read as that literal. -/
theorem parseValue_literal (numbers : NumberSyntax P) (fuel : Nat) (literal : JsString)
    (value : Json) (rest : JsString)
    (h : (literal, value) ∈ [(js "true", Json.bool true), (js "false", .bool false),
      (js "null", .null)]) :
    parseValue numbers (fuel + 1) (literal ++ rest) = some (value, rest) := by
  have hread := readLiteral_append literal value rest
  simp only [List.mem_cons, Prod.mk.injEq, List.not_mem_nil, or_false] at h
  rcases h with ⟨rfl, rfl⟩ | ⟨rfl, rfl⟩ | ⟨rfl, rfl⟩
  · exact hread
  · exact hread
  · exact hread

theorem parseValue_string (numbers : NumberSyntax P) (fuel : Nat) (text rest : JsString) :
    parseValue numbers (fuel + 1) (stringifyString text ++ rest) = some (.str text, rest) := by
  have hread := readString_quoteBody text rest
  have hshape : stringifyString text ++ rest = 34 :: (quoteBody text ++ 34 :: rest) := by
    unfold stringifyString
    simp only [List.append_assoc]
    rfl
  rw [hshape, parseValue, skipSpace_cons (by decide)]
  simp only [if_true, hread]
  rfl

theorem parseValue_number (numbers : NumberSyntax P) (fuel : Nat) {value : JsNumber}
    (h : value.toInt?.any isDouble = true) {rest : JsString} (hrest : EndsNumber rest) :
    parseValue numbers (fuel + 1) (P.numberToString value ++ rest) =
      some (.num value, rest) := by
  obtain ⟨z, hz, hdouble⟩ := (Option.any_eq_true _ _).1 h
  rw [JsNumber.eq_ofInt_of_toInt? hz]
  have hread := numbers.reads z rest hdouble hrest
  obtain ⟨unit, tail, htext, hunit⟩ := numbers.starts z hdouble
  have hrange : 45 ≤ unit.toNat ∧ unit.toNat ≤ 57 := by
    rcases hunit with rfl | hdigit
    · decide
    · unfold isDigitUnit at hdigit
      omega
  have hne : ∀ other : UInt16, other.toNat < 45 ∨ 57 < other.toNat → unit ≠ other := by
    rintro other hother rfl
    omega
  have hspace : isSpaceUnit unit = false := by
    unfold isSpaceUnit
    simp only [beq_eq_false_iff_ne.2 (hne 32 (by decide)),
      beq_eq_false_iff_ne.2 (hne 9 (by decide)), beq_eq_false_iff_ne.2 (hne 10 (by decide)),
      beq_eq_false_iff_ne.2 (hne 13 (by decide)), Bool.or_self]
  rw [htext, List.cons_append] at hread ⊢
  rw [parseValue, skipSpace_cons hspace]
  simp only
  rw [if_neg (hne 34 (by decide)), if_neg (hne 91 (by decide)), if_neg (hne 123 (by decide)),
    if_neg (hne 116 (by decide)), if_neg (hne 102 (by decide)), if_neg (hne 110 (by decide)),
    hread]
  rfl

theorem addField_new {key : JsString} {value : Json} {fields : List (JsString × Json)}
    (h : key ∉ fields.map Prod.fst) : addField key value fields = (key, value) :: fields := by
  have hlookup : fields.lookup key = none := by
    rw [List.lookup_eq_none_iff]
    intro entry hentry
    rw [bne_iff_ne]
    rintro rfl
    exact h (List.mem_map.2 ⟨entry, hentry, rfl⟩)
  have hfilter : (fields.filter fun field => field.1 ≠ key) = fields := by
    rw [List.filter_eq_self]
    intro entry hentry
    rw [decide_eq_true_eq]
    rintro rfl
    exact h (List.mem_map.2 ⟨entry, hentry, rfl⟩)
  rw [addField, hlookup, hfilter]
  rfl

mutual

/-- A written value is read back, whatever follows it. -/
theorem parseValue_jsonText (numbers : NumberSyntax P) :
    ∀ (value : Json), integral value = true → value.wellFormed = true →
      ∀ (fuel : Nat) (rest : JsString), jsonSize value ≤ fuel → EndsNumber rest →
        parseValue numbers fuel (jsonText P value ++ rest) = some (value, rest)
  | .null, _, _, fuel + 1, rest, _, _ =>
      parseValue_literal numbers fuel (js "null") (.null) rest (by simp)
  | .bool true, _, _, fuel + 1, rest, _, _ =>
      parseValue_literal numbers fuel (js "true") (.bool true) rest (by simp)
  | .bool false, _, _, fuel + 1, rest, _, _ =>
      parseValue_literal numbers fuel (js "false") (.bool false) rest (by simp)
  | .num _, hintegral, _, fuel + 1, _, _, hrest =>
      parseValue_number numbers fuel hintegral hrest
  | .str text, _, _, fuel + 1, rest, _, _ => parseValue_string numbers fuel text rest
  | .arr [], _, _, fuel + 1, rest, _, _ => rfl
  | .arr (item :: items), hintegral, hformed, fuel + 1, rest, hfuel, _ => by
      have hitems := parseItems_itemTexts numbers (item :: items) hintegral hformed
        (List.cons_ne_nil _ _) fuel rest (by rw [jsonSize] at hfuel; omega)
      have hfirst : integral item = true := by
        rw [integral, itemsIntegral, Bool.and_eq_true] at hintegral
        exact hintegral.1
      obtain ⟨unit, tail, htext, hspace, hend⟩ := jsonText_head numbers hfirst
      have hshape : jsonText P (.arr (item :: items)) ++ rest =
          91 :: (joinWith (js ",") (itemTexts P (item :: items)) ++ 93 :: rest) := by
        rw [jsonText]
        simp only [List.append_assoc]
        rfl
      rw [itemTexts, joinWith_cons, htext, List.cons_append, List.cons_append] at hitems
      rw [hshape, parseValue, skipSpace_cons (by decide), itemTexts, joinWith_cons, htext,
        List.cons_append, List.cons_append]
      simp only
      rw [if_neg (by decide), if_pos trivial, skipSpace_cons hspace]
      simp only
      rw [if_neg hend, hitems]
      rfl
  | .obj [], _, _, fuel + 1, rest, _, _ => rfl
  | .obj ((key, value) :: fields), hintegral, hformed, fuel + 1, rest, hfuel, _ => by
      rw [Json.wellFormed, Bool.and_eq_true, decide_eq_true_eq] at hformed
      have hfields := parseFields_fieldTexts numbers ((key, value) :: fields) hintegral hformed.2
        hformed.1 (List.cons_ne_nil _ _) fuel rest (by rw [jsonSize] at hfuel; omega)
      have hshape : jsonText P (.obj ((key, value) :: fields)) ++ rest =
          123 :: (joinWith (js ",") (fieldTexts P ((key, value) :: fields)) ++ 125 :: rest) := by
        rw [jsonText]
        simp only [List.append_assoc]
        rfl
      have hquote : ∃ tail, joinWith (js ",") (fieldTexts P ((key, value) :: fields)) ++
          125 :: rest = 34 :: tail := by
        rw [fieldTexts, joinWith_cons, stringifyString]
        simp only [List.append_assoc]
        exact ⟨_, rfl⟩
      obtain ⟨tail, htail⟩ := hquote
      rw [htail] at hfields
      rw [hshape, parseValue, skipSpace_cons (by decide), htail]
      simp only
      rw [if_neg (by decide), if_neg (by decide), if_pos trivial, skipSpace_cons (by decide)]
      simp only
      rw [if_neg (by decide), hfields]
      rfl

theorem parseItems_itemTexts (numbers : NumberSyntax P) :
    ∀ (items : List Json), itemsIntegral items = true → Json.itemsWellFormed items = true →
      items ≠ [] → ∀ (fuel : Nat) (rest : JsString), itemsSize items ≤ fuel →
        parseItems numbers fuel (joinWith (js ",") (itemTexts P items) ++ 93 :: rest) =
          some (items, rest)
  | item :: items, hintegral, hformed, _, fuel + 1, rest, hfuel => by
      rw [itemsIntegral, Bool.and_eq_true] at hintegral
      rw [Json.itemsWellFormed, Bool.and_eq_true] at hformed
      rw [itemsSize] at hfuel
      cases items with
      | nil =>
          have hitem := parseValue_jsonText numbers item hintegral.1 hformed.1 fuel (93 :: rest)
            (by omega) (endsNumber_cons (by decide) rest)
          rw [itemTexts, itemTexts, joinWith, parseItems, hitem]
          simp only
          rw [skipSpace_cons (by decide)]
          rfl
      | cons next items =>
          have hitems := parseItems_itemTexts numbers (next :: items) hintegral.2 hformed.2
            (List.cons_ne_nil _ _) fuel rest (by omega)
          have hitem := parseValue_jsonText numbers item hintegral.1 hformed.1 fuel
            (44 :: (joinWith (js ",") (itemTexts P (next :: items)) ++ 93 :: rest))
            (by omega) (endsNumber_cons (by decide) _)
          have hshape : joinWith (js ",") (itemTexts P (item :: next :: items)) ++ 93 :: rest =
              jsonText P item ++
                44 :: (joinWith (js ",") (itemTexts P (next :: items)) ++ 93 :: rest) := by
            rw [itemTexts, itemTexts, joinWith]
            simp only [List.append_assoc]
            rfl
          rw [hshape, parseItems, hitem]
          simp only
          rw [skipSpace_cons (by decide)]
          simp only
          rw [if_pos trivial, hitems]
          rfl

theorem parseFields_fieldTexts (numbers : NumberSyntax P) :
    ∀ (fields : List (JsString × Json)), fieldsIntegral fields = true →
      Json.fieldsWellFormed fields = true → (fields.map Prod.fst).Nodup → fields ≠ [] →
      ∀ (fuel : Nat) (rest : JsString), fieldsSize fields ≤ fuel →
        parseFields numbers fuel (joinWith (js ",") (fieldTexts P fields) ++ 125 :: rest) =
          some (fields, rest)
  | (key, value) :: fields, hintegral, hformed, hnodup, _, fuel + 1, rest, hfuel => by
      rw [fieldsIntegral, Bool.and_eq_true] at hintegral
      rw [Json.fieldsWellFormed, Bool.and_eq_true] at hformed
      rw [fieldsSize] at hfuel
      rw [List.map_cons, List.nodup_cons] at hnodup
      -- The first field, up to what follows its value.
      have hfirst : ∀ after, EndsNumber after →
          ∃ tail, stringifyString key ++ js ":" ++ jsonText P value ++ after = 34 :: tail ∧
            readString tail = some (key, 58 :: (jsonText P value ++ after)) ∧
            parseValue numbers fuel (jsonText P value ++ after) = some (value, after) := by
        intro after hafter
        refine ⟨quoteBody key ++ 34 :: 58 :: (jsonText P value ++ after), ?_,
          readString_quoteBody key _, parseValue_jsonText numbers value hintegral.1 hformed.1 fuel
            after (by omega) hafter⟩
        unfold stringifyString
        simp only [List.append_assoc]
        rfl
      cases fields with
      | nil =>
          obtain ⟨tail, htail, hkey, hvalue⟩ := hfirst (125 :: rest)
            (endsNumber_cons (by decide) rest)
          rw [fieldTexts, fieldTexts, joinWith, htail, parseFields, skipSpace_cons (by decide)]
          simp only
          rw [if_neg (by decide), hkey]
          simp only
          rw [skipSpace_cons (by decide)]
          simp only
          rw [if_neg (by decide), hvalue]
          simp only
          rw [skipSpace_cons (by decide)]
          rfl
      | cons next fields =>
          have hfields := parseFields_fieldTexts numbers (next :: fields) hintegral.2 hformed.2
            hnodup.2 (List.cons_ne_nil _ _) fuel rest (by omega)
          obtain ⟨tail, htail, hkey, hvalue⟩ := hfirst
            (44 :: (joinWith (js ",") (fieldTexts P (next :: fields)) ++ 125 :: rest))
            (endsNumber_cons (by decide) _)
          have hshape : joinWith (js ",") (fieldTexts P ((key, value) :: next :: fields)) ++
              125 :: rest = stringifyString key ++ js ":" ++ jsonText P value ++
                44 :: (joinWith (js ",") (fieldTexts P (next :: fields)) ++ 125 :: rest) := by
            obtain ⟨name, inner⟩ := next
            rw [fieldTexts, fieldTexts, joinWith]
            simp only [List.append_assoc]
            rfl
          rw [hshape, htail, parseFields, skipSpace_cons (by decide)]
          simp only
          rw [if_neg (by decide), hkey]
          simp only
          rw [skipSpace_cons (by decide)]
          simp only
          rw [if_neg (by decide), hvalue]
          simp only
          rw [skipSpace_cons (by decide)]
          simp only
          rw [if_pos trivial, hfields]
          exact congrArg (fun fields => some (fields, rest)) (addField_new hnodup.1)

end

/-! ## Whole texts -/

mutual

/-- A text is at least as long as its reader has to go deep. -/
theorem jsonSize_le (numbers : NumberSyntax P) :
    ∀ (value : Json), integral value = true → jsonSize value ≤ (jsonText P value).length
  | .null, _ => by simp [jsonSize, jsonText, js, charUnits]
  | .bool true, _ => by simp [jsonSize, jsonText, js, charUnits]
  | .bool false, _ => by simp [jsonSize, jsonText, js, charUnits]
  | .num value, h => by
      obtain ⟨unit, rest, htext, -⟩ := @jsonText_head P numbers (.num value) h
      rw [htext, List.length_cons]
      exact Nat.succ_le_succ (Nat.zero_le _)
  | .str text, _ => by
      rw [jsonText, stringifyString, List.append_assoc]
      show 1 ≤ (quoteBody text ++ js "\"").length + 1
      omega
  | .arr items, h => by
      have hitems := itemsSize_le numbers items h
      have hlength : (jsonText P (.arr items)).length =
          (joinWith (js ",") (itemTexts P items)).length + 2 := by
        rw [jsonText, List.length_append, List.length_append]
        show 1 + _ + 1 = _
        omega
      rw [jsonSize, hlength]
      omega
  | .obj fields, h => by
      have hfields := fieldsSize_le numbers fields h
      have hlength : (jsonText P (.obj fields)).length =
          (joinWith (js ",") (fieldTexts P fields)).length + 2 := by
        rw [jsonText, List.length_append, List.length_append]
        show 1 + _ + 1 = _
        omega
      rw [jsonSize, hlength]
      omega

theorem itemsSize_le (numbers : NumberSyntax P) :
    ∀ (items : List Json), itemsIntegral items = true →
      itemsSize items ≤ (joinWith (js ",") (itemTexts P items)).length + 1
  | [], _ => Nat.zero_le _
  | item :: items, h => by
      rw [itemsIntegral, Bool.and_eq_true] at h
      have hitem := jsonSize_le numbers item h.1
      have hitems := itemsSize_le numbers items h.2
      rw [itemsSize]
      cases items with
      | nil =>
          rw [itemTexts, itemTexts, joinWith, itemsSize]
          omega
      | cons next items =>
          rw [itemTexts] at hitems ⊢
          rw [itemTexts, joinWith, List.length_append, List.length_append]
          have hcomma : (js ",").length = 1 := by decide
          omega

theorem fieldsSize_le (numbers : NumberSyntax P) :
    ∀ (fields : List (JsString × Json)), fieldsIntegral fields = true →
      fieldsSize fields ≤ (joinWith (js ",") (fieldTexts P fields)).length + 1
  | [], _ => Nat.zero_le _
  | (key, value) :: fields, h => by
      rw [fieldsIntegral, Bool.and_eq_true] at h
      have hvalue := jsonSize_le numbers value h.1
      have hfields := fieldsSize_le numbers fields h.2
      rw [fieldsSize]
      cases fields with
      | nil =>
          rw [fieldTexts, fieldTexts, joinWith, fieldsSize, List.length_append]
          omega
      | cons next fields =>
          obtain ⟨name, inner⟩ := next
          rw [fieldTexts] at hfields ⊢
          rw [fieldTexts, joinWith, List.length_append, List.length_append, List.length_append]
          have hcomma : (js ",").length = 1 := by decide
          omega

end

/-- `JSON.parse` gives back a value that has been written. -/
theorem jsonParse_jsonText (numbers : NumberSyntax P) {value : Json}
    (hintegral : integral value = true) (hformed : value.wellFormed = true) :
    jsonParse numbers (jsonText P value) = some value := by
  have hsize := jsonSize_le numbers value hintegral
  have hends : EndsNumber [] := fun unit h => by cases h
  have hread := parseValue_jsonText numbers value hintegral hformed
    ((jsonText P value).length + 1) [] (by omega) hends
  rw [List.append_nil] at hread
  unfold jsonParse
  rw [hread]
  rfl

end Pmbah.Format
