import Mathlib.Data.List.Perm.Basic
import Pmbah.Format.CanonicalValue

/-!
# One text for one value

Two values are the same when they differ in the order of object fields alone.
They have one canonical text exactly then, and the text reads back as the value.
A value handed to `canonicalizeJson` may hold `undefined` fields and `-0`, which
leave no trace in the text.
-/

namespace Pmbah.Format

open Js

/-! ## Values up to the order of fields -/

mutual

inductive SameJson : Json → Json → Prop where
  | null : SameJson .null .null
  | bool (value : Bool) : SameJson (.bool value) (.bool value)
  | num (value : JsNumber) : SameJson (.num value) (.num value)
  | str (value : JsString) : SameJson (.str value) (.str value)
  | arr {items items' : List Json} (h : SameItems items items') :
      SameJson (.arr items) (.arr items')
  | obj {fields between fields' : List (JsString × Json)} (hperm : fields.Perm between)
      (h : SameFields between fields') : SameJson (.obj fields) (.obj fields')

inductive SameItems : List Json → List Json → Prop where
  | nil : SameItems [] []
  | cons {item item' : Json} {items items' : List Json} (h : SameJson item item')
      (hitems : SameItems items items') : SameItems (item :: items) (item' :: items')

inductive SameFields : List (JsString × Json) → List (JsString × Json) → Prop where
  | nil : SameFields [] []
  | cons (key : JsString) {value value' : Json} {fields fields' : List (JsString × Json)}
      (h : SameJson value value') (hfields : SameFields fields fields') :
      SameFields ((key, value) :: fields) ((key, value') :: fields')

end

mutual

theorem sortKeys_eq_of_same {value value' : Json} :
    SameJson value value' → value.wellFormed = true → sortKeys value = sortKeys value'
  | .null, _ => rfl
  | .bool _, _ => rfl
  | .num _, _ => rfl
  | .str _, _ => rfl
  | .arr h, hformed => by
      rw [sortKeys, sortKeys, sortItems_eq_of_same h hformed]
  | @SameJson.obj fields between _ hperm h, hformed => by
      rw [Json.wellFormed, Bool.and_eq_true, decide_eq_true_eq] at hformed
      have hbetween : Json.fieldsWellFormed between = true :=
        fieldsWellFormed_iff.2 fun field hfield =>
          fieldsWellFormed_iff.1 hformed.2 field (hperm.mem_iff.2 hfield)
      have hsorted : (sortFields fields).Perm (sortFields between) := by
        rw [sortFields_eq_map, sortFields_eq_map]
        exact hperm.map _
      have hnodup : ((sortFields fields).map Prod.fst).Nodup := by
        rw [keys_sortFields]
        exact hformed.1
      rw [sortKeys, sortKeys, insertionSort_eq_of_perm hsorted hnodup,
        sortFields_eq_of_same h hbetween]

theorem sortItems_eq_of_same {items items' : List Json} :
    SameItems items items' → Json.itemsWellFormed items = true →
    sortItems items = sortItems items'
  | .nil, _ => rfl
  | .cons h hitems, hformed => by
      rw [Json.itemsWellFormed, Bool.and_eq_true] at hformed
      rw [sortItems, sortItems, sortKeys_eq_of_same h hformed.1,
        sortItems_eq_of_same hitems hformed.2]

theorem sortFields_eq_of_same {fields fields' : List (JsString × Json)} :
    SameFields fields fields' → Json.fieldsWellFormed fields = true →
    sortFields fields = sortFields fields'
  | .nil, _ => rfl
  | .cons _ h hfields, hformed => by
      rw [Json.fieldsWellFormed, Bool.and_eq_true] at hformed
      rw [sortFields, sortFields, sortKeys_eq_of_same h hformed.1,
        sortFields_eq_of_same hfields hformed.2]

end

theorem exists_perm_of_perm_map {α β : Type} {f : α → β} {mapped : List β} {items : List α}
    (h : mapped.Perm (items.map f)) :
    ∃ between : List α, mapped = between.map f ∧ between.Perm items := by
  have hcomp : Relation.Comp (fun left right => left = List.map f right) List.Perm
      mapped items := by
    rw [List.eq_map_comp_perm f]
    exact h
  exact hcomp

mutual

theorem same_of_sortKeys_eq : ∀ (value' value : Json), sortKeys value = sortKeys value' →
    SameJson value value'
  | .null, value, h => by
      cases value with
      | null => exact .null
      | _ => cases h
  | .bool _, value, h => by
      cases value with
      | bool _ =>
          cases h
          exact .bool _
      | _ => cases h
  | .num _, value, h => by
      cases value with
      | num _ =>
          cases h
          exact .num _
      | _ => cases h
  | .str _, value, h => by
      cases value with
      | str _ =>
          cases h
          exact .str _
      | _ => cases h
  | .arr items', value, h => by
      cases value with
      | arr items =>
          rw [sortKeys, sortKeys] at h
          exact .arr (sameItems_of_sortItems_eq items' items (Json.arr.inj h))
      | _ => cases h
  | .obj fields', value, h => by
      cases value with
      | obj fields =>
          rw [sortKeys, sortKeys] at h
          -- one sorted list: the fields before sorting are a permutation of each other
          have hperm : (sortFields fields).Perm (sortFields fields') := by
            apply ((List.perm_insertionSort keyLe (sortFields fields)).symm).trans
            rw [Json.obj.inj h]
            exact List.perm_insertionSort keyLe (sortFields fields')
          rw [sortFields_eq_map fields] at hperm
          obtain ⟨between, hbetween, hfields⟩ := exists_perm_of_perm_map hperm.symm
          rw [← sortFields_eq_map] at hbetween
          exact .obj hfields.symm (sameFields_of_sortFields_eq fields' between hbetween.symm)
      | _ => cases h

theorem sameItems_of_sortItems_eq : ∀ (items' items : List Json),
    sortItems items = sortItems items' → SameItems items items'
  | [], items, h => by
      cases items with
      | nil => exact .nil
      | cons _ _ => cases h
  | item' :: items', items, h => by
      cases items with
      | nil => cases h
      | cons item items =>
          rw [sortItems, sortItems, List.cons.injEq] at h
          exact .cons (same_of_sortKeys_eq item' item h.1)
            (sameItems_of_sortItems_eq items' items h.2)

theorem sameFields_of_sortFields_eq : ∀ (fields' fields : List (JsString × Json)),
    sortFields fields = sortFields fields' → SameFields fields fields'
  | [], fields, h => by
      cases fields with
      | nil => exact .nil
      | cons field _ => cases h
  | (key', value') :: fields', fields, h => by
      cases fields with
      | nil => cases h
      | cons field fields =>
          obtain ⟨key, value⟩ := field
          rw [sortFields, sortFields, List.cons.injEq, Prod.mk.injEq] at h
          obtain ⟨⟨hkey, hvalue⟩, hfields⟩ := h
          cases hkey
          exact .cons _ (same_of_sortKeys_eq value' value hvalue)
            (sameFields_of_sortFields_eq fields' fields hfields)

end

mutual

theorem same_sortKeys : ∀ (value : Json), SameJson (sortKeys value) value
  | .null => .null
  | .bool _ => .bool _
  | .num _ => .num _
  | .str _ => .str _
  | .arr items => .arr (same_sortItems items)
  | .obj fields =>
      .obj (List.perm_insertionSort keyLe (sortFields fields)) (same_sortFields fields)

theorem same_sortItems : ∀ (items : List Json), SameItems (sortItems items) items
  | [] => .nil
  | item :: items => .cons (same_sortKeys item) (same_sortItems items)

theorem same_sortFields : ∀ (fields : List (JsString × Json)),
    SameFields (sortFields fields) fields
  | [] => .nil
  | (key, value) :: fields => .cons key (same_sortKeys value) (same_sortFields fields)

end

theorem sameJson_iff {value value' : Json} (hformed : value.wellFormed = true) :
    SameJson value value' ↔ sortKeys value = sortKeys value' := by
  constructor
  · intro h
    exact sortKeys_eq_of_same h hformed
  · intro h
    exact same_of_sortKeys_eq value' value h

/-! ## Values with `undefined` and `-0` -/

/-- A value that `canonicalizeJson` is given. -/
inductive JsValue where
  | undefined
  | null
  | bool (value : Bool)
  | num (value : JsNumber)
  | negativeZero
  | str (value : JsString)
  | arr (items : List JsValue)
  | obj (fields : List (JsString × JsValue))

namespace JsValue

mutual

def canonicalize (P : Platform) : JsValue → Except JsError JsString
  | .null => .ok (js "null")
  | .str value => .ok (stringifyString value)
  | .bool value => .ok (if value then js "true" else js "false")
  | .num value => canonicalizeNumber P value
  | .negativeZero => .ok (P.numberToString (.ofInt 0))
  | .arr items =>
      (canonicalizeEach P items).map fun texts =>
        js "[" ++ joinWith (js ",") texts ++ js "]"
  | .obj fields =>
      (writeFields ((canonicalizeDefined P fields).insertionSort keyLe)).map fun texts =>
        js "\x7b" ++ joinWith (js ",") texts ++ js "\x7d"
  | .undefined => .error (.typeError (js "canonical JSON cannot encode undefined"))

def canonicalizeEach (P : Platform) : List JsValue → Except JsError (List JsString)
  | [] => .ok []
  | item :: items =>
      match canonicalize P item with
      | .error thrown => .error thrown
      | .ok text => (canonicalizeEach P items).map fun texts => text :: texts

/-- The fields whose value is not `undefined`, each with its text. -/
def canonicalizeDefined (P : Platform) :
    List (JsString × JsValue) → List (JsString × Except JsError JsString)
  | [] => []
  | (_, .undefined) :: fields => canonicalizeDefined P fields
  | (key, value) :: fields => (key, canonicalize P value) :: canonicalizeDefined P fields

end

mutual

/-- The JSON value that is left without `undefined` fields and with `-0` read as `0`. -/
def json : JsValue → Json
  | .undefined => .null
  | .null => .null
  | .bool value => .bool value
  | .num value => .num value
  | .negativeZero => .ofInt 0
  | .str value => .str value
  | .arr items => .arr (jsonItems items)
  | .obj fields => .obj (jsonFields fields)

def jsonItems : List JsValue → List Json
  | [] => []
  | item :: items => json item :: jsonItems items

def jsonFields : List (JsString × JsValue) → List (JsString × Json)
  | [] => []
  | (_, .undefined) :: fields => jsonFields fields
  | (key, value) :: fields => (key, json value) :: jsonFields fields

end

mutual

/-- Numbers are integers (of those that are doubles), keys are distinct, and only a field may be
`undefined`. -/
def isJson : JsValue → Bool
  | .undefined => false
  | .num value => value.toInt?.any isDouble
  | .arr items => itemsAreJson items
  | .obj fields => decide (fields.map Prod.fst).Nodup && fieldsAreJson fields
  | _ => true

def itemsAreJson : List JsValue → Bool
  | [] => true
  | item :: items => isJson item && itemsAreJson items

def fieldsAreJson : List (JsString × JsValue) → Bool
  | [] => true
  | (_, .undefined) :: fields => fieldsAreJson fields
  | (_, value) :: fields => isJson value && fieldsAreJson fields

end

variable {P : Platform}

mutual

/-- Only the JSON value of a value counts. -/
theorem canonicalize_eq : ∀ (value : JsValue), value.isJson = true →
    canonicalize P value = canonicalizeJson P value.json
  | .undefined, h => by cases h
  | .null, _ => rfl
  | .bool _, _ => rfl
  | .num _, _ => rfl
  | .negativeZero, _ => rfl
  | .str _, _ => rfl
  | .arr items, h => by
      rw [canonicalize, json, canonicalizeJson, canonicalizeEach_eq items h]
  | .obj fields, h => by
      rw [isJson, Bool.and_eq_true] at h
      rw [canonicalize, json, canonicalizeJson, canonicalizeDefined_eq fields h.2]

theorem canonicalizeEach_eq : ∀ (items : List JsValue), itemsAreJson items = true →
    canonicalizeEach P items = canonicalizeItems P (jsonItems items)
  | [], _ => rfl
  | item :: items, h => by
      rw [itemsAreJson, Bool.and_eq_true] at h
      rw [canonicalizeEach, canonicalize_eq item h.1, canonicalizeEach_eq items h.2]
      rfl

theorem canonicalizeDefined_eq : ∀ (fields : List (JsString × JsValue)),
    fieldsAreJson fields = true →
    canonicalizeDefined P fields = canonicalizeFields P (jsonFields fields)
  | [], _ => rfl
  | (key, value) :: fields, h => by
      cases value with
      | undefined => exact canonicalizeDefined_eq fields h
      | _ =>
          rw [fieldsAreJson, Bool.and_eq_true] at h
          · rw [canonicalizeDefined, jsonFields, canonicalizeFields, canonicalize_eq _ h.1,
              canonicalizeDefined_eq fields h.2]
            all_goals nofun
          · nofun

end

theorem keys_jsonFields (fields : List (JsString × JsValue)) :
    ((jsonFields fields).map Prod.fst).Sublist (fields.map Prod.fst) := by
  induction fields with
  | nil => exact List.Sublist.slnil
  | cons field fields ih =>
      obtain ⟨key, value⟩ := field
      cases value with
      | undefined => exact ih.cons key
      | _ => exact ih.cons_cons key

/-- A field with its text, when its value is not `undefined`. -/
def definedField (P : Platform) (field : JsString × JsValue) :
    Option (JsString × Except JsError JsString) :=
  match field with
  | (_, .undefined) => none
  | (key, value) => some (key, canonicalize P value)

theorem canonicalizeDefined_eq_filterMap (fields : List (JsString × JsValue)) :
    canonicalizeDefined P fields = fields.filterMap (definedField P) := by
  induction fields with
  | nil => rfl
  | cons field fields ih =>
      obtain ⟨key, value⟩ := field
      cases value with
      | undefined => exact ih
      | _ => exact congrArg (List.cons _) ih

theorem canonicalizeFields_keys (fields : List (JsString × Json)) :
    (canonicalizeFields P fields).map Prod.fst = fields.map Prod.fst := by
  induction fields with
  | nil => rfl
  | cons field fields ih =>
      obtain ⟨key, value⟩ := field
      rw [canonicalizeFields, List.map_cons, ih]
      rfl

/-- The sorted texts do not depend on the order of the fields. -/
theorem insertionSort_canonicalizeDefined {fields fields' : List (JsString × JsValue)}
    (h : (obj fields).isJson = true) (hperm : fields.Perm fields') :
    (canonicalizeDefined P fields').insertionSort keyLe =
      (canonicalizeDefined P fields).insertionSort keyLe := by
  rw [isJson, Bool.and_eq_true, decide_eq_true_eq] at h
  have hnodup : ((canonicalizeDefined P fields).map Prod.fst).Nodup := by
    rw [canonicalizeDefined_eq fields h.2, canonicalizeFields_keys]
    exact h.1.sublist (keys_jsonFields fields)
  symm
  apply insertionSort_eq_of_perm _ hnodup
  rw [canonicalizeDefined_eq_filterMap, canonicalizeDefined_eq_filterMap]
  exact hperm.filterMap (definedField P)

theorem canonicalizeDefined_undefined (before after : List (JsString × JsValue))
    (key : JsString) :
    canonicalizeDefined P (before ++ (key, .undefined) :: after) =
      canonicalizeDefined P (before ++ after) := by
  rw [canonicalizeDefined_eq_filterMap, canonicalizeDefined_eq_filterMap,
    List.filterMap_append, List.filterMap_append]
  rfl

mutual

theorem json_kept : ∀ (value : JsValue), value.isJson = true →
    integral value.json = true ∧ value.json.wellFormed = true
  | .undefined, h => by cases h
  | .null, _ => ⟨rfl, rfl⟩
  | .bool _, _ => ⟨rfl, rfl⟩
  | .num _, h => ⟨h, rfl⟩
  | .negativeZero, _ => ⟨isDouble_of_safe (Nat.zero_le _), rfl⟩
  | .str _, _ => ⟨rfl, rfl⟩
  | .arr items, h => jsonItems_kept items h
  | .obj fields, h => by
      rw [isJson, Bool.and_eq_true, decide_eq_true_eq] at h
      obtain ⟨hintegral, hformed⟩ := jsonFields_kept fields h.2
      rw [json, integral, Json.wellFormed, Bool.and_eq_true, decide_eq_true_eq]
      exact ⟨hintegral, h.1.sublist (keys_jsonFields fields), hformed⟩

theorem jsonItems_kept : ∀ (items : List JsValue), itemsAreJson items = true →
    itemsIntegral (jsonItems items) = true ∧ Json.itemsWellFormed (jsonItems items) = true
  | [], _ => ⟨rfl, rfl⟩
  | item :: items, h => by
      rw [itemsAreJson, Bool.and_eq_true] at h
      obtain ⟨hitem, hitemFormed⟩ := json_kept item h.1
      obtain ⟨hitems, hitemsFormed⟩ := jsonItems_kept items h.2
      rw [jsonItems, itemsIntegral, Json.itemsWellFormed, hitem, hitems, hitemFormed,
        hitemsFormed]
      exact ⟨rfl, rfl⟩

theorem jsonFields_kept : ∀ (fields : List (JsString × JsValue)),
    fieldsAreJson fields = true →
    fieldsIntegral (jsonFields fields) = true ∧
      Json.fieldsWellFormed (jsonFields fields) = true
  | [], _ => ⟨rfl, rfl⟩
  | (key, value) :: fields, h => by
      cases value with
      | undefined => exact jsonFields_kept fields h
      | _ =>
          rw [fieldsAreJson, Bool.and_eq_true] at h
          · obtain ⟨hvalue, hvalueFormed⟩ := json_kept _ h.1
            obtain ⟨hfields, hfieldsFormed⟩ := jsonFields_kept fields h.2
            rw [jsonFields, fieldsIntegral, Json.fieldsWellFormed, hvalue, hfields,
              hvalueFormed, hfieldsFormed]
            · exact ⟨rfl, rfl⟩
            all_goals nofun
          · nofun

end

/-- The text of a value, and what `JSON.parse` makes of it. -/
theorem canonicalize_reads (numbers : NumberSyntax P) {value : JsValue}
    (h : value.isJson = true) :
    canonicalize P value = .ok (jsonText P (sortKeys value.json)) ∧
      jsonParse numbers (jsonText P (sortKeys value.json)) = some (sortKeys value.json) := by
  obtain ⟨hintegral, hformed⟩ := json_kept value h
  obtain ⟨hsorted, hsortedFormed⟩ := sortKeys_kept value.json hintegral hformed
  rw [canonicalize_eq value h, canonicalizeJson_eq value.json hintegral]
  exact ⟨rfl, jsonParse_jsonText numbers hsorted hsortedFormed⟩

/-- Every JSON value with integer numbers has a text, which the order of fields, `undefined`
fields and `-0` do not change, which reads back as the value, and which no other value has. -/
theorem canonicalize_canonical (numbers : NumberSyntax P) :
    (∀ value : JsValue, value.isJson = true →
      ∃ text parsed, canonicalize P value = .ok text ∧ jsonParse numbers text = some parsed ∧
        SameJson parsed value.json) ∧
    (∀ fields fields' : List (JsString × JsValue), (obj fields).isJson = true →
      fields.Perm fields' → canonicalize P (.obj fields') = canonicalize P (.obj fields)) ∧
    (∀ before after : List (JsString × JsValue), ∀ key : JsString,
      canonicalize P (.obj (before ++ (key, .undefined) :: after)) =
        canonicalize P (.obj (before ++ after))) ∧
    (∀ value value' : JsValue, value.isJson = true → value'.isJson = true →
      (canonicalize P value = canonicalize P value' ↔ SameJson value.json value'.json)) := by
  refine ⟨?_, ?_, ?_, ?_⟩
  · intro value h
    obtain ⟨htext, hparse⟩ := canonicalize_reads numbers h
    refine ⟨_, _, htext, hparse, ?_⟩
    exact same_sortKeys value.json
  · intro fields fields' h hperm
    rw [canonicalize, canonicalize, insertionSort_canonicalizeDefined h hperm]
  · intro before after key
    rw [canonicalize, canonicalize, canonicalizeDefined_undefined]
  · intro value value' h h'
    obtain ⟨htext, hparse⟩ := canonicalize_reads numbers h
    obtain ⟨htext', hparse'⟩ := canonicalize_reads numbers h'
    rw [htext, htext', sameJson_iff (json_kept value h).2]
    constructor
    · intro hsame
      rw [Except.ok.injEq] at hsame
      rw [hsame, hparse'] at hparse
      exact (Option.some.inj hparse).symm
    · intro hsame
      rw [hsame]

/-- Fields with a lone surrogate as key, `undefined` and `-0`, in some order. -/
def mixedFields : List (JsString × JsValue) :=
  [(js "b", .negativeZero), ([0xD800], .arr [.str [0xDC00], .null]), (js "a", .undefined)]

theorem canonicalize_canonical_mixed :
    (∃ text parsed, canonicalize decimalPlatform (.obj mixedFields) = .ok text ∧
      jsonParse decimalSyntax text = some parsed ∧
      SameJson parsed (.obj [(js "b", .ofInt 0), ([0xD800], .arr [.str [0xDC00], .null])])) ∧
    canonicalize decimalPlatform (.obj mixedFields.reverse) =
      canonicalize decimalPlatform (.obj mixedFields) ∧
    (canonicalize decimalPlatform (.obj mixedFields) =
        canonicalize decimalPlatform (.obj [(js "b", .num (.ofInt 1))]) ↔
      SameJson (obj mixedFields).json (obj [(js "b", .num (.ofInt 1))]).json) := by
  obtain ⟨hreads, hperm, -, hiff⟩ := canonicalize_canonical decimalSyntax
  refine ⟨?_, ?_, ?_⟩
  · exact hreads (.obj mixedFields) (by decide +kernel)
  · exact hperm mixedFields mixedFields.reverse (by decide +kernel)
      (List.reverse_perm mixedFields).symm
  · exact hiff _ _ (by decide +kernel) (by decide +kernel)

end JsValue

end Pmbah.Format
