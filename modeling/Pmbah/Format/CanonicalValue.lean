import Mathlib.Data.List.Perm.Basic
import Pmbah.Format.JsonText
import Pmbah.Js.Utf8

/-!
# Canonical JSON is canonical

What `canonicalizeJson` writes of a value is the text of the value with the
fields of every object in code point order.  It reads back as that value, so two
values have one text exactly when they differ in the order of fields alone.
-/

namespace Pmbah.Format

open Js

/-! ## The order of keys -/

theorem pointUnits_toNat (unit : UInt16) : pointUnits unit.toNat = [unit] := by
  have hunit : unit.toNat < 0x10000 := unit.toNat_lt
  rw [pointUnits, if_pos hunit, UInt16.ofNat_toNat]

theorem flatMap_codePoints (text : JsString) : (codePoints text).flatMap pointUnits = text := by
  induction text using codePoints.induct with
  | case1 => rfl
  | case2 unit =>
      rw [codePoints, List.flatMap_cons, pointUnits_toNat]
      rfl
  | case3 high low rest hpair ih =>
      have hhigh := of_decide_eq_true hpair.1
      have hlow := of_decide_eq_true hpair.2
      have hunits : pointUnits (0x10000 + (high.toNat - 0xD800) * 0x400 +
          (low.toNat - 0xDC00)) = [high, low] := by
        rw [pointUnits, if_neg (by omega)]
        have hfirst : 0xD800 + (0x10000 + (high.toNat - 0xD800) * 0x400 +
            (low.toNat - 0xDC00) - 0x10000) / 0x400 = high.toNat := by omega
        have hsecond : 0xDC00 + (0x10000 + (high.toNat - 0xD800) * 0x400 +
            (low.toNat - 0xDC00) - 0x10000) % 0x400 = low.toNat := by omega
        rw [hfirst, hsecond, UInt16.ofNat_toNat, UInt16.ofNat_toNat]
      rw [codePoints, if_pos hpair, List.flatMap_cons, hunits, ih]
      rfl
  | case4 high low rest hpair ih =>
      rw [codePoints, if_neg hpair, List.flatMap_cons, pointUnits_toNat, ih]
      rfl

theorem codePoints_injective : Function.Injective codePoints :=
  Function.LeftInverse.injective flatMap_codePoints

theorem comparePoints_nil (point : Nat) (points : List Nat) :
    comparePoints (point :: points) [] = points.length + 1 :=
  rfl

theorem comparePoints_swap (left right : List Nat) :
    comparePoints right left = -comparePoints left right := by
  induction left generalizing right with
  | nil =>
      cases right with
      | nil => rfl
      | cons b right => simp [comparePoints]
  | cons a left ih =>
      cases right with
      | nil => simp [comparePoints]
      | cons b right =>
          unfold comparePoints
          by_cases h : a = b
          · rw [if_neg (not_not.2 h.symm), if_neg (not_not.2 h), ih]
          · rw [if_pos (Ne.symm h), if_pos h]
            omega

theorem eq_of_comparePoints {left right : List Nat} (h : comparePoints left right = 0) :
    left = right := by
  induction left generalizing right with
  | nil =>
      cases right with
      | nil => rfl
      | cons b right =>
          rw [comparePoints, List.length_cons] at h
          omega
  | cons a left ih =>
      cases right with
      | nil =>
          rw [comparePoints_nil] at h
          omega
      | cons b right =>
          rw [comparePoints] at h
          split at h
          · omega
          · rename_i hsame
            rw [not_not.1 hsame, ih h]

theorem comparePoints_trans {first second third : List Nat}
    (h : comparePoints first second ≤ 0) (h' : comparePoints second third ≤ 0) :
    comparePoints first third ≤ 0 := by
  induction first generalizing second third with
  | nil =>
      cases third with
      | nil => exact le_refl _
      | cons c third =>
          rw [comparePoints, List.length_cons]
          omega
  | cons a first ih =>
      cases second with
      | nil =>
          rw [comparePoints_nil] at h
          omega
      | cons b second =>
          cases third with
          | nil =>
              rw [comparePoints_nil] at h'
              omega
          | cons c third =>
              rw [comparePoints] at h h' ⊢
              split at h
              · split at h'
                · split
                  · omega
                  · omega
                · split
                  · omega
                  · omega
              · split at h'
                · split
                  · omega
                  · omega
                · split
                  · omega
                  · exact ih h h'

instance {α : Type} : IsTrans (JsString × α) keyLe where
  trans _ _ _ h h' := comparePoints_trans h h'

instance {α : Type} : Std.Total (α := JsString × α) keyLe where
  total left right := by
    unfold keyLe compareStringsByCodePoint
    rw [comparePoints_swap (codePoints left.1)]
    omega

/-- Fields in both orders have one key. -/
theorem key_eq_of_keyLe {α : Type} {left right : JsString × α} (h : keyLe left right)
    (h' : keyLe right left) : left.1 = right.1 := by
  unfold keyLe compareStringsByCodePoint at h h'
  rw [comparePoints_swap (codePoints left.1)] at h'
  exact codePoints_injective (eq_of_comparePoints (by omega))

/-- Under distinct keys the sorted fields do not depend on the order before. -/
theorem insertionSort_eq_of_perm {α : Type} {fields fields' : List (JsString × α)}
    (hperm : fields.Perm fields') (hnodup : (fields.map Prod.fst).Nodup) :
    fields.insertionSort keyLe = fields'.insertionSort keyLe := by
  apply List.Perm.eq_of_pairwise
  · intro left right hleft hright h h'
    rw [List.mem_insertionSort] at hleft hright
    exact List.inj_on_of_nodup_map hnodup hleft (hperm.mem_iff.2 hright) (key_eq_of_keyLe h h')
  · exact List.pairwise_insertionSort keyLe fields
  · exact List.pairwise_insertionSort keyLe fields'
  · exact (List.perm_insertionSort keyLe fields).trans
      (hperm.trans (List.perm_insertionSort keyLe fields').symm)

/-! ## Sorted values -/

mutual

/-- The value with the fields of every object in order. -/
def sortKeys : Json → Json
  | .arr items => .arr (sortItems items)
  | .obj fields => .obj ((sortFields fields).insertionSort keyLe)
  | value => value

def sortItems : List Json → List Json
  | [] => []
  | item :: items => sortKeys item :: sortItems items

def sortFields : List (JsString × Json) → List (JsString × Json)
  | [] => []
  | (key, value) :: fields => (key, sortKeys value) :: sortFields fields

end

theorem sortFields_eq_map (fields : List (JsString × Json)) :
    sortFields fields = fields.map fun field => (field.1, sortKeys field.2) := by
  induction fields with
  | nil => rfl
  | cons field fields ih =>
      obtain ⟨key, value⟩ := field
      rw [sortFields, ih]
      rfl

theorem keys_sortFields (fields : List (JsString × Json)) :
    (sortFields fields).map Prod.fst = fields.map Prod.fst := by
  rw [sortFields_eq_map, List.map_map]
  rfl

theorem fieldsWellFormed_iff {fields : List (JsString × Json)} :
    Json.fieldsWellFormed fields = true ↔ ∀ field ∈ fields, field.2.wellFormed = true := by
  induction fields with
  | nil => simp [Json.fieldsWellFormed]
  | cons field fields ih =>
      obtain ⟨key, value⟩ := field
      rw [Json.fieldsWellFormed, Bool.and_eq_true, ih, List.forall_mem_cons]

theorem fieldsIntegral_iff {fields : List (JsString × Json)} :
    fieldsIntegral fields = true ↔ ∀ field ∈ fields, integral field.2 = true := by
  induction fields with
  | nil => simp [fieldsIntegral]
  | cons field fields ih =>
      obtain ⟨key, value⟩ := field
      rw [fieldsIntegral, Bool.and_eq_true, ih, List.forall_mem_cons]

mutual

theorem sortKeys_kept : ∀ (value : Json), integral value = true → value.wellFormed = true →
    integral (sortKeys value) = true ∧ (sortKeys value).wellFormed = true
  | .null, _, _ => ⟨rfl, rfl⟩
  | .bool _, _, _ => ⟨rfl, rfl⟩
  | .num _, hintegral, _ => ⟨hintegral, rfl⟩
  | .str _, _, _ => ⟨rfl, rfl⟩
  | .arr items, hintegral, hformed => sortItems_kept items hintegral hformed
  | .obj fields, hintegral, hformed => by
      rw [Json.wellFormed, Bool.and_eq_true, decide_eq_true_eq] at hformed
      obtain ⟨hnumbers, hfields⟩ := sortFields_kept fields hintegral hformed.2
      have hperm := List.perm_insertionSort keyLe (sortFields fields)
      rw [sortKeys, integral, Json.wellFormed, Bool.and_eq_true, decide_eq_true_eq,
        fieldsIntegral_iff, fieldsWellFormed_iff, (hperm.map Prod.fst).nodup_iff,
        keys_sortFields]
      refine ⟨?_, hformed.1, ?_⟩
      · intro field hfield
        exact fieldsIntegral_iff.1 hnumbers field (hperm.mem_iff.1 hfield)
      · intro field hfield
        exact fieldsWellFormed_iff.1 hfields field (hperm.mem_iff.1 hfield)

theorem sortItems_kept : ∀ (items : List Json), itemsIntegral items = true →
    Json.itemsWellFormed items = true →
    itemsIntegral (sortItems items) = true ∧ Json.itemsWellFormed (sortItems items) = true
  | [], _, _ => ⟨rfl, rfl⟩
  | item :: items, hintegral, hformed => by
      rw [itemsIntegral, Bool.and_eq_true] at hintegral
      rw [Json.itemsWellFormed, Bool.and_eq_true] at hformed
      obtain ⟨hitem, hitemFormed⟩ := sortKeys_kept item hintegral.1 hformed.1
      obtain ⟨hitems, hitemsFormed⟩ := sortItems_kept items hintegral.2 hformed.2
      rw [sortItems, itemsIntegral, Json.itemsWellFormed, hitem, hitems, hitemFormed,
        hitemsFormed]
      exact ⟨rfl, rfl⟩

theorem sortFields_kept : ∀ (fields : List (JsString × Json)), fieldsIntegral fields = true →
    Json.fieldsWellFormed fields = true →
    fieldsIntegral (sortFields fields) = true ∧
      Json.fieldsWellFormed (sortFields fields) = true
  | [], _, _ => ⟨rfl, rfl⟩
  | (key, value) :: fields, hintegral, hformed => by
      rw [fieldsIntegral, Bool.and_eq_true] at hintegral
      rw [Json.fieldsWellFormed, Bool.and_eq_true] at hformed
      obtain ⟨hvalue, hvalueFormed⟩ := sortKeys_kept value hintegral.1 hformed.1
      obtain ⟨hfields, hfieldsFormed⟩ := sortFields_kept fields hintegral.2 hformed.2
      rw [sortFields, fieldsIntegral, Json.fieldsWellFormed, hvalue, hfields, hvalueFormed,
        hfieldsFormed]
      exact ⟨rfl, rfl⟩

end

/-! ## The canonical text -/

variable {P : Platform}

theorem writeFields_ok (fields : List (JsString × Json)) :
    writeFields (fields.map fun field => (field.1, Except.ok (jsonText P field.2))) =
      .ok (fieldTexts P fields) := by
  induction fields with
  | nil => rfl
  | cons field fields ih =>
      obtain ⟨key, value⟩ := field
      rw [List.map_cons, writeFields, ih, fieldTexts]
      rfl

mutual

/-- A value whose numbers are integers is written with its fields in order. -/
theorem canonicalizeJson_eq : ∀ (value : Json), integral value = true →
    canonicalizeJson P value = .ok (jsonText P (sortKeys value))
  | .null, _ => rfl
  | .bool _, _ => rfl
  | .num value, h => by
      obtain ⟨z, hz, -⟩ := (Option.any_eq_true _ _).1 h
      rw [JsNumber.eq_ofInt_of_toInt? hz]
      rfl
  | .str _, _ => rfl
  | .arr items, h => by
      rw [canonicalizeJson, canonicalizeItems_eq items h, sortKeys, jsonText]
      rfl
  | .obj fields, h => by
      have hsorted : (canonicalizeFields P fields).insertionSort keyLe =
          ((sortFields fields).insertionSort keyLe).map
            fun field => (field.1, Except.ok (jsonText P field.2)) := by
        rw [canonicalizeFields_eq fields h]
        exact (List.map_insertionSort keyLe keyLe
          (fun field : JsString × Json => (field.1, Except.ok (jsonText P field.2)))
          (sortFields fields) fun _ _ _ _ => Iff.rfl).symm
      rw [canonicalizeJson, hsorted, writeFields_ok, sortKeys, jsonText]
      rfl

theorem canonicalizeItems_eq : ∀ (items : List Json), itemsIntegral items = true →
    canonicalizeItems P items = .ok (itemTexts P (sortItems items))
  | [], _ => rfl
  | item :: items, h => by
      rw [itemsIntegral, Bool.and_eq_true] at h
      rw [canonicalizeItems, canonicalizeJson_eq item h.1, canonicalizeItems_eq items h.2,
        sortItems, itemTexts]
      rfl

theorem canonicalizeFields_eq : ∀ (fields : List (JsString × Json)),
    fieldsIntegral fields = true →
    canonicalizeFields P fields =
      (sortFields fields).map fun field => (field.1, Except.ok (jsonText P field.2))
  | [], _ => rfl
  | (key, value) :: fields, h => by
      rw [fieldsIntegral, Bool.and_eq_true] at h
      rw [canonicalizeFields, canonicalizeJson_eq value h.1, canonicalizeFields_eq fields h.2,
        sortFields]
      rfl

end

end Pmbah.Format
