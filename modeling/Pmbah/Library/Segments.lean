import Mathlib.Data.List.Basic

/-!
# Lists kept in segments

A list may be kept as consecutive segments, each with the place of its first
element.  What lies between two places is then collected segment by segment.
-/

namespace Pmbah.Library

variable {α : Type}

/-- The segments follow one another from a place on. -/
def Tiled : Nat → List (Nat × List α) → Prop
  | _, [] => True
  | start, (place, items) :: segments => place = start ∧ Tiled (start + items.length) segments

/-- The list that the segments keep. -/
def untile (segments : List (Nat × List α)) : List α := segments.flatMap Prod.snd

/-- The part of a segment from one place up to another. -/
def between (first last : Nat) (segment : Nat × List α) : List α :=
  (segment.2.take (last - segment.1)).drop (first - segment.1)

def covers (place : Nat) (segment : Nat × List α) : Bool :=
  segment.1 ≤ place && place < segment.1 + segment.2.length

@[simp] theorem untile_nil : untile ([] : List (Nat × List α)) = [] := rfl

@[simp] theorem untile_cons (segment : Nat × List α) (segments : List (Nat × List α)) :
    untile (segment :: segments) = segment.2 ++ untile segments := rfl

theorem untile_append (xs ys : List (Nat × List α)) :
    untile (xs ++ ys) = untile xs ++ untile ys :=
  List.flatMap_append

theorem tiled_append {start : Nat} {xs ys : List (Nat × List α)} :
    Tiled start (xs ++ ys) ↔ Tiled start xs ∧ Tiled (start + (untile xs).length) ys := by
  induction xs generalizing start with
  | nil => simp [Tiled]
  | cons segment xs ih =>
      obtain ⟨place, items⟩ := segment
      simp only [List.cons_append, Tiled, ih, untile_cons, List.length_append, and_assoc,
        Nat.add_assoc]

theorem Tiled.le_place {start : Nat} {segments : List (Nat × List α)} (h : Tiled start segments)
    {segment : Nat × List α} (hmem : segment ∈ segments) : start ≤ segment.1 := by
  induction segments generalizing start with
  | nil => simp at hmem
  | cons first segments ih =>
      obtain ⟨rfl, hrest⟩ := h
      rcases List.mem_cons.1 hmem with rfl | hmem
      · exact Nat.le_refl _
      · exact Nat.le_trans (Nat.le_add_right _ _) (ih hrest hmem)

/-- Collecting between two places gives that part of the list. -/
theorem flatMap_between {start : Nat} {segments : List (Nat × List α)}
    (h : Tiled start segments) (first last : Nat) :
    segments.flatMap (between first last) =
      ((untile segments).take (last - start)).drop (first - start) := by
  induction segments generalizing start with
  | nil => simp
  | cons segment segments ih =>
      obtain ⟨place, items⟩ := segment
      obtain ⟨rfl, hrest⟩ := h
      rw [List.flatMap_cons, ih hrest, untile_cons, List.take_append, List.drop_append,
        List.length_take, between]
      congr 1
      by_cases hlast : last - place ≤ items.length
      · simp [show last - (place + items.length) = 0 by omega,
          show last - place - items.length = 0 by omega]
      · rw [show last - place - items.length = last - (place + items.length) by omega,
          show min (last - place) items.length = items.length by omega,
          show first - place - items.length = first - (place + items.length) by omega]

/-- The element at a place, looked up in the segment that covers it. -/
theorem find?_covers {start : Nat} {segments : List (Nat × List α)}
    (h : Tiled start segments) {place : Nat} (hplace : start ≤ place) :
    ((segments.find? (covers place)).bind fun segment => segment.2[place - segment.1]?) =
      (untile segments)[place - start]? := by
  induction segments generalizing start with
  | nil => simp
  | cons segment segments ih =>
      obtain ⟨first, items⟩ := segment
      obtain ⟨rfl, hrest⟩ := h
      rw [List.find?_cons, untile_cons]
      by_cases hlt : place < first + items.length
      · have hcovers : covers place (first, items) = true := by
          simp [covers, hplace, hlt]
        rw [hcovers]
        simp only [Option.bind_some]
        rw [List.getElem?_append_left (by omega)]
      · have hcovers : covers place (first, items) = false := by
          simp [covers, hlt]
        rw [hcovers]
        simp only
        rw [ih hrest (by omega), List.getElem?_append_right (by omega)]
        rw [show place - (first + items.length) = place - first - items.length by omega]

end Pmbah.Library
