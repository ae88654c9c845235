import Mathlib.Data.List.Basic
import Mathlib.Order.Lattice

/-!
# Tilings of an interval

Pieces that follow one another from one place to another, each beginning where the one
before it ended.
-/

namespace Pmbah.Library

variable {α β K : Type} [LinearOrder K] {low high : α → K} {first last place : K}
  {piece other : α} {pieces : List α}

/-- The pieces tile the interval, in order. -/
def Tiles (low high : α → K) : K → K → List α → Prop
  | first, last, [] => first = last
  | first, last, piece :: pieces =>
      low piece = first ∧ low piece ≤ high piece ∧ Tiles low high (high piece) last pieces

namespace Tiles

theorem le (h : Tiles low high first last pieces) : first ≤ last := by
  induction pieces generalizing first with
  | nil => exact le_of_eq h
  | cons piece pieces ih =>
      obtain ⟨rfl, hpiece, hrest⟩ := h
      exact hpiece.trans (ih hrest)

/-- Every piece lies within the interval. -/
theorem within (h : Tiles low high first last pieces) (hpiece : piece ∈ pieces) :
    first ≤ low piece ∧ low piece ≤ high piece ∧ high piece ≤ last := by
  induction pieces generalizing first with
  | nil => exact absurd hpiece List.not_mem_nil
  | cons head pieces ih =>
      obtain ⟨rfl, hhead, hrest⟩ := h
      rcases List.mem_cons.1 hpiece with rfl | hpiece
      · exact ⟨le_refl _, hhead, hrest.le⟩
      · obtain ⟨hlow, hle, hhigh⟩ := ih hrest hpiece
        exact ⟨hhead.trans hlow, hle, hhigh⟩

/-- A piece ends before any later one begins. -/
theorem pairwise (h : Tiles low high first last pieces) :
    pieces.Pairwise fun piece other => high piece ≤ low other := by
  induction pieces generalizing first with
  | nil => exact .nil
  | cons head pieces ih =>
      obtain ⟨-, -, hrest⟩ := h
      exact .cons (fun other hother => (hrest.within hother).1) (ih hrest)

/-- Every place of the interval is in a piece, if there is one. -/
theorem covers (h : Tiles low high first last pieces) (hne : pieces ≠ [])
    (hfirst : first ≤ place) (hlast : place ≤ last) :
    ∃ piece ∈ pieces, low piece ≤ place ∧ place ≤ high piece := by
  induction pieces generalizing first with
  | nil => exact absurd rfl hne
  | cons head pieces ih =>
      obtain ⟨rfl, -, hrest⟩ := h
      rcases le_or_gt place (high head) with hhigh | hhigh
      · exact ⟨head, List.mem_cons_self, hfirst, hhigh⟩
      · have hpieces : pieces ≠ [] := by
          rintro rfl
          have hend : high head = last := hrest
          exact absurd (hlast.trans (le_of_eq hend.symm)) (not_le.2 hhigh)
        obtain ⟨piece, hpiece, hplace⟩ := ih hrest hpieces hhigh.le
        exact ⟨piece, List.mem_cons_of_mem _ hpiece, hplace⟩

/-- Empty pieces may be left out. -/
theorem filter {keeps : α → Bool} (h : Tiles low high first last pieces)
    (hempty : ∀ piece ∈ pieces, keeps piece = false → low piece = high piece) :
    Tiles low high first last (pieces.filter keeps) := by
  induction pieces generalizing first with
  | nil => exact h
  | cons head pieces ih =>
      obtain ⟨rfl, hhead, hrest⟩ := h
      have htail := ih hrest fun piece hpiece => hempty piece (List.mem_cons_of_mem _ hpiece)
      rw [List.filter_cons]
      split
      · exact ⟨rfl, hhead, htail⟩
      · rename_i hdropped
        rw [hempty head List.mem_cons_self (Bool.eq_false_iff.2 hdropped)]
        exact htail

theorem map {f : β → α} {sources : List β}
    (h : Tiles (fun source => low (f source)) (fun source => high (f source)) first last sources) :
    Tiles low high first last (sources.map f) := by
  induction sources generalizing first with
  | nil => exact h
  | cons source sources ih =>
      obtain ⟨hlow, hle, hrest⟩ := h
      exact ⟨hlow, hle, ih hrest⟩

end Tiles

/-! ## Maps that are pieced together -/

variable {left right : α → K}

/-- Of two members of a list one comes before the other. -/
theorem eq_or_before {before : α → α → Prop} (h : pieces.Pairwise before)
    (hpiece : piece ∈ pieces) (hother : other ∈ pieces) :
    piece = other ∨ before piece other ∨ before other piece := by
  induction pieces with
  | nil => exact absurd hpiece List.not_mem_nil
  | cons head pieces ih =>
      obtain ⟨hhead, hrest⟩ := List.pairwise_cons.1 h
      rcases List.mem_cons.1 hpiece with rfl | hlater
      · rcases List.mem_cons.1 hother with rfl | hafter
        · exact Or.inl rfl
        · exact Or.inr (Or.inl (hhead other hafter))
      · rcases List.mem_cons.1 hother with rfl | hafter
        · exact Or.inr (Or.inr (hhead piece hlater))
        · exact ih hrest hlater hafter

/-- Values within pieces that follow one another in both directions grow from piece to piece,
so that it is enough that they grow within a piece. -/
theorem pieced_mono {t t' x x' : K}
    (h : pieces.Pairwise fun piece other => high piece ≤ low other ∧ right piece ≤ left other)
    (hpiece : piece ∈ pieces) (hother : other ∈ pieces)
    (ht : low piece ≤ t ∧ t ≤ high piece) (ht' : low other ≤ t' ∧ t' ≤ high other)
    (hx : left piece ≤ x ∧ x ≤ right piece) (hx' : left other ≤ x' ∧ x' ≤ right other)
    (hlt : t < t') (hsame : piece = other → x ≤ x') : x ≤ x' := by
  rcases eq_or_before h hpiece hother with heq | ⟨-, hright⟩ | ⟨hhigh, -⟩
  · exact hsame heq
  · exact hx.2.trans (hright.trans hx'.1)
  · exact absurd (ht'.2.trans (hhigh.trans ht.1)) (not_le.2 hlt)

end Pmbah.Library
