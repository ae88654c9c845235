import Mathlib.Algebra.BigOperators.Group.List.Basic
import Mathlib.Algebra.BigOperators.Ring.List
import Mathlib.Algebra.Order.BigOperators.Group.List
import Mathlib.Tactic.FieldSimp
import Mathlib.Tactic.Linarith
import Pmbah.Web.AxisItems

/-!
# The map of a time axis

The items tile the width that is used, in the order of time, so that time is mapped onto the
axis without going back.  Every event is in a span, and is counted in one column.
-/

namespace Pmbah.Web

open Library

variable {times : List ℚ} {stop endMs width breakWidth x t t' : ℚ}
  {ranges cut : List TimeRange} {items : List AxisItem} {widthOf : AxisItem → ℚ}

/-! ## The end of the session -/

theorem axisEnd_nonneg (times : List ℚ) (endMs : ℚ) : 0 ≤ axisEnd times endMs :=
  (le_max_left 0 endMs).trans (le_max_left _ _)

theorem le_axisEnd (h : EventTimes times) (endMs : ℚ) : ∀ t ∈ times, t ≤ axisEnd times endMs := by
  intro t ht
  cases hlast : times.getLast? with
  | none =>
      rw [List.getLast?_eq_none_iff] at hlast
      rw [hlast] at ht
      exact absurd ht List.not_mem_nil
  | some last =>
      rw [axisEnd, hlast]
      exact (h.le_getLast? hlast t ht).trans (le_max_right _ _)

theorem cutOf_spec (h : EventTimes times) (endMs : ℚ) :
    Pauses (0 :: times ++ [axisEnd times endMs]) (cutOf times endMs) :=
  cutPauses_spec (pausesOf_spec
    (h.pairwise_boundaries (axisEnd_nonneg times endMs) (le_axisEnd h endMs)))

/-- The items of the axis, in order. -/
def itemsOf (times : List ℚ) (endMs : ℚ) : List AxisItem :=
  axisItems (rangesOf times endMs) (cutOf times endMs)

theorem itemsOf_eq (h : EventTimes times) (endMs : ℚ) : itemsOf times endMs =
    (interleaved 0 (axisEnd times endMs) (cutOf times endMs)).filter (keepsItem times) :=
  (cutOf_spec h endMs).axisItems_eq h (axisEnd_nonneg times endMs) (le_axisEnd h endMs)

theorem itemsOf_perm (times : List ℚ) (endMs : ℚ) : (itemsOf times endMs).Perm
    ((rangesOf times endMs).map (AxisItem.mk .span) ++
      (cutOf times endMs).map (AxisItem.mk .cut)) :=
  List.perm_insertionSort itemOrder _

/-- The items tile the session. -/
theorem tiles_itemsOf (h : EventTimes times) (endMs : ℚ) :
    Tiles (fun item : AxisItem => item.range.start) (fun item => item.range.stop) 0
      (axisEnd times endMs) (itemsOf times endMs) := by
  have htiles := (cutOf_spec h endMs).tiles h (axisEnd_nonneg times endMs) (le_axisEnd h endMs)
  rw [itemsOf_eq h]
  apply htiles.filter
  intro item hitem hdropped
  rw [keepsItem, holdsEdit, Bool.or_eq_false_iff, Bool.or_eq_false_iff] at hdropped
  have hnot : ¬ item.range.start < item.range.stop := of_decide_eq_false hdropped.2.1
  exact le_antisymm (htiles.within hitem).2.1 (not_lt.1 hnot)

/-! ## Widths -/

/-- The widths are not negative, and together no more than the width of the axis. -/
structure AxisWidths.Fits (widths : AxisWidths) (gaps : Nat) (width : ℚ) : Prop where
  gapWidth : 0 ≤ widths.gapWidth
  minSpan : 0 ≤ widths.minSpan
  share : 0 ≤ widths.share
  total : gaps * widths.gapWidth + (widths.minSpan * widths.count + widths.share) = width

/-- Portions of a limited size are no more than what there is. -/
theorem portions_fit {limit available : ℚ} (count : Nat) (hlimit : 0 ≤ limit)
    (havailable : 0 ≤ available) :
    0 ≤ (if count = 0 then 0 else min limit (available / count)) ∧
      (if count = 0 then 0 else min limit (available / count)) * count ≤ available := by
  split
  · exact ⟨le_refl 0, by rw [zero_mul]; exact havailable⟩
  · rename_i hcount
    have hpos : (0 : ℚ) < count := Nat.cast_pos.2 (Nat.pos_of_ne_zero hcount)
    refine ⟨le_min hlimit (div_nonneg havailable hpos.le), ?_⟩
    calc min limit (available / count) * count
        ≤ available / count * count :=
          mul_le_mul_of_nonneg_right (min_le_right _ _) hpos.le
      _ = available := div_mul_cancel₀ _ (ne_of_gt hpos)

theorem axisWidths_fits (ranges cut : List TimeRange) (hwidth : 0 ≤ width)
    (hbreak : 0 ≤ breakWidth) :
    (axisWidths ranges cut width breakWidth).Fits cut.length width := by
  have hhalf : 0 ≤ width * (1 / 2) := mul_nonneg hwidth (by norm_num)
  obtain ⟨hgap, hgaps⟩ := portions_fit cut.length hbreak hhalf
  have havailable := le_max_left 0 (width - cut.length *
    (axisWidths ranges cut width breakWidth).gapWidth)
  have hrest : max 0 (width - cut.length * (axisWidths ranges cut width breakWidth).gapWidth) =
      width - cut.length * (axisWidths ranges cut width breakWidth).gapWidth := by
    apply max_eq_right
    have hcomm : (cut.length : ℚ) * (axisWidths ranges cut width breakWidth).gapWidth ≤
        width * (1 / 2) := (mul_comm _ _).trans_le hgaps
    linarith
  have hlimit : (0 : ℚ) ≤ minSpanPx := by
    rw [minSpanPx]
    norm_num
  obtain ⟨hspan, hspans⟩ := portions_fit ranges.length hlimit havailable
  refine ⟨hgap, hspan, sub_nonneg.2 hspans, ?_⟩
  show (cut.length : ℚ) * (axisWidths ranges cut width breakWidth).gapWidth +
    ((axisWidths ranges cut width breakWidth).minSpan * ranges.length +
      (max 0 (width - cut.length * (axisWidths ranges cut width breakWidth).gapWidth) -
        (axisWidths ranges cut width breakWidth).minSpan * ranges.length)) = width
  rw [hrest]
  ring

/-- The parts that the stretches get of the share, in proportion to their lengths. -/
theorem shares_le (ranges : List TimeRange) {share : ℚ} (hshare : 0 ≤ share) :
    (ranges.map fun range =>
      if 0 < (ranges.map fun other => other.stop - other.start).sum then
        share * (range.stop - range.start) / (ranges.map fun other => other.stop - other.start).sum
      else share / ranges.length).sum ≤ share := by
  by_cases htotal : 0 < (ranges.map fun other => other.stop - other.start).sum
  · simp only [if_pos htotal, mul_div_right_comm]
    rw [List.sum_map_mul_left, div_mul_cancel₀ _ (ne_of_gt htotal)]
  · simp only [if_neg htotal, List.map_const', List.sum_replicate, nsmul_eq_mul]
    rcases Nat.eq_zero_or_pos ranges.length with hzero | hpos
    · rw [hzero, Nat.cast_zero, zero_mul]
      exact hshare
    · rw [mul_div_cancel₀ _ (Nat.cast_ne_zero.2 (ne_of_gt hpos))]

theorem AxisWidths.Fits.of_nonneg {widths : AxisWidths} {gaps : Nat}
    (h : widths.Fits gaps width) {item : AxisItem}
    (hitem : item.range.start ≤ item.range.stop) : 0 ≤ widths.of item := by
  rw [AxisWidths.of]
  cases item.kind with
  | cut => exact h.gapWidth
  | span =>
      apply add_nonneg h.minSpan
      split
      · exact div_nonneg (mul_nonneg h.share (sub_nonneg.2 hitem)) (le_of_lt ‹_›)
      · exact div_nonneg h.share (Nat.cast_nonneg _)

def widthsOf (times : List ℚ) (endMs width breakWidth : ℚ) : AxisWidths :=
  axisWidths (rangesOf times endMs) (cutOf times endMs) width breakWidth

theorem widthsOf_fits (times : List ℚ) (endMs : ℚ) (hwidth : 0 ≤ width) (hbreak : 0 ≤ breakWidth) :
    (widthsOf times endMs width breakWidth).Fits (cutOf times endMs).length width :=
  axisWidths_fits _ _ hwidth hbreak

/-- The items take no more than the width of the axis. -/
theorem sum_widths_le (times : List ℚ) (endMs : ℚ) (hwidth : 0 ≤ width)
    (hbreak : 0 ≤ breakWidth) :
    ((itemsOf times endMs).map (widthsOf times endMs width breakWidth).of).sum ≤ width := by
  have hfits := widthsOf_fits times endMs hwidth hbreak
  have hshares := shares_le (rangesOf times endMs) hfits.share
  have hcuts : ((cutOf times endMs).map
      ((widthsOf times endMs width breakWidth).of ∘ AxisItem.mk .cut)).sum =
        (cutOf times endMs).length * (widthsOf times endMs width breakWidth).gapWidth := by
    rw [← nsmul_eq_mul, ← List.sum_replicate, ← List.map_const']
    rfl
  have hspans : ((rangesOf times endMs).map
      ((widthsOf times endMs width breakWidth).of ∘ AxisItem.mk .span)).sum ≤
      (widthsOf times endMs width breakWidth).minSpan *
          (widthsOf times endMs width breakWidth).count +
        (widthsOf times endMs width breakWidth).share := by
    have hconst : ((rangesOf times endMs).map fun _ =>
        (widthsOf times endMs width breakWidth).minSpan).sum =
        (widthsOf times endMs width breakWidth).minSpan *
          (widthsOf times endMs width breakWidth).count := by
      rw [List.map_const', List.sum_replicate, nsmul_eq_mul, mul_comm]
      rfl
    rw [← hconst]
    calc ((rangesOf times endMs).map
          ((widthsOf times endMs width breakWidth).of ∘ AxisItem.mk .span)).sum
        = ((rangesOf times endMs).map fun _ =>
            (widthsOf times endMs width breakWidth).minSpan).sum + _ := List.sum_map_add
      _ ≤ _ := by
          apply add_le_add_right
          exact hshares
  have htotal := hfits.total
  rw [((itemsOf_perm times endMs).map _).sum_eq, List.map_append, List.sum_append, List.map_map,
    List.map_map, hcuts]
  linarith

/-! ## Placing -/

theorem tiles_placed (x : ℚ) (h : ∀ item ∈ items, 0 ≤ widthOf item) :
    Tiles (fun entry : ItemKind × TimeSpan => entry.2.x0) (fun entry => entry.2.x1) x
      (x + (items.map widthOf).sum) (placedFrom widthOf x items) := by
  induction items generalizing x with
  | nil => exact (add_zero x).symm
  | cons item items ih =>
      have hitem := h item List.mem_cons_self
      have hrest := ih (x + widthOf item) fun other hother => h other (List.mem_cons_of_mem _ hother)
      rw [List.map_cons, List.sum_cons, ← add_assoc]
      exact ⟨rfl, le_add_of_nonneg_right hitem, hrest⟩

/-- The items keep their times. -/
theorem tiles_times (x : ℚ) {first last : ℚ}
    (h : Tiles (fun item : AxisItem => item.range.start) (fun item => item.range.stop) first last
      items) :
    Tiles (fun entry : ItemKind × TimeSpan => entry.2.start) (fun entry => entry.2.stop) first last
      (placedFrom widthOf x items) := by
  induction items generalizing x first with
  | nil => exact h
  | cons item items ih =>
      obtain ⟨hstart, hle, hrest⟩ := h
      exact ⟨hstart, hle, ih _ hrest⟩

theorem placed_of_item (x : ℚ) {item : AxisItem} (h : item ∈ items) :
    ∃ span, (item.kind, span) ∈ placedFrom widthOf x items ∧ span.start = item.range.start ∧
      span.stop = item.range.stop := by
  induction items generalizing x with
  | nil => exact absurd h List.not_mem_nil
  | cons head items ih =>
      rcases List.mem_cons.1 h with rfl | h
      · exact ⟨_, List.mem_cons_self, rfl, rfl⟩
      · obtain ⟨span, hspan, hsame⟩ := ih (x + widthOf head) h
        exact ⟨span, List.mem_cons_of_mem _ hspan, hsame⟩

theorem item_of_placed {kind : ItemKind} {span : TimeSpan}
    (h : (kind, span) ∈ placedFrom widthOf x items) :
    ∃ item ∈ items, item.kind = kind ∧ item.range.start = span.start ∧
      item.range.stop = span.stop := by
  induction items generalizing x with
  | nil => exact absurd h List.not_mem_nil
  | cons head items ih =>
      rcases List.mem_cons.1 h with heq | h
      · cases heq
        exact ⟨head, List.mem_cons_self, rfl, rfl, rfl⟩
      · obtain ⟨item, hitem, hsame⟩ := ih h
        exact ⟨item, List.mem_cons_of_mem _ hitem, hsame⟩

theorem mem_ofKind {kind : ItemKind} {placed : List (ItemKind × TimeSpan)} {span : TimeSpan} :
    span ∈ ofKind kind placed ↔ (kind, span) ∈ placed := by
  rw [ofKind, List.mem_map]
  constructor
  · rintro ⟨⟨other, found⟩, hentry, rfl⟩
    obtain ⟨hmem, hkind⟩ := List.mem_filter.1 hentry
    obtain rfl : other = kind := of_decide_eq_true hkind
    exact hmem
  · intro hmem
    exact ⟨(kind, span), List.mem_filter.2 ⟨hmem, decide_eq_true rfl⟩, rfl⟩

theorem ofKind_perm (placed : List (ItemKind × TimeSpan)) :
    (placed.map Prod.snd).Perm (ofKind .span placed ++ ofKind .cut placed) := by
  have hcut : (fun entry : ItemKind × TimeSpan => decide (entry.1 = .cut)) =
      fun entry => !decide (entry.1 = .span) := by
    funext entry
    cases entry.1 <;> rfl
  rw [ofKind, ofKind, hcut, ← List.map_append]
  exact (List.filter_append_perm _ placed).symm.map _

/-! ## Places within an item -/

theorem place_mem {item : TimeSpan} (hx : item.x0 ≤ item.x1)
    (ht : item.start ≤ t ∧ t ≤ item.stop) : item.x0 ≤ place item t ∧ place item t ≤ item.x1 := by
  rw [place]
  split
  · rename_i hproper
    have hpos : 0 < item.stop - item.start := sub_pos.2 hproper
    have hlow : 0 ≤ (t - item.start) / (item.stop - item.start) :=
      div_nonneg (sub_nonneg.2 ht.1) hpos.le
    have hhigh : (t - item.start) / (item.stop - item.start) ≤ 1 := by
      rw [div_le_one hpos]
      linarith [ht.2]
    have hgap : 0 ≤ item.x1 - item.x0 := sub_nonneg.2 hx
    have hleast : 0 ≤ (t - item.start) / (item.stop - item.start) * (item.x1 - item.x0) :=
      mul_nonneg hlow hgap
    have hmost : (t - item.start) / (item.stop - item.start) * (item.x1 - item.x0) ≤
        1 * (item.x1 - item.x0) := mul_le_mul_of_nonneg_right hhigh hgap
    constructor
    · linarith
    · linarith
  · constructor
    · linarith
    · linarith

theorem place_mono {item : TimeSpan} (hx : item.x0 ≤ item.x1) (ht : t ≤ t') :
    place item t ≤ place item t' := by
  rw [place, place]
  split
  · rename_i hproper
    have hpos : 0 < item.stop - item.start := sub_pos.2 hproper
    have hle : (t - item.start) / (item.stop - item.start) ≤
        (t' - item.start) / (item.stop - item.start) := by
      apply div_le_div_of_nonneg_right _ hpos.le
      linarith
    have hgrown := mul_le_mul_of_nonneg_right hle (sub_nonneg.2 hx)
    linarith
  · exact le_refl _

end Pmbah.Web
