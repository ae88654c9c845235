import Pmbah.Web.AxisMap

/-!
# A faithful time axis

Time is mapped onto the width without going back, no event is cut away, and the activity
columns count every event once.
-/

namespace Pmbah.Web

open Library

variable {times : List ℚ} {endMs width breakWidth t t' columnPx : ℚ} {span : TimeSpan}
  {spans : List TimeSpan}

def placedOf (times : List ℚ) (endMs width breakWidth : ℚ) : List (ItemKind × TimeSpan) :=
  placedFrom (widthsOf times endMs width breakWidth).of 0 (itemsOf times endMs)

theorem spans_buildTimeAxis (times : List ℚ) (endMs width breakWidth : ℚ) :
    (buildTimeAxis times endMs width breakWidth).spans =
      ofKind .span (placedOf times endMs width breakWidth) := rfl

theorem breaks_buildTimeAxis (times : List ℚ) (endMs width breakWidth : ℚ) :
    (buildTimeAxis times endMs width breakWidth).breaks =
      ofKind .cut (placedOf times endMs width breakWidth) := rfl

theorem x_eq_axisX (times : List ℚ) (endMs width breakWidth : ℚ) :
    (buildTimeAxis times endMs width breakWidth).x = axisX (axisEnd times endMs)
      (buildTimeAxis times endMs width breakWidth).spans
      (buildTimeAxis times endMs width breakWidth).breaks := by
  rw [buildTimeAxis]

/-! ## Where the axis places a time -/

/-- The placed items tile the width that is used. -/
theorem tiles_width (h : EventTimes times) (endMs : ℚ) (hwidth : 0 ≤ width)
    (hbreak : 0 ≤ breakWidth) : ∃ used, used ≤ width ∧
      Tiles (fun entry : ItemKind × TimeSpan => entry.2.x0) (fun entry => entry.2.x1) 0 used
        (placedOf times endMs width breakWidth) := by
  have htiles := tiles_itemsOf h endMs
  have hplaced := tiles_placed 0 fun item hitem =>
    (widthsOf_fits times endMs hwidth hbreak).of_nonneg (htiles.within hitem).2.1
  rw [zero_add] at hplaced
  exact ⟨_, sum_widths_le times endMs hwidth hbreak, hplaced⟩

theorem tiles_session (h : EventTimes times) (endMs width breakWidth : ℚ) :
    Tiles (fun entry : ItemKind × TimeSpan => entry.2.start) (fun entry => entry.2.stop) 0
      (axisEnd times endMs) (placedOf times endMs width breakWidth) :=
  tiles_times 0 (tiles_itemsOf h endMs)

theorem locate_spec (h : locate spans t = some span) :
    span ∈ spans ∧ span.start ≤ t ∧ t ≤ span.stop := by
  rw [locate] at h
  have hfound := List.find?_some h
  rw [Bool.and_eq_true, decide_eq_true_eq, decide_eq_true_eq] at hfound
  exact ⟨List.mem_of_find?_eq_some h, hfound⟩

theorem locate_ne_none (hspan : span ∈ spans) (ht : span.start ≤ t ∧ t ≤ span.stop) :
    locate spans t ≠ none := by
  intro hnone
  have hall := List.find?_eq_none.1 hnone span hspan
  rw [Bool.and_eq_true, decide_eq_true_eq, decide_eq_true_eq] at hall
  exact hall ht

/-- A time of the session is placed within an item, if there is one. -/
theorem x_buildTimeAxis (h : EventTimes times) (endMs width breakWidth : ℚ) (hzero : 0 ≤ t)
    (hstop : t ≤ axisEnd times endMs) :
    (∃ entry ∈ placedOf times endMs width breakWidth,
      (entry.2.start ≤ t ∧ t ≤ entry.2.stop) ∧
        (buildTimeAxis times endMs width breakWidth).x t = place entry.2 t) ∨
      (placedOf times endMs width breakWidth = [] ∧
        (buildTimeAxis times endMs width breakWidth).x t = 0) := by
  have hclamped : min (axisEnd times endMs) (max 0 t) = t := by
    rw [max_eq_right hzero, min_eq_right hstop]
  rw [x_eq_axisX, spans_buildTimeAxis, breaks_buildTimeAxis, axisX, hclamped]
  cases hspans : locate (ofKind .span (placedOf times endMs width breakWidth)) t with
  | some found =>
      obtain ⟨hfound, hwithin⟩ := locate_spec hspans
      exact Or.inl ⟨_, mem_ofKind.1 hfound, hwithin, rfl⟩
  | none =>
      cases hbreaks : locate (ofKind .cut (placedOf times endMs width breakWidth)) t with
      | some found =>
          obtain ⟨hfound, hwithin⟩ := locate_spec hbreaks
          exact Or.inl ⟨_, mem_ofKind.1 hfound, hwithin, rfl⟩
      | none =>
          refine Or.inr ⟨?_, rfl⟩
          by_contra hne
          obtain ⟨⟨kind, found⟩, hentry, hwithin⟩ :=
            (tiles_session h endMs width breakWidth).covers hne hzero hstop
          cases kind with
          | span => exact locate_ne_none (mem_ofKind.2 hentry) hwithin hspans
          | cut => exact locate_ne_none (mem_ofKind.2 hentry) hwithin hbreaks

/-! ## Events -/

/-- A stretch ends where a pause begins, and another begins where it ends. -/
theorem rangesAround_beside {cursor stop : ℚ} {cut : List TimeRange} {pause : TimeRange}
    (h : pause ∈ cut) :
    (∃ range ∈ rangesAround cursor stop cut, range.stop = pause.start) ∧
      ∃ range ∈ rangesAround cursor stop cut, range.start = pause.stop := by
  induction cut generalizing cursor with
  | nil => exact absurd h List.not_mem_nil
  | cons head cut ih =>
      rcases List.mem_cons.1 h with rfl | h
      · refine ⟨⟨_, List.mem_cons_self, rfl⟩, ?_⟩
        cases cut with
        | nil => exact ⟨_, List.mem_cons_of_mem _ List.mem_cons_self, rfl⟩
        | cons next cut => exact ⟨_, List.mem_cons_of_mem _ List.mem_cons_self, rfl⟩
      · obtain ⟨⟨before, hbefore, hstop⟩, after, hafter, hstart⟩ := ih h
        exact ⟨⟨before, List.mem_cons_of_mem _ hbefore, hstop⟩, after,
          List.mem_cons_of_mem _ hafter, hstart⟩

/-- Every event is in a stretch. -/
theorem event_in_range (h : EventTimes times) (endMs : ℚ) (ht : t ∈ times) :
    ∃ range ∈ rangesAround 0 (axisEnd times endMs) (cutOf times endMs),
      range.start ≤ t ∧ t ≤ range.stop := by
  have hpauses := cutOf_spec h endMs
  have htiles := hpauses.tiles h (axisEnd_nonneg times endMs) (le_axisEnd h endMs)
  have hperm := interleaved_perm 0 (axisEnd times endMs) (cutOf times endMs)
  have hproper : ∀ range ∈ rangesAround 0 (axisEnd times endMs) (cutOf times endMs),
      range.start ≤ range.stop := by
    intro range hrange
    have hitem : AxisItem.mk .span range ∈
        interleaved 0 (axisEnd times endMs) (cutOf times endMs) := by
      rw [hperm.mem_iff]
      exact List.mem_append_left _ (List.mem_map_of_mem hrange)
    exact (htiles.within hitem).2.1
  have hne : interleaved 0 (axisEnd times endMs) (cutOf times endMs) ≠ [] := by
    cases cutOf times endMs with
    | nil => exact List.cons_ne_nil _ _
    | cons pause cut => exact List.cons_ne_nil _ _
  obtain ⟨item, hitem, hlow, hhigh⟩ :=
    htiles.covers hne (h.nonneg t ht) (le_axisEnd h endMs t ht)
  rw [hperm.mem_iff, List.mem_append] at hitem
  rcases hitem with hspan | hcut
  · obtain ⟨range, hrange, rfl⟩ := List.mem_map.1 hspan
    exact ⟨range, hrange, hlow, hhigh⟩
  · -- An event at an edge of a pause is in the stretch beside it.
    obtain ⟨pause, hpause, rfl⟩ := List.mem_map.1 hcut
    obtain ⟨⟨before, hbefore, hstop⟩, after, hafter, hstart⟩ := rangesAround_beside hpause
    have hboundary : t ∈ 0 :: times ++ [axisEnd times endMs] :=
      List.mem_append_left _ (List.mem_cons_of_mem _ ht)
    rcases hpauses.outside pause hpause t hboundary with hfirst | hlast
    · have heq : t = before.stop := (le_antisymm hfirst hlow).trans hstop.symm
      exact ⟨before, hbefore, by rw [heq]; exact hproper before hbefore, heq.le⟩
    · have heq : t = after.start := (le_antisymm hhigh hlast).trans hstart.symm
      exact ⟨after, hafter, heq.ge, by rw [heq]; exact hproper after hafter⟩

/-- Every event is in a span that is drawn. -/
theorem event_in_span (h : EventTimes times) (endMs width breakWidth : ℚ) (ht : t ∈ times) :
    ∃ span ∈ (buildTimeAxis times endMs width breakWidth).spans,
      span.start ≤ t ∧ t ≤ span.stop := by
  obtain ⟨range, hrange, hlow, hhigh⟩ := event_in_range h endMs ht
  have hholds : holdsEdit times range = true := by
    rw [holdsEdit, Bool.or_eq_true, decide_eq_true_eq, decide_eq_true_eq]
    rcases (hlow.trans hhigh).lt_or_eq with hlt | heq
    · exact Or.inl hlt
    · have hsame : range.start = t := le_antisymm hlow (hhigh.trans heq.ge)
      exact Or.inr (hsame ▸ ht)
  have hitem : AxisItem.mk .span range ∈ itemsOf times endMs := by
    rw [itemsOf_eq h, List.mem_filter]
    refine ⟨?_, hholds⟩
    rw [(interleaved_perm _ _ _).mem_iff]
    exact List.mem_append_left _ (List.mem_map_of_mem hrange)
  obtain ⟨span, hspan, hstart, hstop⟩ := placed_of_item 0 hitem
  refine ⟨span, mem_ofKind.2 hspan, ?_, ?_⟩
  · rw [hstart]
    exact hlow
  · rw [hstop]
    exact hhigh

/-- No event is within a pause that is cut. -/
theorem event_outside_break (h : EventTimes times) (endMs width breakWidth : ℚ) (ht : t ∈ times)
    (hspan : span ∈ (buildTimeAxis times endMs width breakWidth).breaks) :
    t ≤ span.start ∨ span.stop ≤ t := by
  have hplaced : (.cut, span) ∈ placedFrom (widthsOf times endMs width breakWidth).of 0
      (itemsOf times endMs) := mem_ofKind.1 hspan
  obtain ⟨item, hitem, hkind, hstart, hstop⟩ := item_of_placed hplaced
  have hpause : item.range ∈ cutOf times endMs := by
    rw [(itemsOf_perm times endMs).mem_iff, List.mem_append] at hitem
    rcases hitem with hrange | hcut
    · obtain ⟨range, -, rfl⟩ := List.mem_map.1 hrange
      cases hkind
    · obtain ⟨pause, hpause, rfl⟩ := List.mem_map.1 hcut
      exact hpause
  rw [← hstart, ← hstop]
  exact (cutOf_spec h endMs).outside _ hpause t
    (List.mem_append_left _ (List.mem_cons_of_mem _ ht))

/-! ## Activity -/

def countedIn (groups : List (List ActivityColumn)) : Nat :=
  (groups.map fun columns => (columns.map ActivityColumn.count).sum).sum

/-- Every span has columns. -/
structure HasColumns (spans : List TimeSpan) (groups : List (List ActivityColumn)) : Prop where
  length : groups.length = spans.length
  nonempty : ∀ columns ∈ groups, columns ≠ []

theorem columnsOf_spec (columnPx : ℚ) (span : TimeSpan) :
    columnsOf columnPx span ≠ [] ∧ ((columnsOf columnPx span).map ActivityColumn.count).sum = 0 := by
  rw [columnsOf]
  constructor
  · intro hnil
    have hcount := List.range_eq_nil.1 (List.map_eq_nil_iff.1 hnil)
    have hone := le_max_left 1 ⌊(span.x1 - span.x0) / columnPx⌋
    omega
  · rw [List.map_map]
    apply List.sum_eq_zero
    intro count hcount
    obtain ⟨index, -, rfl⟩ := List.mem_map.1 hcount
    rfl

theorem hasColumns_columnsOf (columnPx : ℚ) (spans : List TimeSpan) :
    HasColumns spans (spans.map (columnsOf columnPx)) ∧
      countedIn (spans.map (columnsOf columnPx)) = 0 := by
  refine ⟨⟨List.length_map _, fun columns hcolumns => ?_⟩, ?_⟩
  · obtain ⟨span, -, rfl⟩ := List.mem_map.1 hcolumns
    exact (columnsOf_spec columnPx span).1
  · rw [countedIn, List.map_map]
    apply List.sum_eq_zero
    intro count hcount
    obtain ⟨span, -, rfl⟩ := List.mem_map.1 hcount
    exact (columnsOf_spec columnPx span).2

/-- Raising one of the numbers raises the sum as much. -/
theorem sum_set_succ {numbers : List Nat} {index number : Nat} (h : numbers[index]? = some number) :
    (numbers.set index (number + 1)).sum = numbers.sum + 1 := by
  induction numbers generalizing index with
  | nil => cases h
  | cons first numbers ih =>
      cases index with
      | zero =>
          cases h
          rw [List.set_cons_zero, List.sum_cons, List.sum_cons]
          omega
      | succ index =>
          rw [List.set_cons_succ, List.sum_cons, List.sum_cons, ih h, Nat.add_assoc]

/-- An event is counted in one column. -/
theorem countEvent_spec {groups : List (List ActivityColumn)} (t : ℚ) (hspans : spans ≠ [])
    (h : HasColumns spans groups) :
    ∃ next, countEvent spans groups t = some next ∧ HasColumns spans next ∧
      countedIn next = countedIn groups + 1 := by
  have hindex : (spans.findIdx? fun span => span.start ≤ t && t ≤ span.stop).getD 0 <
      spans.length := by
    cases hfound : spans.findIdx? fun span => span.start ≤ t && t ≤ span.stop with
    | none => exact List.length_pos_of_ne_nil hspans
    | some index => exact (List.findIdx?_eq_some_iff_getElem.1 hfound).1
  rw [countEvent]
  simp only
  generalize (spans.findIdx? fun span => span.start ≤ t && t ≤ span.stop).getD 0 = spanIndex
    at hindex
  have hgroup : spanIndex < groups.length := h.length ▸ hindex
  rw [List.getElem?_eq_getElem hindex, List.getElem?_eq_getElem hgroup]
  simp only [Option.bind_eq_bind, Option.bind_some]
  have hne : groups[spanIndex] ≠ [] := h.nonempty _ (List.getElem_mem hgroup)
  generalize (if spans[spanIndex].start < spans[spanIndex].stop then
    ⌊(t - spans[spanIndex].start) / (spans[spanIndex].stop - spans[spanIndex].start) *
      (groups[spanIndex].length : ℚ)⌋ else 0) = index
  have hplace : (min (groups[spanIndex].length - 1 : Int) (max 0 index)).toNat <
      groups[spanIndex].length := by
    have hpos := List.length_pos_of_ne_nil hne
    omega
  generalize (min (groups[spanIndex].length - 1 : Int) (max 0 index)).toNat = column at hplace
  rw [List.getElem?_eq_getElem hplace]
  refine ⟨_, rfl, ⟨?_, ?_⟩, ?_⟩
  · rw [List.length_set]
    exact h.length
  · intro columns hcolumns
    rcases List.mem_or_eq_of_mem_set hcolumns with hsame | rfl
    · exact h.nonempty columns hsame
    · intro hnil
      exact hne ((List.set_eq_nil_iff _ _).1 hnil)
  · have hraised : ((groups[spanIndex].set column
        { groups[spanIndex][column] with count := groups[spanIndex][column].count + 1 }).map
          ActivityColumn.count).sum =
        (groups[spanIndex].map ActivityColumn.count).sum + 1 := by
      rw [List.map_set]
      apply sum_set_succ
      rw [List.getElem?_map, List.getElem?_eq_getElem hplace]
      rfl
    rw [countedIn, countedIn, List.map_set, hraised]
    apply sum_set_succ
    rw [List.getElem?_map, List.getElem?_eq_getElem hgroup]
    rfl

/-- Every event is counted once. -/
theorem countEvents_run {Event : Type} (time : Event → ℚ) (events : List Event)
    {groups : List (List ActivityColumn)} (hspans : spans ≠ []) (h : HasColumns spans groups) :
    ∃ next, events.foldlM (fun groups event => countEvent spans groups (time event)) groups =
        some next ∧ countedIn next = countedIn groups + events.length := by
  induction events generalizing groups with
  | nil => exact ⟨groups, rfl, rfl⟩
  | cons event events ih =>
      obtain ⟨next, hnext, hcolumned, hcount⟩ := countEvent_spec (time event) hspans h
      obtain ⟨last, hlast, htotal⟩ := ih hcolumned
      refine ⟨last, ?_, ?_⟩
      · rw [List.foldlM_cons, hnext]
        exact hlast
      · rw [htotal, hcount, List.length_cons]
        omega

theorem sum_counts_flatten (groups : List (List ActivityColumn)) :
    (groups.flatten.map ActivityColumn.count).sum = countedIn groups := by
  rw [List.map_flatten, List.sum_flatten, List.map_map]
  rfl

theorem buildActivityColumns_spec {Event : Type} (time : Event → ℚ) (events : List Event)
    (axis : TimeAxis) (columnPx : ℚ) (hspans : events ≠ [] → axis.spans ≠ []) :
    ∃ columns, buildActivityColumns time events axis columnPx = some columns ∧
      (columns.map ActivityColumn.count).sum = events.length := by
  obtain ⟨hcolumned, hzero⟩ := hasColumns_columnsOf columnPx axis.spans
  rw [buildActivityColumns]
  split
  · rename_i hempty
    rw [List.isEmpty_iff.1 hempty]
    exact ⟨[], rfl, rfl⟩
  · rename_i hsome
    have hne : events ≠ [] := fun hnil => hsome (List.isEmpty_iff.2 hnil)
    obtain ⟨last, hlast, htotal⟩ := countEvents_run time events (hspans hne) hcolumned
    rw [hlast]
    refine ⟨last.flatten, rfl, ?_⟩
    rw [sum_counts_flatten, htotal, hzero, Nat.zero_add]

/-! ## The axis -/

/-- What is drawn is true to the times. -/
structure FaithfulAxis (times : List ℚ) (stop width : ℚ) (axis : TimeAxis) : Prop where
  mono : ∀ t t', 0 ≤ t → t ≤ t' → t' ≤ stop → axis.x t ≤ axis.x t'
  within : ∀ t, 0 ≤ t → t ≤ stop → 0 ≤ axis.x t ∧ axis.x t ≤ width
  tiled : ∃ used pieces, pieces.Perm (axis.spans ++ axis.breaks) ∧ used ≤ width ∧
    Tiles TimeSpan.x0 TimeSpan.x1 0 used pieces ∧
    Tiles TimeSpan.start TimeSpan.stop 0 stop pieces
  outside : ∀ t ∈ times, ∀ pause ∈ axis.breaks, t ≤ pause.start ∨ pause.stop ≤ t
  inside : ∀ t ∈ times, ∃ span ∈ axis.spans, span.start ≤ t ∧ t ≤ span.stop
  counted : ∀ {Event : Type} (time : Event → ℚ) (events : List Event) (columnPx : ℚ),
    events.map time = times → 0 < columnPx →
      ∃ columns, buildActivityColumns time events axis columnPx = some columns ∧
        (columns.map ActivityColumn.count).sum = events.length

theorem x_mono (h : EventTimes times) (endMs : ℚ) (hwidth : 0 ≤ width) (hbreak : 0 ≤ breakWidth)
    (hzero : 0 ≤ t) (hle : t ≤ t') (hstop : t' ≤ axisEnd times endMs) :
    (buildTimeAxis times endMs width breakWidth).x t ≤
      (buildTimeAxis times endMs width breakWidth).x t' := by
  rcases hle.eq_or_lt with rfl | hlt
  · exact le_refl _
  obtain ⟨used, -, hwide⟩ := tiles_width h endMs hwidth hbreak
  have hlong := tiles_session h endMs width breakWidth
  rcases x_buildTimeAxis h endMs width breakWidth hzero (hle.trans hstop) with
    ⟨entry, hentry, hin, hx⟩ | ⟨hnil, hx⟩
  · rcases x_buildTimeAxis h endMs width breakWidth (hzero.trans hle) hstop with
      ⟨other, hother, hin', hx'⟩ | ⟨hnil, -⟩
    · rw [hx, hx']
      have hfirst := (hwide.within hentry).2.1
      have hsecond := (hwide.within hother).2.1
      apply pieced_mono (hlong.pairwise.and hwide.pairwise) hentry hother hin hin'
        (place_mem hfirst hin) (place_mem hsecond hin') hlt
      rintro rfl
      exact place_mono hfirst hle
    · rw [hnil] at hentry
      exact absurd hentry List.not_mem_nil
  · rcases x_buildTimeAxis h endMs width breakWidth (hzero.trans hle) hstop with
      ⟨other, hother, -, -⟩ | ⟨-, hx'⟩
    · rw [hnil] at hother
      exact absurd hother List.not_mem_nil
    · rw [hx, hx']

theorem x_within (h : EventTimes times) (endMs : ℚ) (hwidth : 0 ≤ width) (hbreak : 0 ≤ breakWidth)
    (hzero : 0 ≤ t) (hstop : t ≤ axisEnd times endMs) :
    0 ≤ (buildTimeAxis times endMs width breakWidth).x t ∧
      (buildTimeAxis times endMs width breakWidth).x t ≤ width := by
  obtain ⟨used, hused, hwide⟩ := tiles_width h endMs hwidth hbreak
  rcases x_buildTimeAxis h endMs width breakWidth hzero hstop with
    ⟨entry, hentry, hin, hx⟩ | ⟨-, hx⟩
  · obtain ⟨hfirst, hle, hlast⟩ := hwide.within hentry
    obtain ⟨hlow, hhigh⟩ := place_mem hle hin
    rw [hx]
    exact ⟨hfirst.trans hlow, hhigh.trans (hlast.trans hused)⟩
  · rw [hx]
    exact ⟨le_refl 0, hwidth⟩

/-- The axis of any times in order is faithful. -/
theorem buildTimeAxis_faithful (times : List ℚ) (endMs width breakWidth : ℚ)
    (h : EventTimes times) (hwidth : 0 ≤ width) (hbreak : 0 ≤ breakWidth) :
    FaithfulAxis times (axisEnd times endMs) width (buildTimeAxis times endMs width breakWidth) := by
  obtain ⟨used, hused, hwide⟩ := tiles_width h endMs hwidth hbreak
  constructor
  · exact fun t t' hzero hle hstop => x_mono h endMs hwidth hbreak hzero hle hstop
  · exact fun t hzero hstop => x_within h endMs hwidth hbreak hzero hstop
  · exact ⟨used, (placedOf times endMs width breakWidth).map Prod.snd, ofKind_perm _, hused,
      hwide.map, (tiles_session h endMs width breakWidth).map⟩
  · exact fun t ht pause hpause => event_outside_break h endMs width breakWidth ht hpause
  · exact fun t ht => event_in_span h endMs width breakWidth ht
  · intro Event time events columnPx htimes _
    apply buildActivityColumns_spec
    intro hne hnil
    obtain ⟨event, rest, rfl⟩ := List.exists_cons_of_ne_nil hne
    have ht : time event ∈ times := by
      rw [← htimes]
      exact List.mem_map_of_mem List.mem_cons_self
    obtain ⟨span, hspan, -⟩ := event_in_span h endMs width breakWidth ht
    rw [hnil] at hspan
    exact absurd hspan List.not_mem_nil

/-- An edit at the start, and one after six minutes: the pause between them is cut. -/
theorem buildTimeAxis_faithful_cut :
    (buildTimeAxis [0, 360000] 360000 100 28).breaks = [⟨0, 360000, 36, 64⟩] ∧
      FaithfulAxis [0, 360000] 360000 100 (buildTimeAxis [0, 360000] 360000 100 28) := by
  have htimes : EventTimes [0, 360000] := ⟨by decide +kernel, by decide +kernel⟩
  exact ⟨by decide +kernel,
    buildTimeAxis_faithful [0, 360000] 360000 100 28 htimes (by norm_num) (by norm_num)⟩

end Pmbah.Web
