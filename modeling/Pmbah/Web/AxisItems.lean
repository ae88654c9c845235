import Pmbah.Library.Tiling
import Pmbah.Web.TimeAxis

/-!
# The items of a time axis

The cut pauses and the stretches that are kept follow one another from the start of the
session to its end, and no event lies within a pause.
-/

namespace Pmbah.Web

open Library

variable {times boundaries : List ℚ} {cursor stop endMs : ℚ} {cut pauses : List TimeRange}

/-! ## Pauses -/

/-- Pauses in order, none of which has a boundary inside. -/
structure Pauses (boundaries : List ℚ) (pauses : List TimeRange) : Prop where
  ordered : pauses.Pairwise fun a b => a.stop ≤ b.start
  proper : ∀ pause ∈ pauses, pause.start < pause.stop
  start_mem : ∀ pause ∈ pauses, pause.start ∈ boundaries
  stop_mem : ∀ pause ∈ pauses, pause.stop ∈ boundaries
  outside : ∀ pause ∈ pauses, ∀ t ∈ boundaries, t ≤ pause.start ∨ pause.stop ≤ t

/-- A pause that begins with the boundaries comes before all others. -/
theorem pauses_cons {start next : ℚ} {rest : List ℚ}
    (h : Pauses (next :: rest) pauses) (hstart : start < next)
    (hrest : ∀ t ∈ rest, next ≤ t) : Pauses (start :: next :: rest) (⟨start, next⟩ :: pauses) := by
  have hnext : ∀ t ∈ next :: rest, next ≤ t := by
    intro t ht
    rcases List.mem_cons.1 ht with rfl | ht
    · exact le_refl t
    · exact hrest t ht
  constructor
  · exact .cons (fun pause hpause => hnext _ (h.start_mem pause hpause)) h.ordered
  · intro pause hpause
    rcases List.mem_cons.1 hpause with rfl | hpause
    · exact hstart
    · exact h.proper pause hpause
  · intro pause hpause
    rcases List.mem_cons.1 hpause with rfl | hpause
    · exact List.mem_cons_self
    · exact List.mem_cons_of_mem _ (h.start_mem pause hpause)
  · intro pause hpause
    rcases List.mem_cons.1 hpause with rfl | hpause
    · exact List.mem_cons_of_mem _ List.mem_cons_self
    · exact List.mem_cons_of_mem _ (h.stop_mem pause hpause)
  · intro pause hpause t ht
    rcases List.mem_cons.1 hpause with rfl | hlater
    · rcases List.mem_cons.1 ht with rfl | hafter
      · exact Or.inl (le_refl t)
      · exact Or.inr (hnext t hafter)
    · rcases List.mem_cons.1 ht with rfl | hafter
      · exact Or.inl (hstart.le.trans (hnext _ (h.start_mem pause hlater)))
      · exact h.outside pause hlater t hafter

theorem Pauses.cons_boundary {start : ℚ} (h : Pauses boundaries pauses)
    (hstart : ∀ t ∈ boundaries, start ≤ t) : Pauses (start :: boundaries) pauses where
  ordered := h.ordered
  proper := h.proper
  start_mem := fun pause hpause => List.mem_cons_of_mem _ (h.start_mem pause hpause)
  stop_mem := fun pause hpause => List.mem_cons_of_mem _ (h.stop_mem pause hpause)
  outside := by
    intro pause hpause t ht
    rcases List.mem_cons.1 ht with rfl | hafter
    · exact Or.inl (hstart _ (h.start_mem pause hpause))
    · exact h.outside pause hpause t hafter

theorem pauses_nil (boundaries : List ℚ) : Pauses boundaries [] := by
  constructor
  · exact .nil
  all_goals
    intro pause hpause
    exact absurd hpause List.not_mem_nil

theorem pausesOf_spec (h : boundaries.Pairwise (· ≤ ·)) :
    Pauses boundaries (pausesOf boundaries) := by
  induction boundaries using pausesOf.induct with
  | case1 start next rest hpause ih =>
      obtain ⟨hstart, hrest⟩ := List.pairwise_cons.1 h
      have hlong : elidedPauseMs ≤ next - start := hpause
      have hlt : start < next := by
        rw [elidedPauseMs] at hlong
        linarith
      rw [pausesOf, if_pos hpause]
      exact pauses_cons (ih hrest) hlt (List.pairwise_cons.1 hrest).1
  | case2 start next rest hshort ih =>
      obtain ⟨hstart, hrest⟩ := List.pairwise_cons.1 h
      rw [pausesOf, if_neg hshort]
      exact (ih hrest).cons_boundary hstart
  | case3 boundaries hfew =>
      have hnone : pausesOf boundaries = [] := by
        rw [pausesOf]
        exact hfew
      rw [hnone]
      exact pauses_nil boundaries

/-- Any of the pauses, sorted by their starts, are in order. -/
theorem Pauses.sorted (h : Pauses boundaries pauses) {chosen : List TimeRange}
    (hchosen : ∀ pause ∈ chosen, pause ∈ pauses) (hnodup : chosen.Nodup)
    (hsorted : chosen.Pairwise earliestFirst) : Pauses boundaries chosen where
  ordered := by
    have hboth := hsorted.and hnodup
    refine hboth.imp_of_mem fun {a b} ha hb hab => ?_
    obtain ⟨hstart, hne⟩ := hab
    rcases eq_or_before h.ordered (hchosen a ha) (hchosen b hb) with heq | hbefore | hafter
    · exact absurd heq hne
    · exact hbefore
    · have hproper := h.proper b (hchosen b hb)
      exact absurd (hafter.trans hstart) (not_le.2 hproper)
  proper := fun pause hpause => h.proper pause (hchosen pause hpause)
  start_mem := fun pause hpause => h.start_mem pause (hchosen pause hpause)
  stop_mem := fun pause hpause => h.stop_mem pause (hchosen pause hpause)
  outside := fun pause hpause => h.outside pause (hchosen pause hpause)

theorem Pauses.nodup (h : Pauses boundaries pauses) : pauses.Nodup := by
  refine h.ordered.imp_of_mem fun {a b} _ hb hab heq => ?_
  exact absurd hab (not_le.2 (heq ▸ h.proper b hb))

instance : Std.Total earliestFirst := ⟨fun a b => le_total a.start b.start⟩

instance : IsTrans TimeRange earliestFirst := ⟨fun _ _ _ hab hbc => le_trans hab hbc⟩

/-- The longest pauses are in order. -/
theorem cutPauses_spec (h : Pauses boundaries pauses) : Pauses boundaries (cutPauses pauses) := by
  have hmem : ∀ pause ∈ cutPauses pauses, pause ∈ pauses := by
    intro pause hpause
    have htaken := (List.mem_insertionSort earliestFirst).1 hpause
    exact (List.mem_insertionSort longestFirst).1 (List.mem_of_mem_take htaken)
  have hnodup : (cutPauses pauses).Nodup := by
    have hlongest : (pauses.insertionSort longestFirst).Nodup :=
      (List.perm_insertionSort longestFirst pauses).nodup_iff.2 h.nodup
    exact (List.perm_insertionSort earliestFirst _).nodup_iff.2
      (hlongest.sublist (List.take_sublist _ _))
  exact h.sorted hmem hnodup (List.pairwise_insertionSort earliestFirst _)

/-! ## Stretches -/

/-- The pauses with the stretches before, between and after them. -/
def interleaved (cursor stop : ℚ) : List TimeRange → List AxisItem
  | [] => [⟨.span, ⟨cursor, stop⟩⟩]
  | pause :: cut =>
      ⟨.span, ⟨cursor, pause.start⟩⟩ :: ⟨.cut, pause⟩ :: interleaved pause.stop stop cut

theorem interleaved_perm (cursor stop : ℚ) (cut : List TimeRange) :
    (interleaved cursor stop cut).Perm
      ((rangesAround cursor stop cut).map (AxisItem.mk .span) ++ cut.map (AxisItem.mk .cut)) := by
  induction cut generalizing cursor with
  | nil => exact .refl _
  | cons pause cut ih =>
      rw [interleaved, rangesAround, List.map_cons, List.map_cons, List.cons_append]
      exact .cons _ (((ih pause.stop).cons _).trans List.perm_middle.symm)

/-- The stretches and the pauses tile the time from the cursor on. -/
theorem tiles_interleaved (hordered : cut.Pairwise fun a b => a.stop ≤ b.start)
    (hproper : ∀ pause ∈ cut, pause.start < pause.stop)
    (hwithin : ∀ pause ∈ cut, cursor ≤ pause.start ∧ pause.stop ≤ stop) (hcursor : cursor ≤ stop) :
    Tiles (fun item : AxisItem => item.range.start) (fun item => item.range.stop) cursor stop
      (interleaved cursor stop cut) := by
  induction cut generalizing cursor with
  | nil => exact ⟨rfl, hcursor, rfl⟩
  | cons pause cut ih =>
      obtain ⟨hafter, hrest⟩ := List.pairwise_cons.1 hordered
      obtain ⟨hstart, hstop⟩ := hwithin pause List.mem_cons_self
      refine ⟨rfl, hstart, rfl, (hproper pause List.mem_cons_self).le, ?_⟩
      apply ih hrest (fun other hother => hproper other (List.mem_cons_of_mem _ hother)) _ hstop
      intro other hother
      exact ⟨hafter other hother, (hwithin other (List.mem_cons_of_mem _ hother)).2⟩

/-- Where the stretches begin and end. -/
theorem rangesAround_spec {range : TimeRange} {index : Nat}
    (h : (rangesAround cursor stop cut)[index]? = some range) :
    (index = 0 → range.start = cursor) ∧ (0 < index → ∃ pause ∈ cut, range.start = pause.stop) ∧
      (index = cut.length → range.stop = stop) ∧
      (index ≠ cut.length → ∃ pause ∈ cut, range.stop = pause.start) := by
  induction cut generalizing cursor index with
  | nil =>
      cases index with
      | zero =>
          cases h
          exact ⟨fun _ => rfl, fun hindex => absurd hindex (lt_irrefl 0), fun _ => rfl,
            fun hindex => absurd rfl hindex⟩
      | succ index => cases h
  | cons pause cut ih =>
      cases index with
      | zero =>
          cases h
          exact ⟨fun _ => rfl, fun hindex => absurd hindex (lt_irrefl 0),
            fun hindex => absurd hindex (by simp), fun _ => ⟨pause, List.mem_cons_self, rfl⟩⟩
      | succ index =>
          obtain ⟨hfirst, hstart, hlast, hstop⟩ := ih h
          refine ⟨fun hindex => absurd hindex (Nat.succ_ne_zero index), fun _ => ?_,
            fun hindex => hlast (Nat.succ_injective hindex), fun hindex => ?_⟩
          · rcases Nat.eq_zero_or_pos index with hzero | hpos
            · exact ⟨pause, List.mem_cons_self, hfirst hzero⟩
            · obtain ⟨other, hother, hsame⟩ := hstart hpos
              exact ⟨other, List.mem_cons_of_mem _ hother, hsame⟩
          · obtain ⟨other, hother, hsame⟩ := hstop fun hsame => hindex (congrArg (· + 1) hsame)
            exact ⟨other, List.mem_cons_of_mem _ hother, hsame⟩

theorem length_rangesAround (cursor stop : ℚ) (cut : List TimeRange) :
    (rangesAround cursor stop cut).length = cut.length + 1 := by
  induction cut generalizing cursor with
  | nil => rfl
  | cons pause cut ih => exact congrArg (· + 1) (ih pause.stop)

/-! ## Empty stretches -/

/-- The times of events, in order. -/
structure EventTimes (times : List ℚ) : Prop where
  sorted : times.Pairwise (· ≤ ·)
  nonneg : ∀ t ∈ times, 0 ≤ t

theorem EventTimes.head?_eq_zero_iff (h : EventTimes times) :
    times.head? = some 0 ↔ (0 : ℚ) ∈ times := by
  cases times with
  | nil => simp
  | cons first times =>
      obtain ⟨hfirst, -⟩ := List.pairwise_cons.1 h.sorted
      rw [List.head?_cons, Option.some.injEq]
      constructor
      · rintro rfl
        exact List.mem_cons_self
      · intro hzero
        rcases List.mem_cons.1 hzero with hsame | hafter
        · exact hsame.symm
        · exact le_antisymm (hfirst 0 hafter) (h.nonneg first List.mem_cons_self)

theorem EventTimes.le_getLast? (h : EventTimes times) {last : ℚ}
    (hlast : times.getLast? = some last) : ∀ t ∈ times, t ≤ last := by
  obtain ⟨front, rfl⟩ := List.getLast?_eq_some_iff.1 hlast
  obtain ⟨-, -, hfront⟩ := List.pairwise_append.1 h.sorted
  intro t ht
  rcases List.mem_append.1 ht with ht | ht
  · exact hfront t ht last (List.mem_singleton_self last)
  · rw [List.mem_singleton.1 ht]

theorem EventTimes.getLast?_eq_iff (h : EventTimes times) (hstop : ∀ t ∈ times, t ≤ stop) :
    times.getLast? = some stop ↔ stop ∈ times := by
  constructor
  · exact List.mem_of_getLast?
  · intro hmem
    cases hlast : times.getLast? with
    | none =>
        rw [List.getLast?_eq_none_iff] at hlast
        rw [hlast] at hmem
        exact absurd hmem List.not_mem_nil
    | some last =>
        rw [le_antisymm (hstop last (List.mem_of_getLast? hlast)) (h.le_getLast? hlast stop hmem)]

/-- The times with the start and the end of the session. -/
theorem EventTimes.pairwise_boundaries (h : EventTimes times) (hzero : 0 ≤ stop)
    (hstop : ∀ t ∈ times, t ≤ stop) : (0 :: times ++ [stop]).Pairwise (· ≤ ·) := by
  have hall : ∀ t ∈ 0 :: times, t ≤ stop := by
    intro t ht
    rcases List.mem_cons.1 ht with rfl | ht
    · exact hzero
    · exact hstop t ht
  rw [List.pairwise_append]
  refine ⟨.cons h.nonneg h.sorted, List.pairwise_singleton _ _, fun t ht last hlast => ?_⟩
  rw [List.mem_singleton.1 hlast]
  exact hall t ht

theorem Pauses.within (h : Pauses (0 :: times ++ [stop]) cut) (htimes : EventTimes times)
    (hzero : 0 ≤ stop) (hstop : ∀ t ∈ times, t ≤ stop) :
    ∀ pause ∈ cut, 0 ≤ pause.start ∧ pause.stop ≤ stop := by
  have hbounds : ∀ t ∈ 0 :: times ++ [stop], 0 ≤ t ∧ t ≤ stop := by
    intro t ht
    rcases List.mem_append.1 ht with ht | ht
    · rcases List.mem_cons.1 ht with rfl | ht
      · exact ⟨le_refl 0, hzero⟩
      · exact ⟨htimes.nonneg t ht, hstop t ht⟩
    · rw [List.mem_singleton.1 ht]
      exact ⟨hzero, le_refl stop⟩
  exact fun pause hpause => ⟨(hbounds _ (h.start_mem pause hpause)).1,
    (hbounds _ (h.stop_mem pause hpause)).2⟩

theorem Pauses.tiles (h : Pauses (0 :: times ++ [stop]) cut) (htimes : EventTimes times)
    (hzero : 0 ≤ stop) (hstop : ∀ t ∈ times, t ≤ stop) :
    Tiles (fun item : AxisItem => item.range.start) (fun item => item.range.stop) 0 stop
      (interleaved 0 stop cut) :=
  tiles_interleaved h.ordered h.proper (h.within htimes hzero hstop) hzero

/-- A stretch that is not empty, or has an edit in it. -/
def holdsEdit (times : List ℚ) (range : TimeRange) : Bool :=
  range.start < range.stop || range.start ∈ times

theorem Pauses.keepsRange_eq (h : Pauses (0 :: times ++ [stop]) cut) (htimes : EventTimes times)
    (hzero : 0 ≤ stop) (hstop : ∀ t ∈ times, t ≤ stop) {range : TimeRange} {index : Nat}
    (hrange : (rangesAround 0 stop cut)[index]? = some range) :
    keepsRange times (rangesAround 0 stop cut).length range index = holdsEdit times range := by
  obtain ⟨hfirst, hstart, hlast, hend⟩ := rangesAround_spec hrange
  have hbounds := h.within htimes hzero hstop
  rw [keepsRange, holdsEdit, length_rangesAround, Nat.add_sub_cancel]
  by_cases hproper : range.start < range.stop
  · simp [hproper]
  · have hmem : ⟨.span, range⟩ ∈ interleaved 0 stop cut := by
      rw [(interleaved_perm 0 stop cut).mem_iff]
      exact List.mem_append_left _ (List.mem_map_of_mem (List.mem_of_getElem? hrange))
    have hempty : range.start = range.stop :=
      le_antisymm ((h.tiles htimes hzero hstop).within hmem).2.1 (not_lt.1 hproper)
    rw [decide_eq_false hproper, Bool.false_or, Bool.false_or]
    by_cases hindex : index = 0
    · rw [if_pos hindex, hfirst hindex]
      exact decide_eq_decide.2 htimes.head?_eq_zero_iff
    · rw [if_neg hindex]
      by_cases hcount : index = cut.length
      · rw [if_pos hcount, hempty, hlast hcount]
        exact decide_eq_decide.2 (htimes.getLast?_eq_iff hstop)
      · -- Between two pauses the boundary is neither the start nor the end of the session.
        rw [if_neg hcount]
        obtain ⟨before, hbefore, hleft⟩ := hstart (Nat.pos_of_ne_zero hindex)
        obtain ⟨after, hafter, hright⟩ := hend hcount
        have hpositive : 0 < range.start := by
          rw [hleft]
          exact (hbounds before hbefore).1.trans_lt (h.proper before hbefore)
        have hearlier : range.start < stop := by
          rw [hempty, hright]
          exact (h.proper after hafter).trans_le (hbounds after hafter).2
        have hboundary := h.stop_mem before hbefore
        rw [← hleft] at hboundary
        have hedit : range.start ∈ times := by
          rcases List.mem_append.1 hboundary with hfront | hback
          · rcases List.mem_cons.1 hfront with hsame | htime
            · exact absurd hsame (ne_of_gt hpositive)
            · exact htime
          · exact absurd (List.mem_singleton.1 hback) (ne_of_lt hearlier)
        exact (decide_eq_true hedit).symm

theorem Pauses.keptRanges_eq (h : Pauses (0 :: times ++ [stop]) cut) (htimes : EventTimes times)
    (hzero : 0 ≤ stop) (hstop : ∀ t ∈ times, t ≤ stop) :
    keptRanges times (rangesAround 0 stop cut) =
      (rangesAround 0 stop cut).filter (holdsEdit times) := by
  have hkeeps : (rangesAround 0 stop cut).zipIdx.filter (fun entry =>
      keepsRange times (rangesAround 0 stop cut).length entry.1 entry.2) =
        (rangesAround 0 stop cut).zipIdx.filter (holdsEdit times ∘ Prod.fst) := by
    apply List.filter_congr
    intro entry hentry
    exact h.keepsRange_eq htimes hzero hstop (List.mem_zipIdx_iff_getElem?.1 hentry)
  rw [keptRanges, hkeeps, ← List.filter_map, List.zipIdx_map_fst]

/-! ## The items in order -/

/-- A pause, or a stretch that is kept. -/
def keepsItem (times : List ℚ) (item : AxisItem) : Bool :=
  item.kind = .cut || holdsEdit times item.range

instance : Std.Total itemOrder := by
  constructor
  intro a b
  rcases lt_trichotomy a.range.start b.range.start with hlt | heq | hgt
  · exact Or.inl (Or.inl hlt)
  · cases hkind : a.kind with
    | span => exact Or.inl (Or.inr ⟨heq, Or.inl hkind⟩)
    | cut => exact Or.inr (Or.inr ⟨heq.symm, Or.inr hkind⟩)
  · exact Or.inr (Or.inl hgt)

instance : IsTrans AxisItem itemOrder := by
  constructor
  rintro a b c (hab | ⟨hab, hleft⟩) (hbc | ⟨hbc, hright⟩)
  · exact Or.inl (hab.trans hbc)
  · exact Or.inl (hbc ▸ hab)
  · exact Or.inl (hab ▸ hbc)
  · refine Or.inr ⟨hab.trans hbc, ?_⟩
    rcases hleft with hspan | hcut
    · exact Or.inl hspan
    · rcases hright with hspan | hlast
      · rw [hspan] at hcut
        cases hcut
      · exact Or.inr hlast

/-- Stretches have their own starts, since a pause lies between any two. -/
theorem rangesAround_ordered (hordered : cut.Pairwise fun a b => a.stop ≤ b.start)
    (hproper : ∀ pause ∈ cut, pause.start < pause.stop)
    (hcursor : ∀ pause ∈ cut, cursor ≤ pause.start) :
    (rangesAround cursor stop cut).Pairwise (fun a b => a.start < b.start) ∧
      ∀ range ∈ rangesAround cursor stop cut, cursor ≤ range.start := by
  induction cut generalizing cursor with
  | nil =>
      refine ⟨List.pairwise_singleton _ _, fun range hrange => ?_⟩
      rw [List.mem_singleton.1 hrange]
  | cons pause cut ih =>
      obtain ⟨hafter, hrest⟩ := List.pairwise_cons.1 hordered
      obtain ⟨hpairwise, hstarts⟩ := ih hrest
        (fun other hother => hproper other (List.mem_cons_of_mem _ hother)) hafter
      have hlt : cursor < pause.stop :=
        (hcursor pause List.mem_cons_self).trans_lt (hproper pause List.mem_cons_self)
      constructor
      · exact .cons (fun range hrange => hlt.trans_le (hstarts range hrange)) hpairwise
      · intro range hrange
        rcases List.mem_cons.1 hrange with rfl | hrange
        · exact le_refl _
        · exact hlt.le.trans (hstarts range hrange)

/-- Items of one kind that begin together are the same. -/
theorem Pauses.item_eq (h : Pauses (0 :: times ++ [stop]) cut) (htimes : EventTimes times)
    (hzero : 0 ≤ stop) (hstop : ∀ t ∈ times, t ≤ stop) {a b : AxisItem}
    (ha : a ∈ interleaved 0 stop cut) (hb : b ∈ interleaved 0 stop cut)
    (hkind : a.kind = b.kind) (hstart : a.range.start = b.range.start) : a = b := by
  have hitem : ∀ item ∈ interleaved 0 stop cut,
      (item.kind = .span ∧ item.range ∈ rangesAround 0 stop cut) ∨
        (item.kind = .cut ∧ item.range ∈ cut) := by
    intro item hitem
    rw [(interleaved_perm 0 stop cut).mem_iff, List.mem_append] at hitem
    rcases hitem with hspan | hcut
    · obtain ⟨range, hrange, rfl⟩ := List.mem_map.1 hspan
      exact Or.inl ⟨rfl, hrange⟩
    · obtain ⟨pause, hpause, rfl⟩ := List.mem_map.1 hcut
      exact Or.inr ⟨rfl, hpause⟩
  have hranges : (rangesAround 0 stop cut).Pairwise fun a b => a.start < b.start :=
    (rangesAround_ordered h.ordered h.proper
      fun pause hpause => (h.within htimes hzero hstop pause hpause).1).1
  have hcuts : cut.Pairwise fun a b => a.start < b.start :=
    h.ordered.imp_of_mem fun hfirst _ hbefore => (h.proper _ hfirst).trans_le hbefore
  have hsame : a.range = b.range := by
    rcases hitem a ha with ⟨hspan, harange⟩ | ⟨hcut, harange⟩
    · rcases hitem b hb with ⟨-, hbrange⟩ | ⟨hother, -⟩
      · rcases eq_or_before hranges harange hbrange with heq | hlt | hlt
        · exact heq
        · exact absurd hstart (ne_of_lt hlt)
        · exact absurd hstart.symm (ne_of_lt hlt)
      · rw [hkind, hother] at hspan
        cases hspan
    · rcases hitem b hb with ⟨hother, -⟩ | ⟨-, hbrange⟩
      · rw [hkind, hother] at hcut
        cases hcut
      · rcases eq_or_before hcuts harange hbrange with heq | hlt | hlt
        · exact heq
        · exact absurd hstart (ne_of_lt hlt)
        · exact absurd hstart.symm (ne_of_lt hlt)
  cases a
  cases b
  cases hkind
  cases hsame
  rfl

/-- The items are the pauses and the kept stretches, in the order of time. -/
theorem Pauses.axisItems_eq (h : Pauses (0 :: times ++ [stop]) cut) (htimes : EventTimes times)
    (hzero : 0 ≤ stop) (hstop : ∀ t ∈ times, t ≤ stop) :
    axisItems (keptRanges times (rangesAround 0 stop cut)) cut =
      (interleaved 0 stop cut).filter (keepsItem times) := by
  have htiles := h.tiles htimes hzero hstop
  have hperm : (axisItems (keptRanges times (rangesAround 0 stop cut)) cut).Perm
      ((interleaved 0 stop cut).filter (keepsItem times)) := by
    refine (List.perm_insertionSort itemOrder _).trans ?_
    refine .trans ?_ ((interleaved_perm 0 stop cut).filter (keepsItem times)).symm
    rw [List.filter_append, List.filter_map, List.filter_map,
      h.keptRanges_eq htimes hzero hstop]
    have hcuts : cut.filter (keepsItem times ∘ AxisItem.mk .cut) = cut :=
      List.filter_eq_self.2 fun _ _ => rfl
    rw [hcuts]
    exact .refl _
  have hsorted : ((interleaved 0 stop cut).filter (keepsItem times)).Pairwise itemOrder := by
    apply List.Pairwise.filter
    refine htiles.pairwise.imp_of_mem fun {a b} ha hb hbefore => ?_
    have hle := (htiles.within ha).2.1
    rcases (hle.trans hbefore).lt_or_eq with hlt | heq
    · exact Or.inl hlt
    · refine Or.inr ⟨heq, Or.inl ?_⟩
      rw [(interleaved_perm 0 stop cut).mem_iff, List.mem_append] at ha
      rcases ha with hspan | hcut
      · obtain ⟨range, -, rfl⟩ := List.mem_map.1 hspan
        rfl
      · obtain ⟨pause, hpause, rfl⟩ := List.mem_map.1 hcut
        have hproper := h.proper pause hpause
        exact absurd (hbefore.trans (le_of_eq heq.symm)) (not_le.2 hproper)
  have hitems : ∀ item ∈ axisItems (keptRanges times (rangesAround 0 stop cut)) cut,
      item ∈ interleaved 0 stop cut := by
    intro item hitem
    exact (List.mem_filter.1 (hperm.mem_iff.1 hitem)).1
  apply hperm.eq_of_pairwise _ (List.pairwise_insertionSort itemOrder _) hsorted
  intro a b ha hb hab hba
  have hstart : a.range.start = b.range.start := by
    rcases hab with hlt | ⟨heq, -⟩
    · rcases hba with hgt | ⟨heq, -⟩
      · exact absurd (hlt.trans hgt) (lt_irrefl _)
      · exact heq.symm
    · exact heq
  have hleft : a.kind = .span ∨ b.kind = .cut :=
    (hab.resolve_left fun hlt => absurd hstart (ne_of_lt hlt)).2
  have hright : b.kind = .span ∨ a.kind = .cut :=
    (hba.resolve_left fun hgt => absurd hstart.symm (ne_of_lt hgt)).2
  have hkind : a.kind = b.kind := by
    cases hfirst : a.kind with
    | span =>
        rcases hright with hsecond | hcut
        · exact hsecond.symm
        · rw [hfirst] at hcut
          cases hcut
    | cut =>
        rcases hleft with hspan | hsecond
        · rw [hfirst] at hspan
          cases hspan
        · exact hsecond.symm
  exact h.item_eq htimes hzero hstop (hitems a ha) (List.mem_filter.1 hb).1 hkind hstart

end Pmbah.Web
