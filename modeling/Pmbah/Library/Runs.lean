import Mathlib.Data.Finset.Card
import Mathlib.Data.Set.Card
import Mathlib.Data.List.Basic

/-!
# Maximal runs

The stretches of a list over which a predicate holds and which cannot be extended.
-/

namespace Pmbah.Library

namespace Runs

variable {α : Type} (holds : α → Bool)

def HoldsAt (l : List α) (i : ℕ) : Prop := l[i]?.any holds = true

instance (l : List α) (i : ℕ) : Decidable (HoldsAt holds l i) :=
  inferInstanceAs (Decidable (_ = true))

structure IsMaximalRun (l : List α) (start stop : ℕ) : Prop where
  nonempty : start < stop
  holds_at : ∀ i, start ≤ i → i < stop → HoldsAt holds l i
  not_before : ∀ i, i + 1 = start → ¬ HoldsAt holds l i
  not_after : ¬ HoldsAt holds l stop

def maximalRuns (l : List α) : Set (ℕ × ℕ) := {run | IsMaximalRun holds l run.1 run.2}

/-- The places at which a run begins. -/
def starts (l : List α) : Finset ℕ :=
  (Finset.range l.length).filter fun i =>
    HoldsAt holds l i ∧ (i = 0 ∨ ¬ HoldsAt holds l (i - 1))

variable {holds} {l : List α}

theorem HoldsAt.lt {i : ℕ} (h : HoldsAt holds l i) : i < l.length := by
  by_contra hlong
  rw [HoldsAt, List.getElem?_eq_none (not_lt.1 hlong)] at h
  cases h

/-- Two maximal runs that begin together end together. -/
theorem IsMaximalRun.stop_eq {start stop stop' : ℕ} (h : IsMaximalRun holds l start stop)
    (h' : IsMaximalRun holds l start stop') : stop = stop' := by
  have hstart := h.nonempty
  have hstart' := h'.nonempty
  by_contra hne
  rcases Nat.lt_or_gt_of_ne hne with hless | hless
  · exact h.not_after (h'.holds_at stop hstart.le hless)
  · exact h'.not_after (h.holds_at stop' hstart'.le hless)

/-- Where the predicate begins to hold a maximal run begins. -/
theorem exists_isMaximalRun {start : ℕ} (hholds : HoldsAt holds l start)
    (hbefore : ∀ i, i + 1 = start → ¬ HoldsAt holds l i) :
    ∃ stop, IsMaximalRun holds l start stop := by
  have hends : ∃ stop, start < stop ∧ ¬ HoldsAt holds l stop :=
    ⟨l.length, hholds.lt, fun h => absurd h.lt (lt_irrefl _)⟩
  obtain ⟨hless, hafter⟩ := Nat.find_spec hends
  refine ⟨Nat.find hends, hless, ?_, hbefore, hafter⟩
  intro i hle hi
  by_contra hnot
  have hne : i ≠ start := fun h => hnot (h ▸ hholds)
  exact Nat.find_min hends hi ⟨by omega, hnot⟩

theorem ncard_maximalRuns (holds : α → Bool) (l : List α) :
    (maximalRuns holds l).ncard = (starts holds l).card := by
  have himage : Prod.fst '' maximalRuns holds l = ↑(starts holds l) := by
    ext start
    rw [Set.mem_image, Finset.mem_coe, starts, Finset.mem_filter, Finset.mem_range]
    constructor
    · rintro ⟨⟨start, stop⟩, hrun, rfl⟩
      have hholds := hrun.holds_at start le_rfl hrun.nonempty
      refine ⟨hholds.lt, hholds, ?_⟩
      by_cases hzero : start = 0
      · exact .inl hzero
      · exact .inr (hrun.not_before (start - 1) (by show start - 1 + 1 = start; omega))
    · rintro ⟨-, hholds, hstart⟩
      have hbefore : ∀ i, i + 1 = start → ¬ HoldsAt holds l i := by
        rintro i rfl
        exact hstart.resolve_left (by omega)
      obtain ⟨stop, hrun⟩ := exists_isMaximalRun hholds hbefore
      exact ⟨(start, stop), hrun, rfl⟩
  have hinj : Set.InjOn Prod.fst (maximalRuns holds l) := by
    rintro ⟨start, stop⟩ hrun ⟨start', stop'⟩ hrun' hsame
    obtain rfl : start = start' := hsame
    exact congrArg (Prod.mk start) (hrun.stop_eq hrun')
  rw [← hinj.ncard_image, himage, Set.ncard_coe_finset]

theorem holdsAt_append_of_lt {i : ℕ} (h : i < l.length) (x : α) :
    HoldsAt holds (l ++ [x]) i ↔ HoldsAt holds l i := by
  rw [HoldsAt, List.getElem?_append_left h, HoldsAt]

theorem holdsAt_append_length (x : α) : HoldsAt holds (l ++ [x]) l.length ↔ holds x = true := by
  rw [HoldsAt, List.getElem?_concat_length]
  rfl

/-- What one more element adds to the runs. -/
theorem ncard_maximalRuns_concat (holds : α → Bool) (l : List α) (x : α) :
    (maximalRuns holds (l ++ [x])).ncard = (maximalRuns holds l).ncard +
      if holds x = true ∧ ¬ l.getLast?.any holds = true then 1 else 0 := by
  rw [ncard_maximalRuns, ncard_maximalRuns]
  have hlast : (l.length = 0 ∨ ¬ HoldsAt holds (l ++ [x]) (l.length - 1)) ↔
      ¬ l.getLast?.any holds = true := by
    rw [List.getLast?_eq_getElem?]
    by_cases hempty : l.length = 0
    · simp [List.eq_nil_of_length_eq_zero hempty]
    · rw [holdsAt_append_of_lt (by omega), HoldsAt]
      simp only [hempty, false_or]
  have hbefore : ∀ i ∈ Finset.range l.length,
      (HoldsAt holds (l ++ [x]) i ∧ (i = 0 ∨ ¬ HoldsAt holds (l ++ [x]) (i - 1)) ↔
        HoldsAt holds l i ∧ (i = 0 ∨ ¬ HoldsAt holds l (i - 1))) := by
    intro i hi
    rw [Finset.mem_range] at hi
    rw [holdsAt_append_of_lt hi, holdsAt_append_of_lt (by omega)]
  rw [starts, List.length_append, List.length_singleton, Finset.range_add_one,
    Finset.filter_insert, Finset.filter_congr hbefore]
  by_cases hbegins : holds x = true ∧ ¬ l.getLast?.any holds = true
  · rw [if_pos ⟨(holdsAt_append_length x).2 hbegins.1, hlast.2 hbegins.2⟩, if_pos hbegins,
      Finset.card_insert_of_notMem (by simp), starts]
  · rw [if_neg fun h => hbegins ⟨(holdsAt_append_length x).1 h.1, hlast.1 h.2⟩, if_neg hbegins,
      starts, Nat.add_zero]

theorem ncard_maximalRuns_nil (holds : α → Bool) : (maximalRuns holds []).ncard = 0 := by
  rw [ncard_maximalRuns]
  rfl

end Runs

end Pmbah.Library
