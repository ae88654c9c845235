import Pmbah.Analysis.Percentiles

/-!
# Percentiles from counts, exactly

One pass over the sorted counts advances all four percentiles.  With exact fractions it
finds what stands at their ranks in the sorted delays, however many there are.
-/

namespace Pmbah.Analysis

open Library

/-- `Math.ceil` of a share of the count, without rounding. -/
def exactRank (count : Nat) (fraction : ℚ) : Nat := ⌈count * fraction⌉.toNat

def exactPercentile (delays : List Nat) (fraction : ℚ) : Option Nat :=
  let delays := delays.mergeSort (· ≤ ·)
  if delays.length = 0 then none else delays[exactRank delays.length fraction - 1]?

/-- A percentile that is open takes the delay at which its rank is reached. -/
def reach (total cumulative delay : Nat) (fraction : ℚ) (result : Option Nat) : Option Nat :=
  if result = none ∧ exactRank total fraction ≤ cumulative then some delay else result

def walkEntry (total : Nat) (state : Nat × ExactDelayPercentiles) (entry : Nat × Nat) :
    Nat × ExactDelayPercentiles :=
  let cumulative := state.1 + entry.2
  (cumulative,
    { p50 := reach total cumulative entry.1 (50 / 100) state.2.p50
      p90 := reach total cumulative entry.1 (90 / 100) state.2.p90
      p95 := reach total cumulative entry.1 (95 / 100) state.2.p95
      p99 := reach total cumulative entry.1 (99 / 100) state.2.p99 })

/-- `percentileValues`, without rounding. -/
def exactPercentileValues (entries : List (Nat × Nat)) : ExactDelayPercentiles :=
  let total := (entries.map Prod.snd).sum
  ((entries.mergeSort fun a b => a.1 ≤ b.1).foldl (walkEntry total)
    (0, ⟨none, none, none, none⟩)).2

def ExactDelayPercentiles.values (percentiles : ExactDelayPercentiles) : List (Option Nat) :=
  [percentiles.p50, percentiles.p90, percentiles.p95, percentiles.p99]

/-- The delays of one chunk after another, as an upload counts them. -/
def countChunks (chunks : List (List Nat)) : OrderedMap Nat Nat :=
  chunks.foldl (fun counts chunk => chunk.foldl countDelay counts) ∅

/-! ## The walk -/

theorem reach_or (total cumulative : Nat) (entry : Nat × Nat) (entries : List (Nat × Nat))
    (fraction : ℚ) (result : Option Nat) :
    (reach total (cumulative + entry.2) entry.1 fraction result).or
        (delayReaching (exactRank total fraction) (cumulative + entry.2) entries) =
      result.or (delayReaching (exactRank total fraction) cumulative (entry :: entries)) := by
  rw [reach, delayReaching]
  cases result with
  | none =>
      by_cases hreached : exactRank total fraction ≤ cumulative + entry.2
      · rw [if_pos ⟨rfl, hreached⟩, if_pos hreached]
        rfl
      · rw [if_neg fun h => hreached h.2, if_neg hreached]
  | some delay =>
      rw [if_neg fun h => Option.some_ne_none _ h.1]
      rfl

/-- Each percentile goes its own way through the pass. -/
theorem foldl_walkEntry (total : Nat) (entries : List (Nat × Nat))
    (state : Nat × ExactDelayPercentiles) :
    (entries.foldl (walkEntry total) state).2 =
      { p50 := state.2.p50.or (delayReaching (exactRank total (50 / 100)) state.1 entries)
        p90 := state.2.p90.or (delayReaching (exactRank total (90 / 100)) state.1 entries)
        p95 := state.2.p95.or (delayReaching (exactRank total (95 / 100)) state.1 entries)
        p99 := state.2.p99.or (delayReaching (exactRank total (99 / 100)) state.1 entries) } := by
  induction entries generalizing state with
  | nil => simp [delayReaching]
  | cons entry entries ih =>
      rw [List.foldl_cons, ih]
      simp only [walkEntry, reach_or]

theorem exactPercentileValues_eq (entries : List (Nat × Nat)) :
    exactPercentileValues entries = .ofEach fun fraction =>
      delayReaching (exactRank (entries.map Prod.snd).sum fraction) 0
        (entries.mergeSort fun a b => a.1 ≤ b.1) := by
  rw [exactPercentileValues, foldl_walkEntry]
  rfl

/-! ## The ranks -/

theorem fraction_pos {c : Nat} (hc : c ∈ percents) : (0 : ℚ) < c / 100 := by
  have hpos : (0 : ℚ) < c := Nat.cast_pos.2 (percents_le c hc).1
  positivity

theorem exactRank_pos {n c : Nat} (hn : 0 < n) (hc : c ∈ percents) :
    0 < exactRank n (c / 100) := by
  have hpos : (0 : ℚ) < n * (c / 100) := mul_pos (Nat.cast_pos.2 hn) (fraction_pos hc)
  have hceil := Int.ceil_pos.2 hpos
  rw [exactRank]
  omega

theorem exactRank_le {n c : Nat} (hc : c ∈ percents) : exactRank n (c / 100) ≤ n := by
  have hle : (c : ℚ) / 100 ≤ 1 := by
    rw [div_le_one (by norm_num)]
    exact_mod_cast (percents_le c hc).2
  have hproduct : (n : ℚ) * (c / 100) ≤ ((n : ℤ) : ℚ) := by
    push_cast
    exact mul_le_of_le_one_right (Nat.cast_nonneg n) hle
  have hceil := Int.ceil_le.2 hproduct
  rw [exactRank]
  omega

/-- There is a delay at every rank of a list that is not empty. -/
theorem exactPercentile_eq_none_iff {delays : List Nat} {c : Nat} (hc : c ∈ percents) :
    exactPercentile delays (c / 100) = none ↔ delays = [] := by
  have hlength := (List.mergeSort_perm delays (· ≤ ·)).length_eq
  simp only [exactPercentile, hlength]
  by_cases hempty : delays = []
  · subst hempty
    simp
  · have hpos : 0 < delays.length := List.length_pos_iff.2 hempty
    have hrank := exactRank_pos hpos hc
    have hlast : exactRank delays.length (c / 100) ≤ delays.length := exactRank_le hc
    rw [if_neg hpos.ne', List.getElem?_eq_none_iff, hlength]
    refine ⟨fun h => ?_, fun h => absurd h hempty⟩
    omega

/-! ## The counts -/

theorem countChunks_eq (chunks : List (List Nat)) :
    countChunks chunks = countDelays chunks.flatten := by
  rw [countChunks, countDelays, List.foldl_flatten]

theorem countDelay_pos {counts : OrderedMap Nat Nat}
    (h : ∀ entry ∈ counts.entries, 0 < entry.2) (delay : Nat) :
    ∀ entry ∈ (countDelay counts delay).entries, 0 < entry.2 := by
  rintro ⟨found, count⟩ hentry
  rw [OrderedMap.mem_entries_iff, countDelay, OrderedMap.get?_set] at hentry
  split at hentry
  · cases hentry
    exact Nat.succ_pos _
  · exact h _ (OrderedMap.mem_entries_iff.2 hentry)

/-- A delay that is counted has occurred. -/
theorem countDelays_pos (delays : List Nat) :
    ∀ entry ∈ (countDelays delays).entries, 0 < entry.2 := by
  induction delays using List.reverseRecOn with
  | nil => exact fun entry hentry => absurd hentry List.not_mem_nil
  | append_singleton delays delay ih =>
      rw [countDelays, List.foldl_append]
      exact countDelay_pos ih delay

/-- The percentiles of entries that stand for the delays. -/
theorem exactPercentileValues_expand {delays : List Nat} {entries : List (Nat × Nat)}
    (hcounts : ∀ entry ∈ entries, 0 < entry.2) (hdelays : (expand entries).Perm delays) :
    exactPercentileValues entries = .ofEach (exactPercentile delays) := by
  have htotal : (entries.map Prod.snd).sum = delays.length := by
    rw [← length_expand, hdelays.length_eq]
  have hlength := (List.mergeSort_perm delays (· ≤ ·)).length_eq
  rw [exactPercentileValues_eq, htotal]
  apply ExactDelayPercentiles.ofEach_congr
  intro c hc
  simp only [exactPercentile, hlength]
  by_cases hempty : delays = []
  · -- No delays leave no entries, as every entry counts some.
    subst hempty
    have hnone : entries = [] := by
      cases entries with
      | nil => rfl
      | cons entry entries =>
          have hpos := hcounts entry List.mem_cons_self
          rw [List.map_cons, List.sum_cons, List.length_nil] at htotal
          omega
    subst hnone
    simp [delayReaching]
  · have hpos : 0 < delays.length := List.length_pos_iff.2 hempty
    rw [delayReaching_sorted hdelays (exactRank_pos hpos hc), if_neg hpos.ne']

/-- There are percentiles exactly when there are delays. -/
theorem values_eq_none_iff (delays : List Nat) :
    ∀ value ∈ (ExactDelayPercentiles.ofEach (exactPercentile delays)).values,
      value = none ↔ delays = [] := by
  have heach : ∀ c ∈ percents, exactPercentile delays (c / 100) = none ↔ delays = [] :=
    fun c hc => exactPercentile_eq_none_iff hc
  have h50 := heach 50 (by decide)
  have h90 := heach 90 (by decide)
  have h95 := heach 95 (by decide)
  have h99 := heach 99 (by decide)
  push_cast at h50 h90 h95 h99
  simp only [ExactDelayPercentiles.values, ExactDelayPercentiles.ofEach, List.forall_mem_cons]
  exact ⟨h50, h90, h95, h99, fun value hvalue => absurd hvalue List.not_mem_nil⟩

/-- Whatever entries stand for the delays, the percentiles are those of the sorted delays,
and there are none exactly when there are no delays.  Counting the delays chunk by chunk
gives such entries. -/
theorem exactPercentileValues_exact :
    (∀ delays entries, (∀ entry ∈ entries, 0 < entry.2) → (expand entries).Perm delays →
      exactPercentileValues entries = .ofEach (exactPercentile delays) ∧
        ∀ value ∈ (exactPercentileValues entries).values, value = none ↔ delays = []) ∧
    ∀ chunks entries, entries.Perm (countChunks chunks).entries →
      exactPercentileValues entries = .ofEach (exactPercentile chunks.flatten) ∧
        ∀ value ∈ (exactPercentileValues entries).values, value = none ↔ chunks.flatten = [] := by
  have hexact : ∀ delays entries, (∀ entry ∈ entries, 0 < entry.2) →
      (expand entries).Perm delays →
      exactPercentileValues entries = .ofEach (exactPercentile delays) ∧
        ∀ value ∈ (exactPercentileValues entries).values, value = none ↔ delays = [] := by
    intro delays entries hcounts hdelays
    rw [exactPercentileValues_expand hcounts hdelays]
    exact ⟨rfl, values_eq_none_iff delays⟩
  refine ⟨hexact, ?_⟩
  intro chunks entries hentries
  rw [countChunks_eq] at hentries
  apply hexact
  · intro entry hentry
    exact countDelays_pos chunks.flatten entry (hentries.mem_iff.1 hentry)
  · exact (hentries.flatMap_right _).trans (expand_countDelays_perm chunks.flatten)

/-- Three delays in two chunks, with the entries in the other order. -/
theorem exactPercentileValues_exact_chunks :
    exactPercentileValues [(4, 1), (7, 2)] = .ofEach (exactPercentile [7, 4, 7]) ∧
      exactPercentileValues [(7, 2), (4, 1)] = .ofEach (exactPercentile [7, 4, 7]) := by
  refine ⟨?_, ?_⟩
  · exact (exactPercentileValues_exact.1 [7, 4, 7] [(4, 1), (7, 2)] (by decide) (by decide)).1
  · exact (exactPercentileValues_exact.2 [[7, 4], [7]] [(7, 2), (4, 1)] (by decide)).1

end Pmbah.Analysis
