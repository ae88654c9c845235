import Mathlib.Data.List.Sort
import Mathlib.Tactic.NormNum.DivMod
import Pmbah.Library.Binary64
import Pmbah.Library.OrderedMap

/-!
# The percentiles of the delays

Nearest-rank percentiles, computed from a sorted list of the delays, or from how often
each of them occurred as an upload keeps it.
-/

namespace Pmbah.Analysis

open Library

structure ExactDelayPercentiles where
  p50 : Option Nat
  p90 : Option Nat
  p95 : Option Nat
  p99 : Option Nat

/-- The same computation for each of the four. -/
def ExactDelayPercentiles.ofEach (each : ℚ → Option Nat) : ExactDelayPercentiles where
  p50 := each (50 / 100)
  p90 := each (90 / 100)
  p95 := each (95 / 100)
  p99 := each (99 / 100)

/-- The smallest integer not below the product of a count and a literal, both in double
precision. -/
def rankOf (count : Nat) (fraction : ℚ) : Nat :=
  ⌈Binary64.round (count * Binary64.round fraction)⌉.toNat

def percentile (delays : List Nat) (fraction : ℚ) : Option Nat :=
  let delays := delays.mergeSort (· ≤ ·)
  if delays.length = 0 then none else delays[rankOf delays.length fraction - 1]?

/-! ## From counts -/

/-- A delay counted once more. -/
def countDelay (counts : OrderedMap Nat Nat) (delay : Nat) : OrderedMap Nat Nat :=
  counts.set delay ((counts.get? delay).getD 0 + 1)

def countDelays (delays : List Nat) : OrderedMap Nat Nat := delays.foldl countDelay ∅

/-- The first delay at which the cumulative count reaches a rank. -/
def delayReaching (rank : Nat) : Nat → List (Nat × Nat) → Option Nat
  | _, [] => none
  | cumulative, (delay, count) :: entries =>
      if rank ≤ cumulative + count then some delay
      else delayReaching rank (cumulative + count) entries

def percentileValues (entries : List (Nat × Nat)) : ExactDelayPercentiles :=
  let total := (entries.map Prod.snd).sum
  .ofEach fun fraction =>
    delayReaching (rankOf total fraction) 0 (entries.mergeSort fun a b => a.1 ≤ b.1)

/-! ## The ranks -/

/-- The shares of the count that the four percentiles stand for. -/
def percents : List Nat := [50, 90, 95, 99]

/-- The literals are off by less than a product can show. -/
theorem abs_literal_sub_le : ∀ c ∈ percents,
    |(c / 100 : ℚ) - Binary64.round (c / 100)| ≤ Binary64.round (c / 100) / 2 ^ 54 := by
  decide +kernel

theorem ExactDelayPercentiles.ofEach_congr {f g : ℚ → Option Nat}
    (h : ∀ c ∈ percents, f (c / 100) = g (c / 100)) :
    ExactDelayPercentiles.ofEach f = .ofEach g := by
  have h50 := h 50 (by decide)
  have h90 := h 90 (by decide)
  have h95 := h 95 (by decide)
  have h99 := h 99 (by decide)
  push_cast at h50 h90 h95 h99
  simp only [ofEach, h50, h90, h95, h99]

theorem percents_le : ∀ c ∈ percents, 0 < c ∧ c ≤ 100 := by decide

/-- Double precision does not move a rank. -/
theorem rankOf_eq {n c : Nat} (hn : 0 < n) (hsize : n ≤ 2 ^ 31) (hc : c ∈ percents) :
    rankOf n (c / 100) = (n * c + 99) / 100 := by
  obtain ⟨hpos, hle⟩ := percents_le c hc
  rw [rankOf, Binary64.ceil_round_mul hn hsize hpos hle (abs_literal_sub_le c hc),
    Int.toNat_natCast]

theorem rankOf_pos {n c : Nat} (hn : 0 < n) (hsize : n ≤ 2 ^ 31) (hc : c ∈ percents) :
    0 < rankOf n (c / 100) := by
  rw [rankOf_eq hn hsize hc]
  have hproduct := Nat.mul_pos hn (percents_le c hc).1
  omega

/-! ## What a percentile is -/

/-- The least of the delays that this many percent of them do not exceed. -/
structure IsPercentile (percent : Nat) (delays : List Nat) (delay : Nat) : Prop where
  mem : delay ∈ delays
  reaches : percent * delays.length ≤ 100 * delays.countP (· ≤ delay)
  least : ∀ d < delay, 100 * delays.countP (· ≤ d) < percent * delays.length

theorem IsPercentile.of_perm {percent delay : Nat} {delays sorted : List Nat}
    (hperm : sorted.Perm delays) (h : IsPercentile percent sorted delay) :
    IsPercentile percent delays delay where
  mem := hperm.mem_iff.1 h.mem
  reaches := by
    rw [← hperm.countP_eq, ← hperm.length_eq]
    exact h.reaches
  least := by
    intro d hd
    rw [← hperm.countP_eq, ← hperm.length_eq]
    exact h.least d hd

/-- A larger share has no smaller percentile. -/
theorem IsPercentile.mono {p q x y : Nat} {delays : List Nat} (hp : IsPercentile p delays x)
    (hq : IsPercentile q delays y) (hle : p ≤ q) : x ≤ y := by
  by_contra hless
  have hbelow := hp.least y (not_le.1 hless)
  have hreach := hq.reaches
  have hshare := Nat.mul_le_mul_right delays.length hle
  omega

/-- In a sorted list the delays up to a place do not exceed what stands there. -/
theorem le_countP_of_sorted {sorted : List Nat} (hsorted : sorted.Pairwise (· ≤ ·)) {k : Nat}
    (hk : k < sorted.length) : k + 1 ≤ sorted.countP (· ≤ sorted[k]) := by
  have hall : ∀ d ∈ sorted.take (k + 1), decide (d ≤ sorted[k]) = true := by
    intro d hd
    obtain ⟨i, hi, rfl⟩ := List.mem_iff_getElem.1 hd
    rw [List.length_take] at hi
    rw [List.getElem_take, decide_eq_true_iff]
    by_cases hlast : i = k
    · subst hlast
      exact le_rfl
    · exact List.pairwise_iff_getElem.1 hsorted i k (by omega) hk (by omega)
  have htake := List.countP_eq_length.2 hall
  have hsplit : (sorted.take (k + 1) ++ sorted.drop (k + 1)).countP (· ≤ sorted[k]) = _ :=
    List.countP_append
  rw [List.take_append_drop, htake, List.length_take] at hsplit
  omega

/-- What is smaller than an element stands before it. -/
theorem countP_le_of_sorted {sorted : List Nat} (hsorted : sorted.Pairwise (· ≤ ·)) {k : Nat}
    (hk : k < sorted.length) {d : Nat} (hd : d < sorted[k]) : sorted.countP (· ≤ d) ≤ k := by
  have hnone : ∀ a ∈ sorted.drop k, ¬ decide (a ≤ d) = true := by
    intro a ha
    obtain ⟨i, hi, rfl⟩ := List.mem_iff_getElem.1 ha
    rw [List.length_drop] at hi
    rw [List.getElem_drop, decide_eq_true_iff]
    by_cases hfirst : i = 0
    · subst hfirst
      exact not_le.2 hd
    · have hle := List.pairwise_iff_getElem.1 hsorted k (k + i) hk (by omega) (by omega)
      omega
  have hdrop := List.countP_eq_zero.2 hnone
  have hsplit : (sorted.take k ++ sorted.drop k).countP (· ≤ d) = _ := List.countP_append
  have htake := List.countP_le_length (p := (· ≤ d)) (l := sorted.take k)
  rw [List.take_append_drop, hdrop] at hsplit
  rw [List.length_take] at htake
  omega

theorem sorted_mergeSort (delays : List Nat) : (delays.mergeSort (· ≤ ·)).Pairwise (· ≤ ·) :=
  List.pairwise_mergeSort' (· ≤ ·) delays

theorem percentile_eq {delays : List Nat} (hne : delays ≠ []) (fraction : ℚ) :
    percentile delays fraction =
      (delays.mergeSort (· ≤ ·))[rankOf delays.length fraction - 1]? := by
  have hlength := (List.mergeSort_perm delays (· ≤ ·)).length_eq
  have hpos : delays.length ≠ 0 := fun h => hne (List.eq_nil_of_length_eq_zero h)
  simp only [percentile]
  rw [hlength, if_neg hpos]

/-- What is picked from the sorted delays is the percentile. -/
theorem percentile_spec {delays : List Nat} (hne : delays ≠ []) (hsize : delays.length ≤ 2 ^ 31)
    {c : Nat} (hc : c ∈ percents) :
    ∃ delay, percentile delays (c / 100) = some delay ∧ IsPercentile c delays delay := by
  have hperm := List.mergeSort_perm delays (· ≤ ·)
  have hsorted := sorted_mergeSort delays
  have hpos : 0 < delays.length := List.length_pos_iff.2 hne
  rw [percentile_eq hne, rankOf_eq hpos hsize hc]
  generalize delays.mergeSort (· ≤ ·) = sorted at hperm hsorted
  rw [← hperm.length_eq] at hpos ⊢
  obtain ⟨hcpos, hcle⟩ := percents_le c hc
  have hproduct := Nat.mul_pos hpos hcpos
  have hshare : sorted.length * c ≤ sorted.length * 100 := Nat.mul_le_mul_left _ hcle
  have hcomm := Nat.mul_comm sorted.length c
  have hk : (sorted.length * c + 99) / 100 - 1 < sorted.length := by omega
  refine ⟨_, List.getElem?_eq_getElem hk,
    IsPercentile.of_perm hperm ⟨List.getElem_mem hk, ?_, ?_⟩⟩
  · have hcount := le_countP_of_sorted hsorted hk
    omega
  · intro d hd
    have hcount := countP_le_of_sorted hsorted hk hd
    omega

/-! ## The counts give the same -/

/-- The delays that are counted, each as often as it was. -/
def expand (entries : List (Nat × Nat)) : List Nat :=
  entries.flatMap fun entry => List.replicate entry.2 entry.1

@[simp] theorem expand_cons (entry : Nat × Nat) (entries : List (Nat × Nat)) :
    expand (entry :: entries) = List.replicate entry.2 entry.1 ++ expand entries := by
  rw [expand, List.flatMap_cons]
  rfl

theorem length_expand (entries : List (Nat × Nat)) :
    (expand entries).length = (entries.map Prod.snd).sum := by
  induction entries with
  | nil => rfl
  | cons entry entries ih => simp [ih]

theorem count_expand {entries : List (Nat × Nat)} (hnodup : (entries.map Prod.fst).Nodup)
    (delay : Nat) : (expand entries).count delay = (entries.lookup delay).getD 0 := by
  induction entries with
  | nil => rfl
  | cons entry entries ih =>
      rw [List.map_cons, List.nodup_cons] at hnodup
      rw [expand_cons, List.count_append, ih hnodup.2, List.lookup_cons, List.count_replicate]
      by_cases hkey : delay = entry.1
      · have habsent := OrderedMap.lookup_eq_none_of_not_mem hnodup.1
        simp [hkey, habsent]
      · have hother : (delay == entry.1) = false := beq_eq_false_iff_ne.2 hkey
        simp [hother, Ne.symm hkey]

theorem get?_countDelays (delays : List Nat) (delay : Nat) :
    ((countDelays delays).get? delay).getD 0 = delays.count delay := by
  induction delays using List.reverseRecOn with
  | nil => rfl
  | append_singleton delays last ih =>
      have hcounts : countDelays (delays ++ [last]) = countDelay (countDelays delays) last := by
        rw [countDelays, List.foldl_append]
        rfl
      rw [hcounts, countDelay, List.count_append]
      by_cases hlast : delay = last
      · subst hlast
        rw [OrderedMap.get?_set_self, Option.getD_some, ih, List.count_singleton_self]
      · have habsent : delay ∉ [last] := fun hmem => hlast (List.mem_singleton.1 hmem)
        rw [OrderedMap.get?_set_ne _ _ hlast, ih, List.count_eq_zero.2 habsent, Nat.add_zero]

theorem expand_countDelays_perm (delays : List Nat) :
    (expand (countDelays delays).entries).Perm delays := by
  rw [List.perm_iff_count]
  intro delay
  rw [count_expand (countDelays delays).nodup, ← get?_countDelays]
  rfl

/-- Sorting the entries sorts the delays they stand for. -/
theorem expand_sorted {entries : List (Nat × Nat)}
    (h : entries.Pairwise fun earlier later => earlier.1 ≤ later.1) :
    (expand entries).Pairwise (· ≤ ·) := by
  induction entries with
  | nil => exact .nil
  | cons entry entries ih =>
      rw [List.pairwise_cons] at h
      rw [expand_cons, List.pairwise_append]
      refine ⟨List.pairwise_replicate.2 (.inr le_rfl), ih h.2, ?_⟩
      intro a ha b hb
      obtain rfl := List.eq_of_mem_replicate ha
      obtain ⟨later, hlater, hb⟩ := List.mem_flatMap.1 hb
      obtain rfl := List.eq_of_mem_replicate hb
      exact h.1 later hlater

theorem delayReaching_eq (rank : Nat) (entries : List (Nat × Nat)) (cumulative : Nat)
    (h : cumulative < rank) :
    delayReaching rank cumulative entries = (expand entries)[rank - cumulative - 1]? := by
  induction entries generalizing cumulative with
  | nil => rfl
  | cons entry entries ih =>
      rw [delayReaching, expand_cons]
      by_cases hreached : rank ≤ cumulative + entry.2
      · rw [if_pos hreached, List.getElem?_append_left (by rw [List.length_replicate]; omega),
          List.getElem?_replicate, if_pos (by omega)]
      · rw [if_neg hreached, List.getElem?_append_right (by rw [List.length_replicate]; omega),
          ih _ (by omega), List.length_replicate]
        congr 1
        omega

theorem pairwise_sortedEntries (entries : List (Nat × Nat)) :
    (entries.mergeSort fun a b => a.1 ≤ b.1).Pairwise
      fun earlier later => earlier.1 ≤ later.1 := by
  have hsorted : (entries.mergeSort fun a b => a.1 ≤ b.1).Pairwise
      fun earlier later => decide (earlier.1 ≤ later.1) = true := by
    apply List.pairwise_mergeSort
    · intro a b c hab hbc
      rw [decide_eq_true_iff] at hab hbc ⊢
      exact le_trans hab hbc
    · intro a b
      rw [Bool.or_eq_true, decide_eq_true_iff, decide_eq_true_iff]
      exact le_total a.1 b.1
  exact hsorted.imp fun h => of_decide_eq_true h

/-- Sorting entries that stand for the delays sorts the delays. -/
theorem expand_mergeSort {delays : List Nat} {entries : List (Nat × Nat)}
    (hdelays : (expand entries).Perm delays) :
    expand (entries.mergeSort fun a b => a.1 ≤ b.1) = delays.mergeSort (· ≤ ·) := by
  have hentries := List.mergeSort_perm entries fun a b => a.1 ≤ b.1
  have hexpand : (expand (entries.mergeSort fun a b => a.1 ≤ b.1)).Perm delays :=
    (hentries.flatMap_right _).trans hdelays
  apply List.Perm.eq_of_pairwise' (r := (· ≤ ·))
  · exact expand_sorted (pairwise_sortedEntries entries)
  · exact sorted_mergeSort delays
  · exact hexpand.trans (List.mergeSort_perm delays (· ≤ ·)).symm

/-- The walk over the sorted entries stops at the rank in the sorted delays. -/
theorem delayReaching_sorted {delays : List Nat} {entries : List (Nat × Nat)} {rank : Nat}
    (hdelays : (expand entries).Perm delays) (hrank : 0 < rank) :
    delayReaching rank 0 (entries.mergeSort fun a b => a.1 ≤ b.1) =
      (delays.mergeSort (· ≤ ·))[rank - 1]? := by
  rw [delayReaching_eq rank _ 0 hrank, expand_mergeSort hdelays]
  rfl

/-- The percentiles of an upload are those of its delays. -/
theorem percentileValues_countDelays {delays : List Nat} (hsize : delays.length ≤ 2 ^ 31) :
    percentileValues (countDelays delays).entries = .ofEach (percentile delays) := by
  have hdelays := expand_countDelays_perm delays
  have htotal : ((countDelays delays).entries.map Prod.snd).sum = delays.length := by
    rw [← length_expand, hdelays.length_eq]
  simp only [percentileValues, htotal]
  apply ExactDelayPercentiles.ofEach_congr
  intro c hc
  by_cases hempty : delays = []
  · subst hempty
    have hnone : ((countDelays []).entries.mergeSort fun a b => a.1 ≤ b.1) = [] :=
      List.mergeSort_nil
    simp [hnone, delayReaching, percentile]
  · have hpos : 0 < delays.length := List.length_pos_iff.2 hempty
    rw [delayReaching_sorted hdelays (rankOf_pos hpos hsize hc), percentile_eq hempty]

end Pmbah.Analysis
