import Mathlib.Data.List.Basic
import Mathlib.Data.List.Induction
import Mathlib.Data.List.TakeDrop
import Mathlib.Data.List.TakeWhile
import Mathlib.Tactic.Common

/-!
# Tables of numbered rows

The rows of one key range, in the order of their numbers.  A row is added under
its own number, and adding a number that is present fails.  A log whose rows are
numbered by position can be added piece by piece in one way only.
-/

namespace Pmbah.Library.RowTable

variable {ρ : Type} (number : ρ → Nat)

def add (rows : List ρ) (row : ρ) : Option (List ρ) :=
  if rows.any fun stored => number stored == number row then none
  else some (rows.takeWhile (fun stored => number stored < number row) ++
    row :: rows.dropWhile (fun stored => number stored < number row))

def addAll : List ρ → List ρ → Option (List ρ)
  | rows, [] => some rows
  | rows, row :: more => (add number rows row).bind fun rows => addAll rows more

/-- Every row carries its position. -/
def Numbered (log : List ρ) : Prop := ∀ i row, log[i]? = some row → number row = i

variable {number}

theorem Numbered.of_append {log more : List ρ} (h : Numbered number (log ++ more)) :
    Numbered number log := by
  intro i row hrow
  apply h i row
  rw [List.getElem?_append_left (List.getElem?_eq_some_iff.1 hrow).1, hrow]

theorem Numbered.number_lt {log : List ρ} (h : Numbered number log) {row : ρ}
    (hrow : row ∈ log) : number row < log.length := by
  obtain ⟨i, hi, rfl⟩ := List.mem_iff_getElem.1 hrow
  rw [h i log[i] (List.getElem?_eq_getElem hi)]
  exact hi

/-- The rows of a range of numbers stand where their numbers say. -/
theorem Numbered.filter_range {log : List ρ} (h : Numbered number log) (start stop : Nat) :
    log.filter (fun row => decide (start ≤ number row) && decide (number row < stop)) =
      (log.take stop).drop start := by
  induction log using List.reverseRecOn with
  | nil => simp
  | append_singleton log row ih =>
      have hrow : number row = log.length := h log.length row (by simp)
      rw [List.filter_append, ih h.of_append]
      by_cases hstop : log.length < stop
      · rw [List.take_of_length_le (by omega), List.take_of_length_le (by simp; omega)]
        by_cases hstart : start ≤ log.length
        · rw [List.drop_append_of_le_length hstart]
          simp [hrow, hstart, hstop]
        · rw [List.drop_of_length_le (by omega), List.drop_of_length_le (by simp; omega)]
          simp [hrow, hstart]
      · rw [List.take_append_of_le_length (by omega)]
        simp [hrow, hstop]

theorem add_eq_none {rows : List ρ} {row stored : ρ} (hstored : stored ∈ rows)
    (h : number stored = number row) : add number rows row = none := by
  rw [add, if_pos]
  rw [List.any_eq_true]
  exact ⟨stored, hstored, by simpa using h⟩

theorem add_last {rows : List ρ} {row : ρ} (h : ∀ stored ∈ rows, number stored < number row) :
    add number rows row = some (rows ++ [row]) := by
  have hall : ∀ stored ∈ rows, decide (number stored < number row) = true :=
    fun stored hstored => decide_eq_true (h stored hstored)
  rw [add, if_neg, List.takeWhile_eq_self_iff.2 hall, List.dropWhile_eq_nil_iff.2 hall]
  simp only [List.any_eq_true, beq_iff_eq, not_exists, not_and]
  intro stored hstored heq
  have := h stored hstored
  omega

/-- The rows that continue a numbered log are added behind it. -/
theorem addAll_append {rows more : List ρ} (h : Numbered number (rows ++ more)) :
    addAll number rows more = some (rows ++ more) := by
  induction more generalizing rows with
  | nil => simp [addAll]
  | cons row more ih =>
      have hrow : number row = rows.length := h rows.length row (by simp)
      have hlast : add number rows row = some (rows ++ [row]) := by
        apply add_last
        intro stored hstored
        rw [hrow]
        exact h.of_append.number_lt hstored
      rw [addAll, hlast]
      have hmore : Numbered number ((rows ++ [row]) ++ more) := by simpa using h
      rw [Option.bind_some, ih hmore]
      simp

/-- Adding a piece of a log to a prefix that reaches past its start fails. -/
theorem addAll_eq_none {log piece : List ρ} {start stored : Nat}
    (hlt : start < stored) (hpiece : piece <+: log.drop start) (hne : piece ≠ []) :
    addAll number (log.take stored) piece = none := by
  cases piece with
  | nil => exact absurd rfl hne
  | cons row more =>
      have hrow : log[start]? = some row := by
        obtain ⟨rest, hrest⟩ := hpiece
        have := congrArg List.head? hrest
        rw [List.head?_drop] at this
        simpa using this.symm
      have hmem : row ∈ log.take stored :=
        List.mem_iff_getElem?.2 ⟨start, by rw [List.getElem?_take_of_lt hlt, hrow]⟩
      rw [addAll, add_eq_none hmem rfl]
      rfl

/-- What adding a piece of a log that starts no later than the end of the stored
prefix gives, when it succeeds. -/
theorem addAll_eq_some {log piece rows : List ρ} (h : Numbered number log)
    {start stored : Nat} (hle : start ≤ stored) (hpiece : piece <+: log.drop start)
    (hadd : addAll number (log.take stored) piece = some rows) :
    rows = log.take (stored + piece.length) ∧ (piece = [] ∨ start = stored) := by
  by_cases hne : piece = []
  · subst hne
    simp only [addAll, Option.some.injEq] at hadd
    exact ⟨by simp [← hadd], Or.inl rfl⟩
  · have heq : start = stored := by
      by_contra hstart
      have hlt : start < stored := by omega
      rw [addAll_eq_none hlt hpiece hne] at hadd
      cases hadd
    subst heq
    have htake : log.take start ++ piece = log.take (start + piece.length) := by
      rw [List.take_add, ← List.prefix_iff_eq_take.1 hpiece]
    have hnumbered : Numbered number (log.take start ++ piece) := by
      have hsplit : (log.take start ++ piece) ++ log.drop (start + piece.length) = log := by
        rw [htake, List.take_append_drop]
      exact Numbered.of_append (hsplit.symm ▸ h)
    rw [addAll_append hnumbered, Option.some.injEq] at hadd
    exact ⟨by rw [← hadd, htake], Or.inr rfl⟩

/-- The same for a stored prefix and a queued suffix that together cover the log. -/
theorem addAll_covering {log rows queue piece after : List ρ} (h : Numbered number log)
    (hrows : rows <+: log) (hqueue : queue <:+ log)
    (hcovers : log.length ≤ rows.length + queue.length) (hpiece : piece <+: queue)
    (hadd : addAll number rows piece = some after) :
    after <+: log ∧ after.length = rows.length + piece.length ∧
      (piece = [] ∨ rows.length + queue.length = log.length) := by
  have hrowsLength := hrows.length_le
  have hqueueLength := hqueue.length_le
  have hpieceLength := hpiece.length_le
  rw [List.prefix_iff_eq_take.1 hrows] at hadd
  rw [List.suffix_iff_eq_drop.1 hqueue] at hpiece
  obtain ⟨hafter, hstart⟩ := addAll_eq_some h (by omega) hpiece hadd
  refine ⟨hafter ▸ List.take_prefix _ _, ?_, ?_⟩
  · rw [hafter, List.length_take]
    rcases hstart with rfl | hstart
    · rw [List.length_nil]
      omega
    · omega
  · exact hstart.imp id fun heq => by omega

end Pmbah.Library.RowTable
