import Mathlib.Data.List.Basic
import Mathlib.Order.Basic

/-!
# Handing over the latest value

Values are scheduled one after another, and one at a time is handed over.  A value that
could not be handed over is given back, unless a newer one has come meanwhile.
-/

namespace Pmbah.Library

/-- A value under the number at which it was scheduled. -/
structure Handover.Entry (α : Type) where
  number : Nat
  value : α
  deriving DecidableEq

structure Handover (α : Type) where
  scheduled : List α
  pending : Option (Handover.Entry α)
  inHand : Option (Handover.Entry α)
  /-- What has been handed over. -/
  written : List (Handover.Entry α)

namespace Handover

variable {α : Type} {cell : Handover α} {entry : Entry α}

def empty : Handover α := ⟨[], none, none, []⟩

def schedule (cell : Handover α) (value : α) : Handover α :=
  { cell with
    scheduled := cell.scheduled ++ [value]
    pending := some ⟨cell.scheduled.length, value⟩ }

def take (cell : Handover α) : Handover α :=
  { cell with pending := none, inHand := cell.pending }

def finish (cell : Handover α) : Handover α :=
  { cell with inHand := none, written := cell.written ++ cell.inHand.toList }

def giveBack (cell : Handover α) : Handover α :=
  { cell with pending := cell.pending.or cell.inHand, inHand := none }

def Holds (cell : Handover α) (entry : Entry α) : Prop :=
  cell.pending = some entry ∨ cell.inHand = some entry

structure Sound (cell : Handover α) : Prop where
  pending : ∀ entry, cell.pending = some entry → entry.number + 1 = cell.scheduled.length
  genuine : ∀ entry, cell.Holds entry ∨ entry ∈ cell.written →
    cell.scheduled[entry.number]? = some entry.value
  /-- What has been handed over is older than what is held. -/
  older : ∀ entry, cell.Holds entry → ∀ done ∈ cell.written, done.number < entry.number
  replaced : ∀ entry newer, cell.inHand = some entry → cell.pending = some newer →
    entry.number < newer.number
  increasing : cell.written.Pairwise fun earlier later => earlier.number < later.number
  /-- The newest value has not been dropped. -/
  newest : 0 < cell.scheduled.length → ∃ entry, entry.number + 1 = cell.scheduled.length ∧
    (cell.Holds entry ∨ entry ∈ cell.written)

theorem sound_empty : Sound (empty : Handover α) where
  pending _ h := by cases h
  genuine _ h := by
    rcases h with (h | h) | h
    · cases h
    · cases h
    · cases h
  older _ _ _ h := by cases h
  replaced _ _ h := by cases h
  increasing := .nil
  newest h := absurd h (Nat.lt_irrefl 0)

theorem Sound.lt (h : Sound cell) (hentry : cell.Holds entry ∨ entry ∈ cell.written) :
    entry.number < cell.scheduled.length :=
  (List.getElem?_eq_some_iff.1 (h.genuine entry hentry)).1

theorem length_schedule (cell : Handover α) (value : α) :
    (cell.schedule value).scheduled.length = cell.scheduled.length + 1 := List.length_append

theorem Sound.schedule (h : Sound cell) (value : α) : Sound (cell.schedule value) where
  pending entry hentry := by
    cases hentry
    exact (length_schedule cell value).symm
  genuine entry hentry := by
    by_cases hnew : entry = ⟨cell.scheduled.length, value⟩
    · subst hnew
      exact List.getElem?_concat_length
    · have hbefore : cell.Holds entry ∨ entry ∈ cell.written := by
        rcases hentry with (hpending | hinHand) | hwritten
        · cases hpending
          exact absurd rfl hnew
        · exact Or.inl (Or.inr hinHand)
        · exact Or.inr hwritten
      show (cell.scheduled ++ [value])[entry.number]? = _
      rw [List.getElem?_append_left (h.lt hbefore)]
      exact h.genuine entry hbefore
  older entry hentry done hdone := by
    rcases hentry with hpending | hinHand
    · cases hpending
      exact h.lt (Or.inr hdone)
    · exact h.older entry (Or.inr hinHand) done hdone
  replaced entry newer hinHand hpending := by
    cases hpending
    exact h.lt (Or.inl (Or.inr hinHand))
  increasing := h.increasing
  newest _ :=
    ⟨⟨cell.scheduled.length, value⟩, (length_schedule cell value).symm, Or.inl (Or.inl rfl)⟩

theorem Sound.take (h : Sound cell) (hfree : cell.inHand = none) : Sound cell.take where
  pending _ hentry := by cases hentry
  genuine entry hentry := by
    apply h.genuine
    rcases hentry with (hpending | hinHand) | hwritten
    · cases hpending
    · exact Or.inl (Or.inl hinHand)
    · exact Or.inr hwritten
  older entry hentry := by
    rcases hentry with hpending | hinHand
    · cases hpending
    · exact h.older entry (Or.inl hinHand)
  replaced _ _ _ hpending := by cases hpending
  increasing := h.increasing
  newest hsome := by
    obtain ⟨entry, hnewest, (hpending | hinHand) | hwritten⟩ := h.newest hsome
    · exact ⟨entry, hnewest, Or.inl (Or.inr hpending)⟩
    · rw [hfree] at hinHand
      cases hinHand
    · exact ⟨entry, hnewest, Or.inr hwritten⟩

theorem mem_finish {done : Entry α} :
    done ∈ cell.finish.written ↔ done ∈ cell.written ∨ cell.inHand = some done := by
  rw [finish, List.mem_append, Option.mem_toList]

theorem Sound.finish (h : Sound cell) : Sound cell.finish where
  pending := h.pending
  genuine entry hentry := by
    apply h.genuine
    rcases hentry with (hpending | hinHand) | hwritten
    · exact Or.inl (Or.inl hpending)
    · cases hinHand
    · rcases mem_finish.1 hwritten with hbefore | hinHand
      · exact Or.inr hbefore
      · exact Or.inl (Or.inr hinHand)
  older entry hentry done hdone := by
    rcases hentry with hpending | hinHand
    · rcases mem_finish.1 hdone with hbefore | hinHand
      · exact h.older entry (Or.inl hpending) done hbefore
      · exact h.replaced done entry hinHand hpending
    · cases hinHand
  replaced _ _ hinHand := by cases hinHand
  increasing := by
    apply List.pairwise_append.2
    refine ⟨h.increasing, ?_, fun done hdone last hlast => ?_⟩
    · cases cell.inHand with
      | none => exact .nil
      | some entry => exact List.pairwise_singleton _ _
    · exact h.older last (Or.inr (Option.mem_toList.1 hlast)) done hdone
  newest hsome := by
    obtain ⟨entry, hnewest, (hpending | hinHand) | hwritten⟩ := h.newest hsome
    · exact ⟨entry, hnewest, Or.inl (Or.inl hpending)⟩
    · exact ⟨entry, hnewest, Or.inr (mem_finish.2 (Or.inr hinHand))⟩
    · exact ⟨entry, hnewest, Or.inr (mem_finish.2 (Or.inl hwritten))⟩

/-- A value that is given back is the newest, if none came meanwhile. -/
theorem Sound.newest_inHand (h : Sound cell) (hnone : cell.pending = none)
    (hinHand : cell.inHand = some entry) : entry.number + 1 = cell.scheduled.length := by
  have hlt := h.lt (Or.inl (Or.inr hinHand))
  obtain ⟨last, hnewest, (hpending | hsame) | hwritten⟩ := h.newest (by omega)
  · rw [hnone] at hpending
    cases hpending
  · rw [hinHand] at hsame
    cases hsame
    exact hnewest
  · have hless := h.older entry (Or.inr hinHand) last hwritten
    omega

theorem holds_giveBack (hentry : cell.giveBack.Holds entry) : cell.Holds entry := by
  rcases hentry with hpending | hinHand
  · rw [giveBack] at hpending
    rcases Option.or_eq_some_iff.1 hpending with hpending | ⟨-, hinHand⟩
    · exact Or.inl hpending
    · exact Or.inr hinHand
  · cases hinHand

theorem Sound.giveBack (h : Sound cell) : Sound cell.giveBack where
  pending entry hentry := by
    rcases Option.or_eq_some_iff.1 hentry with hpending | ⟨hnone, hinHand⟩
    · exact h.pending entry hpending
    · exact h.newest_inHand hnone hinHand
  genuine entry hentry := h.genuine entry (hentry.imp_left holds_giveBack)
  older entry hentry := h.older entry (holds_giveBack hentry)
  replaced _ _ hinHand := by cases hinHand
  increasing := h.increasing
  newest hsome := by
    obtain ⟨entry, hnewest, (hpending | hinHand) | hwritten⟩ := h.newest hsome
    · refine ⟨entry, hnewest, Or.inl (Or.inl ?_)⟩
      rw [Handover.giveBack, hpending]
      rfl
    · cases hpending : cell.pending with
      | none =>
          refine ⟨entry, hnewest, Or.inl (Or.inl ?_)⟩
          rw [Handover.giveBack, hpending, hinHand]
          rfl
      | some newer =>
          refine ⟨newer, h.pending newer hpending, Or.inl (Or.inl ?_)⟩
          rw [Handover.giveBack, hpending]
          rfl
    · exact ⟨entry, hnewest, Or.inr hwritten⟩

/-- With nothing left to hand over, everything has been, or a newer value has. -/
theorem Sound.covered (h : Sound cell) (hpending : cell.pending = none)
    (hinHand : cell.inHand = none) {number : Nat} (hnumber : number < cell.scheduled.length) :
    ∃ done ∈ cell.written, number ≤ done.number := by
  obtain ⟨last, hnewest, (hnone | hnone) | hwritten⟩ := h.newest (by omega)
  · rw [hpending] at hnone
    cases hnone
  · rw [hinHand] at hnone
    cases hnone
  · exact ⟨last, hwritten, by omega⟩

/-! ## What becomes of a value -/

/-- A held value is held on, handed over or replaced by a newer one. -/
def Keeps (cell next : Handover α) : Prop :=
  ∀ entry, cell.Holds entry → next.Holds entry ∨ entry ∈ next.written ∨
    ∃ newer, next.pending = some newer ∧ entry.number < newer.number

theorem Keeps.refl (cell : Handover α) : Keeps cell cell := fun _ h => Or.inl h

theorem Sound.keeps_schedule (h : Sound cell) (value : α) : Keeps cell (cell.schedule value) :=
  fun _ hentry => Or.inr (Or.inr ⟨_, rfl, h.lt (Or.inl hentry)⟩)

theorem keeps_take (hfree : cell.inHand = none) : Keeps cell cell.take := by
  intro entry hentry
  rcases hentry with hpending | hinHand
  · exact Or.inl (Or.inr hpending)
  · rw [hfree] at hinHand
    cases hinHand

theorem keeps_finish : Keeps cell cell.finish := by
  intro entry hentry
  rcases hentry with hpending | hinHand
  · exact Or.inl (Or.inl hpending)
  · exact Or.inr (Or.inl (mem_finish.2 (Or.inr hinHand)))

theorem keeps_giveBack (h : Sound cell) : Keeps cell cell.giveBack := by
  intro entry hentry
  cases hpending : cell.pending with
  | none =>
      refine Or.inl (Or.inl ?_)
      rcases hentry with hsome | hinHand
      · rw [hpending] at hsome
        cases hsome
      · rw [giveBack, hpending, hinHand]
        rfl
  | some newer =>
      have hnow : cell.giveBack.pending = some newer := by
        rw [giveBack, hpending]
        rfl
      rcases hentry with hsame | hinHand
      · exact Or.inl (Or.inl (hnow.trans (hpending.symm.trans hsame)))
      · exact Or.inr (Or.inr ⟨newer, hnow, h.replaced entry newer hinHand hpending⟩)

/-! ## Moves -/

/-- What can happen to the cell. -/
inductive Moves (cell : Handover α) : Handover α → Prop where
  | stays : Moves cell cell
  | schedules (value : α) : Moves cell (cell.schedule value)
  | takes (hfree : cell.inHand = none) : Moves cell cell.take
  | finishes : Moves cell cell.finish
  | givesBack : Moves cell cell.giveBack

theorem Sound.moves {next : Handover α} (h : Sound cell) (hmoves : Moves cell next) :
    Sound next := by
  cases hmoves with
  | stays => exact h
  | schedules value => exact h.schedule value
  | takes hfree => exact h.take hfree
  | finishes => exact h.finish
  | givesBack => exact h.giveBack

theorem Moves.keeps {next : Handover α} (hmoves : Moves cell next) (h : Sound cell) :
    Keeps cell next := by
  cases hmoves with
  | stays => exact .refl cell
  | schedules value => exact h.keeps_schedule value
  | takes hfree => exact keeps_take hfree
  | finishes => exact keeps_finish
  | givesBack => exact keeps_giveBack h

theorem Moves.written_subset {next : Handover α} (hmoves : Moves cell next) :
    cell.written ⊆ next.written := by
  cases hmoves with
  | finishes => exact List.subset_append_left _ _
  | _ => exact fun _ hdone => hdone

end Handover

end Pmbah.Library
