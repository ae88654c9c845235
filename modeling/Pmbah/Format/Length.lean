import Pmbah.Format.HashChain
import Pmbah.Js.Double

/-!
# Observed length

The document length that the edits of a record establish, in code points, or
`none` from the first edit on that cannot be placed.  It is computed in double
precision, so it is exact for as long as it is a safe integer.
-/

namespace Pmbah.Format

open Js

/-- One turn of the loop of `computeObservedLength`. -/
def observeEvent (length : Option Nat) (event : BufferMutation) : Option Nat :=
  match event.pos, event.delLen, event.insLen, length with
  | some pos, some delLen, some insLen, some length =>
      if length < pos ∨ length < pos + delLen then none
      else some (addDouble (subDouble length delLen) insLen)
  | _, _, _, _ => none

def observedLength (startingLength : Option Nat) (events : List BufferMutation) : Option Nat :=
  events.foldl observeEvent startingLength

def computeObservedLength (P : Platform) (events : List Json) (startingLength : Option Nat) :
    Except JsError (Option Nat) :=
  (assertValidEventLog P events).map fun () =>
    observedLength startingLength (events.map readEvent)

@[simp] theorem observedLength_nil (startingLength : Option Nat) :
    observedLength startingLength [] = startingLength := rfl

theorem observedLength_concat (startingLength : Option Nat) (events : List BufferMutation)
    (event : BufferMutation) :
    observedLength startingLength (events ++ [event]) =
      observeEvent (observedLength startingLength events) event := by
  rw [observedLength, List.foldl_append]
  rfl

/-- Once lost, a length stays lost. -/
@[simp] theorem observeEvent_none (event : BufferMutation) : observeEvent none event = none := by
  unfold observeEvent
  split <;> simp_all

theorem computeObservedLength_eq {P : Platform} {values : List Json}
    {events : List BufferMutation} (hlog : ReadsAsLog values events) (hvalid : ValidLog events)
    (startingLength : Option Nat) :
    computeObservedLength P values startingLength =
      .ok (observedLength startingLength events) := by
  rw [computeObservedLength, assertValidEventLog_ok.2 ⟨events, hlog, hvalid⟩,
    hlog.map_readEvent]
  rfl

/-! ## The exact length -/

/-- One edit, in exact arithmetic. -/
def exactEvent (length : Option Nat) (event : BufferMutation) : Option Nat :=
  match event.pos, event.delLen, event.insLen, length with
  | some pos, some delLen, some insLen, some length =>
      if length < pos ∨ length < pos + delLen then none else some (length - delLen + insLen)
  | _, _, _, _ => none

def exactLength (startingLength : Option Nat) (events : List BufferMutation) : Option Nat :=
  events.foldl exactEvent startingLength

theorem exactLength_concat (startingLength : Option Nat) (events : List BufferMutation)
    (event : BufferMutation) :
    exactLength startingLength (events ++ [event]) =
      exactEvent (exactLength startingLength events) event := by
  rw [exactLength, List.foldl_append]
  rfl

/-- No edit leaves a length that doubles do not hold exactly. -/
def StaysSafe (startingLength : Option Nat) (events : List BufferMutation) : Prop :=
  ∀ k, ∀ length ∈ exactLength startingLength (events.take k), length ≤ maxSafeInteger

theorem StaysSafe.take {startingLength : Option Nat} {events : List BufferMutation}
    (h : StaysSafe startingLength events) (k : Nat) :
    StaysSafe startingLength (events.take k) := by
  intro i length hlength
  rw [List.take_take] at hlength
  exact h _ length hlength

theorem StaysSafe.last {startingLength : Option Nat} {events : List BufferMutation}
    (h : StaysSafe startingLength events) :
    ∀ length ∈ exactLength startingLength events, length ≤ maxSafeInteger := by
  have hall := h events.length
  rwa [List.take_length] at hall

/-- A computation whose steps are exact on safe lengths is exact while lengths stay safe. -/
theorem foldl_eq_exactLength {step : Option Nat → BufferMutation → Option Nat}
    (hstep : ∀ length event, (∀ n ∈ length, n ≤ maxSafeInteger) →
      (∀ n ∈ exactEvent length event, n ≤ maxSafeInteger) →
        step length event = exactEvent length event)
    {startingLength : Option Nat} {events : List BufferMutation}
    (h : StaysSafe startingLength events) :
    events.foldl step startingLength = exactLength startingLength events := by
  induction events using List.reverseRecOn with
  | nil => rfl
  | append_singleton events event ih =>
      have hbefore : StaysSafe startingLength events := by
        have htake := h.take events.length
        rwa [List.take_left] at htake
      have hafter := h.last
      rw [exactLength_concat] at hafter ⊢
      rw [List.foldl_append, ih hbefore]
      exact hstep _ event hbefore.last hafter

theorem observeEvent_eq_exactEvent {length : Option Nat} {event : BufferMutation}
    (hbefore : ∀ n ∈ length, n ≤ maxSafeInteger)
    (hafter : ∀ n ∈ exactEvent length event, n ≤ maxSafeInteger) :
    observeEvent length event = exactEvent length event := by
  unfold observeEvent
  unfold exactEvent at hafter ⊢
  generalize event.pos = pos, event.delLen = delLen, event.insLen = insLen at hafter ⊢
  split
  · rename_i pos delLen insLen length
    simp only at hafter
    split
    · rfl
    · rename_i hfits
      rw [if_neg hfits] at hafter
      rw [subDouble_eq (hbefore length rfl), addDouble_eq (hafter _ rfl)]
  · rfl

theorem observedLength_eq_exactLength {startingLength : Option Nat}
    {events : List BufferMutation} (h : StaysSafe startingLength events) :
    observedLength startingLength events = exactLength startingLength events :=
  foldl_eq_exactLength (fun _ _ => observeEvent_eq_exactEvent) h

end Pmbah.Format
