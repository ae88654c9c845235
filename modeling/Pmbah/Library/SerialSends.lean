import Mathlib.Data.List.Basic

/-!
# Sending one after another

Values are sent in the order they come, each once the one before it has been
acknowledged.  After a failure nothing more is sent.
-/

namespace Pmbah.Library

structure SerialSends (α : Type) where
  /-- What has not been answered; the first of these is out. -/
  waiting : List α
  failed : Bool
  posted : List α
  acknowledged : List α

namespace SerialSends

variable {α : Type} {sends next : SerialSends α} {values : List α} {value : α}

def empty : SerialSends α := ⟨[], false, [], []⟩

/-- A value that comes after a failure is dropped. -/
def push (sends : SerialSends α) (value : α) : SerialSends α :=
  if sends.failed then sends
  else
    { sends with
      waiting := sends.waiting ++ [value]
      posted := if sends.waiting.isEmpty then sends.posted ++ [value] else sends.posted }

/-- The answer to what is out. -/
def answer (sends : SerialSends α) (ok : Bool) : Option (SerialSends α) :=
  match sends.waiting with
  | [] => none
  | value :: rest =>
      some (if ok then
        { sends with
          waiting := rest
          posted := sends.posted ++ rest.head?.toList
          acknowledged := sends.acknowledged ++ [value] }
      else { sends with waiting := [], failed := true })

/-- Everything has been answered, and nothing failed. -/
def Fulfilled (sends : SerialSends α) : Prop := sends.waiting = [] ∧ sends.failed = false

instance (sends : SerialSends α) : Decidable sends.Fulfilled :=
  inferInstanceAs (Decidable (_ ∧ _))

/-- What the sends have made of the values that came. -/
structure Carries (sends : SerialSends α) (values : List α) : Prop where
  posted : sends.posted <+: values
  acknowledged : sends.acknowledged <+: sends.posted
  single : sends.posted.length ≤ sends.acknowledged.length + 1
  /-- Until a failure every value has been acknowledged or waits, and one is out. -/
  complete : sends.failed = false → values = sends.acknowledged ++ sends.waiting ∧
    sends.posted = sends.acknowledged ++ sends.waiting.take 1
  stopped : sends.failed = true → sends.waiting = []

theorem carries_empty : Carries (empty : SerialSends α) [] where
  posted := List.prefix_refl []
  acknowledged := List.prefix_refl []
  single := Nat.zero_le _
  complete _ := ⟨rfl, rfl⟩
  stopped h := Bool.noConfusion h

theorem Carries.push (h : Carries sends values) (value : α) :
    Carries (sends.push value) (values ++ [value]) := by
  unfold SerialSends.push
  split
  · rename_i hfailed
    exact ⟨h.posted.trans (List.prefix_append _ _), h.acknowledged, h.single,
      fun hok => Bool.noConfusion (hok.symm.trans hfailed), h.stopped⟩
  · rename_i hok
    obtain ⟨hvalues, hposted⟩ := h.complete (Bool.eq_false_iff.2 hok)
    cases hwaiting : sends.waiting with
    | nil =>
        rw [hwaiting] at hvalues hposted
        rw [List.take_nil, List.append_nil] at hposted
        rw [List.append_nil] at hvalues
        refine ⟨?_, ?_, ?_, fun _ => ⟨?_, ?_⟩, fun hfailed => absurd hfailed hok⟩
        · simp [hposted, hvalues]
        · simp [hposted]
        · simp [hposted]
        · simp [hvalues]
        · simp [hposted]
    | cons first rest =>
        rw [hwaiting] at hvalues hposted
        refine ⟨?_, h.acknowledged, h.single, fun _ => ⟨?_, ?_⟩,
          fun hfailed => absurd hfailed hok⟩
        · exact h.posted.trans (List.prefix_append _ _)
        · simp [hvalues]
        · simpa using hposted

theorem Carries.answer (h : Carries sends values) {ok : Bool}
    (hnext : sends.answer ok = some next) : Carries next values := by
  unfold SerialSends.answer at hnext
  cases hwaiting : sends.waiting with
  | nil =>
      rw [hwaiting] at hnext
      cases hnext
  | cons first rest =>
      rw [hwaiting] at hnext
      have hok : sends.failed = false := by
        cases hfailed : sends.failed with
        | false => rfl
        | true =>
            have hnone := h.stopped hfailed
            rw [hwaiting] at hnone
            cases hnone
      obtain ⟨hvalues, hposted⟩ := h.complete hok
      rw [hwaiting] at hvalues hposted
      cases ok with
      | false =>
          cases hnext
          exact ⟨h.posted, h.acknowledged, h.single, fun hfalse => Bool.noConfusion hfalse,
            fun _ => rfl⟩
      | true =>
          cases hnext
          refine ⟨?_, ?_, ?_, fun _ => ⟨?_, ?_⟩, fun hfailed => Bool.noConfusion (hok.symm.trans hfailed)⟩
          · cases rest with
            | nil => simp [hvalues, hposted]
            | cons second rest => simp [hvalues, hposted]
          · simp [hposted]
          · cases rest with
            | nil => simp [hposted]
            | cons second rest => simp [hposted]
          · simp [hvalues]
          · cases rest with
            | nil => simp [hposted]
            | cons second rest => simp [hposted]

/-- Once everything is answered without failure, everything has been acknowledged. -/
theorem Carries.fulfilled (h : Carries sends values) (hfulfilled : sends.Fulfilled) :
    sends.acknowledged = values ∧ sends.posted = values := by
  obtain ⟨hvalues, hposted⟩ := h.complete hfulfilled.2
  rw [hfulfilled.1] at hvalues hposted
  rw [List.append_nil] at hvalues
  rw [List.take_nil, List.append_nil] at hposted
  exact ⟨hvalues.symm, hposted.trans hvalues.symm⟩

/-- What is acknowledged as a whole has nothing left to wait for. -/
theorem Carries.waiting_nil (h : Carries sends values) (hall : values.length ≤
    sends.acknowledged.length) : sends.waiting = [] := by
  cases hfailed : sends.failed with
  | true => exact h.stopped hfailed
  | false =>
      rw [(h.complete hfailed).1, List.length_append] at hall
      exact List.eq_nil_of_length_eq_zero (by omega)

theorem answer_eq_some {ok : Bool} (h : sends.answer ok = some next) :
    sends.waiting ≠ [] ∧
      (ok = true ∧ next.failed = sends.failed ∧
        next.waiting.length + 1 = sends.waiting.length ∨
      ok = false ∧ next.failed = true ∧ next.waiting = []) := by
  unfold answer at h
  cases hwaiting : sends.waiting with
  | nil =>
      rw [hwaiting] at h
      cases h
  | cons first rest =>
      rw [hwaiting] at h
      refine ⟨List.cons_ne_nil _ _, ?_⟩
      cases ok with
      | true =>
          cases h
          exact Or.inl ⟨rfl, rfl, rfl⟩
      | false =>
          cases h
          exact Or.inr ⟨rfl, rfl, rfl⟩

end SerialSends

end Pmbah.Library
