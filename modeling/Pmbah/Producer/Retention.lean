import Pmbah.Library.KeyedList
import Pmbah.Producer.Checkpoint

/-!
# Commitments that are kept

However often commitments are trimmed, the session keeps the one with the fewest events and
those with the most, each as it was last answered.
-/

namespace Pmbah.Producer

open Js Library

/-- What an accepted checkpoint commits. -/
def CheckpointResponse.commitment (response : CheckpointResponse) : ObservedCommitment where
  checkpointId := response.checkpointId
  eventCount := response.eventCount
  chainTip := response.chainTip
  observedAt := response.serverT

/-- The commitments answered since the last reset, in the order of the answers. -/
def received (history : List ObservedCommitment) : CheckpointResult → List ObservedCommitment
  | .ok response => history ++ [response.commitment]
  | .failed .unavailable _ _ => []
  | .failed _ _ _ => history

/-- The observation after an answer, with the session as it is then. -/
def answered (options : RegistryOptions) (observation : SessionObservation)
    (answer : SessionRecord × CheckpointResult) : SessionObservation :=
  (applyCheckpointResult options { answer.1 with observation } answer.2).observation

/-- On commitments in their order, a merge is an insertion by the event count. -/
theorem insertCommitment_eq {commitments : List ObservedCommitment}
    (h : KeyedList.Ordered ObservedCommitment.eventCount commitments)
    (commitment : ObservedCommitment) :
    insertCommitment commitments commitment =
      KeyedList.insert ObservedCommitment.eventCount commitment commitments := by
  rw [insertCommitment]
  split
  · rename_i hany
    obtain ⟨found, hfound, hsame⟩ := List.any_eq_true.1 hany
    exact KeyedList.map_eq_insert h ⟨found, hfound, eq_of_beq hsame⟩
  · rename_i hnone
    apply KeyedList.mergeSort_eq_insert h
    intro found hfound hsame
    exact hnone (List.any_eq_true.2 ⟨found, hfound, beq_of_eq hsame⟩)

/-- The trim keeps the first commitment and the last of the others. -/
theorem evictOlderCommitments_eq {retention : Nat} (hretention : 2 ≤ retention)
    (commitments : List ObservedCommitment) :
    evictOlderCommitments retention commitments =
      KeyedList.ends (retention - 1) commitments := by
  cases commitments with
  | nil => exact if_pos (Nat.zero_le _)
  | cons first commitments =>
      rw [evictOlderCommitments, KeyedList.ends]
      split
      · rename_i hfits
        rw [KeyedList.rtake_of_length_le]
        rw [List.length_cons] at hfits
        omega
      · rename_i hlong
        rw [List.length_cons] at hlong ⊢
        have hcut : commitments.length + 1 - (retention - 1) =
            (commitments.length - (retention - 1)) + 1 := by omega
        rw [hcut, List.drop_succ_cons, List.rtake]
        rfl

variable {options : RegistryOptions}

theorem applyCheckpointResult_commitments (record : SessionRecord) (result : CheckpointResult) :
    (applyCheckpointResult options record result).observation.commitments =
      match result with
      | .ok response => evictOlderCommitments options.commitmentRetention
          (insertCommitment record.observation.commitments response.commitment)
      | .failed .unavailable _ _ => []
      | .failed _ _ _ => record.observation.commitments := by
  cases result with
  | ok response => rfl
  | failed kind status reason =>
      cases kind with
      | unavailable => rfl
      | _ => rfl

/-- One answer. -/
theorem answered_commitments (hretention : 2 ≤ options.commitmentRetention)
    {observation : SessionObservation} {history : List ObservedCommitment}
    (h : observation.commitments = KeyedList.ends (options.commitmentRetention - 1)
      (KeyedList.table ObservedCommitment.eventCount history))
    (answer : SessionRecord × CheckpointResult) :
    (answered options observation answer).commitments =
      KeyedList.ends (options.commitmentRetention - 1)
        (KeyedList.table ObservedCommitment.eventCount (received history answer.2)) := by
  obtain ⟨record, result⟩ := answer
  rw [answered, applyCheckpointResult_commitments]
  have hordered := KeyedList.ordered_table ObservedCommitment.eventCount history
  cases result with
  | ok response =>
      show evictOlderCommitments _ (insertCommitment observation.commitments _) = _
      rw [evictOlderCommitments_eq hretention, h,
        insertCommitment_eq (KeyedList.ordered_ends hordered _), KeyedList.ends_insert hordered,
        ← KeyedList.table_concat]
      rfl
  | failed kind status reason =>
      cases kind with
      | unavailable => rfl
      | _ => exact h

/-- Any sequence of answers. -/
theorem answered_run (hretention : 2 ≤ options.commitmentRetention)
    (answers : List (SessionRecord × CheckpointResult)) {observation : SessionObservation}
    {history : List ObservedCommitment}
    (h : observation.commitments = KeyedList.ends (options.commitmentRetention - 1)
      (KeyedList.table ObservedCommitment.eventCount history)) :
    (answers.foldl (answered options) observation).commitments =
      KeyedList.ends (options.commitmentRetention - 1)
        (KeyedList.table ObservedCommitment.eventCount
          (answers.foldl (fun history answer => received history answer.2) history)) := by
  induction answers generalizing observation history with
  | nil => exact h
  | cons answer answers ih => exact ih (answered_commitments hretention h answer)

/-- What is kept of the commitments that were received: the fewest events and the most. -/
structure KeepsEnds (retention : Nat) (history kept : List ObservedCommitment) : Prop where
  increasing : kept.Pairwise fun left right => left.eventCount < right.eventCount
  counts : kept.map ObservedCommitment.eventCount =
    let distinct := (history.map ObservedCommitment.eventCount).toFinset.sort (· ≤ ·)
    distinct.take 1 ++ distinct.rtake (min (retention - 1) (distinct.length - 1))
  latest : ∀ commitment ∈ kept,
    (history.reverse.find? fun answered => answered.eventCount = commitment.eventCount) =
      some commitment

/-- From a reset on, with the session changing as it may from answer to answer. -/
theorem commitments_keepEnds (options : RegistryOptions)
    (hretention : 2 ≤ options.commitmentRetention) (observation : SessionObservation)
    (answers : List (SessionRecord × CheckpointResult)) :
    KeepsEnds options.commitmentRetention
      (answers.foldl (fun history answer => received history answer.2) [])
      (answers.foldl (answered options) (resetObservation observation)).commitments := by
  have hreset : (resetObservation observation).commitments =
      KeyedList.ends (options.commitmentRetention - 1)
        (KeyedList.table ObservedCommitment.eventCount []) := rfl
  rw [answered_run hretention answers hreset]
  generalize answers.foldl (fun history answer => received history answer.2) [] = history
  have hordered := KeyedList.ordered_table ObservedCommitment.eventCount history
  refine ⟨KeyedList.ordered_ends hordered _, ?_, ?_⟩
  · rw [KeyedList.map_ends, KeyedList.map_table, KeyedList.ends_eq]
  · intro commitment hkept
    exact (KeyedList.mem_table ObservedCommitment.eventCount history).1
      ((KeyedList.ends_sublist _).subset hkept)

def trimmedOptions : RegistryOptions :=
  { RegistryOptions.standard true ⟨js "browser", js "1.0.0", []⟩ with commitmentRetention := 2 }

def answerFor (eventCount : Nat) (checkpointId : JsString) : SessionRecord × CheckpointResult :=
  (newRecord trimmedOptions 0 (js "session") ⟨js "https://example.test", js "/", 1, 0⟩
      ⟨.textarea, js "textarea", none, none, none, none, js "body", 0⟩ (js "textarea") .fresh 0 0
      false none,
    .ok
      { observedSessionId := js "observed"
        token := js "token"
        checkpointId
        eventCount
        chainTip := ⟨List.replicate 32 0, B3Hash.zeros_length⟩
        serverT := js "2024-01-01T00:00:00.000Z"
        created := true })

/-- The first count comes in the middle, and again. -/
theorem commitments_keepEnds_outOfOrder :
    let answers := [answerFor 3 (js "a"), answerFor 1 (js "b"), answerFor 5 (js "c"),
      answerFor 4 (js "d"), answerFor 1 (js "e")]
    KeepsEnds 2
      (answers.foldl (fun history answer => received history answer.2) [])
      (answers.foldl (answered trimmedOptions)
        (resetObservation (emptyObservation true))).commitments :=
  commitments_keepEnds trimmedOptions (Nat.le_refl 2) _ _

end Pmbah.Producer
