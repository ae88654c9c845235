import Pmbah.Producer.Edits

/-!
# Logs and what describes them

A session describes its log by a count, the time of the last event and the tip
of the event chain.  Storage is consistent when every session in it describes
exactly its stored rows.
-/

namespace Pmbah.Producer

open Js Format Library

variable {P : Platform} {options : RegistryOptions}

/-- The time of the last event, and 0 for a log without events. -/
def lastTime (log : List BufferMutation) : Nat := (log.getLast?.map BufferMutation.t).getD 0

/-- The metadata of a session says what its log is. -/
structure Describes (P : Platform) (record : SessionRecord) (log : List BufferMutation) :
    Prop where
  valid : ValidLog log
  eventCount : record.eventCount = some log.length
  lastEventT : record.lastEventT = some (lastTime log)
  tip : record.lastEventChainTip = eventTip P record.sessionId record.formatVersion log
  uuid : log ≠ [] → isUuid record.sessionId = true

theorem eventTip_congr {id : JsString} {left right : FormatVersion}
    (h : eventChainFormatVersion left = eventChainFormatVersion right)
    (log : List BufferMutation) : eventTip P id left log = eventTip P id right log := by
  unfold eventTip chainStart
  rw [h]

theorem validLog_nil : ValidLog [] where
  valid event hevent := absurd hevent List.not_mem_nil
  seq_eq i event hi := by simp at hi
  sorted := .nil

namespace Describes

variable {record later : SessionRecord} {log : List BufferMutation}

theorem sameLog (h : Describes P record log) (hsame : SameLog record later) :
    Describes P later log where
  valid := h.valid
  eventCount := hsame.eventCount.trans h.eventCount
  lastEventT := hsame.lastEventT.trans h.lastEventT
  tip := by
    rw [hsame.tip, h.tip, hsame.sessionId]
    exact (eventTip_congr hsame.chain log).symm
  uuid hne := by
    rw [hsame.sessionId]
    exact h.uuid hne

theorem of_isNew (h : IsNew record) : Describes P record [] where
  valid := validLog_nil
  eventCount := h.eventCount
  lastEventT := h.lastEventT
  tip := h.tip
  uuid hne := absurd rfl hne

theorem sessionEventCount_eq (h : Describes P record log) :
    sessionEventCount record = log.length := by
  rw [sessionEventCount, h.eventCount]
  rfl

theorem sessionLastEventTime_eq (h : Describes P record log) :
    sessionLastEventTime record = lastTime log := by
  rw [sessionLastEventTime, h.lastEventT]
  rfl

theorem numbered (h : Describes P record log) :
    RowTable.Numbered BufferMutation.seq log := h.valid.seq_eq

/-- The chain of the log is computed without error, and ends in the tip. -/
theorem chain (h : Describes P record log) (hne : log ≠ []) :
    ∃ tips, computeEventHashChain P (log.map BufferMutation.toJson) record.sessionId
        record.formatVersion = .ok tips ∧ record.lastEventChainTip = tips.getLast? := by
  refine ⟨_, computeEventHashChain_eq (h.uuid hne) (readsAsLog_toJson log) h.valid hne, ?_⟩
  rw [h.tip, eventTip, eventChain, ChainScheme.getLast?_chain]

/-- An accepted event continues the log that the record describes. -/
theorem accept (hjournal : options.journal = true) (h : Describes P record log)
    {queue : List BufferMutation} {mutation : PendingMutation} {now : Int}
    {event : BufferMutation} {tip : B3Hash}
    (hnext : nextEvent P options queue record mutation now = .ok (event, tip)) :
    Describes P (recordEvent options record event tip now) (log ++ [event]) := by
  unfold nextEvent at hnext
  simp only at hnext
  split at hnext
  · cases hnext
  · split at hnext
    · cases hnext
    · rename_i built hbuilt
      rw [h.sessionEventCount_eq, h.sessionLastEventTime_eq] at hbuilt
      obtain ⟨hvalid, hseq, ht, -⟩ := buildNextMutation_ok hbuilt
      cases hadvance : advanceChain P record.lastEventChainTip built record.sessionId
          record.formatVersion with
      | error thrown =>
          rw [hadvance] at hnext
          cases hnext
      | ok next =>
          rw [hadvance] at hnext
          simp only [Except.map, Except.ok.injEq, Prod.mk.injEq] at hnext
          obtain ⟨rfl, rfl⟩ := hnext
          rw [h.tip] at hadvance
          obtain ⟨huuid, htip⟩ := advanceChain_ok hvalid hadvance
          have hlater : SameLog
              { record with
                eventCount := some (built.seq + 1)
                lastEventT := some built.t
                lastEventChainTip := some next }
              (recordEvent options record built next now) := by
            unfold recordEvent recomputeObservationState
            simp only [hjournal, if_true]
            split
            · exact ⟨rfl, rfl, rfl, rfl, rfl, rfl⟩
            · exact ⟨rfl, rfl, rfl, rfl, rfl, rfl⟩
          refine sameLog ⟨?_, ?_, ?_, ?_, ?_⟩ hlater
          · rw [validLog_concat]
            refine ⟨h.valid, hvalid, hseq, ?_⟩
            intro last hlast
            have hprevious := previous_le_eventTimeAt (lastTime log) now record.baseWallMs
            rw [← ht] at hprevious
            rw [lastTime, Option.mem_def.1 hlast] at hprevious
            exact Int.ofNat_le.1 hprevious
          · simp [hseq]
          · simp [lastTime]
          · exact htip.symm
          · exact fun _ => huuid

end Describes

/-! ## Storage -/

/-- Every row belongs to a stored session, and every stored session that is not
an anchor describes exactly its rows. -/
structure Durable (P : Platform) (store : JournalStore) : Prop where
  owned : ∀ id, store.events id ≠ [] → (store.session id).isSome = true
  keyed : ∀ id session, store.session id = some session → session.sessionId = id
  described : ∀ id session, store.session id = some session →
    session.continuationAnchor = false → Describes P session (store.events id)

theorem durable_empty (P : Platform) : Durable P JournalStore.empty where
  owned id h := absurd rfl h
  keyed id session h := by simp [JournalStore.session, JournalStore.empty] at h
  described id session h := by simp [JournalStore.session, JournalStore.empty] at h

end Pmbah.Producer
