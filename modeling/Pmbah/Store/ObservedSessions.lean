import Mathlib.Data.List.Sort
import Pmbah.Store.Types

/-!
# Observed sessions

A session collects checkpoints under a token until a record is published for it.
-/

namespace Pmbah.Store

open Js Format Library

structure AppendObservedCheckpointInput where
  observedSessionId : JsString
  observedTokenHash : Option JsString
  newObservedTokenHash : JsString
  eventCount : Nat
  chainTip : B3Hash
  observedAt : Option JsString

structure AppendObservedCheckpointResult where
  observedSessionId : JsString
  checkpoint : ObservationCommitment
  sessionCreated : Bool
  checkpointCreated : Bool

structure ObservationBindingInput where
  observedSessionId : JsString
  observedTokenHash : JsString
  maximumEventCount : Option Nat

def observedSessionNotFound : StoreError :=
  .observedSessionToken .observedSessionNotFound (js "observed session not found")

def observedSessionFinalized : StoreError :=
  .observedCheckpointConflict .observedSessionFinalized (js "observed session already finalized")

def assertObservedToken (session : ObservedSession) (tokenHash : Option JsString) :
    Except StoreError Unit :=
  match given tokenHash with
  | none =>
      .error (.observedSessionToken .observedTokenRequired (js "observed_token is required"))
  | some hash =>
      if hash ≠ session.tokenHash then
        .error (.observedSessionToken .invalidObservedToken (js "observed_token is invalid"))
      else .ok ()

/-- The order of checkpoints: by count, then by time. -/
def commitmentLe (clock : Clock) (left right : ObservationCommitment) : Bool :=
  decide (left.eventCount < right.eventCount) ||
    (left.eventCount == right.eventCount &&
      decide (clock.localeCompare left.observedAt right.observedAt ≤ 0))

def sortCommitments (clock : Clock) (checkpoints : List ObservationCommitment) :
    List ObservationCommitment :=
  checkpoints.mergeSort (commitmentLe clock)

/-- The session that a checkpoint goes to, and whether it is created for it. -/
def sessionForCheckpoint (sessions : OrderedMap JsString ObservedSession)
    (input : AppendObservedCheckpointInput) (observedAt : JsString) :
    Except StoreError (ObservedSession × Bool) :=
  match sessions.get? input.observedSessionId with
  | none =>
      if (given input.observedTokenHash).isSome then .error observedSessionNotFound
      else .ok ({
        observedSessionId := input.observedSessionId
        tokenHash := input.newObservedTokenHash
        finalizedRecordHash := none
        observationState := none
        createdAt := observedAt
        finalizedAt := none
        checkpoints := [] }, true)
  | some session =>
      match assertObservedToken session input.observedTokenHash with
      | .error error => .error error
      | .ok () =>
          if session.finalizedRecordHash.isSome then .error observedSessionFinalized
          else .ok (session, false)

/-- `Math.max(0, ...counts)`. -/
def maxEventCount (checkpoints : List ObservationCommitment) : Nat :=
  (checkpoints.map ObservationCommitment.eventCount).foldl max 0

/-- The session with a checkpoint, the checkpoint, and whether it is new. -/
def appendToSession (clock : Clock) (session : ObservedSession)
    (input : AppendObservedCheckpointInput) (observedAt checkpointId : JsString) :
    Except StoreError (ObservedSession × ObservationCommitment × Bool) :=
  match session.checkpoints.find? fun checkpoint => checkpoint.eventCount == input.eventCount with
  | some existing =>
      if existing.chainTip ≠ input.chainTip then
        .error (.observedCheckpointConflict .checkpointChainTipConflict
          (js "checkpoint already exists with a different chain_tip"))
      else .ok (session, existing, false)
  | none =>
      if input.eventCount < maxEventCount session.checkpoints then
        .error (.observedCheckpointConflict .checkpointEventCountNotMonotonic
          (js "checkpoint event_count must be monotonic"))
      else
        let checkpoint : ObservationCommitment :=
          { checkpointId, eventCount := input.eventCount, chainTip := input.chainTip, observedAt }
        .ok ({ session with
          checkpoints := sortCommitments clock (session.checkpoints ++ [checkpoint]) },
          checkpoint, true)

/-- `now` is the time and `checkpointId` the random UUID of the call. -/
def appendObservedCheckpoint (clock : Clock) (sessions : OrderedMap JsString ObservedSession)
    (input : AppendObservedCheckpointInput) (now checkpointId : JsString) :
    OrderedMap JsString ObservedSession × Except StoreError AppendObservedCheckpointResult :=
  let observedAt := input.observedAt.getD now
  match sessionForCheckpoint sessions input observedAt with
  | .error error => (sessions, .error error)
  | .ok (session, sessionCreated) =>
      match appendToSession clock session input observedAt checkpointId with
      -- A session created for a checkpoint that is then refused stays.
      | .error error => (sessions.set input.observedSessionId session, .error error)
      | .ok (session, checkpoint, checkpointCreated) =>
          (sessions.set input.observedSessionId session,
            .ok { observedSessionId := session.observedSessionId, checkpoint, sessionCreated,
                  checkpointCreated })

def getObservedSessionForBinding (sessions : OrderedMap JsString ObservedSession)
    (input : ObservationBindingInput) : Except StoreError ObservedSession :=
  match sessions.get? input.observedSessionId with
  | none => .error observedSessionNotFound
  | some session =>
      match assertObservedToken session (some input.observedTokenHash) with
      | .error error => .error error
      | .ok () =>
          if input.maximumEventCount.any fun maximum =>
              session.checkpoints.any fun checkpoint => decide (maximum < checkpoint.eventCount) then
            .error (.observedCheckpointConflict .observationMismatch
              (js "checkpoint event_count exceeds final record"))
          else .ok session

def observationFromCheckpoints (clock : Clock) (observedSessionId : JsString)
    (state : ObservationState) (checkpoints : List ObservationCommitment) : RecordObservation :=
  let commitments := sortCommitments clock checkpoints
  let first := commitments.head?.map ObservationCommitment.observedAt
  let last := commitments.getLast?.map ObservationCommitment.observedAt
  { state
    observedSessionId := some observedSessionId
    commitments
    checkpointCount := commitments.length
    firstObservedAt := first
    lastObservedAt := last
    serverObservedSpanMs := match given first, given last with
      | some first, some last => some (max 0 (clock.parse last - clock.parse first))
      | _, _ => none }

def unobservedObservation : RecordObservation where
  state := .unobserved
  observedSessionId := none
  commitments := []
  checkpointCount := 0
  firstObservedAt := none
  lastObservedAt := none
  serverObservedSpanMs := none

def notRequestedObservation : RecordObservation :=
  { unobservedObservation with state := .notRequested }

/-- The check of one checkpoint against the chain of a record. -/
def checkCommitment (chain : List B3Hash) (total : Nat) (checkpoint : ObservationCommitment) :
    Except StoreError Unit :=
  if checkpoint.eventCount < 1 ∨ total < checkpoint.eventCount then
    .error (.observedCheckpointConflict .observationMismatch
      (js "checkpoint event_count does not match final record"))
  else if chain[checkpoint.eventCount - 1]? ≠ some checkpoint.chainTip then
    .error (.observedCheckpointConflict .observationMismatch
      (js "checkpoint does not match final record prefix"))
  else .ok ()

def checkCommitments (chain : List B3Hash) (total : Nat) :
    List ObservationCommitment → Except StoreError Unit
  | [] => .ok ()
  | checkpoint :: checkpoints =>
      match checkCommitment chain total checkpoint with
      | .error error => .error error
      | .ok () => checkCommitments chain total checkpoints

/-- The event count of the last checkpoint, 0 when there is none. -/
def lastEventCount (checkpoints : List ObservationCommitment) : Nat :=
  (checkpoints.getLast?.map ObservationCommitment.eventCount).getD 0

def validateRecordObservation (P : Platform) (clock : Clock) (record : WritingRecord)
    (observedSessionId : JsString) (checkpoints : List ObservationCommitment) :
    Except StoreError RecordObservation :=
  let commitments := sortCommitments clock checkpoints
  if commitments.isEmpty then
    .error (.observedCheckpointConflict .observationMismatch
      (js "observed session has no commitments"))
  else
    match computeEventHashChain P record.events record.manifest.sessionId
        record.manifest.formatVersion with
    | .error thrown => .error (.thrown thrown)
    | .ok chain =>
        match checkCommitments chain record.events.length commitments with
        | .error error => .error error
        | .ok () =>
            .ok (observationFromCheckpoints clock observedSessionId
              (if lastEventCount commitments = record.events.length then .observed else .partly)
              commitments)

/-! ## Ascending checkpoints -/

/-- Each checkpoint covers more events than those before it. -/
def Ascending (checkpoints : List ObservationCommitment) : Prop :=
  checkpoints.Pairwise fun earlier later => earlier.eventCount < later.eventCount

theorem sortCommitments_eq (clock : Clock) {checkpoints : List ObservationCommitment}
    (h : Ascending checkpoints) : sortCommitments clock checkpoints = checkpoints := by
  apply List.mergeSort_of_pairwise
  apply List.Pairwise.imp _ h
  intro earlier later hlt
  simp [commitmentLe, hlt]

theorem ascending_concat {checkpoints : List ObservationCommitment}
    {checkpoint : ObservationCommitment} :
    Ascending (checkpoints ++ [checkpoint]) ↔ Ascending checkpoints ∧
      ∀ earlier ∈ checkpoints, earlier.eventCount < checkpoint.eventCount := by
  simp [Ascending, List.pairwise_append]

theorem Ascending.nodup {checkpoints : List ObservationCommitment} (h : Ascending checkpoints) :
    (checkpoints.map ObservationCommitment.eventCount).Nodup := by
  rw [List.Nodup, List.pairwise_map]
  exact List.Pairwise.imp Nat.ne_of_lt h

theorem le_maxEventCount {checkpoints : List ObservationCommitment}
    {checkpoint : ObservationCommitment} (h : checkpoint ∈ checkpoints) :
    checkpoint.eventCount ≤ maxEventCount checkpoints := by
  have hle : ∀ (counts : List Nat) (start : Nat),
      start ≤ counts.foldl max start ∧ ∀ count ∈ counts, count ≤ counts.foldl max start := by
    intro counts
    induction counts with
    | nil => simp
    | cons count counts ih =>
        intro start
        obtain ⟨hstart, hcounts⟩ := ih (max start count)
        refine ⟨by simp only [List.foldl_cons]; omega, ?_⟩
        intro other hother
        rcases List.mem_cons.1 hother with rfl | hother
        · simp only [List.foldl_cons]
          omega
        · exact hcounts other hother
  exact (hle _ 0).2 _ (List.mem_map_of_mem h)

/-- What a new checkpoint does to a session whose checkpoints ascend. -/
theorem appendToSession_ok {clock : Clock} {session next : ObservedSession}
    {input : AppendObservedCheckpointInput} {observedAt checkpointId : JsString}
    {checkpoint : ObservationCommitment} {created : Bool} (hascending : Ascending session.checkpoints)
    (h : appendToSession clock session input observedAt checkpointId =
      .ok (next, checkpoint, created)) :
    checkpoint.eventCount = input.eventCount ∧ checkpoint.chainTip = input.chainTip ∧
      ((created = false ∧ next = session ∧ checkpoint ∈ session.checkpoints) ∨
        (created = true ∧
          (∀ earlier ∈ session.checkpoints, earlier.eventCount < checkpoint.eventCount) ∧
          next = { session with checkpoints := session.checkpoints ++ [checkpoint] })) := by
  unfold appendToSession at h
  split at h
  · rename_i existing hfind
    have hcount := List.find?_some hfind
    split at h
    · cases h
    · rename_i htip
      simp only [Except.ok.injEq, Prod.mk.injEq] at h
      obtain ⟨rfl, rfl, rfl⟩ := h
      exact ⟨by simpa using hcount, by simpa using htip,
        Or.inl ⟨rfl, rfl, List.mem_of_find?_eq_some hfind⟩⟩
  · rename_i hfind
    split at h
    · cases h
    · rename_i hmax
      simp only [Except.ok.injEq, Prod.mk.injEq] at h
      obtain ⟨rfl, rfl, rfl⟩ := h
      have hlt : ∀ earlier ∈ session.checkpoints, earlier.eventCount < input.eventCount := by
        intro earlier hearlier
        have hne := List.find?_eq_none.1 hfind earlier hearlier
        have hle := le_maxEventCount hearlier
        simp only [beq_iff_eq] at hne
        omega
      refine ⟨rfl, rfl, Or.inr ⟨rfl, hlt, ?_⟩⟩
      rw [sortCommitments_eq clock (ascending_concat.2 ⟨hascending, hlt⟩)]

/-- A session that has just been created takes any checkpoint. -/
theorem appendToSession_fresh (clock : Clock) {session : ObservedSession}
    (h : session.checkpoints = []) (input : AppendObservedCheckpointInput)
    (observedAt checkpointId : JsString) :
    ∃ next checkpoint, appendToSession clock session input observedAt checkpointId =
      .ok (next, checkpoint, true) := by
  simp [appendToSession, h, maxEventCount]

/-! ## Observations of a record -/

/-- The observation reports a session whose checkpoints are tips of the chain. -/
structure Reports (chain : List B3Hash) (observedSessionId : JsString)
    (checkpoints : List ObservationCommitment) (observation : RecordObservation) : Prop where
  session : observation.observedSessionId = some observedSessionId
  commitments : observation.commitments = checkpoints
  nonempty : checkpoints ≠ []
  anchored : ∀ checkpoint ∈ checkpoints,
    0 < checkpoint.eventCount ∧ chain[checkpoint.eventCount - 1]? = some checkpoint.chainTip
  state : observation.state =
    if lastEventCount checkpoints = chain.length then .observed else .partly

theorem Reports.observed_iff {chain : List B3Hash} {observedSessionId : JsString}
    {checkpoints : List ObservationCommitment} {observation : RecordObservation}
    (h : Reports chain observedSessionId checkpoints observation) :
    observation.state = .observed ↔ lastEventCount checkpoints = chain.length := by
  rw [h.state]
  by_cases hlast : lastEventCount checkpoints = chain.length <;> simp [hlast]

theorem checkCommitments_ok {chain : List B3Hash} {total : Nat}
    {checkpoints : List ObservationCommitment} :
    checkCommitments chain total checkpoints = .ok () ↔
      ∀ checkpoint ∈ checkpoints, 1 ≤ checkpoint.eventCount ∧ checkpoint.eventCount ≤ total ∧
        chain[checkpoint.eventCount - 1]? = some checkpoint.chainTip := by
  induction checkpoints with
  | nil => simp [checkCommitments]
  | cons checkpoint checkpoints ih =>
      rw [List.forall_mem_cons, ← ih, checkCommitments, checkCommitment]
      by_cases hcount : checkpoint.eventCount < 1 ∨ total < checkpoint.eventCount
      · rw [if_pos hcount]
        constructor
        · intro h
          cases h
        · intro h
          omega
      · rw [if_neg hcount]
        by_cases htip : chain[checkpoint.eventCount - 1]? ≠ some checkpoint.chainTip
        · rw [if_pos htip]
          constructor
          · intro h
            cases h
          · intro h
            exact absurd h.1.2.2 htip
        · rw [if_neg htip]
          constructor
          · exact fun h => ⟨⟨by omega, by omega, not_not.1 htip⟩, h⟩
          · exact And.right

/-- A record binds to a session whose checkpoints are tips of its chain. -/
theorem validateRecordObservation_ok {P : Platform} {clock : Clock} {record : WritingRecord}
    {observedSessionId : JsString} {checkpoints : List ObservationCommitment}
    {observation : RecordObservation} (hascending : Ascending checkpoints)
    (h : validateRecordObservation P clock record observedSessionId checkpoints =
      .ok observation) :
    ∃ chain, computeEventHashChain P record.events record.manifest.sessionId
        record.manifest.formatVersion = .ok chain ∧
      Reports chain observedSessionId checkpoints observation := by
  simp only [validateRecordObservation, sortCommitments_eq clock hascending] at h
  split at h
  · cases h
  rename_i hnonempty
  split at h
  · cases h
  rename_i chain hchain
  split at h
  · cases h
  rename_i hchecked
  simp only [Except.ok.injEq] at h
  subst h
  have hlength := length_computeEventHashChain hchain
  refine ⟨chain, hchain, rfl, sortCommitments_eq clock hascending, by simpa using hnonempty, ?_, ?_⟩
  · intro checkpoint hmem
    obtain ⟨hpos, -, htip⟩ := checkCommitments_ok.1 hchecked checkpoint hmem
    exact ⟨hpos, htip⟩
  · rw [hlength]
    rfl

end Pmbah.Store
