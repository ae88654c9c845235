import Pmbah.Format.HashChain
import Pmbah.Producer.Types

/-!
# The timeline of a session

An edit becomes the next event of its session: the clock is held at the time of
the event before it, and the result is validated before it is kept.
-/

namespace Pmbah.Producer

open Js Format

def numberOrNull : Option JsNumber → Json
  | none => .null
  | some value => .num value

/-- A wall-clock correction must not make a resumed history run backwards. -/
def eventTimeAt (previousT : Nat) (wallMs baseWallMs : Int) : Int :=
  max 0 (max (previousT : Int) (wallMs - baseWallMs))

def buildNextMutation (P : Platform) (pending : PendingMutation) (seq previousT : Nat)
    (wallMs baseWallMs : Int) : Except JsError BufferMutation :=
  let event : Json := .obj [(js "seq", Json.ofNat seq),
    (js "t", Json.ofInt (eventTimeAt previousT wallMs baseWallMs)),
    (js "op", .str pending.op.text), (js "pos", numberOrNull pending.pos),
    (js "del_len", numberOrNull pending.delLen), (js "ins_len", numberOrNull pending.insLen),
    (js "source", .str pending.source.text)]
  match validateEvent P event (some seq) with
  | .error thrown => .error thrown
  | .ok errors =>
      if errors.isEmpty then .ok (readEvent event)
      else .error (.error (joinWith (js "; ") errors))

def advanceChain (P : Platform) (previousTip : Option B3Hash) (event : BufferMutation)
    (sessionId : JsString) (version : FormatVersion) : Except JsError B3Hash :=
  advanceEventHash P previousTip event.toJson sessionId version

/-! ## Specification -/

/-- The sizes and the position of an event, as a producer reported them. -/
structure Reports (pending : PendingMutation) (event : BufferMutation) : Prop where
  op : event.op = pending.op
  pos : numberOrNull pending.pos = natOrNull event.pos
  delLen : numberOrNull pending.delLen = natOrNull event.delLen
  insLen : numberOrNull pending.insLen = natOrNull event.insLen
  source : event.source = pending.source

theorem buildNextMutation_ok {P : Platform} {pending : PendingMutation} {seq previousT : Nat}
    {wallMs baseWallMs : Int} {event : BufferMutation}
    (h : buildNextMutation P pending seq previousT wallMs baseWallMs = .ok event) :
    event.Valid ∧ event.seq = seq ∧
      (event.t : Int) = eventTimeAt previousT wallMs baseWallMs ∧ Reports pending event := by
  unfold buildNextMutation at h
  simp only at h
  split at h
  · cases h
  · rename_i errors herrors
    split at h
    · rename_i hnil
      rw [List.isEmpty_iff] at hnil
      subst hnil
      obtain ⟨read, hvalid, hreads, hseq⟩ := validateEvent_eq_nil.1 herrors
      rw [readEvent_of_readsAs hreads, Except.ok.injEq] at h
      subst h
      have ht : Json.ofInt (eventTimeAt previousT wallMs baseWallMs) = Json.ofNat read.t :=
        Option.some.inj hreads.t
      have hop : Json.str pending.op.text = Json.str read.op.text := Option.some.inj hreads.op
      have hsource : Json.str pending.source.text = Json.str read.source.text :=
        Option.some.inj hreads.source
      refine ⟨hvalid, hseq seq rfl, ?_, ?_, Option.some.inj hreads.pos,
        Option.some.inj hreads.delLen, Option.some.inj hreads.insLen, ?_⟩
      · simp only [Json.ofInt, Json.ofNat, JsNumber.ofNat, Json.num.injEq] at ht
        exact (JsNumber.ofInt_injective ht).symm
      · exact (operation_prefixCode.injective (Json.str.inj hop)).symm
      · exact (source_prefixCode.injective (Json.str.inj hsource)).symm
    · cases h

theorem previous_le_eventTimeAt (previousT : Nat) (wallMs baseWallMs : Int) :
    (previousT : Int) ≤ eventTimeAt previousT wallMs baseWallMs := by
  unfold eventTimeAt
  omega

/-- The chain goes on from the tip of the log, for a session whose id is a UUID. -/
theorem advanceChain_ok {P : Platform} {events : List BufferMutation} {event : BufferMutation}
    {sessionId : JsString} {version : FormatVersion} {tip : B3Hash}
    (hvalid : event.Valid)
    (h : advanceChain P (eventTip P sessionId version events) event sessionId version =
      .ok tip) :
    isUuid sessionId = true ∧ eventTip P sessionId version (events ++ [event]) = some tip := by
  obtain ⟨huuid, read, -, hreads, -, htip⟩ := advanceEventHash_ok.1 h
  have hread : read = event := by
    rw [← readEvent_of_readsAs hreads, readEvent_of_readsAs (readsAs_toJson event)]
  subst hread
  refine ⟨huuid, ?_⟩
  rw [htip]
  simp only [eventTip, Library.ChainScheme.tip_concat]

end Pmbah.Producer
