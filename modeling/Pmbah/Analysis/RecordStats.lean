import Pmbah.Analysis.Accumulator
import Pmbah.Analysis.Percentiles
import Pmbah.Store.Types

/-!
# The statistics of a record

What is published of an analysis that has reached the end of a log.
-/

namespace Pmbah.Analysis

open Js Format Store Library

structure RecordStats where
  recordHash : B3Hash
  eventCount : Nat
  durationMs : Nat
  startingLength : Option Nat
  observedFinalLength : Option Nat
  insertOpCount : Nat
  deleteOpCount : Nat
  replaceOpCount : Nat
  typedEventCount : Nat
  pasteEventCount : Nat
  cutEventCount : Nat
  dropEventCount : Nat
  imeEventCount : Nat
  autocompleteEventCount : Nat
  programmaticEventCount : Nat
  unknownSourceCount : Nat
  insertedCodepointsTotal : Option Nat
  deletedCodepointsTotal : Option Nat
  largestAtomicInsertCodepoints : Option Nat
  /-- Totals over the edits whose sizes are known; `none` for uploads begun before they
  were kept. -/
  measuredInsertedCodepoints : Option Nat
  measuredDeletedCodepoints : Option Nat
  measuredLargestInsertCodepoints : Option Nat
  unknownSizeEditCount : Int
  interEventDelayMinMs : Option Nat
  interEventDelayP50Ms : Option Nat
  interEventDelayP90Ms : Option Nat
  interEventDelayP95Ms : Option Nat
  interEventDelayP99Ms : Option Nat
  interEventDelayMaxMs : Option Nat
  activeTimeMs : Nat
  idleTimeMs : Nat
  longPauseCount : Nat
  delayHistogram : List (JsString × Nat)

def histogramBuckets : List JsString :=
  [js "0-999ms", js "1s-4.999s", js "5s-29.999s", js "30s-299.999s", js "5m+"]

/-- A measure of a signal; its value is a number or `null`. -/
structure SignalMeasure where
  key : JsString
  value : Json
  unit : Option JsString := none

structure Signal where
  analyzerId : JsString
  analyzerVersion : JsString
  applicable : Bool
  measures : List SignalMeasure
  explanation : JsString

/-- `Math.round(n * 10000) / 10000`, of a quotient in double precision. -/
def roundedRatio (numerator denominator : Nat) : Json :=
  -- no number when nothing was divided, which is stored as `null`
  if denominator = 0 then .null
  else
    let ratio := Binary64.round (numerator / denominator)
    .num (.finite (Binary64.round (⌊Binary64.round (ratio * 10000) + 1 / 2⌋ / 10000)))

/-- Whether the producer declared a capability. -/
def declares (manifest : RecordManifest) (capability : Capability) : Bool :=
  match (manifest.json.field (js "producer")).bind (·.field (js "capabilities")) with
  | some (.arr items) => items.any fun item => Json.text? (some item) == some capability.text
  | _ => false

namespace AnalysisAccumulator

def stats (s : AnalysisAccumulator) (manifest : RecordManifest)
    (percentiles : ExactDelayPercentiles) : RecordStats where
  recordHash := manifest.recordHash
  eventCount := s.count
  durationMs := manifest.durationMs
  startingLength := s.startingLength.getD (some 0)
  observedFinalLength := s.observedLength
  insertOpCount := s.inserts
  deleteOpCount := s.deletes
  replaceOpCount := s.replaces
  typedEventCount := s.sources .typing
  pasteEventCount := s.sources .paste
  cutEventCount := s.sources .cut
  dropEventCount := s.sources .drop
  imeEventCount := s.sources .ime
  autocompleteEventCount := s.sources .autocomplete
  programmaticEventCount := s.sources .programmatic
  unknownSourceCount := s.sources .unknown
  insertedCodepointsTotal := s.inserted
  deletedCodepointsTotal := s.deleted
  largestAtomicInsertCodepoints := s.largest
  measuredInsertedCodepoints := s.measuredInserted
  measuredDeletedCodepoints := s.measuredDeleted
  measuredLargestInsertCodepoints := s.measuredLargest
  unknownSizeEditCount := s.count - s.knownSizes
  interEventDelayMinMs := s.minDelay
  interEventDelayP50Ms := percentiles.p50
  interEventDelayP90Ms := percentiles.p90
  interEventDelayP95Ms := percentiles.p95
  interEventDelayP99Ms := percentiles.p99
  interEventDelayMaxMs := s.maxDelay
  activeTimeMs := s.active
  idleTimeMs := s.idle
  longPauseCount := s.longPauses
  delayHistogram := histogramBuckets.zip s.histogram

def timingSignal (s : AnalysisAccumulator) (manifest : RecordManifest)
    (percentiles : ExactDelayPercentiles) : Signal :=
  let timing := declares manifest .timing
  let applicable := timing && 2 ≤ s.count
  let longest := s.maxDelay.elim (js "null") natText
  { analyzerId := js "timing-distribution"
    analyzerVersion := js "0.1.1"
    applicable
    measures :=
      if applicable then
        [{ key := js "event_count", value := .ofNat s.count },
          { key := js "interval_count", value := .ofNat (s.count - 1) },
          { key := js "inter_event_delay_min_ms", value := natOrNull s.minDelay, unit := js "ms" },
          { key := js "inter_event_delay_p50_ms", value := natOrNull percentiles.p50,
            unit := js "ms" },
          { key := js "inter_event_delay_p90_ms", value := natOrNull percentiles.p90,
            unit := js "ms" },
          { key := js "inter_event_delay_p95_ms", value := natOrNull percentiles.p95,
            unit := js "ms" },
          { key := js "inter_event_delay_max_ms", value := natOrNull s.maxDelay, unit := js "ms" },
          { key := js "active_time_ms", value := .ofNat s.active, unit := js "ms" },
          { key := js "idle_time_ms", value := .ofNat s.idle, unit := js "ms" },
          { key := js "long_pause_count", value := .ofNat s.longPauses }]
      else []
    explanation :=
      if applicable then
        js "Measured " ++ natText (s.count - 1) ++
          js " inter-event intervals. Long pauses are intervals at or above " ++
          natText s.idleThresholdMs ++ js "ms; the longest interval was " ++ longest ++
          js "ms, with " ++ natText s.longPauses ++ js " long pause(s)."
      else if timing then
        js "Timing distribution needs at least two events to measure inter-event intervals."
      else
        js "Producer did not declare timing capability, so timing-distribution is not applicable." }

def sourceExplanation (s : AnalysisAccumulator) (manifest : RecordManifest) : JsString :=
  if declares manifest .sourceAttribution then
    js " Source attribution is present: " ++
      joinWith (js ", ") (s.sourceOrder.map fun source =>
        source.text ++ js "=" ++ natText (s.sources source)) ++ js "."
  else
    js " Source attribution was not declared, so this signal only uses known event sizes, " ++
      js "positions, and operations."

/-- What is measured of the sizes is withheld where a total is unknown. -/
def topologySignal (s : AnalysisAccumulator) (manifest : RecordManifest) : Signal :=
  let small := if s.knownSizes = s.count then some s.small else none
  { analyzerId := js "edit-topology"
    analyzerVersion := js "0.2.0"
    applicable := true
    measures := [
      { key := js "event_count", value := .ofNat s.count },
      { key := js "small_edit_count", value := natOrNull small },
      { key := js "small_edit_ratio"
        value := small.elim .null fun small => roundedRatio small s.count },
      { key := js "unknown_process_measurement_count", value := .ofNat s.unknownMeasurements },
      { key := js "small_edit_threshold_codepoints", value := .ofNat s.smallThreshold
        unit := js "codepoints" },
      { key := js "large_atomic_insert_threshold_codepoints", value := .ofNat s.largeThreshold
        unit := js "codepoints" },
      { key := js "large_atomic_insert_count"
        value := natOrNull (s.inserted.map fun _ => s.large) },
      { key := js "atomic_insert_max_len", value := natOrNull s.largest
        unit := js "codepoints" },
      { key := js "deletion_count"
        value := natOrNull (s.deleted.map fun _ => s.deletionEvents) },
      { key := js "deletion_cluster_count"
        value := natOrNull (s.deleted.map fun _ => s.deletionClusters) },
      { key := js "replacement_count", value := .ofNat s.replaces },
      { key := js "inserted_codepoints_total", value := natOrNull s.inserted
        unit := js "codepoints" },
      { key := js "deleted_codepoints_total", value := natOrNull s.deleted
        unit := js "codepoints" },
      { key := js "revision_deleted_codepoint_ratio"
        value :=
          match s.inserted, s.deleted with
          | some inserted, some deleted =>
              if inserted = 0 then .null else roundedRatio deleted inserted
          | _, _ => .null }]
    explanation :=
      js "Measured edit topology over " ++ natText s.count ++ js " mutation event(s), with " ++
        natText s.knownSizes ++ js " event(s) with known sizes and " ++
        natText s.unknownMeasurements ++
        js " event(s) with unknown process measurements. A measure is unavailable when a " ++
        js "missing size prevents its calculation; unknown positions alone do not hide known " ++
        js "sizes. Small edits contain at most " ++ natText s.smallThreshold ++
        js " inserted and deleted codepoints combined; large atomic inserts contain at least " ++
        natText s.largeThreshold ++
        js " codepoints. deletion_count counts every mutation that removes codepoints, " ++
        js "including replacement events. replacement_count separately counts op=replace " ++
        js "events. Deleted codepoints are reported as a revision/dead-end indicator, not a " ++
        js "verdict." ++ s.sourceExplanation manifest }

end AnalysisAccumulator

structure RecordAnalysis where
  stats : RecordStats
  signals : List Signal

/-- The event count is the manifest's, which the array entry point replaces. -/
def finalizeAnalysis (s : AnalysisAccumulator) (manifest : RecordManifest) (eventCount : Nat)
    (percentiles : ExactDelayPercentiles) : Except JsError RecordAnalysis :=
  if s.version ≠ 1 then .error (.typeError (js "Unsupported analysis accumulator version"))
  else if s.count ≠ eventCount then
    .error (.typeError (js "analysis does not cover manifest"))
  else .ok {
    stats := s.stats manifest percentiles
    signals := [s.timingSignal manifest percentiles, s.topologySignal manifest] }

/-- The accumulator and the delays after all of a log. -/
def appendAll : List BufferMutation → AnalysisAccumulator → List Nat →
    Except JsError (AnalysisAccumulator × List Nat)
  | [], s, delays => .ok (s, delays)
  | event :: events, s, delays => do
      let delays := delays ++ (s.lastT.map (event.t - ·)).toList
      let s ← appendAnalysisEvent s event
      appendAll events s delays

/-- The analysis of a log that is held as an array. -/
def analyzeEventLog (events : List BufferMutation) (manifest : RecordManifest)
    (idleThresholdMs : Option JsNumber) (options : AnalysisOptions) :
    Except JsError RecordAnalysis := do
  let state ← createAnalysisAccumulator idleThresholdMs options
  let (state, delays) ← appendAll events state []
  finalizeAnalysis state manifest events.length (.ofEach (percentile delays))

/-- The totals of a log that is held as an array: inserted, deleted, largest insert. -/
def aggregateMutationSizes (events : List BufferMutation) :
    Option Nat × Option Nat × Option Nat :=
  events.foldl (fun (inserted, deleted, largest) event =>
    (inserted.bind fun total => event.insLen.map (addDouble total),
      deleted.bind fun total => event.delLen.map (addDouble total),
      largest.bind fun largest => event.insLen.map (max largest ·))) (some 0, some 0, some 0)

end Pmbah.Analysis
