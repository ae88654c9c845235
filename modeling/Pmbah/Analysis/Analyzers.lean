import Pmbah.Analysis.Statistics

/-!
# Analyzers

The analyzers that a record's events are shown to, and the correction of the edit topology
that was stored by an older one.
-/

namespace Pmbah.Analysis

open Js Format Store Library

def timingDistributionAnalyzerId : JsString := js "timing-distribution"

def editTopologyAnalyzerId : JsString := js "edit-topology"

/-- The version of the analyzers before their corrections. -/
def analyzerVersion : JsString := js "0.1.0"

def timingAnalyzerVersion : JsString := js "0.1.1"

def editTopologyAnalyzerVersion : JsString := js "0.2.0"

structure Analyzer where
  id : JsString
  version : JsString
  analyze : List BufferMutation → RecordManifest → Except JsError Signal

def notApplicable (analyzerId explanation : JsString) : Signal where
  analyzerId
  analyzerVersion :=
    if analyzerId = timingDistributionAnalyzerId then timingAnalyzerVersion
    else editTopologyAnalyzerVersion
  applicable := false
  measures := []
  explanation

/-- `error.name`. -/
def errorName : JsError → JsString
  | .typeError _ => js "TypeError"
  | .rangeError _ => js "RangeError"
  | .error _ => js "Error"

def analyzerErrorSignal (analyzer : Analyzer) (error : JsError) : Signal where
  analyzerId := analyzer.id
  analyzerVersion := analyzer.version
  applicable := false
  measures := [{ key := js "analyzer_error", value := .bool true },
    { key := js "error_type", value := .str (errorName error) }]
  explanation :=
    js "Analyzer " ++ analyzer.id ++
      js " failed while measuring this record, so this signal is unavailable. Other analyzer " ++
      js "facts and the stored writing record are unaffected."

instance : Inhabited Signal :=
  ⟨{ analyzerId := [], analyzerVersion := [], applicable := false, measures := []
     explanation := [] }⟩

def timingDistributionAnalyzer (idleThresholdMs : Option JsNumber) : Analyzer where
  id := timingDistributionAnalyzerId
  version := timingAnalyzerVersion
  analyze events manifest := do
    let idle := idleThresholdMs.getD (.ofNat defaultIdleThresholdMs)
    let analysis ← analyzeEventLog events manifest (some idle) {}
    pure (analysis.signals.getD 0 default)

def editTopologyAnalyzer (largeAtomicInsertCodepoints smallEditCodepoints : Option Nat) :
    Analyzer where
  id := editTopologyAnalyzerId
  version := editTopologyAnalyzerVersion
  analyze events manifest :=
    let large := largeAtomicInsertCodepoints.getD defaultLargeAtomicInsertCodepoints
    let small := smallEditCodepoints.getD defaultSmallEditCodepoints
    if events.isEmpty then
      pure (notApplicable editTopologyAnalyzerId (js "Edit topology needs at least one event."))
    else do
      let analysis ← analyzeEventLog events manifest none
        { largeAtomicInsertCodepoints := some large, smallEditCodepoints := some small }
      pure (analysis.signals.getD 1 default)

def runAnalyzerSafely (events : List BufferMutation) (manifest : RecordManifest)
    (analyzer : Analyzer) : Signal :=
  match analyzer.analyze events manifest with
  | .ok signal => signal
  | .error error => analyzerErrorSignal analyzer error

def runAnalyzers (events : List BufferMutation) (manifest : RecordManifest)
    (analyzers : List Analyzer) : List Signal :=
  analyzers.map (runAnalyzerSafely events manifest)

def runDefaultAnalyzers (events : List BufferMutation) (manifest : RecordManifest)
    (idleThresholdMs : Option JsNumber) : List Signal :=
  runAnalyzers events manifest
    [timingDistributionAnalyzer idleThresholdMs, editTopologyAnalyzer none none]

/-! ## The correction -/

def hasKnownSizes (event : BufferMutation) : Bool := event.delLen.isSome && event.insLen.isSome

def revisionRatio : Option Nat → Option Nat → Json
  | some inserted, some deleted =>
      if inserted = 0 then .null else roundedRatio deleted inserted
  | _, _ => .null

/-- One event of the count of clusters, with whether the one before was a deletion. -/
def countDeletion (found : Nat × Bool) (event : BufferMutation) : Nat × Bool :=
  let isDeletion := decide (0 < event.delLen.getD 0)
  (if isDeletion && !found.2 then found.1 + 1 else found.1, isDeletion)

def countDeletionClusters (events : List BufferMutation) : Nat :=
  (events.foldl countDeletion (0, false)).1

/-- The values that an upgrade puts in place of those stored, by their keys. -/
def corrections (events : List BufferMutation) : List (JsString × Json) :=
  let (inserted, deleted, largest) := aggregateMutationSizes events
  let deletions := events.countP fun event => event.delLen.any (0 < ·)
  [(js "inserted_codepoints_total", natOrNull inserted),
    (js "deleted_codepoints_total", natOrNull deleted),
    (js "atomic_insert_max_len", natOrNull largest),
    (js "revision_deleted_codepoint_ratio", revisionRatio inserted deleted),
    (js "deletion_count", natOrNull (deleted.map fun _ => deletions)),
    (js "deletion_cluster_count",
      natOrNull (deleted.map fun _ => countDeletionClusters events))] ++
  if events.any (fun event => !hasKnownSizes event) then
    [(js "small_edit_count", .null), (js "small_edit_ratio", .null),
      (js "large_atomic_insert_count", .null)]
  else []

def SignalMeasure.correct (corrections : List (JsString × Json)) (item : SignalMeasure) :
    SignalMeasure :=
  match corrections.lookup item.key with
  | some value => { item with value }
  | none => item

/-- Correct derived legacy facts without guessing the original custom thresholds. -/
def upgradeLegacyEditTopologySignal (signal : Signal) (events : List BufferMutation) : Signal :=
  if signal.analyzerId ≠ editTopologyAnalyzerId ∨ signal.analyzerVersion ≠ analyzerVersion ∨
      !signal.applicable then signal
  else { signal with
    analyzerVersion := editTopologyAnalyzerVersion
    measures := signal.measures.map (SignalMeasure.correct (corrections events))
    explanation :=
      js "Legacy edit-topology facts corrected from the recorded measurements. Totals and " ++
        js "maxima are unavailable when a required size is unknown. Original size-threshold " ++
        js "measures are preserved for fully measured logs; they are unavailable for partially " ++
        js "measured logs because the original custom thresholds were not stored. This derived " ++
        js "view does not change the stored writing record." }

/-- The value of the first measure under a key. -/
def Signal.value? (signal : Signal) (key : JsString) : Option Json :=
  (signal.measures.find? fun item => item.key == key).map SignalMeasure.value

/-! ## The facts that are corrected -/

/-- What an upgrade recomputes of every log. -/
def correctedKeys : List JsString :=
  [js "inserted_codepoints_total", js "deleted_codepoints_total", js "atomic_insert_max_len",
    js "revision_deleted_codepoint_ratio", js "deletion_count", js "deletion_cluster_count"]

theorem value?_correct {measures : List SignalMeasure} {corrections : List (JsString × Json)}
    {key : JsString} {value : Json} (hkey : key ∈ measures.map SignalMeasure.key)
    (hlookup : corrections.lookup key = some value) :
    ((measures.map (SignalMeasure.correct corrections)).find? fun item => item.key == key).map
      SignalMeasure.value = some value := by
  have hkeeps : ∀ item : SignalMeasure, (item.correct corrections).key = item.key := by
    intro item
    rw [SignalMeasure.correct]
    cases corrections.lookup item.key <;> rfl
  induction measures with
  | nil => cases hkey
  | cons item measures ih =>
      rw [List.map_cons, List.find?_cons, hkeeps]
      by_cases hsame : item.key = key
      · have hbeq : (item.key == key) = true := beq_iff_eq.2 hsame
        rw [hbeq]
        simp only [Option.map_some]
        rw [SignalMeasure.correct, hsame, hlookup]
      · have hbeq : (item.key == key) = false := beq_eq_false_iff_ne.2 hsame
        rw [hbeq]
        apply ih
        rcases List.mem_cons.1 hkey with hhere | hrest
        · exact absurd hhere.symm hsame
        · exact hrest

theorem foldl_countDeletion (events : List BufferMutation) :
    events.foldl countDeletion (0, false) =
      ((Runs.maximalRuns deletes events).ncard, events.getLast?.any deletes) := by
  induction events using List.reverseRecOn with
  | nil => rw [Runs.ncard_maximalRuns_nil]; rfl
  | append_singleton events event ih =>
      have hdeletes : decide (0 < event.delLen.getD 0) = deletes event := by
        rw [deletes]
        cases event.delLen <;> rfl
      rw [List.foldl_append, ih, clusters_concat, List.getLast?_concat]
      simp only [List.foldl_cons, List.foldl_nil, countDeletion, hdeletes, Option.any_some]

theorem countDeletionClusters_eq (events : List BufferMutation) :
    countDeletionClusters events = (Runs.maximalRuns deletes events).ncard := by
  rw [countDeletionClusters, foldl_countDeletion]

theorem defaultIdleThreshold_accepted (options : AnalysisOptions) :
    ∃ first, createAnalysisAccumulator none options = .ok first := ⟨_, rfl⟩

theorem editTopologyAnalyzer_ok {events : List BufferMutation} (hvalid : ValidLog events)
    (hne : events ≠ []) (manifest : RecordManifest) (large small : Option Nat) :
    ∃ first, (editTopologyAnalyzer large small).analyze events manifest =
      .ok ((tally first events).topologySignal manifest) := by
  obtain ⟨first, hfirst⟩ := defaultIdleThreshold_accepted
    { largeAtomicInsertCodepoints := some (large.getD defaultLargeAtomicInsertCodepoints)
      smallEditCodepoints := some (small.getD defaultSmallEditCodepoints) }
  refine ⟨first, ?_⟩
  have hempty : events.isEmpty ≠ true := by
    rw [List.isEmpty_iff.ne]
    exact hne
  simp only [editTopologyAnalyzer]
  rw [if_neg hempty, analyzeEventLog_ok hfirst hvalid]
  rfl

/-- A correction is the value that the tally of the log has under its key. -/
theorem corrections_eq_tally (first : AnalysisAccumulator) (events : List BufferMutation)
    (manifest : RecordManifest) :
    ∀ key ∈ correctedKeys, ∃ value, (corrections events).lookup key = some value ∧
      ((tally first events).topologySignal manifest).value? key = some value := by
  intro key hkey
  simp only [correctedKeys, List.mem_cons, List.not_mem_nil, or_false] at hkey
  rw [corrections, aggregateMutationSizes_eq, countDeletionClusters_eq]
  rcases hkey with rfl | rfl | rfl | rfl | rfl | rfl
  · exact ⟨_, rfl, rfl⟩
  · exact ⟨_, rfl, rfl⟩
  · exact ⟨_, rfl, rfl⟩
  · exact ⟨_, rfl, rfl⟩
  · exact ⟨_, rfl, rfl⟩
  · exact ⟨_, rfl, rfl⟩

/-- On a log with events an upgrade arrives at the facts of the analyzer. -/
theorem upgradeLegacyEditTopologySignal_facts {events : List BufferMutation}
    (hvalid : ValidLog events) (hne : events ≠ []) {signal : Signal}
    (hid : signal.analyzerId = editTopologyAnalyzerId)
    (hversion : signal.analyzerVersion = analyzerVersion) (happlicable : signal.applicable = true)
    (hkeys : ∀ key ∈ correctedKeys, key ∈ signal.measures.map SignalMeasure.key)
    (manifest : RecordManifest) (large small : Option Nat) :
    ∃ current, (editTopologyAnalyzer large small).analyze events manifest = .ok current ∧
      ∀ key ∈ correctedKeys, ∃ value,
        (upgradeLegacyEditTopologySignal signal events).value? key = some value ∧
        current.value? key = some value := by
  obtain ⟨first, hcurrent⟩ := editTopologyAnalyzer_ok hvalid hne manifest large small
  refine ⟨_, hcurrent, ?_⟩
  intro key hkey
  obtain ⟨value, hlookup, htally⟩ := corrections_eq_tally first events manifest key hkey
  have hupgrade : ¬ (signal.analyzerId ≠ editTopologyAnalyzerId ∨
      signal.analyzerVersion ≠ analyzerVersion ∨ (!signal.applicable) = true) := by
    rw [hid, hversion, happlicable]
    decide
  refine ⟨value, ?_, htally⟩
  rw [upgradeLegacyEditTopologySignal, if_neg hupgrade]
  exact value?_correct (hkeys key hkey) hlookup

end Pmbah.Analysis
