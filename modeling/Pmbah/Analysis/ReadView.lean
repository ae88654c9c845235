import Pmbah.Analysis.Analyzers
import Pmbah.Store.PagedVerification

/-!
# Reading a record

A read recomputes part of what was stored of the analysis, to correct what older analyzers
stored.  Of what the analyzers store now it changes nothing.
-/

namespace Pmbah.Analysis

open Js Format Store Library

variable {P : Platform} {page : StoredRecord → Nat → Nat → Except StoreError EventPage}

/-- A signal with the fields that storing it adds. -/
structure AnalysisResult extends Signal where
  id : Option JsString := none
  recordHash : B3Hash
  createdAt : Option JsString := none

def stripAnalysisResultStorageFields (signal : AnalysisResult) : Signal := signal.toSignal

/-- A stored record, with what its statistics and signals say. -/
structure FoundRecord where
  stored : StoredRecord
  stats : RecordStats
  signals : List AnalysisResult

structure GetRecordResponse where
  manifest : RecordManifest
  events : List Json
  stats : RecordStats
  signals : List Signal
  observation : RecordObservation

/-! ## The response -/

/-- The time from the first event to the last. -/
def measuredSpan (events : List BufferMutation) : Int :=
  if 1 < events.length then
    let last : Int := events.getLast?.elim 0 fun event => event.t
    let first : Int := events.head?.elim 0 fun event => event.t
    last - first
  else 0

/-- `Math.max(0, span - idle)`. -/
def activeTime (span : Int) : JsNumber → JsNumber
  | .finite idle => .finite (Binary64.round (max 0 (span - idle)))
  | .infinite negative => if negative then .infinite false else .ofNat 0

def readStats (stats : RecordStats) (events : List BufferMutation) : RecordStats :=
  let (inserted, deleted, largest) := aggregateMutationSizes events
  { stats with
    insertedCodepointsTotal := inserted
    deletedCodepointsTotal := deleted
    largestAtomicInsertCodepoints := largest
    activeTimeMs := (max 0 (measuredSpan events - stats.idleTimeMs)).toNat }

/-- The correction of the active time that an older analyzer stored. -/
def correctTiming (span : Int) (signal : Signal) : Signal :=
  if signal.analyzerId ≠ timingDistributionAnalyzerId ∨
      signal.analyzerVersion ≠ analyzerVersion then signal
  else
    let idle := Json.number? (signal.value? (js "idle_time_ms"))
    { signal with
      analyzerVersion := timingAnalyzerVersion
      measures := signal.measures.map fun item =>
        match idle with
        | some idle =>
            if item.key = js "active_time_ms" then { item with value := .num (activeTime span idle) }
            else item
        | none => item }

def readSignal (events : List BufferMutation) (result : AnalysisResult) : Signal :=
  correctTiming (measuredSpan events)
    (upgradeLegacyEditTopologySignal (stripAnalysisResultStorageFields result) events)

def toGetRecordResponse (found : FoundRecord) : GetRecordResponse :=
  let events := found.stored.events.map readEvent
  { manifest := found.stored.manifest
    events := found.stored.events
    stats := readStats found.stats events
    signals := found.signals.map (readSignal events)
    observation := found.stored.observation }

inductive GetRecordError where
  | recordNotFound
  | chunkedRecordRequiresPagination
  | thrown (error : StoreError)

/-- `page` is that of the chunked store behind the API. -/
def getRecord (P : Platform) (page : StoredRecord → Nat → Nat → Except StoreError EventPage)
    (found : Option FoundRecord) : Except GetRecordError GetRecordResponse :=
  match found with
  | none => .error .recordNotFound
  | some found =>
      match found.stored.eventStorage with
      | .inline => .ok (toGetRecordResponse found)
      | .chunks =>
          if 512 < found.stored.manifest.eventCount then .error .chunkedRecordRequiresPagination
          else
            match eventPage P page found.stored 0 512 with
            | .error error => .error (.thrown error)
            | .ok page =>
                .ok (toGetRecordResponse
                  { found with stored := { found.stored with events := page.events } })

/-! ## What is saved -/

structure IngestApiOptions where
  idleThresholdMs : Option JsNumber := none
  analyzers : Option (List Analyzer) := none

def computeRecordStats (events : List BufferMutation) (manifest : RecordManifest)
    (idleThresholdMs : Option JsNumber) (starting : Option Nat) : Except JsError RecordStats := do
  let analysis ← analyzeEventLog events manifest idleThresholdMs
    { startingLength := some starting }
  pure analysis.stats

/-- The analysis that `postRecord` saves. -/
def inlineAnalysis (options : IngestApiOptions) (starting : Option Nat)
    (events : List BufferMutation) (manifest : RecordManifest) :
    Except JsError (RecordStats × List Signal) := do
  let stats ← computeRecordStats events manifest options.idleThresholdMs starting
  pure (stats,
    match options.analyzers with
    | some analyzers => runAnalyzers events manifest analyzers
    | none => runDefaultAnalyzers events manifest options.idleThresholdMs)

/-- An analyzer of arrays has nothing to say of a log that came in chunks. -/
def arrayOnlySignal (analyzer : Analyzer) : Signal :=
  { analyzerErrorSignal analyzer (.error (js "array-only analyzer")) with
    explanation :=
      js "Analyzer " ++ analyzer.id ++
        js " requires a complete event array and is unavailable for chunked publication. The " ++
        js "stored writing record and statistics are unaffected." }

/-- The analysis that the end of a chunked upload saves. -/
def chunkedAnalysis (options : IngestApiOptions) (s : AnalysisAccumulator)
    (manifest : RecordManifest) (percentiles : ExactDelayPercentiles) :
    Except JsError (RecordStats × List Signal) := do
  let analysis ← finalizeAnalysis s manifest manifest.eventCount percentiles
  pure (analysis.stats,
    match options.analyzers with
    | some analyzers => analyzers.map arrayOnlySignal
    | none => analysis.signals)

/-- The record was stored with this analysis; the store may list the signals in another
order and keep one of several of an analyzer. -/
structure FoundRecord.Holds (found : FoundRecord) (stats : RecordStats) (signals : List Signal) :
    Prop where
  stats_eq : found.stats = stats
  signals_mem : ∀ result ∈ found.signals, stripAnalysisResultStorageFields result ∈ signals

/-- A record as it is found after it was saved by `postRecord` or by the end of a chunked
upload. -/
inductive Saved (P : Platform) (page : StoredRecord → Nat → Nat → Except StoreError EventPage)
    (options : IngestApiOptions) (starting : Option Nat) (found : FoundRecord) : Prop
  | inline {hash : B3Hash} {stats : RecordStats} {signals : List Signal}
      (storage : found.stored.eventStorage = .inline)
      (verified : RecordHolds P found.stored.manifest.json found.stored.events hash)
      (analysis : inlineAnalysis options starting (found.stored.events.map readEvent)
        found.stored.manifest = .ok (stats, signals))
      (holds : found.Holds stats signals)
  | chunks {A : Type} {values : List Json} {events : List BufferMutation}
      {first s : AnalysisAccumulator} {percentiles : ExactDelayPercentiles}
      {stats : RecordStats} {signals : List Signal}
      (storage : found.stored.eventStorage = .chunks)
      (kept : KeptLog A P page found.stored values) (log : LogOf found.stored values events)
      (begun : createAnalysisAccumulator options.idleThresholdMs
        { startingLength := some starting } = .ok first)
      (analyzed : Analyzed first events s)
      (analysis : chunkedAnalysis options s found.stored.manifest percentiles =
        .ok (stats, signals))
      (holds : found.Holds stats signals)

/-! ## What a read leaves as it is -/

theorem measuredSpan_eq {events : List BufferMutation} (hvalid : ValidLog events) :
    measuredSpan events = (delays events).sum := by
  rw [measuredSpan]
  split
  · rename_i hlong
    obtain ⟨first, hfirst⟩ : ∃ first, events.head? = some first := by
      cases events with
      | nil => cases hlong
      | cons first events => exact ⟨first, rfl⟩
    have hne : events ≠ [] := List.ne_nil_of_length_pos (by omega)
    have hlast := List.getLast?_eq_some_getLast hne
    have hsum := sum_delays hvalid hfirst hlast
    rw [hfirst, hlast]
    simp only [Option.elim_some]
    omega
  · rename_i hshort
    have hlength := length_delays events
    rw [List.eq_nil_of_length_eq_zero (l := delays events) (by omega)]
    rfl

theorem readStats_tally (first : AnalysisAccumulator) {events : List BufferMutation}
    (hvalid : ValidLog events) (manifest : RecordManifest)
    (percentiles : ExactDelayPercentiles) :
    readStats ((tally first events).stats manifest percentiles) events =
      (tally first events).stats manifest percentiles := by
  have hsplit := sum_filter_add first.idleThresholdMs (delays events)
  have hactive : (max 0 (measuredSpan events -
      ((tally first events).stats manifest percentiles).idleTimeMs)).toNat =
      ((tally first events).stats manifest percentiles).activeTimeMs := by
    rw [measuredSpan_eq hvalid]
    show (max 0 (((delays events).sum : Int) -
      ((delays events).filter (first.idleThresholdMs ≤ ·)).sum)).toNat =
      ((delays events).filter (· < first.idleThresholdMs)).sum
    omega
  rw [readStats, aggregateMutationSizes_eq, hactive]
  rfl

/-- A version of an analyzer whose results are corrected when they are read. -/
def Legacy (analyzerId version : JsString) : Prop :=
  version = analyzerVersion ∧
    (analyzerId = editTopologyAnalyzerId ∨ analyzerId = timingDistributionAnalyzerId)

instance (analyzerId version : JsString) : Decidable (Legacy analyzerId version) :=
  inferInstanceAs (Decidable (_ ∧ _))

theorem not_legacy_timing (analyzerId : JsString) : ¬ Legacy analyzerId timingAnalyzerVersion :=
  fun h => absurd h.1 (by decide)

theorem not_legacy_editTopology (analyzerId : JsString) :
    ¬ Legacy analyzerId editTopologyAnalyzerVersion := fun h => absurd h.1 (by decide)

/-- An analyzer that neither is of such a version nor reports as one. -/
structure Analyzer.Current (analyzer : Analyzer) : Prop where
  own : ¬ Legacy analyzer.id analyzer.version
  reports : ∀ events manifest signal, analyzer.analyze events manifest = .ok signal →
    ¬ Legacy signal.analyzerId signal.analyzerVersion

theorem readSignal_of_not_legacy (events : List BufferMutation) {result : AnalysisResult}
    (h : ¬ Legacy (stripAnalysisResultStorageFields result).analyzerId
      (stripAnalysisResultStorageFields result).analyzerVersion) :
    readSignal events result = stripAnalysisResultStorageFields result := by
  generalize hsignal : stripAnalysisResultStorageFields result = signal at h
  have hkept : upgradeLegacyEditTopologySignal signal events = signal := by
    rw [upgradeLegacyEditTopologySignal, if_pos]
    by_cases hid : signal.analyzerId = editTopologyAnalyzerId
    · exact Or.inr (Or.inl fun hversion => h ⟨hversion, Or.inl hid⟩)
    · exact Or.inl hid
  rw [readSignal, hsignal, hkept, correctTiming, if_pos]
  by_cases hid : signal.analyzerId = timingDistributionAnalyzerId
  · exact Or.inr fun hversion => h ⟨hversion, Or.inr hid⟩
  · exact Or.inl hid

/-! ## The signals of today's analyzers -/

theorem finalizeAnalysis_signals {s : AnalysisAccumulator} {manifest : RecordManifest}
    {eventCount : Nat} {percentiles : ExactDelayPercentiles} {analysis : RecordAnalysis}
    (h : finalizeAnalysis s manifest eventCount percentiles = .ok analysis) :
    analysis.signals = [s.timingSignal manifest percentiles, s.topologySignal manifest] := by
  rw [finalizeAnalysis] at h
  split at h
  · cases h
  split at h
  · cases h
  · cases h
    rfl

theorem analyzeEventLog_signals {events : List BufferMutation} {manifest : RecordManifest}
    {idleThresholdMs : Option JsNumber} {options : AnalysisOptions} {analysis : RecordAnalysis}
    (h : analyzeEventLog events manifest idleThresholdMs options = .ok analysis) :
    ∃ s percentiles, analysis.signals =
      [AnalysisAccumulator.timingSignal s manifest percentiles, s.topologySignal manifest] := by
  simp only [analyzeEventLog, bind_eq_ok] at h
  obtain ⟨first, -, ⟨s, found⟩, -, hfinal⟩ := h
  exact ⟨s, _, finalizeAnalysis_signals hfinal⟩

theorem timingDistributionAnalyzer_current (idleThresholdMs : Option JsNumber) :
    (timingDistributionAnalyzer idleThresholdMs).Current where
  own := not_legacy_timing _
  reports := by
    intro events manifest signal h
    simp only [timingDistributionAnalyzer, bind_eq_ok] at h
    obtain ⟨analysis, hanalysis, hsignal⟩ := h
    obtain ⟨s, percentiles, hsignals⟩ := analyzeEventLog_signals hanalysis
    rw [hsignals] at hsignal
    obtain rfl := Except.ok.inj hsignal
    exact not_legacy_timing _

theorem editTopologyAnalyzer_current (large small : Option Nat) :
    (editTopologyAnalyzer large small).Current where
  own := not_legacy_editTopology _
  reports := by
    intro events manifest signal h
    simp only [editTopologyAnalyzer] at h
    split at h
    · obtain rfl := Except.ok.inj h
      exact not_legacy_editTopology _
    · simp only [bind_eq_ok] at h
      obtain ⟨analysis, hanalysis, hsignal⟩ := h
      obtain ⟨s, percentiles, hsignals⟩ := analyzeEventLog_signals hanalysis
      rw [hsignals] at hsignal
      obtain rfl := Except.ok.inj hsignal
      exact not_legacy_editTopology _

theorem runAnalyzers_current {analyzers : List Analyzer}
    (hcurrent : ∀ analyzer ∈ analyzers, analyzer.Current) (events : List BufferMutation)
    (manifest : RecordManifest) :
    ∀ signal ∈ runAnalyzers events manifest analyzers,
      ¬ Legacy signal.analyzerId signal.analyzerVersion := by
  intro signal hsignal
  obtain ⟨analyzer, hmem, rfl⟩ := List.mem_map.1 hsignal
  rw [runAnalyzerSafely]
  split
  · rename_i reported hreported
    exact (hcurrent analyzer hmem).reports events manifest reported hreported
  · exact (hcurrent analyzer hmem).own

/-! ## Reads of saved records -/

/-- What is known of a record's analysis when its log is at hand. -/
structure FoundRecord.Analyzed (found : FoundRecord) (events : List BufferMutation) : Prop where
  validLog : ValidLog events
  tallied : ∃ first percentiles,
    found.stats = (tally first events).stats found.stored.manifest percentiles
  current : ∀ result ∈ found.signals, ¬ Legacy (stripAnalysisResultStorageFields result).analyzerId
    (stripAnalysisResultStorageFields result).analyzerVersion

theorem FoundRecord.Analyzed.readStats_eq {found : FoundRecord} {events : List BufferMutation}
    (h : found.Analyzed events) : readStats found.stats events = found.stats := by
  obtain ⟨first, percentiles, hstats⟩ := h.tallied
  rw [hstats]
  exact readStats_tally first h.validLog _ percentiles

theorem FoundRecord.Analyzed.readSignals_eq {found : FoundRecord} {events : List BufferMutation}
    (h : found.Analyzed events) :
    found.signals.map (readSignal events) =
      found.signals.map stripAnalysisResultStorageFields := by
  apply List.map_congr_left
  intro result hresult
  exact readSignal_of_not_legacy events (h.current result hresult)

theorem inlineAnalysis_analyzed {options : IngestApiOptions} {starting : Option Nat}
    {events : List BufferMutation} {found : FoundRecord} {stats : RecordStats}
    {signals : List Signal}
    (hcurrent : ∀ analyzers ∈ options.analyzers, ∀ analyzer ∈ analyzers, analyzer.Current)
    (hvalid : ValidLog events)
    (hanalysis : inlineAnalysis options starting events found.stored.manifest =
      .ok (stats, signals)) (hholds : found.Holds stats signals) : found.Analyzed events := by
  simp only [inlineAnalysis, bind_eq_ok] at hanalysis
  obtain ⟨computed, hcomputed, hsaved⟩ := hanalysis
  obtain ⟨rfl, hsignals⟩ := Prod.mk.inj (Except.ok.inj hsaved)
  simp only [computeRecordStats, bind_eq_ok] at hcomputed
  obtain ⟨analysis, hlog, hstats⟩ := hcomputed
  obtain ⟨first, hfirst⟩ : ∃ first, createAnalysisAccumulator options.idleThresholdMs
      { startingLength := some starting } = .ok first := by
    simp only [analyzeEventLog, bind_eq_ok] at hlog
    obtain ⟨first, hfirst, -⟩ := hlog
    exact ⟨first, hfirst⟩
  rw [analyzeEventLog_ok hfirst hvalid] at hlog
  obtain rfl := Except.ok.inj hlog
  refine ⟨hvalid, ⟨first, .ofEach (percentile (delays events)), ?_⟩, ?_⟩
  · rw [hholds.stats_eq]
    exact (Except.ok.inj hstats).symm
  · intro result hresult
    have hmem := hholds.signals_mem result hresult
    rw [← hsignals] at hmem
    cases hanalyzers : options.analyzers with
    | none =>
        rw [hanalyzers] at hmem
        apply runAnalyzers_current _ _ _ _ hmem
        intro analyzer hdefault
        simp only [List.mem_cons, List.not_mem_nil, or_false] at hdefault
        rcases hdefault with rfl | rfl
        · exact timingDistributionAnalyzer_current _
        · exact editTopologyAnalyzer_current _ _
    | some analyzers =>
        rw [hanalyzers] at hmem
        exact runAnalyzers_current (hcurrent analyzers hanalyzers) _ _ _ hmem

theorem chunkedAnalysis_analyzed {options : IngestApiOptions} {starting : Option Nat}
    {events : List BufferMutation} {first s : AnalysisAccumulator}
    {percentiles : ExactDelayPercentiles} {found : FoundRecord} {stats : RecordStats}
    {signals : List Signal}
    (hcurrent : ∀ analyzers ∈ options.analyzers, ∀ analyzer ∈ analyzers, analyzer.Current)
    (hvalid : ValidLog events)
    (hfirst : createAnalysisAccumulator options.idleThresholdMs
      { startingLength := some starting } = .ok first)
    (hanalyzed : Analysis.Analyzed first events s)
    (hanalysis : chunkedAnalysis options s found.stored.manifest percentiles =
      .ok (stats, signals)) (hholds : found.Holds stats signals) : found.Analyzed events := by
  simp only [chunkedAnalysis, bind_eq_ok] at hanalysis
  obtain ⟨analysis, hfinal, hsaved⟩ := hanalysis
  obtain ⟨hstats, hsignals⟩ := Prod.mk.inj (Except.ok.inj hsaved)
  have hreported := finalizeAnalysis_signals hfinal
  refine ⟨hvalid, ⟨first, percentiles, ?_⟩, ?_⟩
  · rw [hholds.stats_eq, ← hstats, ← hanalyzed.eq_tally hfirst]
    rw [finalizeAnalysis] at hfinal
    split at hfinal
    · cases hfinal
    split at hfinal
    · cases hfinal
    · rw [← Except.ok.inj hfinal]
  · intro result hresult
    have hmem := hholds.signals_mem result hresult
    rw [← hsignals] at hmem
    cases hanalyzers : options.analyzers with
    | none =>
        rw [hanalyzers] at hmem
        simp only [hreported, List.mem_cons, List.not_mem_nil, or_false] at hmem
        rcases hmem with hmem | hmem
        · rw [hmem]
          exact not_legacy_timing _
        · rw [hmem]
          exact not_legacy_editTopology _
    | some analyzers =>
        rw [hanalyzers] at hmem
        obtain ⟨analyzer, hanalyzer, hsame⟩ := List.mem_map.1 hmem
        rw [← hsame]
        exact (hcurrent analyzers hanalyzers analyzer hanalyzer).own

/-- A log of at most 512 events is read whole. -/
theorem eventPage_whole {A : Type} {record : StoredRecord} {values : List Json}
    {events : List BufferMutation} (hkept : KeptLog A P page record values)
    (hlog : LogOf record values events) (hshort : record.manifest.eventCount ≤ 512) :
    ∃ whole, eventPage P page record 0 512 = .ok whole ∧ whole.events = values := by
  have hroute : pageRoute P page record 0 512 =
      .ok (expectedPage P record.manifest values events 0 512) :=
    pageRoute_eq hkept hlog (Nat.zero_le _) (by decide) (by decide)
  refine ⟨_, pageRoute_ok hroute, ?_⟩
  have hlength : values.length ≤ 512 := by
    rw [← hlog.count]
    exact hshort
  rw [expectedPage, List.drop_zero, List.take_of_length_le hlength]

/-- A read of a record that was saved returns its analysis as it was stored. -/
theorem getRecord_saved {options : IngestApiOptions} {starting : Option Nat}
    {found : FoundRecord}
    (hcurrent : ∀ analyzers ∈ options.analyzers, ∀ analyzer ∈ analyzers, analyzer.Current)
    (hsaved : Saved P page options starting found)
    (hshort : found.stored.eventStorage = .chunks → found.stored.manifest.eventCount ≤ 512) :
    ∃ response, getRecord P page (some found) = .ok response ∧
      response.stats = found.stats ∧
      response.signals = found.signals.map stripAnalysisResultStorageFields := by
  cases hsaved with
  | inline storage verified analysis holds =>
      obtain ⟨events, hlog⟩ := logOf_of_recordHolds verified
      have hevents : found.stored.events.map readEvent = events := hlog.reads.map_readEvent
      rw [hevents] at analysis
      have hanalyzed := inlineAnalysis_analyzed hcurrent hlog.validLog analysis holds
      refine ⟨toGetRecordResponse found, by rw [getRecord, storage], ?_, ?_⟩
      · rw [toGetRecordResponse, hevents]
        exact hanalyzed.readStats_eq
      · rw [toGetRecordResponse, hevents]
        exact hanalyzed.readSignals_eq
  | @chunks A values events first s percentiles stats signals storage kept log begun analyzed
      analysis holds =>
      obtain ⟨whole, hwhole, hvalues⟩ := eventPage_whole kept log (hshort storage)
      have hevents : whole.events.map readEvent = events := by
        rw [hvalues, log.reads.map_readEvent]
      have hanalyzed := chunkedAnalysis_analyzed hcurrent log.validLog begun analyzed analysis holds
      refine ⟨toGetRecordResponse
        { found with stored := { found.stored with events := whole.events } }, ?_, ?_, ?_⟩
      · rw [getRecord, storage]
        simp only
        rw [if_neg (not_lt.2 (hshort storage)), hwhole]
      · rw [toGetRecordResponse, hevents]
        exact hanalyzed.readStats_eq
      · rw [toGetRecordResponse, hevents]
        exact hanalyzed.readSignals_eq

/-- The keys of the measures of edit topology. -/
def topologyKeys : List JsString :=
  [js "event_count", js "small_edit_count", js "small_edit_ratio",
    js "unknown_process_measurement_count", js "small_edit_threshold_codepoints",
    js "large_atomic_insert_threshold_codepoints", js "large_atomic_insert_count",
    js "atomic_insert_max_len", js "deletion_count", js "deletion_cluster_count",
    js "replacement_count", js "inserted_codepoints_total", js "deleted_codepoints_total",
    js "revision_deleted_codepoint_ratio"]

/-- The edit topology of an older analyzer, under the keys of today's. -/
structure LegacyTopology (signal : Signal) : Prop where
  analyzerId : signal.analyzerId = editTopologyAnalyzerId
  analyzerVersion : signal.analyzerVersion = Analysis.analyzerVersion
  applicable : signal.applicable = true
  keys : ∀ key ∈ topologyKeys, key ∈ signal.measures.map SignalMeasure.key

/-- A read returns what was saved of the analysis, and the correction of an older edit
topology arrives at the facts that are measured of the log today. -/
theorem readView_unchanged {options : IngestApiOptions}
    (hcurrent : ∀ analyzers ∈ options.analyzers, ∀ analyzer ∈ analyzers, analyzer.Current) :
    (∀ starting found, Saved P page options starting found →
      (found.stored.eventStorage = .chunks → found.stored.manifest.eventCount ≤ 512) →
      ∃ response, getRecord P page (some found) = .ok response ∧
        response.stats = found.stats ∧
        response.signals = found.signals.map stripAnalysisResultStorageFields) ∧
    ∀ events signal manifest large small, ValidLog events → events ≠ [] →
      LegacyTopology signal →
      ∃ current, (editTopologyAnalyzer large small).analyze events manifest = .ok current ∧
        ∀ key ∈ correctedKeys, ∃ value,
          (upgradeLegacyEditTopologySignal signal events).value? key = some value ∧
          current.value? key = some value := by
  constructor
  · intro starting found hsaved hshort
    exact getRecord_saved hcurrent hsaved hshort
  · intro events signal manifest large small hvalid hne hlegacy
    have hkeys : ∀ key ∈ correctedKeys, key ∈ signal.measures.map SignalMeasure.key := by
      intro key hkey
      have hsubset : correctedKeys ⊆ topologyKeys := by decide +kernel
      exact hlegacy.keys key (hsubset hkey)
    exact upgradeLegacyEditTopologySignal_facts hvalid hne hlegacy.analyzerId
      hlegacy.analyzerVersion hlegacy.applicable hkeys manifest large small

/-- An edit topology as it was stored before, its values not yet measured. -/
def unmeasuredTopology : Signal where
  analyzerId := editTopologyAnalyzerId
  analyzerVersion := analyzerVersion
  applicable := true
  measures := topologyKeys.map fun key => { key, value := .null }
  explanation := []

theorem unmeasuredTopology_legacy : LegacyTopology unmeasuredTopology := by
  refine ⟨rfl, rfl, rfl, ?_⟩
  intro key hkey
  rw [unmeasuredTopology, List.map_map]
  exact List.mem_map.2 ⟨key, hkey, rfl⟩

/-- The record in two rows, found with the analysis that its upload saved, and an older
signal of a log with a pause. -/
theorem readView_unchanged_pair :
    (∃ found response, found.stored = pairRecord ∧ found.signals.length = 2 ∧
      getRecord Platform.standard pairTables.page (some found) = .ok response ∧
      response.stats = found.stats ∧
      response.signals = found.signals.map stripAnalysisResultStorageFields) ∧
    ∃ current, (editTopologyAnalyzer none none).analyze pausedLog pausedManifest = .ok current ∧
      (upgradeLegacyEditTopologySignal unmeasuredTopology pausedLog).value?
        (js "deletion_cluster_count") = current.value? (js "deletion_cluster_count") := by
  have hcurrent : ∀ analyzers ∈ ({} : IngestApiOptions).analyzers, ∀ analyzer ∈ analyzers,
      analyzer.Current := by
    intro analyzers hnone
    cases hnone
  obtain ⟨hreads, hupgrades⟩ := readView_unchanged
    (P := Platform.standard) hcurrent
  constructor
  · have hvalid : ValidLog pairEvents := pairChunks_partition.validLog
    have hlog : LogOf pairRecord (pairEvents.map BufferMutation.toJson) pairEvents :=
      ⟨pairChunks_partition.reads, hvalid, by decide, by simp [pairEvents], rfl⟩
    obtain ⟨first, hfirst⟩ := defaultIdleThreshold_accepted { startingLength := some (some 0) }
    obtain ⟨s, hs⟩ := Analyzed.exists_of_validLog hfirst hvalid
    let percentiles : ExactDelayPercentiles := .ofEach (percentile (delays pairEvents))
    let analysis := tallyAnalysis first pairEvents pairManifest percentiles
    have hfinal : finalizeAnalysis s pairManifest pairManifest.eventCount percentiles =
        .ok analysis := by
      rw [hs.eq_tally hfirst]
      exact finalizeAnalysis_tally pairEvents hfirst pairManifest percentiles
    have hanalysis : chunkedAnalysis {} s pairManifest percentiles =
        .ok (analysis.stats, analysis.signals) := by
      rw [chunkedAnalysis, hfinal]
      rfl
    let found : FoundRecord :=
      { stored := pairRecord
        stats := analysis.stats
        signals := analysis.signals.map fun signal =>
          { signal with recordHash := pairManifest.recordHash } }
    have hholds : found.Holds analysis.stats analysis.signals := by
      refine ⟨rfl, ?_⟩
      intro result hresult
      obtain ⟨signal, hsignal, rfl⟩ := List.mem_map.1 hresult
      exact hsignal
    have hshort : pairManifest.eventCount ≤ 512 := by decide
    obtain ⟨response, hresponse⟩ := hreads (some 0) found
      (.chunks rfl pairRecord_kept hlog hfirst hs hanalysis hholds) (fun _ => hshort)
    exact ⟨found, response, rfl, rfl, hresponse⟩
  · obtain ⟨current, hanalyzed, hfacts⟩ := hupgrades pausedLog unmeasuredTopology pausedManifest
      none none validLog_pausedLog (List.cons_ne_nil _ _) unmeasuredTopology_legacy
    obtain ⟨value, hupgraded, hmeasured⟩ := hfacts (js "deletion_cluster_count") (by decide +kernel)
    exact ⟨current, hanalyzed, hupgraded.trans hmeasured.symm⟩

/-- The analyzer does not apply to an empty log, of which the correction still measures
totals. -/
theorem not_upgraded_empty :
    ¬ ∀ events signal manifest large small, ValidLog events → LegacyTopology signal →
      ∃ current, (editTopologyAnalyzer large small).analyze events manifest = .ok current ∧
        ∀ key ∈ correctedKeys,
          (upgradeLegacyEditTopologySignal signal events).value? key = current.value? key := by
  intro h
  have hempty : ValidLog [] := ⟨by simp, by simp, List.Pairwise.nil⟩
  obtain ⟨current, hcurrent, hfacts⟩ := h [] unmeasuredTopology pausedManifest none none hempty
    unmeasuredTopology_legacy
  obtain rfl := Except.ok.inj hcurrent
  have hinserted := hfacts (js "inserted_codepoints_total") (List.mem_cons_self ..)
  have hupgraded : (upgradeLegacyEditTopologySignal unmeasuredTopology []).value?
      (js "inserted_codepoints_total") = some (Json.ofNat 0) := rfl
  rw [hupgraded] at hinserted
  cases hinserted

end Pmbah.Analysis
