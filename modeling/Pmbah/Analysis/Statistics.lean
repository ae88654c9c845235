import Pmbah.Analysis.RecordStats
import Pmbah.Library.Runs

/-!
# The statistics by their definitions

Every counter of the accumulator is defined here over the whole log.  Feeding a log event
by event, however often the accumulator is stored on the way, arrives at these values.
-/

namespace Pmbah.Analysis

open Js Format Store Library

/-! ## Definitions over a log -/

/-- The times between neighbouring events. -/
def delays (events : List BufferMutation) : List Nat :=
  List.zipWith (fun earlier later => later.t - earlier.t) events events.tail

/-- The delays that each bucket of the histogram takes: at least, and at most. -/
def delayBuckets : List (Nat × Option Nat) :=
  [(0, some 999), (1000, some 4999), (5000, some 29999), (30000, some 299999), (300000, none)]

def inBucket (bucket : Nat × Option Nat) (delay : Nat) : Bool :=
  bucket.1 ≤ delay && bucket.2.all (delay ≤ ·)

/-- The sum of the sizes, if all are known. -/
def totalOf (size : BufferMutation → Option Nat) (events : List BufferMutation) : Option Nat :=
  (events.mapM size).map List.sum

/-- The sum of the sizes that are known. -/
def measuredOf (size : BufferMutation → Option Nat) (events : List BufferMutation) : Nat :=
  (events.filterMap size).sum

/-- A sum that is rounded to a double after every step. -/
def roundedSum (sizes : List Nat) : Nat := sizes.foldl addDouble 0

def roundedTotalOf (size : BufferMutation → Option Nat) (events : List BufferMutation) :
    Option Nat :=
  (events.mapM size).map roundedSum

def roundedMeasuredOf (size : BufferMutation → Option Nat) (events : List BufferMutation) : Nat :=
  roundedSum (events.filterMap size)

/-- The largest of sizes, zero without any. -/
def largestOf (sizes : List Nat) : Nat := sizes.foldl max 0

def knownSizes (event : BufferMutation) : Bool := event.insLen.isSome && event.delLen.isSome

/-- Both sizes are known and together small. -/
def smallEdit (threshold : Nat) (event : BufferMutation) : Bool :=
  event.insLen.any fun insLen => event.delLen.any fun delLen => insLen + delLen ≤ threshold

def unknownMeasurement (event : BufferMutation) : Bool :=
  event.pos.isNone || event.insLen.isNone || event.delLen.isNone

def largeInsert (threshold : Nat) (event : BufferMutation) : Bool :=
  event.insLen.any (threshold ≤ ·)

/-- The number of code points deleted is known and positive. -/
def deletes (event : BufferMutation) : Bool := event.delLen.any (0 < ·)

/-- An accumulator with the settings of another and the values that a log has by
definition. -/
noncomputable def tally (first : AnalysisAccumulator) (events : List BufferMutation) :
    AnalysisAccumulator :=
  { first with
    count := events.length
    firstT := events.head?.map BufferMutation.t
    lastT := events.getLast?.map BufferMutation.t
    observedLength := observedLength first.observedLength events
    inserted := roundedTotalOf BufferMutation.insLen events
    deleted := roundedTotalOf BufferMutation.delLen events
    largest := (events.mapM BufferMutation.insLen).map largestOf
    measuredInserted := some (roundedMeasuredOf BufferMutation.insLen events)
    measuredDeleted := some (roundedMeasuredOf BufferMutation.delLen events)
    measuredLargest := some (largestOf (events.filterMap BufferMutation.insLen))
    inserts := events.countP (·.op = .insert)
    deletes := events.countP (·.op = .delete)
    replaces := events.countP (·.op = .replace)
    sources := fun source => events.countP (·.source = source)
    sourceOrder := (events.map BufferMutation.source).eraseDups
    knownSizes := events.countP knownSizes
    unknownMeasurements := events.countP unknownMeasurement
    small := events.countP (smallEdit first.smallThreshold)
    large := events.countP (largeInsert first.largeThreshold)
    deletionEvents := events.countP Analysis.deletes
    deletionClusters := (Runs.maximalRuns Analysis.deletes events).ncard
    previousDeletion := events.getLast?.any Analysis.deletes
    minDelay := (delays events).min?
    maxDelay := (delays events).max?
    active := ((delays events).filter (· < first.idleThresholdMs)).sum
    idle := ((delays events).filter (first.idleThresholdMs ≤ ·)).sum
    longPauses := (delays events).countP (first.idleThresholdMs ≤ ·)
    histogram := delayBuckets.map fun bucket => (delays events).countP (inBucket bucket) }

/-! ## One more event -/

theorem delays_concat (events : List BufferMutation) (event : BufferMutation) :
    delays (events ++ [event]) =
      delays events ++ (events.getLast?.map fun last => event.t - last.t).toList := by
  induction events with
  | nil => rfl
  | cons first events ih =>
      cases events with
      | nil => rfl
      | cons second events =>
          rw [List.getLast?_cons_cons]
          show (second.t - first.t) :: delays (second :: events ++ [event]) = _
          rw [ih]
          rfl

theorem roundedSum_concat (sizes : List Nat) (size : Nat) :
    roundedSum (sizes ++ [size]) = addDouble (roundedSum sizes) size := by
  rw [roundedSum, List.foldl_append]
  rfl

theorem roundedTotalOf_concat (size : BufferMutation → Option Nat) (events : List BufferMutation)
    (event : BufferMutation) :
    roundedTotalOf size (events ++ [event]) =
      (roundedTotalOf size events).bind fun total => (size event).map (addDouble total) := by
  rw [roundedTotalOf, roundedTotalOf, List.mapM_append]
  cases events.mapM size with
  | none => rfl
  | some sizes => cases h : size event <;> simp [h, roundedSum_concat]

theorem largestOf_concat (sizes : List Nat) (size : Nat) :
    largestOf (sizes ++ [size]) = max (largestOf sizes) size := by
  rw [largestOf, List.foldl_append]
  rfl

theorem largest_concat (events : List BufferMutation) (event : BufferMutation) :
    ((events ++ [event]).mapM BufferMutation.insLen).map largestOf =
      ((events.mapM BufferMutation.insLen).map largestOf).bind fun largest =>
        event.insLen.map (max largest ·) := by
  rw [List.mapM_append]
  cases events.mapM BufferMutation.insLen with
  | none => rfl
  | some sizes => cases h : event.insLen <;> simp [h, largestOf_concat]

theorem min?_concat (l : List Nat) (n : Nat) : (l ++ [n]).min? = some (min (l.min?.getD n) n) := by
  cases l with
  | nil => simp
  | cons first l =>
      rw [List.cons_append, List.min?_cons', List.foldl_append, List.min?_cons']
      rfl

theorem max?_concat (l : List Nat) (n : Nat) : (l ++ [n]).max? = some (max (l.max?.getD n) n) := by
  cases l with
  | nil => simp
  | cons first l =>
      rw [List.cons_append, List.max?_cons', List.foldl_append, List.max?_cons']
      rfl

theorem histogram_concat (l : List Nat) (delay : Nat) :
    (delayBuckets.map fun bucket => (l ++ [delay]).countP (inBucket bucket)) =
      (delayBuckets.map fun bucket => l.countP (inBucket bucket)).modify
        (histogramEnds.findIdx (delay ≤ ·)) (· + 1) := by
  have hbucket : ∀ bucket, (l ++ [delay]).countP (inBucket bucket) =
      l.countP (inBucket bucket) + if inBucket bucket delay = true then 1 else 0 := by
    intro bucket
    rw [List.countP_append, List.countP_singleton]
  -- the first bucket whose end a delay does not pass is the only one that takes it
  simp only [hbucket, delayBuckets, histogramEnds, List.map_cons, List.map_nil,
    List.findIdx_cons, List.findIdx_nil]
  by_cases h1 : delay ≤ 999
  · have h2 : ¬ 1000 ≤ delay := by omega
    have h3 : ¬ 5000 ≤ delay := by omega
    have h4 : ¬ 30000 ≤ delay := by omega
    have h5 : ¬ 300000 ≤ delay := by omega
    simp [inBucket, h1, h2, h3, h4, h5]
  by_cases h2 : delay ≤ 4999
  · have h3 : ¬ 5000 ≤ delay := by omega
    have h4 : ¬ 30000 ≤ delay := by omega
    have h5 : ¬ 300000 ≤ delay := by omega
    have h6 : 1000 ≤ delay := by omega
    simp [inBucket, h1, h2, h3, h4, h5, h6]
  by_cases h3 : delay ≤ 29999
  · have h4 : ¬ 30000 ≤ delay := by omega
    have h5 : ¬ 300000 ≤ delay := by omega
    have h6 : 5000 ≤ delay := by omega
    simp [inBucket, h1, h2, h3, h4, h5, h6]
  by_cases h4 : delay ≤ 299999
  · have h5 : ¬ 300000 ≤ delay := by omega
    have h6 : 30000 ≤ delay := by omega
    simp [inBucket, h1, h2, h3, h4, h5, h6]
  · have h6 : 300000 ≤ delay := by omega
    simp [inBucket, h1, h2, h3, h4, h6]

theorem eraseDups_concat (l : List Source) (source : Source) :
    (l ++ [source]).eraseDups =
      if l.count source = 0 then l.eraseDups ++ [source] else l.eraseDups := by
  rw [List.eraseDups_append]
  by_cases hmem : source ∈ l
  · have hcount : l.count source ≠ 0 := fun h => List.count_eq_zero.1 h hmem
    have hgone : [source].removeAll l = [] := by simp [List.removeAll, hmem]
    rw [if_neg hcount, hgone]
    simp
  · have hkept : [source].removeAll l = [source] := by simp [List.removeAll, hmem]
    rw [if_pos (List.count_eq_zero.2 hmem), hkept]
    simp [List.eraseDups_cons]

theorem addKind_eq (s : AnalysisAccumulator) (e : BufferMutation) :
    s.addKind e = { s with
      sources := fun source =>
        if source = e.source then s.sources source + 1 else s.sources source
      sourceOrder :=
        if s.sources e.source = 0 then s.sourceOrder ++ [e.source] else s.sourceOrder
      inserts := s.inserts + if e.op = .insert then 1 else 0
      deletes := s.deletes + if e.op = .delete then 1 else 0
      replaces := s.replaces + if e.op = .replace then 1 else 0 } := by
  rw [AnalysisAccumulator.addKind]
  cases e.op <;> rfl

/-- A counter counts the events that its condition holds of. -/
theorem countP_concat (holds : BufferMutation → Bool) (events : List BufferMutation)
    (event : BufferMutation) :
    (events ++ [event]).countP holds =
      if holds event = true then events.countP holds + 1 else events.countP holds := by
  rw [List.countP_append, List.countP_singleton]
  by_cases h : holds event = true
  · rw [if_pos h, if_pos h]
  · rw [if_neg h, if_neg h, Nat.add_zero]

theorem countOp_concat (op : Operation) (events : List BufferMutation) (event : BufferMutation) :
    (events ++ [event]).countP (fun event => event.op = op) =
      events.countP (fun event => event.op = op) + if event.op = op then 1 else 0 := by
  rw [List.countP_append, List.countP_singleton]
  simp only [decide_eq_true_iff]

theorem roundedMeasuredOf_concat (size : BufferMutation → Option Nat)
    (events : List BufferMutation) (event : BufferMutation) :
    roundedMeasuredOf size (events ++ [event]) =
      (size event).elim (roundedMeasuredOf size events)
        (addDouble (roundedMeasuredOf size events)) := by
  rw [roundedMeasuredOf, roundedMeasuredOf, List.filterMap_append]
  cases h : size event <;> simp [h, roundedSum_concat]

theorem measuredLargest_concat (events : List BufferMutation) (event : BufferMutation) :
    largestOf ((events ++ [event]).filterMap BufferMutation.insLen) =
      max (largestOf (events.filterMap BufferMutation.insLen)) (event.insLen.getD 0) := by
  rw [List.filterMap_append]
  cases h : event.insLen with
  | none => simp [h]
  | some insLen => simp [h, largestOf_concat]

theorem sourceOrder_concat (events : List BufferMutation) (event : BufferMutation) :
    ((events ++ [event]).map BufferMutation.source).eraseDups =
      if events.countP (fun e => e.source = event.source) = 0 then
        (events.map BufferMutation.source).eraseDups ++ [event.source]
      else (events.map BufferMutation.source).eraseDups := by
  have hcount : (events.map BufferMutation.source).count event.source =
      events.countP (fun e => e.source = event.source) := by
    rw [List.count_eq_countP, List.countP_map]
    rfl
  rw [List.map_append, ← hcount]
  exact eraseDups_concat _ _

theorem small_concat (threshold : Nat) (events : List BufferMutation) (event : BufferMutation) :
    (events ++ [event]).countP (smallEdit threshold) =
      if (event.insLen.isSome && event.delLen.isSome &&
          decide (event.insLen.getD 0 + event.delLen.getD 0 ≤ threshold)) = true then
        events.countP (smallEdit threshold) + 1
      else events.countP (smallEdit threshold) := by
  have hsmall : (event.insLen.isSome && event.delLen.isSome &&
      decide (event.insLen.getD 0 + event.delLen.getD 0 ≤ threshold)) =
      smallEdit threshold event := by
    rw [smallEdit]
    cases event.insLen <;> cases event.delLen <;> simp
  simp only [hsmall]
  exact countP_concat _ _ _

theorem countSource_concat (events : List BufferMutation) (event : BufferMutation)
    (source : Source) :
    (events ++ [event]).countP (fun e => e.source = source) =
      if source = event.source then events.countP (fun e => e.source = source) + 1
      else events.countP (fun e => e.source = source) := by
  rw [countP_concat]
  by_cases h : source = event.source
  · rw [if_pos h, if_pos (decide_eq_true h.symm)]
  · rw [if_neg h, if_neg fun hsame => h (of_decide_eq_true hsame).symm]

theorem clusters_concat (events : List BufferMutation) (event : BufferMutation) :
    (Runs.maximalRuns deletes (events ++ [event])).ncard =
      if (deletes event && !events.getLast?.any deletes) = true then
        (Runs.maximalRuns deletes events).ncard + 1
      else (Runs.maximalRuns deletes events).ncard := by
  rw [Runs.ncard_maximalRuns_concat]
  simp only [Bool.and_eq_true, Bool.not_eq_true', Bool.not_eq_true]
  split <;> rfl

theorem addDelay_tally (first : AnalysisAccumulator) (events : List BufferMutation)
    (event : BufferMutation) :
    (tally first events).addDelay event.t = { tally first events with
      minDelay := (delays (events ++ [event])).min?
      maxDelay := (delays (events ++ [event])).max?
      active := ((delays (events ++ [event])).filter (· < first.idleThresholdMs)).sum
      idle := ((delays (events ++ [event])).filter (first.idleThresholdMs ≤ ·)).sum
      longPauses := (delays (events ++ [event])).countP (first.idleThresholdMs ≤ ·)
      histogram := delayBuckets.map fun bucket =>
        (delays (events ++ [event])).countP (inBucket bucket) } := by
  rw [AnalysisAccumulator.addDelay, delays_concat]
  cases hlast : events.getLast? with
  | none => simp [tally, hlast]
  | some last =>
      simp only [tally, hlast, Option.map_some, Option.toList_some]
      generalize event.t - last.t = delay
      simp only [histogram_concat, min?_concat, max?_concat, List.filter_append, List.sum_append]
      by_cases hpause : first.idleThresholdMs ≤ delay
      · rw [if_pos hpause]
        simp [hpause, not_lt.2 hpause]
      · rw [if_neg hpause]
        simp [hpause, not_le.1 hpause]

/-- The step of the accumulator keeps it at the values that the log has by definition. -/
theorem append_tally {first next : AnalysisAccumulator} {events : List BufferMutation}
    {event : BufferMutation} (h : appendAnalysisEvent (tally first events) event = .ok next) :
    next = tally first (events ++ [event]) := by
  rw [appendAnalysisEvent] at h
  split at h
  · cases h
  split at h
  · cases h
  obtain rfl := Except.ok.inj h
  clear h
  rw [addDelay_tally, addKind_eq]
  simp only [AnalysisAccumulator.addSizes, AnalysisAccumulator.addCounts,
    AnalysisAccumulator.addLength, tally, List.length_append, List.length_singleton,
    List.getLast?_concat, Option.map_some, roundedTotalOf_concat, largest_concat, countOp_concat,
    roundedMeasuredOf_concat, measuredLargest_concat, clusters_concat, sourceOrder_concat,
    observedLength_concat]
  congr 1
  case e_firstT => cases events <;> rfl
  case e_observedLength => exact addLength_eq (tally first events) event
  case e_measuredInserted => cases event.insLen <;> rfl
  case e_measuredDeleted => cases event.delLen <;> rfl
  case e_measuredLargest => cases event.insLen <;> simp
  case e_sources =>
    funext source
    exact (countSource_concat events event source).symm
  case e_knownSizes => exact (countP_concat knownSizes events event).symm
  case e_unknownMeasurements => exact (countP_concat unknownMeasurement events event).symm
  case e_small => exact (small_concat first.smallThreshold events event).symm
  case e_large => exact (countP_concat (largeInsert first.largeThreshold) events event).symm
  case e_deletionEvents => exact (countP_concat deletes events event).symm

theorem createAnalysisAccumulator_eq_tally {idleThresholdMs : Option JsNumber}
    {options : AnalysisOptions} {first : AnalysisAccumulator}
    (h : createAnalysisAccumulator idleThresholdMs options = .ok first) :
    first = tally first [] := by
  rw [createAnalysisAccumulator] at h
  split at h
  · cases h
  split at h
  · cases h
  obtain rfl := Except.ok.inj h
  rw [tally, Runs.ncard_maximalRuns_nil]
  rfl

/-- Every accumulator that a log leads to has the values that the log has by definition. -/
theorem Analyzed.eq_tally {idleThresholdMs : Option JsNumber} {options : AnalysisOptions}
    {first s : AnalysisAccumulator} {events : List BufferMutation}
    (hfirst : createAnalysisAccumulator idleThresholdMs options = .ok first)
    (h : Analyzed first events s) : s = tally first events := by
  induction h with
  | start => exact createAnalysisAccumulator_eq_tally hfirst
  | append _ happended ih =>
      rw [ih] at happended
      exact append_tally happended
  | store _ hstored ih => rw [AnalysisAccumulator.ofJson_of_storedAs hstored, ih]

theorem Analyzed.exists_of_validLog {idleThresholdMs : Option JsNumber}
    {options : AnalysisOptions} {first : AnalysisAccumulator} {events : List BufferMutation}
    (hfirst : createAnalysisAccumulator idleThresholdMs options = .ok first)
    (hvalid : ValidLog events) : ∃ s, Analyzed first events s := by
  induction events using List.reverseRecOn with
  | nil => exact ⟨first, .start⟩
  | append_singleton events event ih =>
      obtain ⟨s, hs⟩ := ih (validLog_concat.1 hvalid).1
      obtain ⟨next, -, hnext⟩ := hs.next hfirst hvalid
      exact ⟨next, hnext⟩

/-! ## Laws of the definitions -/

theorem length_delays (events : List BufferMutation) :
    (delays events).length = events.length - 1 := by
  rw [delays, List.length_zipWith, List.length_tail]
  omega

/-- The delays add up to the time between the first event and the last. -/
theorem sum_delays {events : List BufferMutation} (hvalid : ValidLog events)
    {first last : BufferMutation} (hfirst : events.head? = some first) (hlast : events.getLast? = some last) :
    first.t + (delays events).sum = last.t := by
  induction events using List.reverseRecOn generalizing last with
  | nil => cases hfirst
  | append_singleton events event ih =>
      obtain ⟨hbefore, -, -, hsorted⟩ := validLog_concat.1 hvalid
      rw [List.getLast?_concat] at hlast
      obtain rfl := Option.some.inj hlast
      rw [delays_concat]
      cases hprevious : events.getLast? with
      | none =>
          rw [List.getLast?_eq_none_iff] at hprevious
          subst hprevious
          obtain rfl := Option.some.inj hfirst
          rfl
      | some previous =>
          have hhead : events.head? = some first := by
            cases events with
            | nil => cases hprevious
            | cons head events => exact hfirst
          have hsum := ih hbefore hhead hprevious
          have hle := hsorted previous hprevious
          simp only [Option.map_some, Option.toList_some, List.sum_append, List.sum_singleton]
          omega

theorem sum_filter_add (threshold : Nat) (l : List Nat) :
    (l.filter (· < threshold)).sum + (l.filter (threshold ≤ ·)).sum = l.sum := by
  induction l with
  | nil => rfl
  | cons delay l ih =>
      rw [List.sum_cons]
      by_cases hless : delay < threshold
      · have hnot : ¬ threshold ≤ delay := not_le.2 hless
        simp only [List.filter_cons, hless, hnot, decide_true, decide_false, ↓reduceIte,
          List.sum_cons, Bool.false_eq_true]
        omega
      · have hle : threshold ≤ delay := not_lt.1 hless
        simp only [List.filter_cons, hless, hle, decide_true, decide_false, ↓reduceIte,
          List.sum_cons, Bool.false_eq_true]
        omega

theorem sum_modify_succ {l : List Nat} {place : Nat} (h : place < l.length) :
    (l.modify place (· + 1)).sum = l.sum + 1 := by
  induction l generalizing place with
  | nil => cases h
  | cons n l ih =>
      cases place with
      | zero =>
          rw [List.modify_zero_cons, List.sum_cons, List.sum_cons]
          omega
      | succ place =>
          rw [List.modify_succ_cons, List.sum_cons, List.sum_cons, ih (Nat.lt_of_succ_lt_succ h)]
          omega

/-- Every delay falls into one bucket. -/
theorem sum_histogram (l : List Nat) :
    (delayBuckets.map fun bucket => l.countP (inBucket bucket)).sum = l.length := by
  induction l using List.reverseRecOn with
  | nil => rfl
  | append_singleton l delay ih =>
      rw [histogram_concat, List.length_append, List.length_singleton, ← ih]
      have hplace : histogramEnds.findIdx (delay ≤ ·) ≤ 4 := List.findIdx_le_length
      apply sum_modify_succ
      rw [List.length_map]
      exact Nat.lt_succ_of_le hplace

theorem sum_countOp (events : List BufferMutation) :
    events.countP (fun e => e.op = .insert) + events.countP (fun e => e.op = .delete) +
      events.countP (fun e => e.op = .replace) = events.length := by
  induction events using List.reverseRecOn with
  | nil => rfl
  | append_singleton events event ih =>
      rw [countOp_concat, countOp_concat, countOp_concat, List.length_append,
        List.length_singleton, ← ih]
      cases event.op <;> simp <;> omega

theorem sum_countSource (events : List BufferMutation) :
    (sources.map fun source => events.countP fun e => e.source = source).sum = events.length := by
  induction events using List.reverseRecOn with
  | nil => rfl
  | append_singleton events event ih =>
      rw [List.length_append, List.length_singleton, ← ih]
      simp only [countSource_concat, sources, List.map_cons, List.map_nil, List.sum_cons,
        List.sum_nil]
      cases event.source <;> simp <;> omega

theorem roundedTotalOf_eq_none_iff {size : BufferMutation → Option Nat}
    {events : List BufferMutation} :
    roundedTotalOf size events = none ↔ ∃ event ∈ events, size event = none := by
  induction events using List.reverseRecOn with
  | nil => simp [roundedTotalOf]
  | append_singleton events event ih =>
      rw [roundedTotalOf_concat]
      cases htotal : roundedTotalOf size events with
      | none =>
          obtain ⟨unknown, hmem, hsize⟩ := ih.1 htotal
          simp only [Option.bind_none, true_iff]
          exact ⟨unknown, List.mem_append_left _ hmem, hsize⟩
      | some total =>
          rw [htotal] at ih
          have hknown : ∀ e ∈ events, size e ≠ none := by
            intro e hmem hnone
            cases ih.2 ⟨e, hmem, hnone⟩
          rw [Option.bind_some, Option.map_eq_none_iff]
          constructor
          · intro hnone
            exact ⟨event, by simp, hnone⟩
          · rintro ⟨e, hmem, hnone⟩
            rcases List.mem_append.1 hmem with hmem | hmem
            · exact absurd hnone (hknown e hmem)
            · rwa [← List.mem_singleton.1 hmem]

theorem aggregateMutationSizes_eq (events : List BufferMutation) :
    aggregateMutationSizes events = (roundedTotalOf BufferMutation.insLen events,
      roundedTotalOf BufferMutation.delLen events,
      (events.mapM BufferMutation.insLen).map largestOf) := by
  induction events using List.reverseRecOn with
  | nil => rfl
  | append_singleton events event ih =>
      rw [aggregateMutationSizes, List.foldl_append, ← aggregateMutationSizes, ih,
        roundedTotalOf_concat, roundedTotalOf_concat, largest_concat]
      rfl

/-- A sum that is a safe integer is exact. -/
theorem roundedSum_eq {sizes : List Nat} (h : sizes.sum ≤ maxSafeInteger) :
    roundedSum sizes = sizes.sum := by
  induction sizes using List.reverseRecOn with
  | nil => rfl
  | append_singleton sizes size ih =>
      rw [List.sum_append, List.sum_singleton] at h ⊢
      rw [roundedSum_concat, ih (by omega), addDouble_eq h]

theorem roundedMeasuredOf_eq {size : BufferMutation → Option Nat} {events : List BufferMutation}
    (h : measuredOf size events ≤ maxSafeInteger) :
    roundedMeasuredOf size events = measuredOf size events :=
  roundedSum_eq h

theorem filterMap_of_mapM {size : BufferMutation → Option Nat} {events : List BufferMutation}
    {sizes : List Nat} (h : events.mapM size = some sizes) : events.filterMap size = sizes := by
  induction events generalizing sizes with
  | nil =>
      rw [List.mapM_nil] at h
      cases h
      rfl
  | cons event events ih =>
      rw [List.mapM_cons] at h
      cases hsize : size event with
      | none => simp [hsize] at h
      | some n =>
          cases hrest : events.mapM size with
          | none => simp [hsize, hrest] at h
          | some rest =>
              simp only [hsize, hrest, Option.bind_eq_bind, Option.bind_some, Option.pure_def,
                Option.some.injEq] at h
              rw [List.filterMap_cons_some hsize, ih hrest, h]

theorem roundedTotalOf_eq {size : BufferMutation → Option Nat} {events : List BufferMutation}
    (h : measuredOf size events ≤ maxSafeInteger) :
    roundedTotalOf size events = totalOf size events := by
  rw [roundedTotalOf, totalOf]
  cases hsizes : events.mapM size with
  | none => rfl
  | some sizes =>
      rw [measuredOf, filterMap_of_mapM hsizes] at h
      rw [Option.map_some, Option.map_some, roundedSum_eq h]

/-! ## The statistics of a log -/

/-- The statistics of a log by their definitions. -/
def recordStats (startingLength : Option Nat) (idleThresholdMs : Nat) (manifest : RecordManifest)
    (events : List BufferMutation) : RecordStats where
  recordHash := manifest.recordHash
  eventCount := events.length
  durationMs := manifest.durationMs
  startingLength := startingLength
  observedFinalLength := observedLength startingLength events
  insertOpCount := events.countP (·.op = .insert)
  deleteOpCount := events.countP (·.op = .delete)
  replaceOpCount := events.countP (·.op = .replace)
  typedEventCount := events.countP (·.source = .typing)
  pasteEventCount := events.countP (·.source = .paste)
  cutEventCount := events.countP (·.source = .cut)
  dropEventCount := events.countP (·.source = .drop)
  imeEventCount := events.countP (·.source = .ime)
  autocompleteEventCount := events.countP (·.source = .autocomplete)
  programmaticEventCount := events.countP (·.source = .programmatic)
  unknownSourceCount := events.countP (·.source = .unknown)
  insertedCodepointsTotal := totalOf BufferMutation.insLen events
  deletedCodepointsTotal := totalOf BufferMutation.delLen events
  largestAtomicInsertCodepoints := (events.mapM BufferMutation.insLen).map largestOf
  measuredInsertedCodepoints := some (measuredOf BufferMutation.insLen events)
  measuredDeletedCodepoints := some (measuredOf BufferMutation.delLen events)
  measuredLargestInsertCodepoints := some (largestOf (events.filterMap BufferMutation.insLen))
  unknownSizeEditCount := events.countP fun event => !knownSizes event
  interEventDelayMinMs := (delays events).min?
  interEventDelayP50Ms := percentile (delays events) (50 / 100)
  interEventDelayP90Ms := percentile (delays events) (90 / 100)
  interEventDelayP95Ms := percentile (delays events) (95 / 100)
  interEventDelayP99Ms := percentile (delays events) (99 / 100)
  interEventDelayMaxMs := (delays events).max?
  activeTimeMs := ((delays events).filter (· < idleThresholdMs)).sum
  idleTimeMs := ((delays events).filter (idleThresholdMs ≤ ·)).sum
  longPauseCount := (delays events).countP (idleThresholdMs ≤ ·)
  delayHistogram :=
    histogramBuckets.zip (delayBuckets.map fun bucket => (delays events).countP (inBucket bucket))

/-- The statistics with the totals of sizes as the accumulator sums them. -/
def computedStats (startingLength : Option Nat) (idleThresholdMs : Nat)
    (manifest : RecordManifest) (events : List BufferMutation) : RecordStats :=
  { recordStats startingLength idleThresholdMs manifest events with
    insertedCodepointsTotal := roundedTotalOf BufferMutation.insLen events
    deletedCodepointsTotal := roundedTotalOf BufferMutation.delLen events
    measuredInsertedCodepoints := some (roundedMeasuredOf BufferMutation.insLen events)
    measuredDeletedCodepoints := some (roundedMeasuredOf BufferMutation.delLen events) }

/-- The known sizes of all edits add up to a safe integer. -/
def SafeTotal (size : BufferMutation → Option Nat) (events : List BufferMutation) : Prop :=
  measuredOf size events ≤ maxSafeInteger

/-- Totals that are safe integers are the sums themselves. -/
theorem computedStats_eq {events : List BufferMutation}
    (hinserted : SafeTotal BufferMutation.insLen events)
    (hdeleted : SafeTotal BufferMutation.delLen events) (startingLength : Option Nat)
    (idleThresholdMs : Nat) (manifest : RecordManifest) :
    computedStats startingLength idleThresholdMs manifest events =
      recordStats startingLength idleThresholdMs manifest events := by
  rw [computedStats, roundedTotalOf_eq hinserted, roundedTotalOf_eq hdeleted,
    roundedMeasuredOf_eq hinserted, roundedMeasuredOf_eq hdeleted]
  rfl

/-- What holds of the statistics of a log. -/
structure StatsLaws (events : List BufferMutation) (stats : RecordStats) : Prop where
  span : ∀ first ∈ events.head?, ∀ last ∈ events.getLast?,
    first.t + (stats.activeTimeMs + stats.idleTimeMs) = last.t
  histogram : (stats.delayHistogram.map Prod.snd).sum = events.length - 1
  operations : stats.insertOpCount + stats.deleteOpCount + stats.replaceOpCount = events.length
  sources : stats.typedEventCount + stats.pasteEventCount + stats.cutEventCount +
    stats.dropEventCount + stats.imeEventCount + stats.autocompleteEventCount +
    stats.programmaticEventCount + stats.unknownSourceCount = events.length
  inserted : stats.insertedCodepointsTotal = none ↔ ∃ event ∈ events, event.insLen = none
  deleted : stats.deletedCodepointsTotal = none ↔ ∃ event ∈ events, event.delLen = none
  largest : stats.largestAtomicInsertCodepoints = none ↔ ∃ event ∈ events, event.insLen = none
  aggregated : aggregateMutationSizes events = (stats.insertedCodepointsTotal,
    stats.deletedCodepointsTotal, stats.largestAtomicInsertCodepoints)
  percentiles : 2 ≤ events.length → ∃ min p50 p90 p95 p99 max : Nat,
    stats.interEventDelayMinMs = some min ∧ stats.interEventDelayP50Ms = some p50 ∧
    stats.interEventDelayP90Ms = some p90 ∧ stats.interEventDelayP95Ms = some p95 ∧
    stats.interEventDelayP99Ms = some p99 ∧ stats.interEventDelayMaxMs = some max ∧
    IsPercentile 50 (delays events) p50 ∧ IsPercentile 90 (delays events) p90 ∧
    IsPercentile 95 (delays events) p95 ∧ IsPercentile 99 (delays events) p99 ∧
    min ≤ p50 ∧ p50 ≤ p90 ∧ p90 ≤ p95 ∧ p95 ≤ p99 ∧ p99 ≤ max

theorem length_le_of_validLog {events : List BufferMutation} (hvalid : ValidLog events) :
    events.length ≤ 2 ^ 31 := by
  by_contra hlong
  have hplace : 2 ^ 31 < events.length := not_le.1 hlong
  have hsome := List.getElem?_eq_getElem hplace
  have hseq := hvalid.seq_eq _ _ hsome
  have hle := (hvalid.valid _ (List.getElem_mem hplace)).seq_le
  rw [hseq, maxIntegerFieldValue] at hle
  omega

theorem delays_length_le {events : List BufferMutation} (hvalid : ValidLog events) :
    (delays events).length ≤ 2 ^ 31 := by
  rw [length_delays]
  exact le_trans (Nat.sub_le _ _) (length_le_of_validLog hvalid)

theorem percentiles_ordered {l : List Nat} (hne : l ≠ []) (hsize : l.length ≤ 2 ^ 31) :
    ∃ min p50 p90 p95 p99 max : Nat, l.min? = some min ∧ percentile l (50 / 100) = some p50 ∧
      percentile l (90 / 100) = some p90 ∧ percentile l (95 / 100) = some p95 ∧
      percentile l (99 / 100) = some p99 ∧ l.max? = some max ∧
      IsPercentile 50 l p50 ∧ IsPercentile 90 l p90 ∧ IsPercentile 95 l p95 ∧
      IsPercentile 99 l p99 ∧
      min ≤ p50 ∧ p50 ≤ p90 ∧ p90 ≤ p95 ∧ p95 ≤ p99 ∧ p99 ≤ max := by
  obtain ⟨min, hmin⟩ : ∃ min, l.min? = some min :=
    Option.isSome_iff_exists.1 (List.isSome_min?_of_ne_nil hne)
  obtain ⟨max, hmax⟩ : ∃ max, l.max? = some max :=
    Option.isSome_iff_exists.1 (List.isSome_max?_of_ne_nil hne)
  obtain ⟨p50, h50, his50⟩ := percentile_spec hne hsize (c := 50) (by decide)
  obtain ⟨p90, h90, his90⟩ := percentile_spec hne hsize (c := 90) (by decide)
  obtain ⟨p95, h95, his95⟩ := percentile_spec hne hsize (c := 95) (by decide)
  obtain ⟨p99, h99, his99⟩ := percentile_spec hne hsize (c := 99) (by decide)
  push_cast at h50 h90 h95 h99
  refine ⟨min, p50, p90, p95, p99, max, hmin, h50, h90, h95, h99, hmax, his50, his90, his95,
    his99, ?_, ?_, ?_, ?_, ?_⟩
  · exact (List.min?_eq_some_iff.1 hmin).2 p50 his50.mem
  · exact his50.mono his90 (by decide)
  · exact his90.mono his95 (by decide)
  · exact his95.mono his99 (by decide)
  · exact (List.max?_eq_some_iff.1 hmax).2 p99 his99.mem

theorem computedStats_laws {events : List BufferMutation} (hvalid : ValidLog events)
    (startingLength : Option Nat) (idleThresholdMs : Nat) (manifest : RecordManifest) :
    StatsLaws events (computedStats startingLength idleThresholdMs manifest events) where
  span := by
    intro first hfirst last hlast
    rw [← sum_delays hvalid hfirst hlast, ← sum_filter_add idleThresholdMs (delays events)]
    rfl
  histogram := by
    rw [← length_delays, ← sum_histogram]
    rfl
  operations := sum_countOp events
  sources := by
    rw [← sum_countSource events]
    simp only [computedStats, recordStats, Format.sources, List.map_cons, List.map_nil,
      List.sum_cons, List.sum_nil]
    omega
  inserted := roundedTotalOf_eq_none_iff
  deleted := roundedTotalOf_eq_none_iff
  largest := by
    have htotal : roundedTotalOf BufferMutation.insLen events = none ↔ _ :=
      roundedTotalOf_eq_none_iff
    rw [← htotal, roundedTotalOf, computedStats, recordStats, Option.map_eq_none_iff,
      Option.map_eq_none_iff]
  aggregated := aggregateMutationSizes_eq events
  percentiles := by
    intro htwo
    have hne : delays events ≠ [] := by
      intro hempty
      have hlength := length_delays events
      rw [hempty, List.length_nil] at hlength
      omega
    exact percentiles_ordered hne (delays_length_le hvalid)

theorem createAnalysisAccumulator_settings {idleThresholdMs : Option JsNumber}
    {options : AnalysisOptions} {first : AnalysisAccumulator}
    (h : createAnalysisAccumulator idleThresholdMs options = .ok first) :
    first.version = 1 ∧ first.startingLength = some (options.startingLength.getD (some 0)) := by
  rw [createAnalysisAccumulator] at h
  split at h
  · cases h
  split at h
  · cases h
  · cases h
    exact ⟨rfl, rfl⟩

theorem tally_stats {idleThresholdMs : Option JsNumber} {options : AnalysisOptions}
    {first : AnalysisAccumulator} {events : List BufferMutation}
    (hfirst : createAnalysisAccumulator idleThresholdMs options = .ok first)
    (manifest : RecordManifest) :
    (tally first events).stats manifest (.ofEach (percentile (delays events))) =
      computedStats (options.startingLength.getD (some 0)) first.idleThresholdMs manifest events := by
  obtain ⟨-, hstarting⟩ := createAnalysisAccumulator_settings hfirst
  obtain ⟨-, -, -, hlength⟩ := createAnalysisAccumulator_ok hfirst
  have hunknown : ((events.length : Int) - events.countP knownSizes) =
      events.countP fun event => !knownSizes event := by
    rw [List.length_eq_countP_add_countP knownSizes]
    push_cast
    simp only [Bool.not_eq_true, Bool.decide_eq_false]
    omega
  simp only [AnalysisAccumulator.stats, tally, hstarting, hlength, hunknown, Option.getD_some]
  rfl

/-- The array entry point goes through the same accumulators. -/
theorem appendAll_eq {idleThresholdMs : Option JsNumber} {options : AnalysisOptions}
    {first : AnalysisAccumulator} {done more : List BufferMutation}
    (hfirst : createAnalysisAccumulator idleThresholdMs options = .ok first)
    (hvalid : ValidLog (done ++ more)) :
    appendAll more (tally first done) (delays done) =
      .ok (tally first (done ++ more), delays (done ++ more)) := by
  induction more generalizing done with
  | nil => rw [List.append_nil]; rfl
  | cons event more ih =>
      have hsplit : done ++ event :: more = done ++ [event] ++ more := by simp
      rw [hsplit] at hvalid ⊢
      have hbefore := hvalid.of_append
      obtain ⟨s, hs⟩ := Analyzed.exists_of_validLog hfirst (validLog_concat.1 hbefore).1
      obtain ⟨next, hnext, hanalyzed⟩ := hs.next hfirst hbefore
      rw [hs.eq_tally hfirst, hanalyzed.eq_tally hfirst] at hnext
      have hdelays : delays done ++ ((tally first done).lastT.map (event.t - ·)).toList =
          delays (done ++ [event]) := by
        rw [delays_concat, tally, Option.map_map]
        rfl
      rw [appendAll, hnext]
      simp only [hdelays]
      exact ih hvalid

/-- What a finished accumulator publishes. -/
noncomputable def tallyAnalysis (first : AnalysisAccumulator) (events : List BufferMutation)
    (manifest : RecordManifest) (percentiles : ExactDelayPercentiles) : RecordAnalysis where
  stats := (tally first events).stats manifest percentiles
  signals := [(tally first events).timingSignal manifest percentiles,
    (tally first events).topologySignal manifest]

theorem finalizeAnalysis_tally {idleThresholdMs : Option JsNumber} {options : AnalysisOptions}
    {first : AnalysisAccumulator} (events : List BufferMutation)
    (hfirst : createAnalysisAccumulator idleThresholdMs options = .ok first)
    (manifest : RecordManifest) (percentiles : ExactDelayPercentiles) :
    finalizeAnalysis (tally first events) manifest events.length percentiles =
      .ok (tallyAnalysis first events manifest percentiles) := by
  have hversion : (tally first events).version = 1 := (createAnalysisAccumulator_settings hfirst).1
  have hcount : (tally first events).count = events.length := rfl
  rw [finalizeAnalysis, if_neg (not_not.2 hversion), if_neg (not_not.2 hcount), tallyAnalysis]

theorem analyzeEventLog_ok {idleThresholdMs : Option JsNumber} {options : AnalysisOptions}
    {first : AnalysisAccumulator} {events : List BufferMutation}
    (hfirst : createAnalysisAccumulator idleThresholdMs options = .ok first)
    (hvalid : ValidLog events) (manifest : RecordManifest) :
    analyzeEventLog events manifest idleThresholdMs options =
      .ok (tallyAnalysis first events manifest (.ofEach (percentile (delays events)))) := by
  have hall : appendAll events first [] = .ok (tally first events, delays events) := by
    have hfrom : appendAll events (tally first []) (delays []) =
      .ok (tally first ([] ++ events), delays ([] ++ events)) := appendAll_eq hfirst hvalid
    rw [← createAnalysisAccumulator_eq_tally hfirst] at hfrom
    exact hfrom
  rw [analyzeEventLog, hfirst]
  show (appendAll events first [] >>= fun result =>
    finalizeAnalysis result.1 manifest events.length (.ofEach (percentile result.2))) = _
  rw [hall]
  exact finalizeAnalysis_tally events hfirst manifest _

/-- Fed a valid log, however often it is stored on the way, the accumulator ends with the
statistics that the log has by definition; totals of sizes are exact while they are safe
integers. -/
theorem statistics_byDefinition {idleThresholdMs : Option JsNumber} {options : AnalysisOptions}
    {first : AnalysisAccumulator} {events : List BufferMutation}
    (hfirst : createAnalysisAccumulator idleThresholdMs options = .ok first)
    (hvalid : ValidLog events) (manifest : RecordManifest) :
    (∃ s, Analyzed first events s) ∧
    ∀ s, Analyzed first events s →
      s.deletionClusters = (Runs.maximalRuns deletes events).ncard ∧
      ∃ analysis,
        finalizeAnalysis s manifest events.length
          (percentileValues (countDelays (delays events)).entries) = .ok analysis ∧
        analyzeEventLog events manifest idleThresholdMs options = .ok analysis ∧
        analysis.stats = computedStats (options.startingLength.getD (some 0))
          first.idleThresholdMs manifest events ∧
        (SafeTotal BufferMutation.insLen events → SafeTotal BufferMutation.delLen events →
          analysis.stats = recordStats (options.startingLength.getD (some 0))
            first.idleThresholdMs manifest events) ∧
        StatsLaws events analysis.stats := by
  refine ⟨Analyzed.exists_of_validLog hfirst hvalid, ?_⟩
  intro s hs
  obtain rfl := hs.eq_tally hfirst
  rw [percentileValues_countDelays (delays_length_le hvalid)]
  refine ⟨rfl, _, finalizeAnalysis_tally events hfirst manifest _,
    analyzeEventLog_ok hfirst hvalid manifest, tally_stats hfirst manifest, ?_, ?_⟩
  · intro hinserted hdeleted
    rw [tallyAnalysis, tally_stats hfirst, computedStats_eq hinserted hdeleted]
  · rw [tallyAnalysis, tally_stats hfirst]
    exact computedStats_laws hvalid _ _ manifest

/-- A deletion after a pause, by an edit of unknown size. -/
def pausedLog : List BufferMutation :=
  [{ seq := 0, t := 0, op := .insert, pos := some 0, delLen := some 0, insLen := some 3
     source := .typing },
    { seq := 1, t := 40000, op := .replace, pos := some 1, delLen := some 2, insLen := none
      source := .paste }]

theorem validLog_pausedLog : ValidLog pausedLog where
  valid := by
    intro event hevent
    simp only [pausedLog, List.mem_cons, List.not_mem_nil, or_false] at hevent
    rcases hevent with rfl | rfl
    · exact ⟨by decide, by decide, by decide, by decide, by decide, by decide⟩
    · exact ⟨by decide, by decide, by decide, by decide, by decide, by decide⟩
  seq_eq := by
    intro i event hi
    match i with
    | 0 => cases hi; rfl
    | 1 => cases hi; rfl
  sorted := by decide

def pausedManifest : RecordManifest where
  json := .obj [(js "format_version", .str (js "0.2")),
    (js "record_hash", .str (B3Hash.text ⟨List.replicate 32 0, B3Hash.zeros_length⟩)),
    (js "event_count", Json.ofNat 2), (js "duration_ms", Json.ofNat 40000)]
  wellFormed := by decide
  recordHash := ⟨List.replicate 32 0, B3Hash.zeros_length⟩
  recorded := rfl

theorem statistics_byDefinition_paused :
    ∃ first s analysis, createAnalysisAccumulator none {} = .ok first ∧
      Analyzed first pausedLog s ∧
      analyzeEventLog pausedLog pausedManifest none {} = .ok analysis ∧
      analysis.stats = recordStats (some 0) 30000 pausedManifest pausedLog := by
  obtain ⟨hsome, hall⟩ := @statistics_byDefinition none {} _ _ rfl validLog_pausedLog
    pausedManifest
  obtain ⟨s, hs⟩ := hsome
  obtain ⟨-, analysis, -, harray, -, hstats, -⟩ := hall s hs
  have htotals : SafeTotal BufferMutation.insLen pausedLog ∧
      SafeTotal BufferMutation.delLen pausedLog := by
    unfold SafeTotal
    decide
  exact ⟨_, s, analysis, rfl, hs, harray, hstats htotals.1 htotals.2⟩

/-- An insertion of the largest size. -/
def largestInsert (seq : Nat) : BufferMutation where
  seq
  t := seq
  op := .insert
  pos := some 0
  delLen := some 0
  insLen := some maxIntegerFieldValue
  source := .paste

theorem largestInsert_valid {seq : Nat} (h : seq ≤ maxIntegerFieldValue) :
    (largestInsert seq).Valid where
  seq_le := h
  t_le := Nat.le_trans h (by decide)
  pos_le := by
    intro n hn
    cases hn
    exact Nat.zero_le _
  delLen_le := by
    intro n hn
    cases hn
    exact Nat.zero_le _
  insLen_le := by
    intro n hn
    cases hn
    exact Nat.le_refl _
  sizes := by simp [sizesAgree, largestInsert, maxIntegerFieldValue]

def largestInserts (count : Nat) : List BufferMutation := (List.range count).map largestInsert

theorem largestInserts_succ (count : Nat) :
    largestInserts (count + 1) = largestInserts count ++ [largestInsert count] := by
  rw [largestInserts, largestInserts, List.range_succ, List.map_append, List.map_singleton]

theorem validLog_largestInserts {count : Nat} (h : count ≤ maxIntegerFieldValue) :
    ValidLog (largestInserts count) := by
  induction count with
  | zero => exact ⟨nofun, nofun, .nil⟩
  | succ count ih =>
      rw [largestInserts_succ]
      refine validLog_concat.2 ⟨ih (by omega), largestInsert_valid (by omega), ?_, ?_⟩
      · simp [largestInserts, largestInsert]
      · intro last hlast
        obtain ⟨seq, hseq, rfl⟩ := List.mem_map.1 (List.mem_of_getLast? hlast)
        exact Nat.le_of_lt (List.mem_range.1 hseq)

theorem measuredOf_largestInserts (count : Nat) :
    measuredOf BufferMutation.insLen (largestInserts count) = count * maxIntegerFieldValue := by
  induction count with
  | zero => rw [Nat.zero_mul]; rfl
  | succ count ih =>
      have hsize : [largestInsert count].filterMap BufferMutation.insLen =
          [maxIntegerFieldValue] := rfl
      rw [largestInserts_succ, measuredOf, List.filterMap_append, List.sum_append, hsize,
        List.sum_singleton, ← measuredOf, ih, Nat.succ_mul]

/-- The first total past the safe integers is rounded. -/
theorem roundedMeasuredOf_largestInserts :
    roundedMeasuredOf BufferMutation.insLen (largestInserts 4194305) ≠
      measuredOf BufferMutation.insLen (largestInserts 4194305) := by
  have hbefore : measuredOf BufferMutation.insLen (largestInserts 4194304) ≤ maxSafeInteger := by
    rw [measuredOf_largestInserts]
    decide
  have hstep : roundedMeasuredOf BufferMutation.insLen (largestInserts 4194305) =
      addDouble (4194304 * maxIntegerFieldValue) maxIntegerFieldValue := by
    rw [largestInserts_succ 4194304, roundedMeasuredOf_concat, roundedMeasuredOf_eq hbefore,
      measuredOf_largestInserts]
    rfl
  rw [hstep, measuredOf_largestInserts]
  decide +kernel

/-- Past the safe integers a measured total is no longer the sum of the known sizes. -/
theorem not_statistics_exact : ∃ first s analysis,
    createAnalysisAccumulator none {} = .ok first ∧ ValidLog (largestInserts 4194305) ∧
      Analyzed first (largestInserts 4194305) s ∧
      finalizeAnalysis s pausedManifest (largestInserts 4194305).length
        (percentileValues (countDelays (delays (largestInserts 4194305))).entries) =
          .ok analysis ∧
      analysis.stats.measuredInsertedCodepoints ≠
        some (measuredOf BufferMutation.insLen (largestInserts 4194305)) := by
  have hvalid : ValidLog (largestInserts 4194305) := validLog_largestInserts (by decide)
  obtain ⟨first, hfirst⟩ : ∃ first, createAnalysisAccumulator none {} = .ok first := ⟨_, rfl⟩
  obtain ⟨s, hs⟩ := Analyzed.exists_of_validLog hfirst hvalid
  refine ⟨first, s, tallyAnalysis first (largestInserts 4194305) pausedManifest
    (percentileValues (countDelays (delays (largestInserts 4194305))).entries), hfirst, hvalid, hs,
    ?_, ?_⟩
  · rw [hs.eq_tally hfirst]
    exact finalizeAnalysis_tally _ hfirst pausedManifest _
  · intro hsame
    exact roundedMeasuredOf_largestInserts (Option.some.inj hsame)

end Pmbah.Analysis
