import Pmbah.Format.Length
import Pmbah.Library.OrderedMap

/-!
# The analysis accumulator

The statistics of a log as they are gathered event by event.  Between two chunks of an
upload the accumulator is stored as JSON.  Only the sums of sizes and the length can
grow beyond what doubles hold exactly.
-/

namespace Pmbah.Analysis

open Js Format Library

def defaultIdleThresholdMs : Nat := 30000

def defaultLargeAtomicInsertCodepoints : Nat := 50

def defaultSmallEditCodepoints : Nat := 5

structure AnalysisAccumulator where
  version : Nat
  smallThreshold : Nat
  largeThreshold : Nat
  count : Nat
  firstT : Option Nat
  lastT : Option Nat
  idleThresholdMs : Nat
  /-- Absent in uploads begun before it was kept. -/
  startingLength : Option (Option Nat)
  observedLength : Option Nat
  inserted : Option Nat
  deleted : Option Nat
  largest : Option Nat
  /-- Totals over the edits whose sizes are known; absent in uploads begun before they
  were kept. -/
  measuredInserted : Option Nat
  measuredDeleted : Option Nat
  measuredLargest : Option Nat
  inserts : Nat
  deletes : Nat
  replaces : Nat
  sources : Source → Nat
  sourceOrder : List Source
  knownSizes : Nat
  unknownMeasurements : Nat
  small : Nat
  large : Nat
  deletionEvents : Nat
  deletionClusters : Nat
  previousDeletion : Bool
  minDelay : Option Nat
  maxDelay : Option Nat
  active : Nat
  idle : Nat
  longPauses : Nat
  histogram : List Nat

/-- The upper ends of the delay buckets but the last, which has none. -/
def histogramEnds : List Nat := [999, 4999, 29999, 299999]

structure AnalysisOptions where
  smallEditCodepoints : Option Nat := none
  largeAtomicInsertCodepoints : Option Nat := none
  startingLength : Option (Option Nat) := none

def createAnalysisAccumulator (idleThresholdMs : Option JsNumber) (options : AnalysisOptions) :
    Except JsError AnalysisAccumulator :=
  match (idleThresholdMs.getD (.ofNat defaultIdleThresholdMs)).toInt? with
  | none => .error (.typeError (js "invalid idle threshold"))
  | some idle =>
      if idle < 0 ∨ (maxSafeInteger : Int) < idle then
        .error (.typeError (js "invalid idle threshold"))
      else .ok {
        version := 1
        smallThreshold := options.smallEditCodepoints.getD defaultSmallEditCodepoints
        largeThreshold :=
          options.largeAtomicInsertCodepoints.getD defaultLargeAtomicInsertCodepoints
        count := 0
        firstT := none
        lastT := none
        idleThresholdMs := idle.toNat
        startingLength := some (options.startingLength.getD (some 0))
        observedLength := options.startingLength.getD (some 0)
        inserted := some 0
        deleted := some 0
        largest := some 0
        measuredInserted := some 0
        measuredDeleted := some 0
        measuredLargest := some 0
        inserts := 0
        deletes := 0
        replaces := 0
        sources := fun _ => 0
        sourceOrder := []
        knownSizes := 0
        unknownMeasurements := 0
        small := 0
        large := 0
        deletionEvents := 0
        deletionClusters := 0
        previousDeletion := false
        minDelay := none
        maxDelay := none
        active := 0
        idle := 0
        longPauses := 0
        histogram := [0, 0, 0, 0, 0] }

namespace AnalysisAccumulator

/-- The delay from the event before. -/
def addDelay (s : AnalysisAccumulator) (t : Nat) : AnalysisAccumulator :=
  match s.lastT with
  | none => s
  | some lastT =>
      let delay := t - lastT
      let s := { s with
        minDelay := some (min (s.minDelay.getD delay) delay)
        maxDelay := some (max (s.maxDelay.getD delay) delay)
        histogram := s.histogram.modify (histogramEnds.findIdx (delay ≤ ·)) (· + 1) }
      if s.idleThresholdMs ≤ delay then
        { s with idle := s.idle + delay, longPauses := s.longPauses + 1 }
      else { s with active := s.active + delay }

/-- The kinds of edits. -/
def addKind (s : AnalysisAccumulator) (e : BufferMutation) : AnalysisAccumulator :=
  let s := { s with
    sources := fun source => if source = e.source then s.sources source + 1 else s.sources source
    sourceOrder := if s.sources e.source = 0 then s.sourceOrder ++ [e.source] else s.sourceOrder }
  match e.op with
  | .insert => { s with inserts := s.inserts + 1 }
  | .delete => { s with deletes := s.deletes + 1 }
  | .replace => { s with replaces := s.replaces + 1 }

/-- The sums over the sizes. -/
def addSizes (s : AnalysisAccumulator) (e : BufferMutation) : AnalysisAccumulator :=
  { s with
    inserted := s.inserted.bind fun total => e.insLen.map (addDouble total)
    deleted := s.deleted.bind fun total => e.delLen.map (addDouble total)
    largest := s.largest.bind fun largest => e.insLen.map (max largest ·)
    measuredInserted :=
      match e.insLen, s.measuredInserted, s.measuredLargest with
      | some insLen, some total, some _ => some (addDouble total insLen)
      | _, total, _ => total
    measuredLargest :=
      match e.insLen, s.measuredInserted, s.measuredLargest with
      | some insLen, some _, some largest => some (max largest insLen)
      | _, _, largest => largest
    measuredDeleted :=
      match e.delLen, s.measuredDeleted with
      | some delLen, some total => some (addDouble total delLen)
      | _, total => total }

/-- The edits by what is known of them. -/
def addCounts (s : AnalysisAccumulator) (e : BufferMutation) : AnalysisAccumulator :=
  let known := e.insLen.isSome && e.delLen.isSome
  let deletion := e.delLen.any (0 < ·)
  { s with
    knownSizes := if known then s.knownSizes + 1 else s.knownSizes
    small :=
      if known && e.insLen.getD 0 + e.delLen.getD 0 ≤ s.smallThreshold then s.small + 1
      else s.small
    unknownMeasurements :=
      if e.pos.isNone || e.insLen.isNone || e.delLen.isNone then s.unknownMeasurements + 1
      else s.unknownMeasurements
    large := if e.insLen.any (s.largeThreshold ≤ ·) then s.large + 1 else s.large
    deletionEvents := if deletion then s.deletionEvents + 1 else s.deletionEvents
    deletionClusters :=
      if deletion && !s.previousDeletion then s.deletionClusters + 1 else s.deletionClusters
    previousDeletion := deletion }

def addLength (s : AnalysisAccumulator) (e : BufferMutation) : AnalysisAccumulator :=
  { s with
    observedLength :=
      match s.observedLength, e.pos, e.delLen, e.insLen with
      | some length, some pos, some delLen, some insLen =>
          if length < pos + delLen then none
          else some (addDouble (subDouble length delLen) insLen)
      | _, _, _, _ => none }

end AnalysisAccumulator

def appendAnalysisEvent (s : AnalysisAccumulator) (e : BufferMutation) :
    Except JsError AnalysisAccumulator :=
  if s.version ≠ 1 then .error (.typeError (js "Unsupported analysis accumulator version"))
  else if e.seq ≠ s.count ∨ s.lastT.any (e.t < ·) = true then
    .error (.typeError (js "analysis events must be contiguous and chronological"))
  else
    let s := s.addDelay e.t
    let s := { s with
      firstT := s.firstT.or (some e.t)
      lastT := some e.t
      count := s.count + 1 }
    .ok ((((s.addKind e).addSizes e).addCounts e).addLength e)

/-! ## Serialization -/

namespace AnalysisAccumulator

/-- The fields of the object, the `undefined` ones included. -/
def fields (s : AnalysisAccumulator) : List (JsString × Option Json) :=
  [(js "version", some (.ofNat s.version)),
    (js "small_threshold", some (.ofNat s.smallThreshold)),
    (js "large_threshold", some (.ofNat s.largeThreshold)),
    (js "count", some (.ofNat s.count)),
    (js "first_t", some (natOrNull s.firstT)),
    (js "last_t", some (natOrNull s.lastT)),
    (js "idle_threshold_ms", some (.ofNat s.idleThresholdMs)),
    (js "starting_length", s.startingLength.map natOrNull),
    (js "observed_length", some (natOrNull s.observedLength)),
    (js "inserted", some (natOrNull s.inserted)),
    (js "deleted", some (natOrNull s.deleted)),
    (js "largest", some (natOrNull s.largest)),
    (js "measured_inserted", s.measuredInserted.map .ofNat),
    (js "measured_deleted", s.measuredDeleted.map .ofNat),
    (js "measured_largest", s.measuredLargest.map .ofNat),
    (js "inserts", some (.ofNat s.inserts)),
    (js "deletes", some (.ofNat s.deletes)),
    (js "replaces", some (.ofNat s.replaces)),
    (js "sources", some (.obj (Format.sources.map fun source =>
      (source.text, .ofNat (s.sources source))))),
    (js "source_order", some (.arr (s.sourceOrder.map fun source => .str source.text))),
    (js "known_sizes", some (.ofNat s.knownSizes)),
    (js "unknown_measurements", some (.ofNat s.unknownMeasurements)),
    (js "small", some (.ofNat s.small)),
    (js "large", some (.ofNat s.large)),
    (js "deletion_events", some (.ofNat s.deletionEvents)),
    (js "deletion_clusters", some (.ofNat s.deletionClusters)),
    (js "previous_deletion", some (.bool s.previousDeletion)),
    (js "min_delay", some (natOrNull s.minDelay)),
    (js "max_delay", some (natOrNull s.maxDelay)),
    (js "active", some (.ofNat s.active)),
    (js "idle", some (.ofNat s.idle)),
    (js "long_pauses", some (.ofNat s.longPauses)),
    (js "histogram", some (.arr (s.histogram.map .ofNat)))]

def toJson (s : AnalysisAccumulator) : Json := .ofFields s.fields

/-- The accumulator that a stored value is taken for. -/
def ofJson (value : Json) : AnalysisAccumulator where
  version := value.natAt (js "version")
  smallThreshold := value.natAt (js "small_threshold")
  largeThreshold := value.natAt (js "large_threshold")
  count := value.natAt (js "count")
  firstT := nullableNatAt value (js "first_t")
  lastT := nullableNatAt value (js "last_t")
  idleThresholdMs := value.natAt (js "idle_threshold_ms")
  startingLength := (value.field (js "starting_length")).map fun _ =>
    nullableNatAt value (js "starting_length")
  observedLength := nullableNatAt value (js "observed_length")
  inserted := nullableNatAt value (js "inserted")
  deleted := nullableNatAt value (js "deleted")
  largest := nullableNatAt value (js "largest")
  measuredInserted := nullableNatAt value (js "measured_inserted")
  measuredDeleted := nullableNatAt value (js "measured_deleted")
  measuredLargest := nullableNatAt value (js "measured_largest")
  inserts := value.natAt (js "inserts")
  deletes := value.natAt (js "deletes")
  replaces := value.natAt (js "replaces")
  sources := fun source => ((value.field (js "sources")).getD .null).natAt source.text
  sourceOrder := (itemsOf (value.field (js "source_order"))).filterMap fun item =>
    (Json.text? (some item)).bind Source.ofText?
  knownSizes := value.natAt (js "known_sizes")
  unknownMeasurements := value.natAt (js "unknown_measurements")
  small := value.natAt (js "small")
  large := value.natAt (js "large")
  deletionEvents := value.natAt (js "deletion_events")
  deletionClusters := value.natAt (js "deletion_clusters")
  previousDeletion := (value.field (js "previous_deletion")).any Json.truthy
  minDelay := nullableNatAt value (js "min_delay")
  maxDelay := nullableNatAt value (js "max_delay")
  active := value.natAt (js "active")
  idle := value.natAt (js "idle")
  longPauses := value.natAt (js "long_pauses")
  histogram := (itemsOf (value.field (js "histogram"))).filterMap fun item =>
    ((Json.number? (some item)).bind JsNumber.toInt?).map Int.toNat
where
  itemsOf : Option Json → List Json
    | some (.arr items) => items
    | _ => []

theorem nodup_keys (s : AnalysisAccumulator) : (s.fields.map Prod.fst).Nodup := by
  have hkeys : s.fields.map Prod.fst = (fields (ofJson .null)).map Prod.fst := rfl
  rw [hkeys]
  decide +kernel

theorem field_ofFields_cons (name : JsString) (given : Option Json)
    (entries : List (JsString × Option Json)) (key : JsString) :
    (Json.ofFields ((name, given) :: entries)).field key =
      if key = name ∧ given.isSome then given else (Json.ofFields entries).field key := by
  cases given with
  | none => simp [Json.ofFields]
  | some value =>
      by_cases hkey : key = name
      · simp [Json.ofFields, Json.field, hkey]
      · have hne : (key == name) = false := by simpa using hkey
        simp [Json.ofFields, Json.field, List.lookup_cons, hkey, hne]

theorem field_ofFields_of_not_mem {entries : List (JsString × Option Json)} {key : JsString}
    (h : key ∉ entries.map Prod.fst) : (Json.ofFields entries).field key = none := by
  induction entries with
  | nil => rfl
  | cons entry entries ih =>
      rw [List.map_cons, List.mem_cons, not_or] at h
      rw [field_ofFields_cons, if_neg fun hkey => h.1 hkey.1]
      exact ih h.2

/-- Under distinct names a field of an object literal is what it was given. -/
theorem field_ofFields {entries : List (JsString × Option Json)}
    (hnodup : (entries.map Prod.fst).Nodup) {key : JsString} {value : Option Json}
    (hmem : (key, value) ∈ entries) : (Json.ofFields entries).field key = value := by
  induction entries with
  | nil => cases hmem
  | cons entry entries ih =>
      rw [List.map_cons, List.nodup_cons] at hnodup
      rw [field_ofFields_cons]
      rcases List.mem_cons.1 hmem with rfl | hrest
      · cases value with
        | some found => exact if_pos ⟨rfl, rfl⟩
        | none =>
            rw [if_neg fun hnone => by cases hnone.2]
            exact field_ofFields_of_not_mem hnodup.1
      · have hne : key ≠ entry.1 := by
          rintro rfl
          exact hnodup.1 (List.mem_map.2 ⟨_, hrest, rfl⟩)
        rw [if_neg fun hkey => hne hkey.1]
        exact ih hnodup.2 hrest

/-- A stored value that has the fields of the accumulator, in whatever order. -/
def StoredAs (s : AnalysisAccumulator) (value : Json) : Prop :=
  ∀ key, value.field key = s.toJson.field key

theorem StoredAs.field {s : AnalysisAccumulator} {value : Json} (h : s.StoredAs value) (i : Nat)
    {key : JsString} {given : Option Json} (hi : s.fields[i]? = some (key, given)) :
    value.field key = given :=
  (h key).trans (field_ofFields s.nodup_keys (List.mem_of_getElem? hi))

theorem natAt_eq {value : Json} {key : JsString} {n : Nat}
    (h : value.field key = some (Json.ofNat n)) : value.natAt key = n := by
  simp [Json.natAt, h, Json.number?, Json.ofNat]

theorem nullableNatAt_eq {value : Json} {key : JsString} {size : Option Nat}
    (h : value.field key = some (natOrNull size)) : nullableNatAt value key = size := by
  rw [nullableNatAt, h]
  cases size <;> rfl

theorem optionalNatAt_eq {value : Json} {key : JsString} {size : Option Nat}
    (h : value.field key = size.map .ofNat) : nullableNatAt value key = size := by
  rw [nullableNatAt, h]
  cases size <;> rfl

/-- An accumulator survives being stored. -/
theorem ofJson_of_storedAs {s : AnalysisAccumulator} {value : Json} (h : s.StoredAs value) :
    ofJson value = s := by
  have hsources : (fun source => ((value.field (js "sources")).getD .null).natAt source.text) =
      s.sources := by
    funext source
    rw [h.field 18 rfl]
    cases source <;> rfl
  have horder : (ofJson.itemsOf (value.field (js "source_order"))).filterMap (fun item =>
      (Json.text? (some item)).bind Source.ofText?) = s.sourceOrder := by
    rw [h.field 19 rfl]
    simp [ofJson.itemsOf, List.filterMap_map, Json.text?]
  have hhistogram : (ofJson.itemsOf (value.field (js "histogram"))).filterMap (fun item =>
      ((Json.number? (some item)).bind JsNumber.toInt?).map Int.toNat) = s.histogram := by
    rw [h.field 32 rfl]
    simp [ofJson.itemsOf, List.filterMap_map, Function.comp_def, Json.number?, Json.ofNat]
  have hstarting : (value.field (js "starting_length")).map (fun _ =>
      nullableNatAt value (js "starting_length")) = s.startingLength := by
    have hfield := h.field 7 rfl
    rw [nullableNatAt, hfield]
    cases s.startingLength with
    | none => rfl
    | some size => cases size <;> rfl
  have hprevious : (value.field (js "previous_deletion")).any Json.truthy = s.previousDeletion := by
    rw [h.field 26 rfl]
    rfl
  rw [ofJson, hsources, horder, hhistogram, hstarting, hprevious, natAt_eq (h.field 0 rfl),
    natAt_eq (h.field 1 rfl), natAt_eq (h.field 2 rfl), natAt_eq (h.field 3 rfl),
    nullableNatAt_eq (h.field 4 rfl), nullableNatAt_eq (h.field 5 rfl), natAt_eq (h.field 6 rfl),
    nullableNatAt_eq (h.field 8 rfl), nullableNatAt_eq (h.field 9 rfl),
    nullableNatAt_eq (h.field 10 rfl), nullableNatAt_eq (h.field 11 rfl),
    optionalNatAt_eq (h.field 12 rfl), optionalNatAt_eq (h.field 13 rfl),
    optionalNatAt_eq (h.field 14 rfl), natAt_eq (h.field 15 rfl), natAt_eq (h.field 16 rfl),
    natAt_eq (h.field 17 rfl), natAt_eq (h.field 20 rfl), natAt_eq (h.field 21 rfl),
    natAt_eq (h.field 22 rfl), natAt_eq (h.field 23 rfl), natAt_eq (h.field 24 rfl),
    natAt_eq (h.field 25 rfl), nullableNatAt_eq (h.field 27 rfl),
    nullableNatAt_eq (h.field 28 rfl), natAt_eq (h.field 29 rfl), natAt_eq (h.field 30 rfl),
    natAt_eq (h.field 31 rfl)]

end AnalysisAccumulator

/-! ## Chunks -/

/-- The accumulators that events lead to, however often they are stored on the way. -/
inductive Analyzed (first : AnalysisAccumulator) :
    List BufferMutation → AnalysisAccumulator → Prop where
  | start : Analyzed first [] first
  | append {events : List BufferMutation} {event : BufferMutation}
      {s next : AnalysisAccumulator} (before : Analyzed first events s)
      (appended : appendAnalysisEvent s event = .ok next) :
      Analyzed first (events ++ [event]) next
  | store {events : List BufferMutation} {s : AnalysisAccumulator} {value : Json}
      (before : Analyzed first events s) (stored : s.StoredAs value) :
      Analyzed first events (.ofJson value)

theorem addDelay_keeps (s : AnalysisAccumulator) (t : Nat) :
    (s.addDelay t).version = s.version ∧ (s.addDelay t).count = s.count ∧
      (s.addDelay t).observedLength = s.observedLength := by
  rw [AnalysisAccumulator.addDelay]
  cases s.lastT with
  | none => exact ⟨rfl, rfl, rfl⟩
  | some lastT =>
      simp only
      split <;> exact ⟨rfl, rfl, rfl⟩

theorem addKind_keeps (s : AnalysisAccumulator) (e : BufferMutation) :
    (s.addKind e).version = s.version ∧ (s.addKind e).count = s.count ∧
      (s.addKind e).lastT = s.lastT ∧ (s.addKind e).observedLength = s.observedLength := by
  rw [AnalysisAccumulator.addKind]
  cases e.op <;> exact ⟨rfl, rfl, rfl, rfl⟩

/-- The accumulator decides as the format does when a length is lost: a position that
reaches beyond the length reaches beyond it with what is deleted there. -/
theorem addLength_eq (s : AnalysisAccumulator) (e : BufferMutation) :
    (s.addLength e).observedLength = observeEvent s.observedLength e := by
  rw [AnalysisAccumulator.addLength]
  unfold observeEvent
  cases s.observedLength with
  | none => cases e.pos <;> cases e.delLen <;> cases e.insLen <;> rfl
  | some length =>
      cases e.pos with
      | none => rfl
      | some pos =>
          cases e.delLen with
          | none => rfl
          | some delLen =>
              cases e.insLen with
              | none => rfl
              | some insLen =>
                  have hbeyond : (length < pos ∨ length < pos + delLen) ↔ length < pos + delLen := by
                    omega
                  simp only [hbeyond]

/-- What an event that is accepted leaves behind. -/
theorem appendAnalysisEvent_ok {s next : AnalysisAccumulator} {e : BufferMutation}
    (h : appendAnalysisEvent s e = .ok next) :
    next.version = s.version ∧ next.count = s.count + 1 ∧ next.lastT = some e.t ∧
      next.observedLength = observeEvent s.observedLength e := by
  rw [appendAnalysisEvent] at h
  split at h
  · cases h
  split at h
  · cases h
  have hnext := Except.ok.inj h
  have hcounted : ∃ counted : AnalysisAccumulator, counted.version = s.version ∧
      counted.count = s.count + 1 ∧ counted.lastT = some e.t ∧
      counted.observedLength = s.observedLength ∧
      next = (((counted.addKind e).addSizes e).addCounts e).addLength e := by
    obtain ⟨hversion, hcount, hlength⟩ := addDelay_keeps s e.t
    refine ⟨_, ?_, ?_, ?_, ?_, hnext.symm⟩
    · exact hversion
    · exact congrArg (· + 1) hcount
    · rfl
    · exact hlength
  obtain ⟨counted, hversion, hcount, hlast, hlength, rfl⟩ := hcounted
  obtain ⟨hversion', hcount', hlast', hlength'⟩ := addKind_keeps counted e
  refine ⟨hversion'.trans hversion, hcount'.trans hcount, hlast'.trans hlast, ?_⟩
  rw [addLength_eq, ← hlength, ← hlength']
  rfl

/-- The next event of a valid log is accepted. -/
theorem appendAnalysisEvent_isOk {s : AnalysisAccumulator} {e : BufferMutation}
    (hversion : s.version = 1) (hcount : e.seq = s.count) (htime : ∀ lastT ∈ s.lastT, lastT ≤ e.t) :
    ∃ next, appendAnalysisEvent s e = .ok next := by
  have hchronological : ¬ (e.seq ≠ s.count ∨ s.lastT.any (e.t < ·) = true) := by
    rintro (hseq | hbefore)
    · exact hseq hcount
    · obtain ⟨lastT, hlast, hless⟩ := (Option.any_eq_true _ _).1 hbefore
      exact absurd (of_decide_eq_true hless) (Nat.not_lt.2 (htime lastT hlast))
  rw [appendAnalysisEvent, if_neg (not_not.2 hversion), if_neg hchronological]
  exact ⟨_, rfl⟩

namespace Analyzed

variable {first s : AnalysisAccumulator} {events : List BufferMutation}

theorem observedLength_eq (h : Analyzed first events s) :
    s.observedLength = observedLength first.observedLength events := by
  induction h with
  | start => rfl
  | append _ happended ih =>
      obtain ⟨-, -, -, hlength⟩ := appendAnalysisEvent_ok happended
      rw [hlength, ih, observedLength_concat]
  | store _ hstored ih => rw [AnalysisAccumulator.ofJson_of_storedAs hstored, ih]

/-- What the next event is checked against. -/
theorem place (h : Analyzed first events s) (hversion : first.version = 1)
    (hcount : first.count = 0) (hlast : first.lastT = none) :
    s.version = 1 ∧ s.count = events.length ∧
      s.lastT = events.getLast?.map BufferMutation.t := by
  induction h with
  | start => exact ⟨hversion, hcount, hlast⟩
  | append _ happended ih =>
      obtain ⟨hsame, hnext, htime, -⟩ := appendAnalysisEvent_ok happended
      refine ⟨hsame.trans ih.1, ?_, ?_⟩
      · rw [hnext, ih.2.1, List.length_append, List.length_singleton]
      · rw [htime, List.getLast?_concat]
        rfl
  | store _ hstored ih =>
      rw [AnalysisAccumulator.ofJson_of_storedAs hstored]
      exact ih

end Analyzed

/-- What a new accumulator starts from. -/
theorem createAnalysisAccumulator_ok {idleThresholdMs : Option JsNumber}
    {options : AnalysisOptions} {s : AnalysisAccumulator}
    (h : createAnalysisAccumulator idleThresholdMs options = .ok s) :
    s.version = 1 ∧ s.count = 0 ∧ s.lastT = none ∧
      s.observedLength = options.startingLength.getD (some 0) := by
  rw [createAnalysisAccumulator] at h
  split at h
  · cases h
  split at h
  · cases h
  · cases h
    exact ⟨rfl, rfl, rfl, rfl⟩

/-- A valid log is analysed to its end, wherever the accumulator is stored. -/
theorem Analyzed.next {idleThresholdMs : Option JsNumber} {options : AnalysisOptions}
    {first s : AnalysisAccumulator} {events : List BufferMutation} {event : BufferMutation}
    (hfirst : createAnalysisAccumulator idleThresholdMs options = .ok first)
    (h : Analyzed first events s) (hvalid : ValidLog (events ++ [event])) :
    ∃ next, appendAnalysisEvent s event = .ok next ∧ Analyzed first (events ++ [event]) next := by
  obtain ⟨hversion, hcount, hlast, -⟩ := createAnalysisAccumulator_ok hfirst
  obtain ⟨hsame, hplace, htime⟩ := h.place hversion hcount hlast
  obtain ⟨-, -, hseq, hsorted⟩ := validLog_concat.1 hvalid
  have hchronological : ∀ lastT ∈ s.lastT, lastT ≤ event.t := by
    rw [htime]
    intro lastT hmem
    obtain ⟨last, hlast, rfl⟩ := Option.map_eq_some_iff.1 hmem
    exact hsorted last hlast
  obtain ⟨next, hnext⟩ := appendAnalysisEvent_isOk hsame (hseq.trans hplace.symm) hchronological
  exact ⟨next, hnext, h.append hnext⟩

end Pmbah.Analysis
