import Pmbah.Emacs.JournalCodec
import Pmbah.Format.Verify

/-!
# The scan of the journal

`inspectJournal` goes over the events of a journal, from its start or from a
cursor that an earlier scan returned, and advances the event chain.  On the way
it checks anchors that were stored independently; only after every check has
passed does it cut an incomplete last line off.
-/

namespace Pmbah.Emacs

open Js Format Library

variable {P : Platform}

/-- Where a scan stands. -/
structure Cursor where
  eventCount : Nat
  chainTip : Option B3Hash
  byteOffset : Nat
  lastTime : Nat

def Cursor.start : Cursor := ⟨0, none, 0, 0⟩

/-- A commitment to a prefix of the journal that was persisted apart from it. -/
structure JournalAnchor where
  eventCount : Nat
  chainTip : Option Json
  byteLength : Option Nat
  lastT : Option Nat
  label : JsString

/-- What a scan is asked for; an absent field is `undefined`. -/
structure InspectInput where
  sessionId : JsString
  version : FormatVersion
  previousEventCount : Option Nat
  previousChainTip : Option B3Hash
  previousByteOffset : Option Nat
  previousT : Option Nat
  eventCount : Option Nat
  endByte : Option Nat
  acknowledgedEventCount : Option Json
  acknowledgedByteLength : Option Json
  chainAnchor : Option Json
  observationAnchors : Option Json
  frozenManifest : Option Json
  frozenByteLength : Option Json
  repairTail : Bool

structure InspectResult where
  cursor : Cursor
  /-- The last events that were read. -/
  tail : List Json

/-! ## Anchors -/

def invalidAnchor (label : JsString) : JsError :=
  .error (js "invalid " ++ label ++ js " journal anchor")

/-- A field of an anchor that may be absent but must be a safe integer otherwise. -/
def optionalNat (label : JsString) (value : Option Json) : Except JsError (Option Nat) :=
  match value with
  | none => .ok none
  | some value =>
      match safeNat value with
      | none => .error (invalidAnchor label)
      | some n => .ok (some n)

/-- The hash that some anchors must carry, beside at least one event. -/
def checkAnchorHash (P : Platform) (label : JsString) (count : Nat) (chainTip : Option Json) :
    Except JsError Unit :=
  if count < 1 then .error (invalidAnchor label)
  else
    match P.toText chainTip with
    | .error thrown => .error thrown
    | .ok text => if isB3HashText text then .ok () else .error (invalidAnchor label)

def addAnchor (P : Platform) (anchor : Json) (label : JsString) (requireHash : Bool) :
    Except JsError JournalAnchor :=
  match (anchor.field (js "event_count")).bind safeNat with
  | none => .error (invalidAnchor label)
  | some count => do
      if requireHash then checkAnchorHash P label count (anchor.field (js "chain_tip"))
      let byteLength ← optionalNat label (anchor.field (js "byte_length"))
      let lastT ← optionalNat label (anchor.field (js "last_t"))
      pure ⟨count, anchor.field (js "chain_tip"), byteLength, lastT, label⟩

/-- A value that is neither `undefined` nor `null`. -/
def present : Option Json → Option Json
  | some .null => none
  | value => value

def acknowledgedAnchor (P : Platform) (input : InspectInput) :
    Except JsError (List JournalAnchor) :=
  match input.acknowledgedEventCount with
  | none => .ok []
  | some count =>
      (addAnchor P (.ofFields [(js "event_count", some count),
        (js "byte_length", input.acknowledgedByteLength)]) (js "acknowledged") false).map
          fun anchor => [anchor]

def cachedAnchor (P : Platform) (input : InspectInput) : Except JsError (List JournalAnchor) :=
  match present input.chainAnchor with
  | none => .ok []
  | some anchor => (addAnchor P anchor (js "cached hash") true).map fun anchor => [anchor]

def maxObservationAnchors : Nat := 32

def observationAnchors (P : Platform) (input : InspectInput) :
    Except JsError (List JournalAnchor) :=
  match present input.observationAnchors with
  | none => .ok []
  | some (.arr items) =>
      if maxObservationAnchors < items.length then
        .error (.error (js "invalid observation journal anchors"))
      else items.mapM fun anchor => addAnchor P anchor (js "observation") true
  | some _ => .error (.error (js "invalid observation journal anchors"))

def frozenAnchor (P : Platform) (input : InspectInput) : Except JsError (List JournalAnchor) :=
  match present input.frozenManifest with
  | none => .ok []
  | some frozen =>
      if validateManifest P frozen ≠ [] ∨
          Json.text? (frozen.field (js "session_id")) ≠ some input.sessionId ∨
          Json.text? (frozen.field (js "format_version")) ≠ some input.version.text then
        .error (.error (js "invalid frozen journal manifest"))
      else
        (addAnchor P (.ofFields [(js "event_count", frozen.field (js "event_count")),
          (js "byte_length", present input.frozenByteLength)]) (js "frozen") false).map
            fun anchor => [anchor]

/-- The anchors, in the order in which they are added. -/
def readAnchors (P : Platform) (input : InspectInput) : Except JsError (List JournalAnchor) := do
  let acknowledged ← acknowledgedAnchor P input
  let cached ← cachedAnchor P input
  let observed ← observationAnchors P input
  let frozen ← frozenAnchor P input
  pure (acknowledged ++ cached ++ observed ++ frozen)

/-- The anchor names what the scan has found at its count. -/
def JournalAnchor.matchesCursor (anchor : JournalAnchor) (cursor : Cursor) : Bool :=
  (anchor.chainTip.all fun value =>
      cursor.chainTip.any fun tip => Json.text? (some value) == some tip.text) &&
    (anchor.byteLength.all fun length => length == cursor.byteOffset) &&
    anchor.lastT.all fun time => time == cursor.lastTime

/-- The anchors of the count that has been reached. -/
def checkMatches (cursor : Cursor) : List JournalAnchor → Except JsError Unit
  | [] => .ok ()
  | anchor :: anchors =>
      if anchor.matchesCursor cursor then checkMatches cursor anchors
      else .error (.error (anchor.label ++ js " journal anchor does not match event " ++
        natText cursor.eventCount))

/-- The seal of a frozen record over the prefix that it commits to. -/
def checkFrozen (P : Platform) (input : InspectInput) (cursor : Cursor) : Except JsError Unit :=
  match present input.frozenManifest with
  | none => .ok ()
  | some frozen =>
      if Json.number? (frozen.field (js "event_count")) = some (.ofNat cursor.eventCount) then
        match cursor.chainTip with
        | none => .error (.typeError (js "invalid event chain tip"))
        | some tip =>
            match sealRecordHash P tip input.version (frozen.field (js "text_binding"))
                ⟨frozen.field (js "duration_ms"), frozen.field (js "parent_record")⟩ with
            | .error thrown => .error thrown
            | .ok hash =>
                if Json.text? (frozen.field (js "record_hash")) = some hash.text then .ok ()
                else .error (.error
                  (js "frozen record hash does not match its journal prefix"))
      else .ok ()

/-- `checkAnchors`: the anchors that are left. -/
def checkAnchors (P : Platform) (input : InspectInput) (cursor : Cursor)
    (anchors : List JournalAnchor) : Except JsError (List JournalAnchor) := do
  checkMatches cursor (anchors.filter fun anchor => anchor.eventCount = cursor.eventCount)
  checkFrozen P input cursor
  pure (anchors.filter fun anchor => anchor.eventCount ≠ cursor.eventCount)

/-! ## The scan -/

def sequenceError (count : Nat) : JsError :=
  .error (js "journal sequence or time is invalid at event " ++ natText count)

/-- The next event of the journal. -/
def advanceCursor (P : Platform) (sessionId : JsString) (version : FormatVersion)
    (cursor : Cursor) (item : JournalItem) : Except JsError Cursor :=
  match item.event with
  | .null => .error (.typeError (js "Cannot read properties of null (reading 'seq')"))
  | event =>
      if Json.number? (event.field (js "seq")) ≠ some (.ofNat cursor.eventCount) then
        .error (sequenceError cursor.eventCount)
      else
        match P.less (event.field (js "t")) (some (Json.ofNat cursor.lastTime)) with
        | .error thrown => .error thrown
        | .ok true => .error (sequenceError cursor.eventCount)
        | .ok false =>
            (advanceEventHash P cursor.chainTip event sessionId version).map fun tip =>
              ⟨cursor.eventCount + 1, some tip, item.endByte, event.natAt (js "t")⟩

/-- The state of the loop. -/
structure JournalScan where
  cursor : Cursor
  anchors : List JournalAnchor
  tail : List Json

def maxTail : Nat := 256

def pushTail (tail : List Json) (event : Json) : List Json :=
  if maxTail < (tail ++ [event]).length then (tail ++ [event]).drop 1 else tail ++ [event]

/-- The loop over the events, and whether it has stopped at the event limit. -/
def scanItems (P : Platform) (input : InspectInput) (maxCount : Nat) :
    List JournalItem → JournalScan → Except JsError (JournalScan × Bool)
  | [], scan => .ok (scan, false)
  | item :: items, scan =>
      if scan.cursor.eventCount = maxCount then .ok (scan, true)
      else do
        let cursor ← advanceCursor P input.sessionId input.version scan.cursor item
        let anchors ← checkAnchors P input cursor scan.anchors
        scanItems P input maxCount items ⟨cursor, anchors, pushTail scan.tail item.event⟩

/-- The cursor that the scan starts from. -/
def InspectInput.cursor (input : InspectInput) : Cursor where
  eventCount := input.previousEventCount.getD 0
  chainTip := input.previousChainTip
  byteOffset := input.previousByteOffset.getD 0
  lastTime := input.previousT.getD 0

def InspectInput.maxCount (input : InspectInput) : Nat := input.eventCount.getD maxSafeInteger

def checkRepair (input : InspectInput) : Except JsError Unit :=
  if input.repairTail && (input.eventCount.isSome || input.endByte.isSome ||
      input.previousByteOffset.isSome) then
    .error (.error (js "tail repair requires an unbounded scan from the journal start"))
  else .ok ()

def checkStart (input : InspectInput) (anchors : List JournalAnchor) : Except JsError Unit :=
  if !anchors.isEmpty && decide (input.cursor.eventCount ≠ 0 ∨ input.cursor.byteOffset ≠ 0 ∨
      input.cursor.chainTip ≠ none) then
    .error (.error (js "journal anchors require a scan from the start"))
  else .ok ()

def checkCursor (input : InspectInput) : Except JsError Unit :=
  if maxSafeInteger < input.cursor.eventCount ∨ maxSafeInteger < input.cursor.byteOffset ∨
      maxSafeInteger < input.maxCount then
    .error (.error (js "invalid journal prefix cursor"))
  else if input.maxCount < input.cursor.eventCount ∨
      (0 < input.cursor.eventCount ∧ input.cursor.chainTip = none) then
    .error (.error (js "invalid journal chain cursor"))
  else .ok ()

/-- The checks after the last event. -/
def checkEnd (input : InspectInput) (scan : JournalScan) : Except JsError Unit :=
  if input.eventCount.isSome ∧ scan.cursor.eventCount ≠ input.maxCount then
    .error (.error (js "journal is shorter than the immutable event prefix"))
  else if !scan.anchors.isEmpty then
    .error (.error (js "journal is shorter than a persisted anchor"))
  else if (present input.frozenManifest).any fun frozen =>
      Json.number? (frozen.field (js "event_count")) ≠
        some (.ofNat scan.cursor.eventCount) then
    .error (.error (js "frozen record does not match its journal event count"))
  else .ok ()

/-- `inspectJournal` up to the repair. -/
def scanJournal (numbers : NumberSyntax P) (cuts : ReadCuts) (file : List UInt8)
    (input : InspectInput) : Except JsError InspectResult := do
  checkRepair input
  let anchors ← readAnchors P input
  checkStart input anchors
  let anchors ← checkAnchors P input input.cursor anchors
  checkCursor input
  let reading := journalEvents numbers cuts file input.cursor.byteOffset input.endByte
  let (scan, stopped) ← scanItems P input input.maxCount reading.items
    ⟨input.cursor, anchors, []⟩
  if !stopped then
    let _ ← reading.outcome
  checkEnd input scan
  pure ⟨scan.cursor, scan.tail⟩

/-- `truncate(path, length)`. -/
def truncateFile (file : List UInt8) (length : Nat) : List UInt8 :=
  file.take length ++ List.replicate (length - file.length) 0

/-- What the scan returns or throws, and the bytes of the file after it. -/
def inspectJournal (numbers : NumberSyntax P) (cuts : ReadCuts) (file : List UInt8)
    (input : InspectInput) : Except JsError InspectResult × List UInt8 :=
  match scanJournal numbers cuts file input with
  | .error thrown => (.error thrown, file)
  | .ok result =>
      if input.repairTail ∧ file.length ≠ result.cursor.byteOffset then
        (.ok result, truncateFile file result.cursor.byteOffset)
      else (.ok result, file)

end Pmbah.Emacs
