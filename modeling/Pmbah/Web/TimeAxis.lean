import Mathlib.Algebra.Order.Floor.Ring
import Mathlib.Data.List.Sort
import Mathlib.Data.Rat.Floor

/-!
# The time axis

Session time is drawn from left to right.  The longest pauses are cut out of it, each taking a
fixed width, and the stretches between them share the rest.
-/

namespace Pmbah.Web

def elidedPauseMs : ℚ := 300000

def maxElidedPauses : Nat := 12

def minSpanPx : ℚ := 8

/-- A pause, or a stretch between two. -/
structure TimeRange where
  start : ℚ
  stop : ℚ
  deriving DecidableEq

structure TimeSpan where
  start : ℚ
  stop : ℚ
  x0 : ℚ
  x1 : ℚ
  deriving DecidableEq

structure TimeAxis where
  spans : List TimeSpan
  breaks : List TimeSpan
  width : ℚ
  x : ℚ → ℚ

/-- The pauses between neighbouring boundaries. -/
def pausesOf : List ℚ → List TimeRange
  | start :: stop :: boundaries =>
      if elidedPauseMs ≤ stop - start then ⟨start, stop⟩ :: pausesOf (stop :: boundaries)
      else pausesOf (stop :: boundaries)
  | _ => []

/-- Longer pauses come first, and earlier ones among equals. -/
def longestFirst (a b : TimeRange) : Prop :=
  b.stop - b.start < a.stop - a.start ∨
    (b.stop - b.start = a.stop - a.start ∧ a.start ≤ b.start)

instance (a b : TimeRange) : Decidable (longestFirst a b) :=
  inferInstanceAs (Decidable (_ ∨ _))

def earliestFirst (a b : TimeRange) : Prop := a.start ≤ b.start

instance (a b : TimeRange) : Decidable (earliestFirst a b) :=
  inferInstanceAs (Decidable (_ ≤ _))

def cutPauses (pauses : List TimeRange) : List TimeRange :=
  ((pauses.insertionSort longestFirst).take maxElidedPauses).insertionSort earliestFirst

/-- The stretches before, between and after the pauses. -/
def rangesAround (cursor stop : ℚ) : List TimeRange → List TimeRange
  | [] => [⟨cursor, stop⟩]
  | pause :: cut => ⟨cursor, pause.start⟩ :: rangesAround pause.stop stop cut

/-- An empty stretch is kept where it has an edit in it. -/
def keepsRange (times : List ℚ) (count : Nat) (range : TimeRange) (index : Nat) : Bool :=
  range.start < range.stop ||
    if index = 0 then times.head? = some range.start
    else if index = count - 1 then times.getLast? = some range.stop
    else true

def keptRanges (times : List ℚ) (ranges : List TimeRange) : List TimeRange :=
  (ranges.zipIdx.filter fun entry => keepsRange times ranges.length entry.1 entry.2).map Prod.fst

inductive ItemKind where
  | span
  | cut
  deriving DecidableEq

structure AxisItem where
  kind : ItemKind
  range : TimeRange
  deriving DecidableEq

/-- A stretch comes before the pause that begins with it; no two pauses begin together. -/
def itemOrder (a b : AxisItem) : Prop :=
  a.range.start < b.range.start ∨
    (a.range.start = b.range.start ∧ (a.kind = .span ∨ b.kind = .cut))

instance (a b : AxisItem) : Decidable (itemOrder a b) := inferInstanceAs (Decidable (_ ∨ _))

/-- The items, placed from left to right. -/
def placedFrom (widthOf : AxisItem → ℚ) : ℚ → List AxisItem → List (ItemKind × TimeSpan)
  | _, [] => []
  | x, item :: items =>
      (item.kind, ⟨item.range.start, item.range.stop, x, x + widthOf item⟩) ::
        placedFrom widthOf (x + widthOf item) items

def ofKind (kind : ItemKind) (placed : List (ItemKind × TimeSpan)) : List TimeSpan :=
  (placed.filter fun entry => entry.1 = kind).map Prod.snd

def locate (list : List TimeSpan) (t : ℚ) : Option TimeSpan :=
  list.find? fun item => item.start ≤ t && t ≤ item.stop

def place (item : TimeSpan) (t : ℚ) : ℚ :=
  if item.start < item.stop then
    item.x0 + (t - item.start) / (item.stop - item.start) * (item.x1 - item.x0)
  else (item.x0 + item.x1) / 2

/-- The widths of the items. -/
structure AxisWidths where
  gapWidth : ℚ
  minSpan : ℚ
  share : ℚ
  total : ℚ
  count : Nat

def axisWidths (ranges cut : List TimeRange) (width breakWidth : ℚ) : AxisWidths :=
  let gapWidth := if cut.length = 0 then 0 else min breakWidth (width * (1 / 2) / cut.length)
  let available := max 0 (width - cut.length * gapWidth)
  let minSpan := if ranges.length = 0 then 0 else min minSpanPx (available / ranges.length)
  { gapWidth
    minSpan
    share := available - minSpan * ranges.length
    total := (ranges.map fun range => range.stop - range.start).sum
    count := ranges.length }

def AxisWidths.of (widths : AxisWidths) (item : AxisItem) : ℚ :=
  match item.kind with
  | .cut => widths.gapWidth
  | .span => widths.minSpan +
      if 0 < widths.total then
        widths.share * (item.range.stop - item.range.start) / widths.total
      else widths.share / widths.count

def axisEnd (times : List ℚ) (endMs : ℚ) : ℚ := max (max 0 endMs) (times.getLast?.getD 0)

def cutOf (times : List ℚ) (endMs : ℚ) : List TimeRange :=
  cutPauses (pausesOf (0 :: times ++ [axisEnd times endMs]))

def rangesOf (times : List ℚ) (endMs : ℚ) : List TimeRange :=
  keptRanges times (rangesAround 0 (axisEnd times endMs) (cutOf times endMs))

def axisItems (ranges cut : List TimeRange) : List AxisItem :=
  (ranges.map (AxisItem.mk .span) ++ cut.map (AxisItem.mk .cut)).insertionSort itemOrder

/-- Where a time is drawn. -/
def axisX (stop : ℚ) (spans breaks : List TimeSpan) (t : ℚ) : ℚ :=
  let clamped := min stop (max 0 t)
  match (locate spans clamped).or (locate breaks clamped) with
  | some item => place item clamped
  | none => 0

def buildTimeAxis (times : List ℚ) (endMs width breakWidth : ℚ) : TimeAxis :=
  let cut := cutOf times endMs
  let ranges := rangesOf times endMs
  let widths := axisWidths ranges cut width breakWidth
  let placed := placedFrom widths.of 0 (axisItems ranges cut)
  let spans := ofKind .span placed
  let breaks := ofKind .cut placed
  { spans
    breaks
    width
    x := axisX (axisEnd times endMs) spans breaks }

/-! ## Activity -/

structure ActivityColumn where
  start : ℚ
  stop : ℚ
  count : Nat
  x0 : ℚ
  x1 : ℚ

/-- The columns of a span, without their counts. -/
def columnsOf (columnPx : ℚ) (span : TimeSpan) : List ActivityColumn :=
  let count := (max 1 ⌊(span.x1 - span.x0) / columnPx⌋).toNat
  (List.range count).map fun index : Nat =>
    { start := span.start + (span.stop - span.start) * index / count
      stop := span.start + (span.stop - span.start) * (index + 1) / count
      count := 0
      x0 := span.x0 + (span.x1 - span.x0) * index / count
      x1 := span.x0 + (span.x1 - span.x0) * (index + 1) / count }

/-- Counts an event in its column; `none` where there is no span to count it in. -/
def countEvent (spans : List TimeSpan) (groups : List (List ActivityColumn)) (t : ℚ) :
    Option (List (List ActivityColumn)) := do
  let spanIndex := (spans.findIdx? fun span => span.start ≤ t && t ≤ span.stop).getD 0
  let span ← spans[spanIndex]?
  let columns ← groups[spanIndex]?
  let index :=
    if span.start < span.stop then
      ⌊(t - span.start) / (span.stop - span.start) * columns.length⌋
    else 0
  let place := (min (columns.length - 1 : Int) (max 0 index)).toNat
  let column ← columns[place]?
  return groups.set spanIndex (columns.set place { column with count := column.count + 1 })

/-- The columns of all spans.  Of an event only its time is read. -/
def buildActivityColumns {Event : Type} (t : Event → ℚ) (events : List Event) (axis : TimeAxis)
    (columnPx : ℚ) : Option (List ActivityColumn) :=
  if events.isEmpty then some []
  else
    (events.foldlM (fun groups event => countEvent axis.spans groups (t event))
      (axis.spans.map (columnsOf columnPx))).map List.flatten

end Pmbah.Web
