import Pmbah.Browser.MeasuredInput

/-!
# Capture in the writing field

The handlers that turn the events of a text field into mutations.  The value and the
selection may be anything when an event arrives; a timer of no delay fires in any
later task.
-/

namespace Pmbah.Browser

open Js Format

/-- What a capture reads of a text field. -/
structure Field where
  value : JsString
  selectionStart : Nat
  selectionEnd : Nat
  ordered : selectionStart ≤ selectionEnd

def Field.empty : Field := ⟨[], 0, 0, Nat.le_refl 0⟩

def Field.typed : Field := ⟨js "x", 1, 1, Nat.le_refl 1⟩

/-- An event of the field, a change of it that the capture is not told of, or the question
whether there is a gap.  Timers are numbered as the `beforeinput` events that start them. -/
inductive FieldEvent where
  | change (field : Field)
  | beforeinput (inputType : JsString) (data : Option JsString)
  | input (inputType : Option JsString) (isComposing : Bool)
  | compositionstart
  | compositionend (data : JsString)
  | blur
  | timer (number : Nat)
  | hasGap

/-- `text.includes(part)`. -/
def includes (text part : JsString) : Bool := text.tails.any part.isPrefixOf

/-- The variables of `attachWriteCapture`, its running timers with the cycle each is for,
and what it has emitted. -/
structure WriteCapture where
  pending : Option MeasuredInputIntent
  composition : Option Measured
  committed : Option (Int × Int)
  cycle : Nat
  index : NumericTextIndex
  numericIntent : Option NumericTextIntent
  observedLength : Int
  gap : Bool
  inputs : Nat
  timers : List (Nat × Nat)
  emitted : List Mutation

namespace WriteCapture

def attach (field : Field) : WriteCapture where
  pending := none
  composition := none
  committed := none
  cycle := 0
  index := .new field.value
  numericIntent := none
  observedLength := (NumericTextIndex.new field.value).length
  gap := false
  inputs := 0
  timers := []
  emitted := []

def emitApplied (capture : WriteCapture) (mutation : Option Mutation) (lengthAfter : Int) :
    WriteCapture :=
  match mutation with
  | some mutation =>
      { capture with
        emitted := capture.emitted ++
          [if capture.gap then { mutation with pos := none } else mutation]
        gap := false
        observedLength := lengthAfter }
  | none => { capture with observedLength := lengthAfter }

def measure (capture : WriteCapture) (field : Field) : Measured × WriteCapture :=
  let index := if capture.index.utf16Length ≠ field.value.length then
    capture.index.reset field.value else capture.index
  let lengthBefore := index.length
  let (start, index) := index.offset field.selectionStart
  let (stop, index) := index.offset field.selectionEnd
  let (first, index) := index.offset field.selectionStart
  ({ lengthBefore, selectionStartCodepoints := some start
     selectedCodepoints := some (stop - first) }, { capture with index })

def beginNumeric (capture : WriteCapture) (field : Field) (inputType : JsString)
    (dataLength : Option Nat) : WriteCapture :=
  { capture with
    numericIntent := some
      { length := capture.index.utf16Length, start := some field.selectionStart
        stop := some field.selectionEnd, inputType, dataLength } }

/-- The input is applied to the index; no error is thrown there. -/
def applyNumeric (capture : WriteCapture) (field : Field) : WriteCapture :=
  { capture with
    index := (applyNumericTextInput capture.index field.value (some field.selectionStart)
      capture.numericIntent).toOption.getD capture.index
    numericIntent := none }

/-- A length other than that of the last captured change leaves a gap. -/
def checkGap (capture : WriteCapture) (measured : Measured) : WriteCapture :=
  if measured.lengthBefore ≠ capture.observedLength then { capture with gap := true } else capture

theorem checkGap_eq (capture : WriteCapture) (measured : Measured) :
    capture.checkGap measured =
      { capture with
        gap := capture.gap || decide (measured.lengthBefore ≠ capture.observedLength) } := by
  rw [checkGap]
  by_cases hgap : measured.lengthBefore ≠ capture.observedLength
  · rw [if_pos hgap, decide_eq_true hgap, Bool.or_true]
  · rw [if_neg hgap, decide_eq_false hgap, Bool.or_false]

def before (capture : WriteCapture) (field : Field) (inputType : JsString)
    (data : Option JsString) : WriteCapture :=
  let number := capture.inputs
  let capture := { capture with pending := none, inputs := number + 1 }
  if capture.composition.isSome then capture
  else if capture.committed.isSome && includes inputType (js "Composition") then capture
  else
    let cycle := capture.cycle + 1
    let capture :=
      { capture with committed := none, cycle, timers := (number, cycle) :: capture.timers }
    let (measured, capture) := capture.measure field
    let capture := (capture.checkGap measured).beginNumeric field inputType
      (data.map List.length)
    { capture with
      pending := some
        { measured with inputType, dataCodepoints := data.map fun data => (codePoints data).length } }

def timer (capture : WriteCapture) (number : Nat) : WriteCapture :=
  let fires := capture.timers.contains (number, capture.cycle)
  let capture := { capture with timers := capture.timers.filter (·.1 ≠ number) }
  if fires then
    { capture with
      pending := none
      numericIntent := if capture.composition.isSome then capture.numericIntent else none }
  else capture

/-- What `input` does unless the composition has been recorded already. -/
def applyInput (capture : WriteCapture) (field : Field) : WriteCapture :=
  let intent := capture.pending
  let capture := { capture with pending := none }.applyNumeric field
  match intent with
  | none => capture.emitApplied (some (unknownMutation .unknown)) capture.index.length
  | some intent =>
      let (caret, index) := capture.index.offset field.selectionStart
      { capture with index }.emitApplied
        (deriveMutationFromMeasuredInput intent capture.index.length (some caret)) index.length

def input (capture : WriteCapture) (field : Field) (inputType : Option JsString)
    (isComposing : Bool) : WriteCapture :=
  if capture.composition.isSome then capture
  else match capture.committed with
    | none => capture.applyInput field
    | some (length, caret) =>
        if (inputType.any fun inputType => includes inputType (js "Composition")) ||
            isComposing then
          let (measured, capture) := capture.measure field
          let capture := { capture with committed := none, pending := none }
          if length = measured.lengthBefore then
            let (offset, index) := capture.index.offset field.selectionStart
            let capture := { capture with index }
            if caret = offset then capture else capture.applyInput field
          else capture.applyInput field
        else { capture with committed := none }.applyInput field

def startComposition (capture : WriteCapture) (field : Field) : WriteCapture :=
  let capture := { capture with pending := none, committed := none }
  let (measured, capture) := capture.measure field
  let capture := { capture with composition := some measured }
  (capture.beginNumeric field (js "insertFromComposition") none).checkGap measured

def endComposition (capture : WriteCapture) (field : Field) (data : JsString) : WriteCapture :=
  let start := capture.composition
  let capture := { capture with composition := none, pending := none }
  match start with
  | none => capture
  | some start =>
      let inserted := (codePoints data).length
      let capture := capture.applyNumeric field
      let lengthAfter := capture.index.length
      let (caret, index) := capture.index.offset field.selectionStart
      let capture := { capture with index, committed := some (lengthAfter, caret) }
      if inserted = 0 ∧ lengthAfter = start.lengthBefore then
        { capture with observedLength := lengthAfter }
      else
        let (caret, index) := capture.index.offset field.selectionStart
        { capture with index }.emitApplied
          (deriveMutationFromMeasuredInput
            { start with inputType := js "insertFromComposition", dataCodepoints := some inserted }
            lengthAfter (some caret)) lengthAfter

/-- The answer is kept as the gap. -/
def hasGap (capture : WriteCapture) (field : Field) : Bool × WriteCapture :=
  let gap := capture.gap || decide ((codePoints field.value).length ≠ capture.observedLength)
  (gap, { capture with gap })

def handle (capture : WriteCapture) (field : Field) : FieldEvent → WriteCapture
  | .change _ => capture
  | .beforeinput inputType data => capture.before field inputType data
  | .input inputType isComposing => capture.input field inputType isComposing
  | .compositionstart => capture.startComposition field
  | .compositionend data => capture.endComposition field data
  | .blur => { capture with pending := none }
  | .timer number => capture.timer number
  | .hasGap => (capture.hasGap field).2

end WriteCapture

end Pmbah.Browser
