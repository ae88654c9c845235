import Pmbah.Browser.WriteCapture

/-!
# Capture in the text fields of a page

The handlers of the extension's content script for a text field that is recording.
-/

namespace Pmbah.Browser

open Js Format

/-- The numbers that survive from one event of a text field to the next. -/
structure FieldTransient where
  pending : Option MeasuredInputIntent
  composition : Option Measured
  compositionCommit : Option (Int × Option Int)
  textLength : Option Int
  textIndex : Option NumericTextIndex
  textIntent : Option NumericTextIntent
  textGap : Bool
  cycle : Nat
  inputs : Nat
  timers : List (Nat × Nat)
  sent : List Mutation

namespace FieldTransient

/-- The state of a field that has just been registered. -/
def register (field : Field) : FieldTransient where
  pending := none
  composition := none
  compositionCommit := none
  textLength := some (NumericTextIndex.new field.value).length
  textIndex := some (.new field.value)
  textIntent := none
  textGap := false
  cycle := 0
  inputs := 0
  timers := []
  sent := []

/-- A timer that ends the cycle of a `beforeinput` without an `input`. -/
def expireCaptureCycle (transient : FieldTransient) : FieldTransient :=
  let cycle := transient.cycle + 1
  { transient with
    cycle
    inputs := transient.inputs + 1
    timers := (transient.inputs, cycle) :: transient.timers }

def timer (transient : FieldTransient) (number : Nat) : FieldTransient :=
  let fires := transient.timers.contains (number, transient.cycle)
  let transient := { transient with timers := transient.timers.filter (·.1 ≠ number) }
  if fires then
    { transient with
      pending := none
      textIntent := if transient.composition.isSome then transient.textIntent else none }
  else transient

def measureTextField (transient : FieldTransient) (field : Field) : Measured × FieldTransient :=
  let index := transient.textIndex.getD (.new field.value)
  let index := if index.utf16Length ≠ field.value.length then index.reset field.value else index
  let lengthBefore := index.length
  let (start, index) := index.offset field.selectionStart
  let (stop, index) := index.offset (max field.selectionStart field.selectionEnd : Nat)
  let (first, index) := index.offset (min field.selectionStart field.selectionEnd : Nat)
  ({ lengthBefore, selectionStartCodepoints := some start
     selectedCodepoints := some (stop - first) }, { transient with textIndex := some index })

def beginTextIndex (transient : FieldTransient) (field : Field) (inputType : JsString)
    (dataLength : Option Nat) : FieldTransient :=
  { transient with
    textIntent := some
      { length := field.value.length, start := some field.selectionStart
        stop := some field.selectionEnd, inputType, dataLength } }

/-- The input is applied to the index; no error is thrown there. -/
def applyTextIndex (transient : FieldTransient) (field : Field) : FieldTransient :=
  let index := transient.textIndex.getD (.new field.value)
  { transient with
    textIndex := some ((applyNumericTextInput index field.value (some field.selectionStart)
      transient.textIntent).toOption.getD index)
    textIntent := none }

def checkGap (transient : FieldTransient) (measured : Measured) : FieldTransient :=
  if transient.textLength.any (measured.lengthBefore ≠ ·) then { transient with textGap := true }
  else transient

theorem checkGap_eq (transient : FieldTransient) (measured : Measured) :
    transient.checkGap measured =
      { transient with
        textGap := transient.textGap || transient.textLength.any (measured.lengthBefore ≠ ·) } := by
  rw [checkGap]
  cases transient.textLength.any (measured.lengthBefore ≠ ·) with
  | false => rw [if_neg Bool.false_ne_true, Bool.or_false]
  | true => rw [if_pos rfl, Bool.or_true]

def emitTextMutation (transient : FieldTransient) (mutation : Option Mutation)
    (lengthAfter : Int) : FieldTransient :=
  match mutation with
  | some mutation =>
      { transient with
        sent := transient.sent ++
          [if transient.textGap then { mutation with pos := none } else mutation]
        textGap := false
        textLength := some lengthAfter }
  | none => { transient with textLength := some lengthAfter }

def handleBeforeInput (transient : FieldTransient) (field : Field) (inputType : JsString)
    (data : Option JsString) : FieldTransient :=
  let transient := { transient with pending := none }.expireCaptureCycle
  if transient.composition.isSome then transient
  else if transient.compositionCommit.isSome && includes inputType (js "Composition") then
    transient
  else
    let transient := { transient with compositionCommit := none }
    let (measured, transient) := transient.measureTextField field
    let transient := (transient.checkGap measured).beginTextIndex field inputType
      (data.map List.length)
    { transient with
      pending := some
        { measured with inputType, dataCodepoints := data.map fun data => (codePoints data).length } }

/-- What `input` does unless the composition has been recorded already. -/
def applyInput (transient : FieldTransient) (field : Field) : FieldTransient :=
  let intent := transient.pending
  let transient := { transient with pending := none }.applyTextIndex field
  let (after, transient) := transient.measureTextField field
  transient.emitTextMutation
    (match intent with
      | some intent =>
          deriveMutationFromMeasuredInput intent after.lengthBefore after.selectionStartCodepoints
      | none => some (unknownMutation .unknown)) after.lengthBefore

def handleInput (transient : FieldTransient) (field : Field) (inputType : Option JsString)
    (isComposing : Bool) : FieldTransient :=
  if transient.composition.isSome then transient
  else match transient.compositionCommit with
    | none => transient.applyInput field
    | some (length, caret) =>
        if (inputType.any fun inputType => includes inputType (js "Composition")) ||
            isComposing then
          let (after, transient) := transient.measureTextField field
          let transient := { transient with compositionCommit := none, pending := none }
          if length = after.lengthBefore ∧ caret = after.selectionStartCodepoints then transient
          else transient.applyInput field
        else { transient with compositionCommit := none }.applyInput field

def handleCompositionStart (transient : FieldTransient) (field : Field) : FieldTransient :=
  let transient := { transient with pending := none, compositionCommit := none }
  let (measured, transient) := transient.measureTextField field
  let transient := (transient.checkGap measured).beginTextIndex field
    (js "insertFromComposition") none
  { transient with composition := some measured }

def handleCompositionEnd (transient : FieldTransient) (field : Field) (data : JsString) :
    FieldTransient :=
  match transient.composition with
  | none => transient
  | some start =>
      let transient := { transient with composition := none, pending := none }.applyTextIndex field
      let (after, transient) := transient.measureTextField field
      let transient := { transient with
        compositionCommit := some (after.lengthBefore, after.selectionStartCodepoints) }
      let inserted := (codePoints data).length
      transient.emitTextMutation
        (if inserted ≠ 0 ∨ after.lengthBefore ≠ start.lengthBefore then
          deriveMutationFromMeasuredInput
            { start with inputType := js "insertFromComposition", dataCodepoints := some inserted }
            after.lengthBefore after.selectionStartCodepoints
        else none) after.lengthBefore

/-- The answer is kept as the gap. -/
def hasUncapturedChange (transient : FieldTransient) (field : Field) : Bool × FieldTransient :=
  let textGap := transient.textGap ||
    decide (some ((codePoints field.value).length : Int) ≠ transient.textLength)
  (textGap, { transient with textGap })

/-- The content script has no `blur` handler. -/
def handle (transient : FieldTransient) (field : Field) : FieldEvent → FieldTransient
  | .change _ | .blur => transient
  | .beforeinput inputType data => transient.handleBeforeInput field inputType data
  | .input inputType isComposing => transient.handleInput field inputType isComposing
  | .compositionstart => transient.handleCompositionStart field
  | .compositionend data => transient.handleCompositionEnd field data
  | .timer number => transient.timer number
  | .hasGap => (transient.hasUncapturedChange field).2

end FieldTransient

end Pmbah.Browser
