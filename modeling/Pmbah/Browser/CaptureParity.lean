import Pmbah.Browser.FieldCapture
import Pmbah.Library.Transition

/-!
# The two captures agree

The writing field and the text fields of a page are captured by different handlers.
They emit the same mutations as long as a composition does not end, without one having
begun, between a `beforeinput` and its `input`.
-/

namespace Pmbah.Browser

open Js Format Library

/-- What both captures know, apart from their timers. -/
structure Same (web : WriteCapture) (page : FieldTransient) : Prop where
  pending : web.pending = page.pending
  composition : web.composition = page.composition
  committed : web.committed.map (fun commit => (commit.1, some commit.2)) = page.compositionCommit
  index : ∃ index, page.textIndex = some index ∧ web.index.Alike index
  length : page.textLength = some web.observedLength
  intent : web.numericIntent = page.textIntent
  gap : web.gap = page.textGap
  emitted : web.emitted = page.sent

namespace Same

variable {web : WriteCapture} {page : FieldTransient} {field : Field}

/-- Both measure the same and leave their indexes alike, and the caret is found again. -/
theorem measure (h : Same web page) (field : Field) :
    (web.measure field).1 = (page.measureTextField field).1 ∧
      Same (web.measure field).2 (page.measureTextField field).2 ∧
      (web.measure field).2.index.utf16Length = field.value.length ∧
      (web.measure field).1.selectionStartCodepoints =
        some ((web.measure field).2.index.offset field.selectionStart).1 := by
  obtain ⟨index, hindex, halike⟩ := h.index
  have hfirst : min field.selectionStart field.selectionEnd = field.selectionStart :=
    Nat.min_eq_left field.ordered
  have hlast : max field.selectionStart field.selectionEnd = field.selectionEnd :=
    Nat.max_eq_right field.ordered
  have hread : ∃ own other, own.Alike other ∧ own.utf16Length = field.value.length ∧
      (if web.index.utf16Length ≠ field.value.length then web.index.reset field.value
        else web.index) = own ∧
      (if index.utf16Length ≠ field.value.length then index.reset field.value
        else index) = other := by
    refine ⟨_, _, ?_, ?_, rfl, rfl⟩
    · rw [← halike.utf16Length]
      split
      · exact .reset web.index index field.value
      · exact halike
    · split
      · rfl
      · rename_i hsame
        exact not_not.1 hsame
  obtain ⟨own, other, hreset, hlength, hown, hother⟩ := hread
  simp only [WriteCapture.measure, FieldTransient.measureTextField, hindex, Option.getD_some,
    hfirst, hlast, hown, hother]
  have hstart := hreset.offset_eq field.selectionStart
  have hread1 := (hreset.read field.selectionStart).read' field.selectionStart
  have hstop := hread1.offset_eq field.selectionEnd
  have hread2 := (hread1.read field.selectionEnd).read' field.selectionEnd
  have hagain := hread2.offset_eq field.selectionStart
  have hread3 := (hread2.read field.selectionStart).read' field.selectionStart
  have hcaret := (((hreset.self.read' field.selectionStart).read' field.selectionEnd).read'
    field.selectionStart).offset_eq field.selectionStart
  refine ⟨?_, ?_, hlength, congrArg some hcaret⟩
  · rw [hreset.length_eq, hstart, hstop, hagain]
  · exact ⟨h.pending, h.composition, h.committed, ⟨_, rfl, hread3⟩, h.length, h.intent, h.gap,
      h.emitted⟩

theorem checkGap (h : Same web page) (measured : Measured) :
    Same (web.checkGap measured) (page.checkGap measured) := by
  have hgap : (web.gap || decide (measured.lengthBefore ≠ web.observedLength)) =
      (page.textGap || page.textLength.any (measured.lengthBefore ≠ ·)) := by
    rw [h.gap, h.length, Option.any_some]
  rw [WriteCapture.checkGap_eq, FieldTransient.checkGap_eq]
  exact ⟨h.pending, h.composition, h.committed, h.index, h.length, h.intent, hgap, h.emitted⟩

theorem beginNumeric (h : Same web page) (hlength : web.index.utf16Length = field.value.length)
    (inputType : JsString) (dataLength : Option Nat) :
    Same (web.beginNumeric field inputType dataLength)
      (page.beginTextIndex field inputType dataLength) := by
  refine ⟨h.pending, h.composition, h.committed, h.index, h.length, ?_, h.gap, h.emitted⟩
  rw [WriteCapture.beginNumeric, hlength, FieldTransient.beginTextIndex]

theorem applyNumeric (h : Same web page) (field : Field) :
    Same (web.applyNumeric field) (page.applyTextIndex field) ∧
      (web.applyNumeric field).index.utf16Length = field.value.length := by
  obtain ⟨index, hindex, halike⟩ := h.index
  obtain ⟨next, next', hnext, hnext', hnextAlike, hlength⟩ :=
    applyNumericTextInput_alike halike field.value (some field.selectionStart) web.numericIntent
  rw [WriteCapture.applyNumeric, FieldTransient.applyTextIndex, hindex, Option.getD_some,
    ← h.intent, hnext, hnext']
  exact ⟨⟨h.pending, h.composition, h.committed, ⟨_, rfl, hnextAlike⟩, h.length, rfl, h.gap,
    h.emitted⟩, hlength⟩

theorem emit (h : Same web page) (mutation : Option Mutation) (lengthAfter : Int) :
    Same (web.emitApplied mutation lengthAfter) (page.emitTextMutation mutation lengthAfter) := by
  cases mutation with
  | none =>
      exact ⟨h.pending, h.composition, h.committed, h.index, rfl, h.intent, h.gap, h.emitted⟩
  | some mutation =>
      refine ⟨h.pending, h.composition, h.committed, h.index, rfl, h.intent, rfl, ?_⟩
      rw [WriteCapture.emitApplied, FieldTransient.emitTextMutation, h.gap, h.emitted]

/-- An index for the text of the field is measured as it is, and only read. -/
theorem measure_read (h : Same web page) (hlength : web.index.utf16Length = field.value.length) :
    (web.measure field).1.lengthBefore = web.index.length ∧
      (web.measure field).1.selectionStartCodepoints =
        some (web.index.offset field.selectionStart).1 ∧
      ∃ index, (web.measure field).2 = { web with index } ∧ web.index.Alike index := by
  obtain ⟨_, -, halike⟩ := h.index
  simp only [WriteCapture.measure, if_neg (not_not.2 hlength), true_and]
  refine ⟨_, rfl, ?_⟩
  exact ((halike.self.read' field.selectionStart).read' field.selectionEnd).read'
    field.selectionStart

theorem atIndex (h : Same web page) {index : NumericTextIndex} (hindex : index.Alike web.index) :
    Same { web with index } page := by
  obtain ⟨other, hother, halike⟩ := h.index
  exact ⟨h.pending, h.composition, h.committed, ⟨other, hother, hindex.trans halike⟩, h.length,
    h.intent, h.gap, h.emitted⟩

theorem cleared (h : Same web page) :
    Same { web with pending := none } { page with pending := none } :=
  ⟨rfl, h.composition, h.committed, h.index, h.length, h.intent, h.gap, h.emitted⟩

theorem applyInput (h : Same web page) (field : Field) :
    Same (web.applyInput field) (page.applyInput field) := by
  obtain ⟨happlied, hlength⟩ := h.cleared.applyNumeric field
  obtain ⟨hmeasured, hsame, -, -⟩ := happlied.measure field
  obtain ⟨hbefore, hcaret, index, hindex, halike⟩ := happlied.measure_read hlength
  rw [hindex] at hsame
  simp only [WriteCapture.applyInput, FieldTransient.applyInput, ← h.pending, ← hmeasured,
    hbefore, hcaret]
  cases web.pending with
  | none =>
      have hread := hsame.atIndex halike
      exact hread.emit _ _
  | some intent =>
      have hread := hsame.atIndex (halike.read field.selectionStart)
      have hcount := (halike.self.read field.selectionStart).length_eq
      simp only [hcount]
      exact hread.emit _ _

theorem uncommitted (h : Same web page) :
    Same { web with committed := none } { page with compositionCommit := none } :=
  ⟨h.pending, h.composition, rfl, h.index, h.length, h.intent, h.gap, h.emitted⟩

theorem commit (h : Same web page) (commit : Int × Int) :
    Same { web with committed := some commit }
      { page with compositionCommit := some (commit.1, some commit.2) } :=
  ⟨h.pending, h.composition, rfl, h.index, h.length, h.intent, h.gap, h.emitted⟩

theorem input (h : Same web page) (field : Field) (inputType : Option JsString)
    (isComposing : Bool) :
    Same (web.input field inputType isComposing) (page.handleInput field inputType isComposing) := by
  have hcomposing : page.composition.isSome = web.composition.isSome := by rw [h.composition]
  rw [WriteCapture.input, FieldTransient.handleInput, hcomposing]
  by_cases hcomposition : web.composition.isSome
  · rw [if_pos hcomposition, if_pos hcomposition]
    exact h
  rw [if_neg hcomposition, if_neg hcomposition, ← h.committed]
  cases web.committed with
  | none => exact h.applyInput field
  | some commit =>
      obtain ⟨hmeasured, hsame, -, hcaret⟩ := h.measure field
      have hdone := hsame.uncommitted.cleared
      simp only [Option.map_some, ← hmeasured, hcaret, Option.some.injEq]
      split
      · have hread := hdone.atIndex (hdone.index.choose_spec.2.self.read field.selectionStart)
        by_cases hlength : commit.1 = (web.measure field).1.lengthBefore
        · simp only [hlength, if_true, true_and]
          by_cases hmatches : commit.2 =
              ((web.measure field).2.index.offset field.selectionStart).1
          · rw [if_pos hmatches, if_pos hmatches]
            exact hread
          · rw [if_neg hmatches, if_neg hmatches]
            exact hread.applyInput field
        · simp only [hlength, false_and, if_false]
          exact hdone.applyInput field
      · exact h.uncommitted.applyInput field

theorem startComposition (h : Same web page) (field : Field) :
    Same (web.startComposition field) (page.handleCompositionStart field) := by
  obtain ⟨hmeasured, hsame, hlength, -⟩ := h.cleared.uncommitted.measure field
  rw [WriteCapture.startComposition, FieldTransient.handleCompositionStart]
  generalize WriteCapture.measure _ field = read at hmeasured hsame hlength ⊢
  generalize FieldTransient.measureTextField _ field = read' at hmeasured hsame ⊢
  obtain ⟨measured, next⟩ := read
  obtain ⟨measured', next'⟩ := read'
  simp only at hmeasured hsame hlength
  subst hmeasured
  have hstarted := (hsame.beginNumeric hlength (js "insertFromComposition") none).checkGap measured
  simp only [WriteCapture.checkGap_eq, FieldTransient.checkGap_eq] at hstarted ⊢
  exact ⟨hstarted.pending, rfl, hstarted.committed, hstarted.index, hstarted.length,
    hstarted.intent, hstarted.gap, hstarted.emitted⟩

theorem endComposition (h : Same web page) (field : Field) (data : JsString)
    (hpending : web.composition = none → web.pending = none) :
    Same (web.endComposition field data) (page.handleCompositionEnd field data) := by
  cases hstart : web.composition with
  | none =>
      have hstart' : page.composition = none := h.composition ▸ hstart
      have hnone : none = page.pending := h.pending ▸ (hpending hstart).symm
      simp only [WriteCapture.endComposition, FieldTransient.handleCompositionEnd, hstart, hstart']
      exact ⟨hnone, hstart'.symm, h.committed, h.index, h.length, h.intent, h.gap, h.emitted⟩
  | some start =>
      have hstart' : page.composition = some start := h.composition ▸ hstart
      have hended : Same { web with composition := none, pending := none }
          { page with composition := none, pending := none } :=
        ⟨rfl, rfl, h.committed, h.index, h.length, h.intent, h.gap, h.emitted⟩
      obtain ⟨happlied, hlength⟩ := hended.applyNumeric field
      simp only [WriteCapture.endComposition, FieldTransient.handleCompositionEnd, hstart, hstart']
      generalize WriteCapture.applyNumeric _ field = applied at happlied hlength ⊢
      generalize FieldTransient.applyTextIndex _ field = applied' at happlied ⊢
      obtain ⟨hmeasured, hsame, -, -⟩ := happlied.measure field
      obtain ⟨hbefore, hcaret, index, hindex, halike⟩ := happlied.measure_read hlength
      rw [hindex] at hsame
      have hread := halike.read field.selectionStart
      have hcommitted := (hsame.atIndex hread).commit
        (applied.index.length, (applied.index.offset field.selectionStart).1)
      have hfound := (halike.self.read' field.selectionStart).offset_eq field.selectionStart
      simp only [← hmeasured, hbefore, hcaret, ← hfound]
      by_cases hkept : (codePoints data).length = 0 ∧ applied.index.length = start.lengthBefore
      · rw [if_pos hkept, if_neg (by tauto)]
        exact hcommitted.emit none applied.index.length
      · rw [if_neg hkept, if_pos (by tauto)]
        exact (hcommitted.atIndex (hread.self.read field.selectionStart)).emit _ _

theorem hasGap (h : Same web page) (field : Field) :
    (web.hasGap field).1 = (page.hasUncapturedChange field).1 ∧
      Same (web.hasGap field).2 (page.hasUncapturedChange field).2 := by
  have hlength : decide (some ((codePoints field.value).length : Int) ≠ page.textLength) =
      decide (((codePoints field.value).length : Int) ≠ web.observedLength) := by
    simp only [h.length, ne_eq, Option.some.injEq]
  have hgap : (web.hasGap field).1 = (page.hasUncapturedChange field).1 := by
    rw [WriteCapture.hasGap, FieldTransient.hasUncapturedChange, hlength, h.gap]
  exact ⟨hgap, h.pending, h.composition, h.committed, h.index, h.length, h.intent, hgap,
    h.emitted⟩

theorem ticked (h : Same web page) (inputs cycle inputs' cycle' : Nat)
    (timers timers' : List (Nat × Nat)) :
    Same { web with inputs, cycle, timers }
      { page with inputs := inputs', cycle := cycle', timers := timers' } :=
  ⟨h.pending, h.composition, h.committed, h.index, h.length, h.intent, h.gap, h.emitted⟩

theorem before (h : Same web page) (field : Field) (inputType : JsString)
    (data : Option JsString) :
    Same (web.before field inputType data) (page.handleBeforeInput field inputType data) := by
  have hcomposing : page.composition.isSome = web.composition.isSome := by rw [h.composition]
  have hcommitting : page.compositionCommit.isSome = web.committed.isSome := by
    rw [← h.committed, Option.isSome_map]
  simp only [WriteCapture.before, FieldTransient.handleBeforeInput,
    FieldTransient.expireCaptureCycle, hcomposing, hcommitting]
  have hticked := h.cleared.ticked (web.inputs + 1) web.cycle (page.inputs + 1) (page.cycle + 1)
    web.timers ((page.inputs, page.cycle + 1) :: page.timers)
  by_cases hcomposition : web.composition.isSome
  · rw [if_pos hcomposition, if_pos hcomposition]
    exact hticked
  rw [if_neg hcomposition, if_neg hcomposition]
  by_cases hcommitted : (web.committed.isSome && includes inputType (js "Composition")) = true
  · rw [if_pos hcommitted, if_pos hcommitted]
    exact hticked
  rw [if_neg hcommitted, if_neg hcommitted]
  have hstarted := hticked.uncommitted.ticked (web.inputs + 1) (web.cycle + 1) (page.inputs + 1)
    (page.cycle + 1) ((web.inputs, web.cycle + 1) :: web.timers)
    ((page.inputs, page.cycle + 1) :: page.timers)
  obtain ⟨hmeasured, hsame, hlength, -⟩ := hstarted.measure field
  generalize WriteCapture.measure _ field = read at hmeasured hsame hlength ⊢
  generalize FieldTransient.measureTextField _ field = read' at hmeasured hsame ⊢
  have hbegun := (hsame.beginNumeric hlength inputType (data.map List.length)).checkGap read.1
  simp only [WriteCapture.checkGap_eq, FieldTransient.checkGap_eq, ← hmeasured] at hbegun ⊢
  exact ⟨rfl, hbegun.composition, hbegun.committed, hbegun.index, hbegun.length, hbegun.intent,
    hbegun.gap, hbegun.emitted⟩

end Same

namespace WriteCapture

variable {capture : WriteCapture} {field : Field}

/-- The counters and the timers. -/
def clock (capture : WriteCapture) : Nat × Nat × List (Nat × Nat) :=
  (capture.cycle, capture.inputs, capture.timers)

/-- A timer that fires changes nothing. -/
def Idle (capture : WriteCapture) : Prop :=
  capture.pending = none ∧ (capture.composition = none → capture.numericIntent = none)

theorem emitApplied_keeps (capture : WriteCapture) (mutation : Option Mutation)
    (lengthAfter : Int) :
    (capture.emitApplied mutation lengthAfter).clock = capture.clock ∧
      (capture.emitApplied mutation lengthAfter).pending = capture.pending ∧
      (capture.emitApplied mutation lengthAfter).numericIntent = capture.numericIntent ∧
      (capture.emitApplied mutation lengthAfter).committed = capture.committed := by
  cases mutation <;> exact ⟨rfl, rfl, rfl, rfl⟩

/-- Once an input has been applied no timer has anything left to do. -/
theorem applyInput_spec (capture : WriteCapture) (field : Field) :
    (capture.applyInput field).clock = capture.clock ∧
      (capture.applyInput field).pending = none ∧
      (capture.applyInput field).numericIntent = none := by
  rw [applyInput]
  split
  · obtain ⟨hclock, hpending, hintent, -⟩ := emitApplied_keeps
      ({ capture with pending := none }.applyNumeric field) (some (unknownMutation .unknown))
      ({ capture with pending := none }.applyNumeric field).index.length
    exact ⟨hclock, hpending, hintent⟩
  · obtain ⟨hclock, hpending, hintent, -⟩ := emitApplied_keeps _ _ _
    exact ⟨hclock, hpending, hintent⟩

theorem input_spec (hcomposition : capture.composition = none)
    (hsettled : capture.committed.isSome → capture.numericIntent = none) (field : Field)
    (inputType : Option JsString) (isComposing : Bool) :
    (capture.input field inputType isComposing).clock = capture.clock ∧
      (capture.input field inputType isComposing).pending = none ∧
      (capture.input field inputType isComposing).numericIntent = none := by
  have hnone : capture.composition.isSome ≠ true := by
    rw [hcomposition]
    exact Bool.false_ne_true
  rw [input, if_neg hnone]
  cases hcommitted : capture.committed with
  | none => exact applyInput_spec capture field
  | some commit =>
      have hintent : capture.numericIntent = none := hsettled (hcommitted ▸ rfl)
      simp only
      split
      · split
        · split
          · exact ⟨rfl, rfl, hintent⟩
          · exact applyInput_spec _ field
        · exact applyInput_spec _ field
      · exact applyInput_spec _ field

theorem startComposition_spec (capture : WriteCapture) (field : Field) :
    (capture.startComposition field).clock = capture.clock ∧
      (capture.startComposition field).Idle ∧
      (capture.startComposition field).committed = none := by
  simp only [startComposition, checkGap_eq]
  exact ⟨rfl, ⟨rfl, fun hnone => nomatch hnone⟩, rfl⟩

theorem endComposition_spec {start : Measured} (hstart : capture.composition = some start)
    (field : Field) (data : JsString) :
    (capture.endComposition field data).clock = capture.clock ∧
      (capture.endComposition field data).pending = none ∧
      (capture.endComposition field data).numericIntent = none := by
  simp only [endComposition, hstart]
  split
  · exact ⟨rfl, rfl, rfl⟩
  · obtain ⟨hclock, hpending, hintent, -⟩ := emitApplied_keeps _ _ _
    exact ⟨hclock, hpending, hintent⟩

/-- An idle capture loses a timer and nothing else. -/
theorem timer_idle (hidle : capture.Idle) (number : Nat) :
    capture.timer number =
      { capture with timers := capture.timers.filter (·.1 ≠ number) } := by
  have hintent : (if capture.composition.isSome then capture.numericIntent else none) =
      capture.numericIntent := by
    cases hcomposition : capture.composition with
    | none => exact (hidle.2 hcomposition).symm
    | some start => rfl
  simp only [timer, hintent, ← hidle.1, ite_self]

theorem before_spec (capture : WriteCapture) (field : Field) (inputType : JsString)
    (data : Option JsString) :
    let next := capture.before field inputType data
    (next.clock = (capture.cycle, capture.inputs + 1, capture.timers) ∧ next.pending = none ∧
      next.numericIntent = capture.numericIntent ∧ next.composition = capture.composition ∧
      next.committed = capture.committed ∧
      (capture.composition = none → capture.committed.isSome)) ∨
    (next.clock = (capture.cycle + 1, capture.inputs + 1,
        (capture.inputs, capture.cycle + 1) :: capture.timers) ∧ next.committed = none) := by
  simp only [before, checkGap_eq]
  by_cases hcomposition : capture.composition.isSome
  · rw [if_pos hcomposition]
    refine .inl ⟨rfl, rfl, rfl, rfl, rfl, fun hnone => ?_⟩
    rw [hnone] at hcomposition
    cases hcomposition
  rw [if_neg hcomposition]
  by_cases hcommitted : (capture.committed.isSome && includes inputType (js "Composition")) = true
  · rw [if_pos hcommitted]
    exact .inl ⟨rfl, rfl, rfl, rfl, rfl, fun _ => (Bool.and_eq_true _ _ ▸ hcommitted).1⟩
  · rw [if_neg hcommitted]
    exact .inr ⟨rfl, rfl⟩

end WriteCapture

namespace FieldTransient

variable {transient : FieldTransient} {field : Field}

def clock (transient : FieldTransient) : Nat × Nat × List (Nat × Nat) :=
  (transient.cycle, transient.inputs, transient.timers)

theorem timer_idle (hpending : transient.pending = none)
    (hidle : transient.composition = none → transient.textIntent = none) (number : Nat) :
    transient.timer number =
      { transient with timers := transient.timers.filter (·.1 ≠ number) } := by
  have hintent : (if transient.composition.isSome then transient.textIntent else none) =
      transient.textIntent := by
    cases hcomposition : transient.composition with
    | none => exact (hidle hcomposition).symm
    | some start => rfl
  simp only [timer, hintent, ← hpending, ite_self]

theorem clock_emitTextMutation (transient : FieldTransient) (mutation : Option Mutation)
    (lengthAfter : Int) :
    (transient.emitTextMutation mutation lengthAfter).clock = transient.clock := by
  cases mutation <;> rfl

theorem clock_applyInput (transient : FieldTransient) (field : Field) :
    (transient.applyInput field).clock = transient.clock := by
  rw [applyInput]
  exact clock_emitTextMutation _ _ _

theorem clock_handleBeforeInput (transient : FieldTransient) (field : Field)
    (inputType : JsString) (data : Option JsString) :
    (transient.handleBeforeInput field inputType data).clock =
      (transient.cycle + 1, transient.inputs + 1,
        (transient.inputs, transient.cycle + 1) :: transient.timers) := by
  simp only [handleBeforeInput, checkGap_eq]
  split
  · rfl
  split
  · rfl
  · rfl

theorem clock_handleInput (transient : FieldTransient) (field : Field)
    (inputType : Option JsString) (isComposing : Bool) :
    (transient.handleInput field inputType isComposing).clock = transient.clock := by
  rw [handleInput]
  split
  · rfl
  split
  · exact clock_applyInput _ _
  · split
    · simp only
      split
      · rfl
      · exact clock_applyInput _ _
    · exact clock_applyInput _ _

theorem clock_handleCompositionStart (transient : FieldTransient) (field : Field) :
    (transient.handleCompositionStart field).clock = transient.clock := by
  simp only [handleCompositionStart, checkGap_eq]
  rfl

theorem clock_handleCompositionEnd (transient : FieldTransient) (field : Field)
    (data : JsString) :
    (transient.handleCompositionEnd field data).clock = transient.clock := by
  rw [handleCompositionEnd]
  split
  · rfl
  · exact clock_emitTextMutation _ _ _

end FieldTransient

/-- The captures know the same, and where a timer matters the same timers fire. -/
structure Parity (web : WriteCapture) (page : FieldTransient) : Prop extends Same web page where
  inputs : web.inputs = page.inputs
  cycles : ∀ timer ∈ web.timers, timer.2 ≤ web.cycle
  cycles' : ∀ timer ∈ page.timers, timer.2 ≤ page.cycle
  settled : web.committed.isSome → web.numericIntent = none
  timers : ¬ web.Idle → ∀ number,
    (number, web.cycle) ∈ web.timers ↔ (number, page.cycle) ∈ page.timers

namespace Parity

variable {web web' : WriteCapture} {page page' : FieldTransient}

theorem attach (field : Field) : Parity (.attach field) (.register field) where
  pending := rfl
  composition := rfl
  committed := rfl
  index := ⟨_, rfl, .reset _ _ field.value⟩
  length := rfl
  intent := rfl
  gap := rfl
  emitted := rfl
  inputs := rfl
  cycles := fun _ hmem => absurd hmem List.not_mem_nil
  cycles' := fun _ hmem => absurd hmem List.not_mem_nil
  settled := fun _ => rfl
  timers := fun hbusy => absurd ⟨rfl, fun _ => rfl⟩ hbusy

/-- A step that leaves the clocks alone. -/
theorem keep (h : Parity web page) (hsame : Same web' page') (hclock : web'.clock = web.clock)
    (hclock' : page'.clock = page.clock)
    (hsettled : web'.committed.isSome → web'.numericIntent = none)
    (hidle : web.Idle → web'.Idle) : Parity web' page' := by
  simp only [WriteCapture.clock, FieldTransient.clock, Prod.mk.injEq] at hclock hclock'
  obtain ⟨hcycle, hinputs, htimers⟩ := hclock
  obtain ⟨hcycle', hinputs', htimers'⟩ := hclock'
  refine ⟨hsame, ?_, ?_, ?_, hsettled, ?_⟩
  · rw [hinputs, hinputs', h.inputs]
  · rw [htimers, hcycle]
    exact h.cycles
  · rw [htimers', hcycle']
    exact h.cycles'
  · rw [htimers, hcycle, htimers', hcycle']
    exact fun hbusy => h.timers fun hidle' => hbusy (hidle hidle')

theorem before (h : Parity web page) (field : Field) (inputType : JsString)
    (data : Option JsString) :
    Parity (web.before field inputType data) (page.handleBeforeInput field inputType data) := by
  have hsame := h.toSame.before field inputType data
  have hclock' := page.clock_handleBeforeInput field inputType data
  simp only [FieldTransient.clock, Prod.mk.injEq] at hclock'
  obtain ⟨hcycle', hinputs', htimers'⟩ := hclock'
  have hcycles' : ∀ timer ∈ (page.handleBeforeInput field inputType data).timers,
      timer.2 ≤ (page.handleBeforeInput field inputType data).cycle := by
    intro timer hmem
    rw [htimers', List.mem_cons] at hmem
    rw [hcycle']
    rcases hmem with rfl | hmem
    · exact Nat.le_refl _
    · exact Nat.le_succ_of_le (h.cycles' timer hmem)
  rcases web.before_spec field inputType data with
    ⟨hclock, hpending, hintent, hcomposition, hcommitted, hended⟩ | ⟨hclock, hcommitted⟩
  all_goals
    simp only [WriteCapture.clock, Prod.mk.injEq] at hclock
    obtain ⟨hcycle, hinputs, htimers⟩ := hclock
  · refine ⟨hsame, ?_, ?_, hcycles', ?_, fun hbusy => absurd ⟨hpending, fun hnone => ?_⟩ hbusy⟩
    · rw [hinputs, hinputs', h.inputs]
    · rw [htimers, hcycle]
      exact h.cycles
    · rw [hcommitted, hintent]
      exact h.settled
    · rw [hcomposition] at hnone
      rw [hintent]
      exact h.settled (hended hnone)
  · refine ⟨hsame, ?_, ?_, hcycles', ?_, fun _ number => ?_⟩
    · rw [hinputs, hinputs', h.inputs]
    · intro timer hmem
      rw [htimers, List.mem_cons] at hmem
      rw [hcycle]
      rcases hmem with rfl | hmem
      · exact Nat.le_refl _
      · exact Nat.le_succ_of_le (h.cycles timer hmem)
    · intro hsome
      rw [hcommitted] at hsome
      cases hsome
    · -- No older timer is for the cycle that begins.
      have hnew : (number, web.cycle + 1) ∉ web.timers := fun hmem =>
        Nat.not_succ_le_self _ (h.cycles _ hmem)
      have hnew' : (number, page.cycle + 1) ∉ page.timers := fun hmem =>
        Nat.not_succ_le_self _ (h.cycles' _ hmem)
      rw [htimers, hcycle, htimers', hcycle', List.mem_cons, List.mem_cons, Prod.mk.injEq,
        Prod.mk.injEq, h.inputs]
      tauto

/-- A timer leaves the list of timers. -/
theorem dropTimer (h : Parity web page) (number : Nat) :
    Parity { web with timers := web.timers.filter (·.1 ≠ number) }
      { page with timers := page.timers.filter (·.1 ≠ number) } where
  toSame := h.toSame.ticked web.inputs web.cycle page.inputs page.cycle _ _
  inputs := h.inputs
  cycles := fun timer hmem => h.cycles timer (List.mem_of_mem_filter hmem)
  cycles' := fun timer hmem => h.cycles' timer (List.mem_of_mem_filter hmem)
  settled := h.settled
  timers := fun hbusy other => by
    simp only [List.mem_filter, h.timers hbusy other]

theorem timer (h : Parity web page) (number : Nat) :
    Parity (web.timer number) (page.timer number) := by
  have hdropped := h.dropTimer number
  by_cases hidle : web.Idle
  · rw [WriteCapture.timer_idle hidle, FieldTransient.timer_idle]
    · exact hdropped
    · rw [← h.pending]
      exact hidle.1
    · rw [← h.composition, ← h.intent]
      exact hidle.2
  have hfires : page.timers.contains (number, page.cycle) =
      web.timers.contains (number, web.cycle) := by
    rw [Bool.eq_iff_iff, List.contains_iff_mem, List.contains_iff_mem]
    exact (h.timers hidle number).symm
  rw [WriteCapture.timer, FieldTransient.timer, hfires]
  split
  · refine hdropped.keep ?_ rfl rfl ?_ ?_
    · refine ⟨rfl, h.composition, h.committed, h.index, h.length, ?_, h.gap, h.emitted⟩
      simp only [h.composition, h.intent]
    · intro hsome
      rw [h.settled hsome, ite_self]
    · refine fun _ => ⟨rfl, fun hnone => ?_⟩
      rw [if_neg]
      rw [hnone]
      exact Bool.false_ne_true
  · exact hdropped

theorem input (h : Parity web page) (field : Field) (inputType : Option JsString)
    (isComposing : Bool) :
    Parity (web.input field inputType isComposing)
      (page.handleInput field inputType isComposing) := by
  have hsame := h.toSame.input field inputType isComposing
  have hclock' := page.clock_handleInput field inputType isComposing
  cases hcomposition : web.composition with
  | some start =>
      have hkept : web.input field inputType isComposing = web := by
        rw [WriteCapture.input, hcomposition, Option.isSome_some, if_pos rfl]
      rw [hkept] at hsame ⊢
      exact h.keep hsame rfl hclock' h.settled id
  | none =>
      obtain ⟨hclock, hpending, hintent⟩ :=
        WriteCapture.input_spec hcomposition h.settled field inputType isComposing
      exact h.keep hsame hclock hclock' (fun _ => hintent) fun _ => ⟨hpending, fun _ => hintent⟩

theorem startComposition (h : Parity web page) (field : Field) :
    Parity (web.startComposition field) (page.handleCompositionStart field) := by
  obtain ⟨hclock, hidle, hcommitted⟩ := web.startComposition_spec field
  apply h.keep (h.toSame.startComposition field) hclock (page.clock_handleCompositionStart field)
  · intro hsome
    rw [hcommitted] at hsome
    cases hsome
  · exact fun _ => hidle

theorem endComposition (h : Parity web page) (field : Field) (data : JsString)
    (hpending : web.composition = none → web.pending = none) :
    Parity (web.endComposition field data) (page.handleCompositionEnd field data) := by
  have hsame := h.toSame.endComposition field data hpending
  have hclock' := page.clock_handleCompositionEnd field data
  cases hcomposition : web.composition with
  | none =>
      have hended : web.endComposition field data = { web with composition := none, pending := none } := by
        rw [WriteCapture.endComposition, hcomposition]
      rw [hended] at hsame ⊢
      exact h.keep hsame rfl hclock' h.settled fun hidle => ⟨rfl, fun _ => hidle.2 hcomposition⟩
  | some start =>
      obtain ⟨hclock, hidle, hintent⟩ :=
        WriteCapture.endComposition_spec hcomposition field data
      exact h.keep hsame hclock hclock' (fun _ => hintent) fun _ => ⟨hidle, fun _ => hintent⟩

end Parity

/-! ## Runs -/

/-- A field with both captures. -/
structure Captures where
  field : Field
  web : WriteCapture
  page : FieldTransient

namespace Captures

def start (field : Field) : Captures := ⟨field, .attach field, .register field⟩

def step (captures : Captures) (event : FieldEvent) : Option Captures :=
  let field := match event with
    | .change field => field
    | _ => captures.field
  some ⟨field, captures.web.handle captures.field event, captures.page.handle captures.field event⟩

/-- The events of a field that keeps the focus. -/
def Focused (_ : Captures) : FieldEvent → Prop
  | .blur => False
  | _ => True

/-- A composition ends only if it has begun, or no `beforeinput` waits for its `input`. -/
def EndsInOrder (captures : Captures) : FieldEvent → Prop
  | .compositionend _ => captures.web.composition.isSome ∨ captures.web.pending.isNone
  | _ => True

instance (captures : Captures) (event : FieldEvent) : Decidable (captures.Focused event) :=
  match event with
  | .blur => .isFalse id
  | .change _ | .beforeinput .. | .input .. | .compositionstart | .compositionend _ | .timer _
  | .hasGap => .isTrue trivial

instance (captures : Captures) (event : FieldEvent) : Decidable (captures.EndsInOrder event) :=
  match event with
  | .compositionend _ => inferInstanceAs (Decidable (_ ∨ _))
  | .change _ | .beforeinput .. | .input .. | .compositionstart | .blur | .timer _ | .hasGap =>
      .isTrue trivial

def AgreesOn (captures : Captures) : Prop :=
  captures.web.emitted = captures.page.sent ∧
    (captures.web.hasGap captures.field).1 =
      (captures.page.hasUncapturedChange captures.field).1

theorem parity_step {captures next : Captures} {event : FieldEvent}
    (h : Parity captures.web captures.page) (hfocused : captures.Focused event)
    (hends : captures.EndsInOrder event) (hstep : captures.step event = some next) :
    Parity next.web next.page := by
  cases hstep
  cases event with
  | change field => exact h
  | beforeinput inputType data => exact h.before captures.field inputType data
  | input inputType isComposing => exact h.input captures.field inputType isComposing
  | compositionstart => exact h.startComposition captures.field
  | compositionend data =>
      apply h.endComposition captures.field data
      intro hnone
      rw [EndsInOrder, hnone] at hends
      simpa using hends
  | blur => exact hfocused.elim
  | timer number => exact h.timer number
  | hasGap => exact h.keep (h.toSame.hasGap captures.field).2 rfl rfl h.settled id

/-- Both captures emit the same mutations and answer alike whether there is a gap, as long
as compositions end in order. -/
theorem captures_agree_run {field : Field} {captures : Captures}
    (run : Run step (fun captures event => captures.Focused event ∧ captures.EndsInOrder event)
      (start field) captures) : captures.AgreesOn := by
  have hparity : Parity captures.web captures.page := by
    apply run.invariant (I := fun captures => Parity captures.web captures.page)
    · exact fun _ _ _ h hholds hstep => parity_step h hholds.1 hholds.2 hstep
    · exact .attach field
  exact ⟨hparity.emitted, (hparity.toSame.hasGap captures.field).1⟩

def composedField : Field := ⟨js "xy", 2, 2, Nat.le_refl 2⟩

/-- A letter is typed, and another one composed. -/
def typing : List FieldEvent :=
  [.beforeinput (js "insertText") (some (js "x")), .change .typed,
    .input (some (js "insertText")) false, .timer 0, .compositionstart,
    .change composedField, .compositionend (js "y")]

theorem agrees_typing : ∃ captures : Captures,
    captures.web.emitted.length = 2 ∧ captures.AgreesOn := by
  have hruns : ((runAll step (fun captures event =>
      captures.Focused event ∧ captures.EndsInOrder event) (start .empty) typing).any
      fun captures => captures.web.emitted.length = 2) = true := by decide +kernel
  obtain ⟨captures, hrun, hemitted⟩ := (Option.any_eq_true _ _).1 hruns
  exact ⟨captures, of_decide_eq_true hemitted,
    captures_agree_run (Run.of_runAll hrun)⟩

/-- A composition that had begun before the capture ends between a `beforeinput` and its
`input`. -/
def endedBetween : List FieldEvent :=
  [.beforeinput (js "insertText") (some (js "x")), .change .typed,
    .compositionend (js "x"), .input (some (js "insertText")) false]

theorem not_agrees_endedBetween : ¬ ∀ (field : Field) (captures : Captures),
    Run step Focused (start field) captures → captures.AgreesOn := by
  intro hagrees
  have hruns : ((runAll step Focused (start .empty) endedBetween).any
      fun captures => captures.web.emitted ≠ captures.page.sent) = true := by decide +kernel
  obtain ⟨captures, hrun, hdiffer⟩ := (Option.any_eq_true _ _).1 hruns
  exact of_decide_eq_true hdiffer (hagrees .empty captures (Run.of_runAll hrun)).1

end Captures

end Pmbah.Browser
