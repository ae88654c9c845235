import Pmbah.Browser.NumericTextInput
import Pmbah.Format.Length

/-!
# Mutations from measurements

What an input changed is worked out from lengths, selection and caret in code
points.  A size or place that these do not settle is left unknown.
-/

namespace Pmbah.Browser

open Js Format

/-- A measurement of a text field before it changes. -/
structure Measured where
  lengthBefore : Int
  selectionStartCodepoints : Option Int
  selectedCodepoints : Option Int

structure MeasuredInputIntent extends Measured where
  inputType : JsString
  dataCodepoints : Option Nat

/-- An edit with what is known of its place and sizes. -/
structure Mutation where
  op : Operation
  pos : Option Int
  delLen : Option Int
  insLen : Option Int
  source : Source
  deriving DecidableEq

def typingTypes : List JsString :=
  [js "insertText", js "insertLineBreak", js "insertParagraph", js "deleteContentBackward",
    js "deleteContentForward", js "deleteWordBackward", js "deleteWordForward",
    js "deleteSoftLineBackward", js "deleteSoftLineForward", js "deleteHardLineBackward",
    js "deleteHardLineForward"]

def sourceFromInputType (inputType : JsString) : Source :=
  if typingTypes.contains inputType then .typing
  else if [js "insertFromPaste", js "insertFromPasteAsQuotation"].contains inputType then .paste
  else if inputType = js "deleteByCut" then .cut
  else if [js "insertFromDrop", js "deleteByDrag"].contains inputType then .drop
  else if [js "insertCompositionText", js "insertFromComposition"].contains inputType then .ime
  else if [js "insertReplacementText", js "insertFromYank"].contains inputType then .autocomplete
  else .unknown

def unknownMutation (source : Source) : Mutation :=
  { op := .replace, pos := none, delLen := none, insLen := none, source }

def lineBreakInsertedCodepoints (inputType : JsString) (dataCodepoints : Nat) : Option Nat :=
  if inputType = js "insertParagraph" ∨ inputType = js "insertLineBreak" then
    some (max 1 dataCodepoints)
  else none

/-- Inputs that insert at the selection, so that the lengths give the inserted size. -/
def selectionTypes : List JsString :=
  [js "insertText", js "insertFromPaste", js "insertFromPasteAsQuotation", js "insertFromDrop",
    js "insertFromYank"]

def insertedCodepoints (intent : MeasuredInputIntent) (delta : Int) : Option Int :=
  ((lineBreakInsertedCodepoints intent.inputType (intent.dataCodepoints.getD 0)).or
      intent.dataCodepoints).map Int.ofNat |>.or
    (if selectionTypes.contains intent.inputType then
      intent.selectedCodepoints.map (delta + ·)
    else none)

/-- Where an insertion starts: a text replacement may be away from the selection. -/
def insertedPos (intent : MeasuredInputIntent) (inserted : Int) (caretAfter : Option Int) :
    Option Int :=
  if intent.inputType = js "insertReplacementText" then caretAfter.map (· - inserted)
  else intent.selectionStartCodepoints

/-- Inserted and deleted size agree with the selection, the caret and the length before. -/
def InsertionFits (intent : MeasuredInputIntent) (inserted deleted : Int)
    (caretAfter : Option Int) : Prop :=
  0 < inserted ∧ 0 ≤ deleted ∧ deleted ≤ intent.lengthBefore ∧
    (intent.inputType = js "insertReplacementText" ∨ intent.selectedCodepoints = none ∨
      intent.selectedCodepoints = some deleted) ∧
    ∀ pos ∈ insertedPos intent inserted caretAfter, 0 ≤ pos ∧
      pos + deleted ≤ intent.lengthBefore ∧ ∀ caret ∈ caretAfter, caret = pos + inserted

instance (intent : MeasuredInputIntent) (inserted deleted : Int) (caretAfter : Option Int) :
    Decidable (InsertionFits intent inserted deleted caretAfter) := by
  unfold InsertionFits
  infer_instance

def deriveMutationFromMeasuredInput (intent : MeasuredInputIntent) (lengthAfter : Int)
    (caretAfter : Option Int) : Option Mutation :=
  let delta := lengthAfter - intent.lengthBefore
  let source := sourceFromInputType intent.inputType
  if startsWith intent.inputType (js "format") ∧ delta = 0 then none
  else if startsWith intent.inputType (js "history") then some (unknownMutation .unknown)
  else if startsWith intent.inputType (js "delete") ∧ delta < 0 then
    let pos := caretAfter.filter fun caret => 0 ≤ caret && caret - delta ≤ intent.lengthBefore
    some { op := .delete, pos, delLen := some (-delta), insLen := some 0, source }
  else
    let inserted := if startsWith intent.inputType (js "insert") then insertedCodepoints intent delta
      else none
    match inserted with
    | some inserted =>
        let deleted := inserted - delta
        if InsertionFits intent inserted deleted caretAfter then
          some { op := if 0 < deleted then .replace else .insert
                 pos := insertedPos intent inserted caretAfter, delLen := some deleted,
                 insLen := some inserted, source }
        else some (unknownMutation source)
    | none => some (unknownMutation source)

/-! ## Rich text -/

structure RichMeasurement where
  length : Option Int
  start : Option Int
  stop : Option Int

inductive RichKind where
  | insert
  | delete
  | history
  | format
  | unknown
  deriving DecidableEq

structure RichChange extends RichMeasurement where
  source : Source
  kind : RichKind

def operationFor (insLen delLen : Int) : Operation :=
  if 0 < delLen ∧ insLen = 0 then .delete
  else if 0 < delLen ∧ 0 < insLen then .replace
  else .insert

/-- A net delta establishes neither size of a replacement. -/
def netLengthChangeMutation (_lengthBefore _lengthAfter : Int) : Mutation :=
  unknownMutation .unknown

def richMutation (before : RichChange) (after : RichMeasurement) : Option Mutation :=
  match before.length, after.length with
  | some lengthBefore, some lengthAfter =>
      let delta := lengthAfter - lengthBefore
      let net := { netLengthChangeMutation lengthBefore lengthAfter with source := before.source }
      if before.kind = .format ∧ delta = 0 then none
      else match before.start, before.stop with
        | some start, some stop =>
            let delLen := stop - start
            let insLen := delta + delLen
            if (before.kind = .insert ∨ before.kind = .delete) ∧ 0 ≤ insLen ∧
                (before.kind ≠ .delete ∨ insLen = 0) ∧ after.start = some (start + insLen) ∧
                after.stop = after.start then
              if insLen = 0 ∧ delLen = 0 then none
              else some { op := operationFor insLen delLen, pos := some start,
                          delLen := some delLen, insLen := some insLen, source := before.source }
            else some net
        | _, _ => some net
  | _, _ => some (unknownMutation before.source)

/-! ## Honesty -/

/-- What is known of a mutation agrees with the lengths before and after it. -/
structure Honest (lengthBefore lengthAfter : Int) (mutation : Mutation) : Prop where
  pos_nonneg : ∀ pos ∈ mutation.pos, 0 ≤ pos
  del_nonneg : ∀ del ∈ mutation.delLen, 0 ≤ del ∧ del ≤ lengthBefore
  ins_nonneg : ∀ ins ∈ mutation.insLen, 0 ≤ ins ∧ ins ≤ lengthAfter
  sizes : sizesAgree mutation.op (mutation.delLen.map Int.toNat) (mutation.insLen.map Int.toNat)
  delta : ∀ del ∈ mutation.delLen, ∀ ins ∈ mutation.insLen, ins - del = lengthAfter - lengthBefore
  within : ∀ pos ∈ mutation.pos, ∃ del ∈ mutation.delLen, pos + del ≤ lengthBefore

/-- What is known of the sizes stays right without the place. -/
theorem Honest.unplaced {lengthBefore lengthAfter : Int} {mutation : Mutation}
    (h : Honest lengthBefore lengthAfter mutation) :
    Honest lengthBefore lengthAfter { mutation with pos := none } where
  pos_nonneg := nofun
  del_nonneg := h.del_nonneg
  ins_nonneg := h.ins_nonneg
  sizes := h.sizes
  delta := h.delta
  within := nofun

theorem honest_unknown (lengthBefore lengthAfter : Int) (source : Source) :
    Honest lengthBefore lengthAfter (unknownMutation source) where
  pos_nonneg := nofun
  del_nonneg := nofun
  ins_nonneg := nofun
  sizes := ⟨nofun, nofun⟩
  delta := nofun
  within := nofun

/-- A mutation that gives both sizes. -/
theorem honest_of_sizes {lengthBefore lengthAfter del ins : Int} {op : Operation}
    {pos : Option Int} {source : Source} (hdel : 0 ≤ del) (hins : 0 ≤ ins)
    (hbefore : del ≤ lengthBefore) (hdelta : ins - del = lengthAfter - lengthBefore)
    (hpos : ∀ place ∈ pos, 0 ≤ place ∧ place + del ≤ lengthBefore)
    (hop : sizesAgree op (some del.toNat) (some ins.toNat)) :
    Honest lengthBefore lengthAfter
      { op, pos, delLen := some del, insLen := some ins, source } where
  pos_nonneg place hplace := (hpos place hplace).1
  del_nonneg := by
    intro _ hmem
    cases hmem
    exact ⟨hdel, hbefore⟩
  ins_nonneg := by
    intro _ hmem
    cases hmem
    exact ⟨hins, by omega⟩
  sizes := hop
  delta := by
    intro _ hmem _ hmem'
    cases hmem
    cases hmem'
    exact hdelta
  within place hplace := ⟨del, rfl, (hpos place hplace).2⟩

theorem deriveMutation_eq_none {intent : MeasuredInputIntent} {lengthAfter : Int}
    {caretAfter : Option Int}
    (h : deriveMutationFromMeasuredInput intent lengthAfter caretAfter = none) :
    startsWith intent.inputType (js "format") = true ∧ lengthAfter = intent.lengthBefore := by
  rw [deriveMutationFromMeasuredInput] at h
  simp only at h
  by_cases hformat : startsWith intent.inputType (js "format") = true ∧
      lengthAfter - intent.lengthBefore = 0
  · exact ⟨hformat.1, by omega⟩
  · rw [if_neg hformat] at h
    split at h
    · cases h
    split at h
    · cases h
    split at h
    · split at h <;> cases h
    · cases h

/-- Nothing is left out but a format that keeps the length, and what is known is right. -/
theorem deriveMutation_honest (intent : MeasuredInputIntent) {lengthAfter : Int}
    (hafter : 0 ≤ lengthAfter) (caretAfter : Option Int) :
    match deriveMutationFromMeasuredInput intent lengthAfter caretAfter with
    | none => startsWith intent.inputType (js "format") = true ∧ lengthAfter = intent.lengthBefore
    | some mutation => Honest intent.lengthBefore lengthAfter mutation := by
  by_cases hnone : deriveMutationFromMeasuredInput intent lengthAfter caretAfter = none
  · rw [hnone]
    exact deriveMutation_eq_none hnone
  rw [deriveMutationFromMeasuredInput] at hnone ⊢
  simp only at hnone ⊢
  by_cases hformat : startsWith intent.inputType (js "format") = true ∧
      lengthAfter - intent.lengthBefore = 0
  · exact absurd (if_pos hformat) hnone
  rw [if_neg hformat]
  by_cases hhistory : startsWith intent.inputType (js "history") = true
  · rw [if_pos hhistory]
    exact honest_unknown _ _ _
  rw [if_neg hhistory]
  by_cases hdelete : startsWith intent.inputType (js "delete") = true ∧
      lengthAfter - intent.lengthBefore < 0
  · rw [if_pos hdelete]
    apply honest_of_sizes
    · omega
    · omega
    · omega
    · omega
    · intro place hplace
      obtain ⟨-, hfits⟩ := Option.filter_eq_some_iff.1 hplace
      simp only [Bool.and_eq_true, decide_eq_true_eq] at hfits
      omega
    · refine ⟨?_, ?_⟩
      · intro del hdel
        cases hdel
        omega
      · intro ins hins
        cases hins
        rfl
  rw [if_neg hdelete]
  cases (if startsWith intent.inputType (js "insert") = true then
    insertedCodepoints intent (lengthAfter - intent.lengthBefore) else none) with
  | none => exact honest_unknown _ _ _
  | some inserted =>
      by_cases hfits : InsertionFits intent inserted
          (inserted - (lengthAfter - intent.lengthBefore)) caretAfter
      · simp only [if_pos hfits]
        obtain ⟨hpositive, hdeleted, hle, -, hpos⟩ := hfits
        apply honest_of_sizes hdeleted (by omega) hle (by omega)
        · intro place hplace
          exact ⟨(hpos place hplace).1, (hpos place hplace).2.1⟩
        · by_cases hsome : 0 < inserted - (lengthAfter - intent.lengthBefore)
          · rw [if_pos hsome]
            simp only [sizesAgree, Option.mem_some_iff, forall_eq']
            omega
          · rw [if_neg hsome]
            simp only [sizesAgree, Option.mem_some_iff, forall_eq']
            omega
      · simp only [if_neg hfits]
        exact honest_unknown _ _ _

/-- The offsets of a measurement lie within its length. -/
def RichMeasurement.InRange (measured : RichMeasurement) : Prop :=
  ∀ length ∈ measured.length, 0 ≤ length ∧ ∀ start ∈ measured.start, ∀ stop ∈ measured.stop,
    0 ≤ start ∧ start ≤ stop ∧ stop ≤ length

theorem richMutation_honest (before : RichChange) (after : RichMeasurement)
    (hbefore : before.InRange) (hafter : after.InRange) :
    match richMutation before after with
    | none => after.length = before.length ∧ (before.kind = .format ∨ before.start = before.stop)
    | some mutation => ∀ lengthBefore ∈ before.length, ∀ lengthAfter ∈ after.length,
        Honest lengthBefore lengthAfter mutation := by
  rw [richMutation]
  cases hlength : before.length with
  | none => exact nofun
  | some lengthBefore =>
  cases hlengthAfter : after.length with
  | none => exact fun _ _ => nofun
  | some lengthAfter =>
      have hunknown : ∀ source : Source, ∀ lengthBefore' ∈ some lengthBefore,
          ∀ lengthAfter' ∈ some lengthAfter,
            Honest lengthBefore' lengthAfter' (unknownMutation source) :=
        fun source _ _ _ _ => honest_unknown _ _ source
      simp only
      by_cases hformat : before.kind = .format ∧ lengthAfter - lengthBefore = 0
      · rw [if_pos hformat]
        exact ⟨congrArg some (by omega), .inl hformat.1⟩
      rw [if_neg hformat]
      cases hstart : before.start with
      | none => exact hunknown before.source
      | some start =>
      cases hstop : before.stop with
      | none => exact hunknown before.source
      | some stop =>
          obtain ⟨hnonneg, hrange⟩ := hbefore lengthBefore hlength
          obtain ⟨hzero, hle, hend⟩ := hrange start hstart stop hstop
          have hafterNonneg := (hafter lengthAfter hlengthAfter).1
          by_cases hfits : (before.kind = .insert ∨ before.kind = .delete) ∧
              0 ≤ lengthAfter - lengthBefore + (stop - start) ∧
              (before.kind ≠ .delete ∨ lengthAfter - lengthBefore + (stop - start) = 0) ∧
              after.start = some (start + (lengthAfter - lengthBefore + (stop - start))) ∧
              after.stop = after.start
          · simp only [if_pos hfits]
            by_cases hnothing : lengthAfter - lengthBefore + (stop - start) = 0 ∧ stop - start = 0
            · rw [if_pos hnothing]
              exact ⟨congrArg some (by omega), .inr (congrArg some (by omega))⟩
            · rw [if_neg hnothing]
              intro _ hmem _ hmem'
              cases hmem
              cases hmem'
              apply honest_of_sizes (by omega) hfits.2.1 (by omega) (by omega)
              · intro place hplace
                cases hplace
                omega
              · rw [operationFor]
                by_cases hdelete : 0 < stop - start ∧
                    lengthAfter - lengthBefore + (stop - start) = 0
                · rw [if_pos hdelete]
                  simp only [sizesAgree, Option.mem_some_iff, forall_eq']
                  omega
                rw [if_neg hdelete]
                by_cases hreplace : 0 < stop - start ∧
                    0 < lengthAfter - lengthBefore + (stop - start)
                · rw [if_pos hreplace]
                  simp only [sizesAgree, Option.mem_some_iff, forall_eq']
                  omega
                · rw [if_neg hreplace]
                  simp only [sizesAgree, Option.mem_some_iff, forall_eq']
                  omega
          · simp only [if_neg hfits]
            exact hunknown before.source

/-- Without both lengths nothing is known of a rich change. -/
theorem richMutation_unmeasured {before : RichChange} {after : RichMeasurement}
    (h : before.length = none ∨ after.length = none) :
    richMutation before after = some (unknownMutation before.source) := by
  rcases h with hnone | hnone
  · rw [richMutation, hnone]
  · rw [richMutation, hnone]
    cases before.length <;> rfl

/-- The event of a mutation at a place and time of a log. -/
def Mutation.event (mutation : Mutation) (seq t : Nat) : BufferMutation where
  seq
  t
  op := mutation.op
  pos := mutation.pos.map Int.toNat
  delLen := mutation.delLen.map Int.toNat
  insLen := mutation.insLen.map Int.toNat
  source := mutation.source

/-- An honest mutation of a text whose length an event can give makes an event. -/
theorem Honest.valid {lengthBefore lengthAfter : Int} {mutation : Mutation}
    (h : Honest lengthBefore lengthAfter mutation) (hbefore : lengthBefore ≤ maxIntegerFieldValue)
    (hafter : lengthAfter ≤ maxIntegerFieldValue) {seq t : Nat}
    (hseq : seq ≤ maxIntegerFieldValue) (ht : t ≤ maxTimeFieldValue) :
    (mutation.event seq t).Valid := by
  refine ⟨hseq, ht, ?_, ?_, ?_, h.sizes⟩
  · intro place hplace
    obtain ⟨pos, hpos, rfl⟩ := Option.map_eq_some_iff.1 hplace
    obtain ⟨del, hdel, hle⟩ := h.within pos hpos
    have hnonneg := (h.del_nonneg del hdel).1
    omega
  · intro size hsize
    obtain ⟨del, hdel, rfl⟩ := Option.map_eq_some_iff.1 hsize
    have hle := (h.del_nonneg del hdel).2
    omega
  · intro size hsize
    obtain ⟨ins, hins, rfl⟩ := Option.map_eq_some_iff.1 hsize
    have hle := (h.ins_nonneg ins hins).2
    omega

theorem Honest.validateEvent {lengthBefore lengthAfter : Int} {mutation : Mutation}
    (h : Honest lengthBefore lengthAfter mutation) (P : Platform)
    (hbefore : lengthBefore ≤ maxIntegerFieldValue) (hafter : lengthAfter ≤ maxIntegerFieldValue)
    {seq t : Nat} (hseq : seq ≤ maxIntegerFieldValue) (ht : t ≤ maxTimeFieldValue) :
    validateEvent P (mutation.event seq t).toJson (some seq) = .ok [] := by
  apply validateEvent_eq_nil.2
  refine ⟨_, h.valid hbefore hafter hseq ht, readsAs_toJson _, ?_⟩
  intro n hn
  cases hn
  rfl

/-- An honest mutation leads an observed length from the one before to the one after it,
or loses it. -/
theorem Honest.observeEvent {lengthBefore lengthAfter : Nat} {mutation : Mutation}
    (h : Honest lengthBefore lengthAfter mutation) (hbefore : lengthBefore ≤ maxIntegerFieldValue)
    (hafter : lengthAfter ≤ maxIntegerFieldValue) (seq t : Nat) :
    observeEvent (some lengthBefore) (mutation.event seq t) = none ∨
      observeEvent (some lengthBefore) (mutation.event seq t) = some lengthAfter := by
  cases hpos : mutation.pos with
  | none =>
      left
      simp [Format.observeEvent, Mutation.event, hpos]
  | some pos =>
      obtain ⟨del, hdel, hwithin⟩ := h.within pos hpos
      cases hins : mutation.insLen with
      | none =>
          left
          simp [Format.observeEvent, Mutation.event, hpos, hins]
      | some ins =>
          right
          have hplace := h.pos_nonneg pos hpos
          have hnonneg := (h.del_nonneg del hdel).1
          have hpositive := (h.ins_nonneg ins hins).1
          have hdelta := h.delta del hdel ins hins
          have hsize : mutation.delLen = some del := hdel
          have hstep : Format.observeEvent (some lengthBefore) (mutation.event seq t) =
              if lengthBefore < pos.toNat ∨ lengthBefore < pos.toNat + del.toNat then none
              else some (addDouble (subDouble lengthBefore del.toNat) ins.toNat) := by
            simp [Format.observeEvent, Mutation.event, hpos, hins, hsize]
          have hsafe : maxIntegerFieldValue ≤ maxSafeInteger := by decide
          have hsum : lengthBefore - del.toNat + ins.toNat = lengthAfter := by omega
          rw [hstep, if_neg (by omega), subDouble_eq (by omega), addDouble_eq (by omega), hsum]

end Pmbah.Browser
