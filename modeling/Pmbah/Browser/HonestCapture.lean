import Pmbah.Browser.MeasuredInput
import Pmbah.Browser.WriteCapture
import Pmbah.Library.Transition

/-!
# What the captured mutations say of the length

Every mutation is true of the lengths between which it was measured.  Replayed from an
empty text they lead to the length at the last captured change, or to none at all.
-/

namespace Pmbah.Browser

open Js Format Library

/-- The log that a sequence of mutations makes. -/
def loggedEvents (mutations : List Mutation) (time : Nat → Nat) : List BufferMutation :=
  mutations.mapIdx fun seq mutation => mutation.event seq (time seq)

theorem loggedEvents_concat (mutations : List Mutation) (mutation : Mutation)
    (time : Nat → Nat) :
    loggedEvents (mutations ++ [mutation]) time =
      loggedEvents mutations time ++ [mutation.event mutations.length (time mutations.length)] :=
  List.mapIdx_concat

/-- The length that the mutations establish from an empty text on. -/
def establishedLength (mutations : List Mutation) : Option Nat :=
  observedLength (some 0) (loggedEvents mutations fun _ => 0)

theorem establishedLength_concat (mutations : List Mutation) (mutation : Mutation) :
    establishedLength (mutations ++ [mutation]) =
      observeEvent (establishedLength mutations) (mutation.event mutations.length 0) := by
  rw [establishedLength, loggedEvents_concat, observedLength_concat]
  rfl

/-- Times play no part in the length. -/
theorem observedLength_loggedEvents (mutations : List Mutation) (time : Nat → Nat) :
    observedLength (some 0) (loggedEvents mutations time) = establishedLength mutations := by
  induction mutations using List.reverseRecOn with
  | nil => rfl
  | append_singleton mutations mutation ih =>
      rw [establishedLength_concat, loggedEvents_concat, observedLength_concat, ih]
      rfl

/-- The mutation makes an event at every place of a log. -/
def Mutation.Acceptable (mutation : Mutation) : Prop :=
  ∀ seq ≤ maxIntegerFieldValue, ∀ t ≤ maxTimeFieldValue, (mutation.event seq t).Valid

theorem validLog_loggedEvents {mutations : List Mutation} {time : Nat → Nat}
    (h : ∀ mutation ∈ mutations, mutation.Acceptable)
    (hcount : mutations.length ≤ maxIntegerFieldValue)
    (hsorted : ∀ earlier later, earlier ≤ later → time earlier ≤ time later)
    (hbound : ∀ seq, time seq ≤ maxTimeFieldValue) : ValidLog (loggedEvents mutations time) := by
  induction mutations using List.reverseRecOn with
  | nil => exact ⟨nofun, nofun, .nil⟩
  | append_singleton mutations mutation ih =>
      rw [List.length_append, List.length_singleton] at hcount
      rw [loggedEvents_concat]
      refine validLog_concat.2 ⟨ih (fun old hold => h old (List.mem_append_left _ hold)) (by omega),
        h mutation (by simp) _ (by omega) _ (hbound _), ?_, ?_⟩
      · simp [loggedEvents, Mutation.event]
      · intro last hlast
        obtain ⟨place, hplace, rfl⟩ := List.mem_mapIdx.1 (List.mem_of_getLast? hlast)
        exact hsorted place mutations.length (Nat.le_of_lt hplace)

/-- Without a gap, all that has been measured is of the established length. -/
structure Level (capture : WriteCapture) (length : Nat) : Prop where
  observed : capture.observedLength = length
  pending : ∀ intent ∈ capture.pending, intent.lengthBefore = length
  composition : ∀ start ∈ capture.composition, start.lengthBefore = length

/-- What a capture has emitted and measured, when the last captured change left a text of
this length. -/
structure Tracks (capture : WriteCapture) (applied : Nat) : Prop where
  acceptable : ∀ mutation ∈ capture.emitted, mutation.Acceptable
  pending_le : ∀ intent ∈ capture.pending, intent.lengthBefore ≤ maxIntegerFieldValue
  composition_le : ∀ start ∈ capture.composition, start.lengthBefore ≤ maxIntegerFieldValue
  applied_le : applied ≤ maxIntegerFieldValue
  length : establishedLength capture.emitted = none ∨
    establishedLength capture.emitted = some applied ∧
      (capture.gap = false → Level capture applied)

namespace Tracks

variable {capture next : WriteCapture} {applied : Nat}

/-- A step that emits and measures nothing. -/
theorem quiet (h : Tracks capture applied) (hemitted : next.emitted = capture.emitted)
    (hpending : ∀ intent ∈ next.pending, intent ∈ capture.pending)
    (hcomposition : ∀ start ∈ next.composition, start ∈ capture.composition)
    (hgap : next.gap = false → capture.gap = false)
    (hobserved : next.gap = false → next.observedLength = capture.observedLength) :
    Tracks next applied where
  acceptable := by
    rw [hemitted]
    exact h.acceptable
  pending_le intent hmem := h.pending_le intent (hpending intent hmem)
  composition_le start hmem := h.composition_le start (hcomposition start hmem)
  applied_le := h.applied_le
  length := by
    rw [hemitted]
    apply h.length.imp_right
    refine fun ⟨hlength, hlevel⟩ => ⟨hlength, fun hnone => ?_⟩
    have hlevel := hlevel (hgap hnone)
    exact ⟨(hobserved hnone).trans hlevel.observed,
      fun intent hmem => hlevel.pending intent (hpending intent hmem),
      fun start hmem => hlevel.composition start (hcomposition start hmem)⟩

/-- A step that measures a length, which is a gap unless it is the observed one. -/
theorem measured (h : Tracks capture applied) {length : Int}
    (hlength : length ≤ maxIntegerFieldValue) (hemitted : next.emitted = capture.emitted)
    (hpending : ∀ intent ∈ next.pending, intent.lengthBefore = length)
    (hcomposition : ∀ start ∈ next.composition, start.lengthBefore = length)
    (hobserved : next.observedLength = capture.observedLength)
    (hgap : next.gap = (capture.gap || decide (length ≠ capture.observedLength))) :
    Tracks next applied where
  acceptable := by
    rw [hemitted]
    exact h.acceptable
  pending_le intent hmem := (hpending intent hmem).symm ▸ hlength
  composition_le start hmem := (hcomposition start hmem).symm ▸ hlength
  applied_le := h.applied_le
  length := by
    rw [hemitted]
    apply h.length.imp_right
    refine fun ⟨hestablished, hlevel⟩ => ⟨hestablished, fun hnone => ?_⟩
    rw [hgap, Bool.or_eq_false_iff, decide_eq_false_iff_not, not_not] at hnone
    have hobserves := (hlevel hnone.1).observed
    exact ⟨hobserved.trans hobserves,
      fun intent hmem => (hpending intent hmem).trans (hnone.2.trans hobserves),
      fun start hmem => (hcomposition start hmem).trans (hnone.2.trans hobserves)⟩

/-- A change after which nothing is pending, and which keeps the length. -/
theorem settle (h : Tracks capture applied) (hemitted : next.emitted = capture.emitted)
    (hgap : next.gap = capture.gap) (hpending : next.pending = none)
    (hcomposition : next.composition = none)
    (hobserved : Level capture applied → next.observedLength = applied) : Tracks next applied where
  acceptable := hemitted.symm ▸ h.acceptable
  pending_le intent hmem := nomatch hpending.symm.trans hmem
  composition_le start hmem := nomatch hcomposition.symm.trans hmem
  applied_le := h.applied_le
  length := by
    rw [hemitted]
    apply h.length.imp_right
    refine fun ⟨hestablished, hlevel⟩ => ⟨hestablished, fun hnone => ?_⟩
    exact ⟨hobserved (hlevel (hgap.symm.trans hnone)),
      fun intent hmem => (nomatch hpending.symm.trans hmem),
      fun start hmem => (nomatch hcomposition.symm.trans hmem)⟩

/-- A change that is applied, from a length that was measured, to another one. -/
theorem emit (h : Tracks capture applied) (hemitted : next.emitted = capture.emitted)
    (hgap : next.gap = capture.gap) (hpending : next.pending = none)
    (hcomposition : next.composition = none) {mutation : Option Mutation}
    {lengthBefore lengthAfter : Int} (hle : lengthBefore ≤ maxIntegerFieldValue)
    (hlevel : Level capture applied → lengthBefore = applied)
    (hnone : mutation = none → lengthAfter = lengthBefore)
    (hsome : ∀ known ∈ mutation, 0 ≤ lengthAfter → Honest lengthBefore lengthAfter known)
    {length : Nat} (hlength : length ≤ maxIntegerFieldValue)
    (hafter : (next.emitApplied mutation lengthAfter).emitted ≠ capture.emitted →
      lengthAfter = length) :
    Tracks (next.emitApplied mutation lengthAfter)
      (if (next.emitApplied mutation lengthAfter).emitted = capture.emitted then applied
        else length) := by
  cases mutation with
  | none =>
      have hsame : (next.emitApplied none lengthAfter).emitted = capture.emitted := hemitted
      rw [if_pos hsame]
      apply h.settle hsame hgap hpending hcomposition
      exact fun hkept => (hnone rfl).trans (hlevel hkept)
  | some known =>
      obtain ⟨recorded, hrecorded, hplaced, hunplaced⟩ : ∃ recorded : Mutation,
          (next.emitApplied (some known) lengthAfter).emitted = capture.emitted ++ [recorded] ∧
          (capture.gap = false → recorded = known) ∧
          (capture.gap = true → recorded = { known with pos := none }) := by
        refine ⟨_, by rw [WriteCapture.emitApplied, hemitted], ?_, ?_⟩
        · intro hfalse
          rw [hgap, hfalse, if_neg Bool.false_ne_true]
        · intro htrue
          rw [hgap, htrue, if_pos rfl]
      have hlonger : capture.emitted ++ [recorded] ≠ capture.emitted := by simp
      have hlast : lengthAfter = length := hafter (hrecorded ▸ hlonger)
      subst hlast
      have hhonest := hsome known rfl (Int.natCast_nonneg length)
      rw [hrecorded, if_neg hlonger]
      have hrecordedHonest : Honest lengthBefore length recorded := by
        cases hcase : capture.gap with
        | false => exact hplaced hcase ▸ hhonest
        | true => exact hunplaced hcase ▸ hhonest.unplaced
      have hunmeasured {goal : MeasuredInputIntent → Prop} :
          ∀ intent ∈ (next.emitApplied (some known) length).pending, goal intent :=
        fun intent hmem => nomatch hpending.symm.trans hmem
      have huncomposed {goal : Measured → Prop} :
          ∀ start ∈ (next.emitApplied (some known) length).composition, goal start :=
        fun start hmem => nomatch hcomposition.symm.trans hmem
      refine ⟨?_, hunmeasured, huncomposed, hlength, ?_⟩
      · rw [hrecorded]
        intro mutation hmem
        rcases List.mem_append.1 hmem with hold | hnew
        · exact h.acceptable mutation hold
        · rw [List.mem_singleton.1 hnew]
          exact fun seq hseq t ht => hrecordedHonest.valid hle (by omega) hseq ht
      · have hleveled : (next.emitApplied (some known) length).gap = false →
            Level (next.emitApplied (some known) length) length := fun _ =>
          ⟨rfl, hunmeasured, huncomposed⟩
        rw [hrecorded, establishedLength_concat]
        rcases h.length with hlost | ⟨hestablished, hkept⟩
        · rw [hlost, observeEvent_none]
          exact .inl rfl
        rw [hestablished]
        cases hcase : capture.gap with
        | true =>
            left
            rw [hunplaced hcase]
            rfl
        | false =>
            have hbefore := hlevel (hkept hcase)
            subst hbefore
            apply (hrecordedHonest.observeEvent h.applied_le hlength capture.emitted.length 0).imp_right
            exact fun hobserved => ⟨hobserved, hleveled⟩

theorem lengthBefore_measure_le (capture : WriteCapture) (field : Field) :
    (capture.measure field).1.lengthBefore ≤ field.value.length := by
  simp only [WriteCapture.measure, NumericTextIndex.length]
  split
  · have hreset : (capture.index.reset field.value).utf16Length = field.value.length := rfl
    omega
  · omega

theorem length_codePoints_le (text : JsString) : (codePoints text).length ≤ text.length := by
  have htotal := length_codePoints text
  omega

theorem index_emitApplied (capture : WriteCapture) (mutation : Option Mutation)
    (lengthAfter : Int) : (capture.emitApplied mutation lengthAfter).index = capture.index := by
  cases mutation <;> rfl

variable {field : Field}

theorem applyInput (h : Tracks capture applied) (hcomposition : capture.composition = none)
    (hfield : field.value.length ≤ maxIntegerFieldValue)
    (hexact : (capture.applyInput field).emitted ≠ capture.emitted →
      (capture.applyInput field).index.Exact field.value) :
    Tracks (capture.applyInput field)
      (if (capture.applyInput field).emitted = capture.emitted then applied
        else (codePoints field.value).length) := by
  have hlength := (length_codePoints_le field.value).trans hfield
  rw [WriteCapture.applyInput] at hexact ⊢
  cases hpending : capture.pending with
  | none =>
      simp only [hpending] at hexact ⊢
      refine h.emit ?_ ?_ ?_ ?_ (Int.ofNat_le.2 h.applied_le) (fun _ => rfl) ?_ ?_ hlength ?_
      · rfl
      · rfl
      · rfl
      · exact hcomposition
      · exact nofun
      · exact fun known hknown _ => Option.mem_some_iff.1 hknown ▸ honest_unknown _ _ _
      · intro hne
        have hexact := hexact hne
        rw [index_emitApplied] at hexact
        exact hexact.length_eq
  | some intent =>
      simp only [hpending, NumericTextIndex.length_offset] at hexact ⊢
      refine h.emit ?_ ?_ ?_ ?_ (h.pending_le intent hpending)
        (fun hlevel => hlevel.pending intent hpending) (fun hnone => ?_)
        (fun known hknown hzero => ?_) hlength ?_
      · rfl
      · rfl
      · rfl
      · exact hcomposition
      · exact (deriveMutation_eq_none hnone).2
      · have hhonest := deriveMutation_honest intent hzero
          (some (({ capture with pending := none }.applyNumeric field).index.offset
            field.selectionStart).1)
        rw [Option.mem_def.1 hknown] at hhonest
        exact hhonest
      · intro hne
        have hexact := hexact hne
        rw [index_emitApplied] at hexact
        rw [← hexact.length_eq]
        exact (NumericTextIndex.length_offset _ _).symm

/-- A step that emits nothing, as a step of any kind. -/
theorem unchanged {length : Nat} (h : Tracks next applied)
    (hemitted : next.emitted = capture.emitted) :
    Tracks next (if next.emitted = capture.emitted then applied else length) := by
  rw [if_pos hemitted]
  exact h

theorem before (h : Tracks capture applied) (hfield : field.value.length ≤ maxIntegerFieldValue)
    (inputType : JsString) (data : Option JsString) :
    Tracks (capture.before field inputType data) applied ∧
      (capture.before field inputType data).emitted = capture.emitted := by
  simp only [WriteCapture.before, WriteCapture.checkGap_eq]
  by_cases hcomposition : capture.composition.isSome
  · rw [if_pos hcomposition]
    exact ⟨h.quiet rfl nofun (fun _ => id) id (fun _ => rfl), rfl⟩
  rw [if_neg hcomposition]
  by_cases hcommitted : (capture.committed.isSome && includes inputType (js "Composition")) = true
  · rw [if_pos hcommitted]
    exact ⟨h.quiet rfl nofun (fun _ => id) id (fun _ => rfl), rfl⟩
  rw [if_neg hcommitted]
  have hnone : capture.composition = none := Option.not_isSome_iff_eq_none.1 hcomposition
  refine ⟨h.measured (Int.le_trans (lengthBefore_measure_le _ field) (Int.ofNat_le.2 hfield))
    rfl ?_ ?_ rfl rfl, rfl⟩
  · exact fun intent hmem => Option.mem_some_iff.1 hmem ▸ rfl
  · exact fun start hmem => nomatch hnone.symm.trans hmem

theorem startComposition (h : Tracks capture applied)
    (hfield : field.value.length ≤ maxIntegerFieldValue) :
    Tracks (capture.startComposition field) applied ∧
      (capture.startComposition field).emitted = capture.emitted := by
  simp only [WriteCapture.startComposition, WriteCapture.checkGap_eq]
  refine ⟨h.measured (Int.le_trans (lengthBefore_measure_le _ field) (Int.ofNat_le.2 hfield))
    rfl nofun ?_ rfl rfl, rfl⟩
  exact fun start hmem => Option.mem_some_iff.1 hmem ▸ rfl

theorem timer (h : Tracks capture applied) (number : Nat) :
    Tracks (capture.timer number) applied ∧
      (capture.timer number).emitted = capture.emitted := by
  simp only [WriteCapture.timer]
  split
  · exact ⟨h.quiet rfl nofun (fun _ => id) id (fun _ => rfl), rfl⟩
  · exact ⟨h.quiet rfl (fun _ => id) (fun _ => id) id (fun _ => rfl), rfl⟩

theorem input (h : Tracks capture applied) (hfield : field.value.length ≤ maxIntegerFieldValue)
    (inputType : Option JsString) (isComposing : Bool)
    (hexact : (capture.input field inputType isComposing).emitted ≠ capture.emitted →
      (capture.input field inputType isComposing).index.Exact field.value) :
    Tracks (capture.input field inputType isComposing)
      (if (capture.input field inputType isComposing).emitted = capture.emitted then applied
        else (codePoints field.value).length) := by
  rw [WriteCapture.input] at hexact ⊢
  by_cases hcomposition : capture.composition.isSome
  · rw [if_pos hcomposition] at hexact ⊢
    exact h.unchanged rfl
  rw [if_neg hcomposition] at hexact ⊢
  have hnone : capture.composition = none := Option.not_isSome_iff_eq_none.1 hcomposition
  cases hcommitted : capture.committed with
  | none =>
      simp only [hcommitted] at hexact ⊢
      exact h.applyInput hnone hfield hexact
  | some commit =>
      simp only [hcommitted] at hexact ⊢
      split at hexact
      · rename_i hlate
        rw [if_pos hlate]
        have hread : Tracks { (capture.measure field).2 with committed := none, pending := none }
            applied := h.quiet rfl nofun (fun _ => id) id (fun _ => rfl)
        have hcaret : Tracks { (capture.measure field).2 with
            committed := none, pending := none,
            index := ((capture.measure field).2.index.offset field.selectionStart).2 } applied :=
          hread.quiet rfl (fun _ => id) (fun _ => id) id (fun _ => rfl)
        by_cases hlength : commit.1 = (capture.measure field).1.lengthBefore
        · rw [if_pos hlength] at hexact ⊢
          by_cases hmatches : commit.2 =
              ((capture.measure field).2.index.offset field.selectionStart).1
          · rw [if_pos hmatches]
            exact hcaret.unchanged rfl
          · rw [if_neg hmatches] at hexact ⊢
            exact hcaret.applyInput hnone hfield hexact
        · rw [if_neg hlength] at hexact ⊢
          exact hread.applyInput hnone hfield hexact
      · rename_i hlate
        rw [if_neg hlate]
        have hread : Tracks { capture with committed := none } applied :=
          h.quiet rfl (fun _ => id) (fun _ => id) id (fun _ => rfl)
        exact hread.applyInput hnone hfield hexact

theorem endComposition (h : Tracks capture applied)
    (hfield : field.value.length ≤ maxIntegerFieldValue) (data : JsString)
    (hexact : (capture.endComposition field data).emitted ≠ capture.emitted →
      (capture.endComposition field data).index.Exact field.value) :
    Tracks (capture.endComposition field data)
      (if (capture.endComposition field data).emitted = capture.emitted then applied
        else (codePoints field.value).length) := by
  have hlength := (length_codePoints_le field.value).trans hfield
  rw [WriteCapture.endComposition] at hexact ⊢
  cases hstart : capture.composition with
  | none =>
      simp only [if_true]
      exact h.quiet rfl nofun nofun id (fun _ => rfl)
  | some start =>
      simp only [hstart] at hexact ⊢
      split at hexact
      · rename_i hkept
        rw [if_pos hkept]
        apply unchanged _ rfl
        refine h.settle ?_ ?_ ?_ ?_ fun hlevel => ?_
        · rfl
        · rfl
        · rfl
        · rfl
        · exact hkept.2.trans (hlevel.composition start hstart)
      · rename_i hchanged
        rw [if_neg hchanged]
        refine h.emit ?_ ?_ ?_ ?_ (h.composition_le start hstart)
          (fun hlevel => hlevel.composition start hstart) (fun hnone => ?_)
          (fun known hknown hzero => ?_) hlength ?_
        · rfl
        · rfl
        · rfl
        · rfl
        · exact (deriveMutation_eq_none hnone).2
        · have hhonest := deriveMutation_honest
            ⟨start, js "insertFromComposition", some (codePoints data).length⟩ hzero
          specialize hhonest (some ((({ capture with composition := none, pending := none }.applyNumeric
            field).index.offset field.selectionStart).2.offset field.selectionStart).1)
          rw [Option.mem_def.1 hknown] at hhonest
          exact hhonest
        · intro hne
          have hexact := hexact hne
          rw [index_emitApplied] at hexact
          rw [← hexact.length_eq]
          simp only [NumericTextIndex.length_offset]

end Tracks

/-! ## Runs -/

/-- A field that is captured, and the length of its text at the last captured change. -/
structure Writing where
  field : Field
  capture : WriteCapture
  applied : Nat

namespace Writing

def start : Writing := ⟨.empty, .attach .empty, 0⟩

def step (writing : Writing) (event : FieldEvent) : Option Writing :=
  let field := match event with
    | .change field => field
    | _ => writing.field
  let capture := writing.capture.handle writing.field event
  some
    { field, capture
      applied := if capture.emitted = writing.capture.emitted then writing.applied
        else (codePoints writing.field.value).length }

/-- The index is exact where a change is captured, and no text is longer than a string
can be. -/
def ExactlyIndexed (writing : Writing) (event : FieldEvent) : Prop :=
  ((writing.capture.handle writing.field event).emitted ≠ writing.capture.emitted →
      (writing.capture.handle writing.field event).index.Exact writing.field.value) ∧
    writing.field.value.length ≤ maxIntegerFieldValue

instance (writing : Writing) (event : FieldEvent) : Decidable (writing.ExactlyIndexed event) :=
  inferInstanceAs (Decidable ((_ → _) ∧ _))

theorem tracks_start : Tracks start.capture start.applied where
  acceptable := nofun
  pending_le := nofun
  composition_le := nofun
  applied_le := Nat.zero_le _
  length := .inr ⟨rfl, fun _ => ⟨rfl, nofun, nofun⟩⟩

theorem tracks_step {writing next : Writing} {event : FieldEvent}
    (h : Tracks writing.capture writing.applied) (hexact : writing.ExactlyIndexed event)
    (hstep : writing.step event = some next) : Tracks next.capture next.applied := by
  obtain ⟨hexact, hfield⟩ := hexact
  cases hstep
  cases event with
  | change field => exact h.unchanged rfl
  | beforeinput inputType data =>
      obtain ⟨hnext, hemitted⟩ := h.before hfield inputType data
      exact hnext.unchanged hemitted
  | input inputType isComposing => exact h.input hfield inputType isComposing hexact
  | compositionstart =>
      obtain ⟨hnext, hemitted⟩ := h.startComposition hfield
      exact hnext.unchanged hemitted
  | compositionend data => exact h.endComposition hfield data hexact
  | blur =>
      have hnext : Tracks { writing.capture with pending := none } writing.applied :=
        h.quiet rfl nofun (fun _ => id) id fun _ => rfl
      exact hnext.unchanged rfl
  | timer number =>
      obtain ⟨hnext, hemitted⟩ := h.timer number
      exact hnext.unchanged hemitted
  | hasGap =>
      have hnext : Tracks (writing.capture.hasGap writing.field).2 writing.applied :=
        h.quiet rfl (fun _ => id) (fun _ => id)
          (fun hnone => (Bool.or_eq_false_iff.1 hnone).1) fun _ => rfl
      exact hnext.unchanged rfl

theorem tracks_run {writing : Writing} (run : Run step ExactlyIndexed start writing) :
    Tracks writing.capture writing.applied := by
  apply run.invariant (I := fun writing => Tracks writing.capture writing.applied)
  · exact fun _ _ _ => tracks_step
  · exact tracks_start

/-- A mutation that is true of the lengths before and after it, and is accepted as an event
when these lengths are. -/
def Sound (P : Platform) (lengthBefore lengthAfter : Int) (mutation : Mutation) : Prop :=
  Honest lengthBefore lengthAfter mutation ∧
    (lengthBefore ≤ maxIntegerFieldValue → lengthAfter ≤ maxIntegerFieldValue →
      ∀ seq ≤ maxIntegerFieldValue, ∀ t ≤ maxTimeFieldValue,
        validateEvent P (mutation.event seq t).toJson (some seq) = .ok [])

theorem sound_of_honest {P : Platform} {lengthBefore lengthAfter : Int} {mutation : Mutation}
    (h : Honest lengthBefore lengthAfter mutation) : Sound P lengthBefore lengthAfter mutation :=
  ⟨h, fun hbefore hafter _ hseq _ ht => h.validateEvent P hbefore hafter hseq ht⟩

/-- The emitted mutations make a log, and its length is lost or that of the last captured
change. -/
theorem computeObservedLength_emitted (P : Platform) {writing : Writing}
    (run : Run step ExactlyIndexed start writing) {time : Nat → Nat}
    (hcount : writing.capture.emitted.length ≤ maxIntegerFieldValue)
    (hsorted : ∀ earlier later, earlier ≤ later → time earlier ≤ time later)
    (hbound : ∀ seq, time seq ≤ maxTimeFieldValue) :
    ∃ length, computeObservedLength P
        ((loggedEvents writing.capture.emitted time).map BufferMutation.toJson) (some 0) =
          .ok length ∧ (length = none ∨ length = some writing.applied) := by
  have htracks := tracks_run run
  have hvalid := validLog_loggedEvents htracks.acceptable hcount hsorted hbound
  refine ⟨_, computeObservedLength_eq (readsAsLog_toJson _) hvalid (some 0), ?_⟩
  rw [observedLength_loggedEvents]
  exact htracks.length.imp_right And.left

/-- Measured mutations are honest: each of them by itself, and all that a capture emits from
an empty field on. -/
theorem honest_mutations (P : Platform) :
    (∀ (intent : MeasuredInputIntent) (lengthAfter : Nat) (caretAfter : Option Int),
      match deriveMutationFromMeasuredInput intent lengthAfter caretAfter with
      | none =>
          startsWith intent.inputType (js "format") = true ∧ lengthAfter = intent.lengthBefore
      | some mutation => Sound P intent.lengthBefore lengthAfter mutation) ∧
    (∀ (before : RichChange) (after : RichMeasurement), before.InRange → after.InRange →
      match richMutation before after with
      | none => after.length = before.length ∧
          (before.kind = .format ∨ before.start = before.stop)
      | some mutation =>
          (∀ lengthBefore ∈ before.length, ∀ lengthAfter ∈ after.length,
            Sound P lengthBefore lengthAfter mutation) ∧
          (before.length = none ∨ after.length = none →
            ∀ lengthBefore lengthAfter : Int, Sound P lengthBefore lengthAfter mutation)) ∧
    ∀ (writing : Writing) (time : Nat → Nat), Run step ExactlyIndexed start writing →
      writing.capture.emitted.length ≤ maxIntegerFieldValue →
      (∀ earlier later, earlier ≤ later → time earlier ≤ time later) →
      (∀ seq, time seq ≤ maxTimeFieldValue) →
      ∃ length, computeObservedLength P
          ((loggedEvents writing.capture.emitted time).map BufferMutation.toJson) (some 0) =
            .ok length ∧ (length = none ∨ length = some writing.applied) := by
  refine ⟨fun intent lengthAfter caretAfter => ?_, fun before after hbefore hafter => ?_,
    fun writing time run hcount hsorted hbound =>
      computeObservedLength_emitted P run hcount hsorted hbound⟩
  · have hhonest := deriveMutation_honest intent (Int.natCast_nonneg lengthAfter) caretAfter
    generalize deriveMutationFromMeasuredInput intent lengthAfter caretAfter = found at hhonest ⊢
    cases found with
    | none => exact hhonest
    | some mutation => exact sound_of_honest hhonest
  · have hhonest := richMutation_honest before after hbefore hafter
    have hunmeasured : before.length = none ∨ after.length = none →
        richMutation before after = some (unknownMutation before.source) :=
      richMutation_unmeasured
    generalize richMutation before after = found at hhonest hunmeasured ⊢
    cases found with
    | none => exact hhonest
    | some mutation =>
        refine ⟨fun lengthBefore hlength lengthAfter hlengthAfter =>
          sound_of_honest (hhonest lengthBefore hlength lengthAfter hlengthAfter), ?_⟩
        intro hnone lengthBefore lengthAfter
        rw [Option.some.inj (hunmeasured hnone)]
        exact sound_of_honest (honest_unknown lengthBefore lengthAfter before.source)

/-- A text with the caret at its end. -/
def fieldOf (text : String) : Field := ⟨js text, (js text).length, (js text).length, Nat.le_refl _⟩

/-- A letter is typed, another one is composed, and one follows a change that was not
captured. -/
def writtenEvents : List FieldEvent :=
  [.beforeinput (js "insertText") (some (js "x")), .change .typed,
    .input (some (js "insertText")) false,
    .compositionstart, .change (fieldOf "xy"),
    .input (some (js "insertCompositionText")) true, .compositionend (js "y"),
    .change (fieldOf "xyabc"), .beforeinput (js "insertText") (some (js "z")),
    .change (fieldOf "xyabcz"), .input (some (js "insertText")) false]

theorem honest_typed : ∃ writing : Writing,
    (writing.applied = 6 ∧ writing.capture.emitted.map Mutation.pos = [some 0, some 1, none]) ∧
    ∃ length, computeObservedLength .standard
        ((loggedEvents writing.capture.emitted fun _ => 0).map BufferMutation.toJson) (some 0) =
          .ok length ∧ (length = none ∨ length = some writing.applied) := by
  have hruns : (runAll step ExactlyIndexed start writtenEvents).any (fun writing =>
      decide ((writing.applied = 6 ∧
        writing.capture.emitted.map Mutation.pos = [some 0, some 1, none]) ∧
          writing.capture.emitted.length ≤ maxIntegerFieldValue)) = true := by
    decide +kernel
  obtain ⟨writing, hrun, hwriting⟩ := (Option.any_eq_true _ _).1 hruns
  obtain ⟨happlied, hcount⟩ := of_decide_eq_true hwriting
  refine ⟨writing, happlied, ?_⟩
  exact (honest_mutations .standard).2.2 writing (fun _ => 0) (Run.of_runAll hrun) hcount
    (fun _ _ _ => Nat.le_refl 0) fun _ => Nat.zero_le _

end Writing

end Pmbah.Browser
