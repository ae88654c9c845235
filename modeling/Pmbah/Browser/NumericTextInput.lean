import Pmbah.Browser.NumericTextIndex

/-!
# Applying an input to the numeric index

The replaced span is not observed but inferred from the selection before, the caret
after and the type of the input.  Where that does not add up the text is measured
anew.
-/

namespace Pmbah.Browser

open Js Library

structure NumericTextIntent where
  length : Nat
  start : Option Nat
  stop : Option Nat
  inputType : JsString
  dataLength : Option Nat

def startsWith (text start : JsString) : Bool := start.isPrefixOf text

/-- An input that cannot be measured; a format leaves a text of the same length alone. -/
def unmeasured (index : NumericTextIndex) (textAfter : JsString)
    (intent : Option NumericTextIntent) : NumericTextIndex :=
  if (intent.any fun intent => startsWith intent.inputType (js "format")) ∧
      textAfter.length = index.utf16Length then index
  else index.reset textAfter

/-- The span that the input is taken to replace, unless its type leaves it open. -/
def inferredSpan (index : NumericTextIndex) (textAfter : JsString) (caret : Nat)
    (intent : NumericTextIntent) (first second : Nat) : Option (Int × Int) :=
  let start := min first second
  let stop := max first second
  if startsWith intent.inputType (js "delete") ∧ start = stop then
    let deleted : Int := index.utf16Length - textAfter.length
    if deleted < 0 then none else some (caret, caret + deleted)
  else match if intent.inputType = js "insertReplacementText" then intent.dataLength else none with
    | some dataLength =>
        let start : Int := caret - dataLength
        some (start, start + index.utf16Length - textAfter.length + dataLength)
    | none =>
        if !startsWith intent.inputType (js "insert") ∧ !startsWith intent.inputType (js "delete")
        then none
        else some (start, stop)

def applyNumericTextInput (index : NumericTextIndex) (textAfter : JsString) (caret : Option Nat)
    (intent : Option NumericTextIntent) : Except JsError NumericTextIndex :=
  match intent with
  | none => .ok (unmeasured index textAfter intent)
  | some found =>
      match found.start, found.stop, caret with
      | some first, some second, some caret =>
          if found.length ≠ index.utf16Length ∨ startsWith found.inputType (js "history") ∨
              startsWith found.inputType (js "format") then
            .ok (unmeasured index textAfter intent)
          else match inferredSpan index textAfter caret found first second with
            | none => .ok (index.reset textAfter)
            | some (start, stop) =>
                let inserted : Int := textAfter.length - index.utf16Length + stop - start
                if start < 0 ∨ stop < start ∨ index.utf16Length < stop ∨ inserted < 0 ∨
                    caret ≠ start + inserted then .ok (index.reset textAfter)
                else index.replace textAfter start stop
      | _, _, _ => .ok (unmeasured index textAfter intent)

/-- An input is applied without an error, and alike to alike indexes. -/
theorem applyNumericTextInput_alike {index other : NumericTextIndex} (h : index.Alike other)
    (textAfter : JsString) (caret : Option Nat) (intent : Option NumericTextIntent) :
    ∃ next next', applyNumericTextInput index textAfter caret intent = .ok next ∧
      applyNumericTextInput other textAfter caret intent = .ok next' ∧ next.Alike next' ∧
      next.utf16Length = textAfter.length := by
  have hunmeasured : (unmeasured index textAfter intent).Alike (unmeasured other textAfter intent) ∧
      (unmeasured index textAfter intent).utf16Length = textAfter.length := by
    simp only [unmeasured, h.utf16Length]
    split
    · rename_i hsame
      exact ⟨h, h.utf16Length.trans hsame.2.symm⟩
    · exact ⟨.reset index other textAfter, rfl⟩
  have hreset : (index.reset textAfter).Alike (other.reset textAfter) :=
    .reset index other textAfter
  cases intent with
  | none => exact ⟨_, _, rfl, rfl, hunmeasured⟩
  | some found =>
      cases hstart : found.start with
      | none =>
          simp only [applyNumericTextInput, hstart]
          exact ⟨_, _, rfl, rfl, hunmeasured⟩
      | some first =>
          cases hstop : found.stop with
          | none =>
              simp only [applyNumericTextInput, hstart, hstop]
              exact ⟨_, _, rfl, rfl, hunmeasured⟩
          | some second =>
              cases caret with
              | none =>
                  simp only [applyNumericTextInput, hstart, hstop]
                  exact ⟨_, _, rfl, rfl, hunmeasured⟩
              | some caret =>
                  have hspan : inferredSpan other textAfter caret found first second =
                      inferredSpan index textAfter caret found first second := by
                    simp only [inferredSpan, h.utf16Length]
                  simp only [applyNumericTextInput, hstart, hstop, hspan, ← h.utf16Length]
                  split
                  · exact ⟨_, _, rfl, rfl, hunmeasured⟩
                  split
                  · exact ⟨_, _, rfl, rfl, hreset, rfl⟩
                  split
                  · exact ⟨_, _, rfl, rfl, hreset, rfl⟩
                  · rename_i hchecks
                    apply h.replace textAfter
                    all_goals omega

/-! ## Inputs of the browser -/

/-- A replacement of one span, and the intent recorded before it. -/
structure BrowserInput where
  text : JsString
  start : Nat
  stop : Nat
  inserted : JsString
  intent : NumericTextIntent

namespace BrowserInput

def textAfter (input : BrowserInput) : JsString :=
  splice input.text input.start input.stop input.inserted

/-- The caret ends up after the inserted text. -/
def caret (input : BrowserInput) : Nat := input.start + input.inserted.length

/-- The span is the selection. -/
def OfSelection (input : BrowserInput) : Prop :=
  ∀ first second, input.intent.start = some first → input.intent.stop = some second →
    min first second = input.start ∧ max first second = input.stop

/-- What the browser does for an input of each type.  A collapsed deletion removes some
span, after which the caret is at its start. -/
structure Made (input : BrowserInput) : Prop where
  start_le : input.start ≤ input.stop
  stop_le : input.stop ≤ input.text.length
  length : input.intent.length = input.text.length
  inserts : startsWith input.intent.inputType (js "insert") = true →
    input.intent.inputType ≠ js "insertReplacementText" → input.OfSelection
  deletes : startsWith input.intent.inputType (js "delete") = true →
    input.inserted = [] ∧ (input.intent.start ≠ input.intent.stop → input.OfSelection)

/-- A text replacement is taken to start at this place, to the right of where it does:
its data is shorter than what was inserted, or it has none and the selection ends where
the span does. -/
structure Misplaced (input : BrowserInput) (place : Nat) : Prop where
  type : input.intent.inputType = js "insertReplacementText"
  right : input.start < place
  le_stop : place ≤ input.stop
  le_caret : place ≤ input.caret
  guess : ∃ first second, input.intent.start = some first ∧ input.intent.stop = some second ∧
    match input.intent.dataLength with
    | some dataLength => place + dataLength = input.caret
    | none => min first second = place ∧ max first second = input.stop

/-- The surrogate pairs that end before a place are the same after the input. -/
def PairsKept (input : BrowserInput) (place : Nat) : Prop :=
  ∀ offset, offset + 1 < place → pairAt input.text offset = pairAt input.textAfter offset

/-- No misplaced replacement moves a pair before its assumed place, and no format input
that keeps the length moves one at all. -/
structure Inferable (input : BrowserInput) : Prop where
  replaces : ∀ place, input.Misplaced place → input.PairsKept place
  formats : startsWith input.intent.inputType (js "format") = true →
    input.textAfter.length = input.text.length → input.PairsKept input.text.length

end BrowserInput

namespace NumericTextIndex

/-- At every code unit the index measures as a fresh one. -/
def Measures (index : NumericTextIndex) (text : JsString) : Prop :=
  index.length = (new text).length ∧
    ∀ place ≤ text.length, (index.offset place).1 = ((new text).offset place).1

variable {index : NumericTextIndex} {text : JsString} {places : List Nat}

theorem countP_below_succ (places : List Nat) (offset : Nat) :
    places.countP (· + 1 < offset + 2) = places.countP (· + 1 < offset + 1) + places.count offset := by
  induction places with
  | nil => rfl
  | cons place places ih =>
      rw [List.countP_cons, List.countP_cons, List.count_cons, ih]
      simp only [decide_eq_true_eq, beq_iff_eq]
      split <;> split <;> split <;> omega

/-- The offset that an index with these keys gives. -/
theorem offset_of_places (hcounted : index.root.Counted)
    (hplaces : index.root.offsets = places.map Int.ofNat) (hsorted : places.Pairwise (· < ·))
    {place : Nat} (hplace : place ≤ index.utf16Length) :
    (index.offset place).1 = place - places.countP (· + 1 < place) := by
  have hbound : max 0 (min (index.utf16Length : Int) place) = place := by omega
  have hordered : index.root.Ordered := by
    rw [LazyTreap.Ordered, hplaces]
    exact sorted_places hsorted
  have hcount : (index.root.preceding (place - 1)).1 = places.countP (· + 1 < place) := by
    rw [LazyTreap.preceding_eq hcounted hordered, hplaces, List.countP_map]
    apply List.countP_congr
    intro offset _
    simp only [Function.comp_apply, decide_eq_true_eq, Int.ofNat_eq_natCast]
    omega
  simp only [NumericTextIndex.offset, hbound, hcount]

/-- An index measures a text exactly when its keys are the pairs of the text. -/
theorem measures_iff (hlength : index.utf16Length = text.length) (hcounted : index.root.Counted)
    (hplaces : index.root.offsets = places.map Int.ofNat) (hsorted : places.Pairwise (· < ·))
    (hbound : ∀ offset ∈ places, offset + 1 < text.length) :
    index.Measures text ↔ places = pairs text := by
  constructor
  · intro h
    have hfresh := Exact.reset { root := .nil, seed := 0x9e3779b9, utf16Length := 0 } text
    have hbelow : ∀ place ≤ text.length, places.countP (· + 1 < place) =
        (pairs text).countP (· + 1 < place) := by
      intro place hplace
      have hsame := h.2 place hplace
      rw [offset_of_places hcounted hplaces hsorted (by omega), new,
        offset_of_places hfresh.counted hfresh.places (sorted_pairs text)
          (by rw [hfresh.utf16Length]; omega)] at hsame
      omega
    apply hsorted.eq_of_mem_iff (sorted_pairs text)
    intro offset
    by_cases hin : offset + 2 ≤ text.length
    · have hcount : places.count offset = (pairs text).count offset := by
        have hfirst := hbelow (offset + 1) (by omega)
        have hsecond := hbelow (offset + 2) hin
        rw [countP_below_succ, countP_below_succ] at hsecond
        omega
      rw [← List.count_pos_iff, hcount, List.count_pos_iff]
    · constructor
      · intro hmem
        have := hbound offset hmem
        omega
      · intro hmem
        have := high_of_pairAt (mem_pairs.1 hmem)
        omega
  · intro h
    subst h
    have hexact : index.Exact text := ⟨hlength, hcounted, hplaces⟩
    exact ⟨hexact.agrees.length_fresh, hexact.agrees.offset_fresh⟩

end NumericTextIndex

/-! ## What an input leaves -/

theorem ok_of_toOption {α : Type} {result : Except JsError α} {value : α}
    (h : result.toOption = some value) : result = .ok value := by
  cases result with
  | error thrown => cases h
  | ok found => exact congrArg Except.ok (Option.some.inj h)

theorem head_of_startsWith {text start : JsString} {unit : UInt16}
    (h : startsWith text (unit :: start) = true) : text.head? = some unit := by
  obtain ⟨rest, rfl⟩ := List.isPrefixOf_iff_prefix.1 h
  rfl

namespace BrowserInput

variable {input : BrowserInput} {index : NumericTextIndex}

/-- No type is one of two families. -/
theorem not_format_of_insert (h : startsWith input.intent.inputType (js "insert") = true) :
    startsWith input.intent.inputType (js "format") = false ∧
      startsWith input.intent.inputType (js "history") = false ∧
      startsWith input.intent.inputType (js "delete") = false := by
  have hhead : input.intent.inputType.head? = some 105 := head_of_startsWith h
  refine ⟨?_, ?_, ?_⟩
  · by_contra hformat
    have hother : input.intent.inputType.head? = some 102 :=
      head_of_startsWith (Bool.eq_true_of_not_eq_false hformat)
    rw [hhead] at hother
    cases hother
  · by_contra hhistory
    have hother : input.intent.inputType.head? = some 104 :=
      head_of_startsWith (Bool.eq_true_of_not_eq_false hhistory)
    rw [hhead] at hother
    cases hother
  · by_contra hdelete
    have hother : input.intent.inputType.head? = some 100 :=
      head_of_startsWith (Bool.eq_true_of_not_eq_false hdelete)
    rw [hhead] at hother
    cases hother

theorem Misplaced.insert {place : Nat} (h : input.Misplaced place) :
    startsWith input.intent.inputType (js "insert") = true := by
  rw [h.type]
  decide

/-- The data or the selection leaves one place only. -/
theorem Misplaced.unique {place other : Nat} (h : input.Misplaced place)
    (h' : input.Misplaced other) : place = other := by
  obtain ⟨first, second, hfirst, hsecond, hguess⟩ := h.guess
  obtain ⟨first', second', hfirst', hsecond', hguess'⟩ := h'.guess
  rw [hfirst] at hfirst'
  rw [hsecond] at hsecond'
  cases hfirst'
  cases hsecond'
  cases hdata : input.intent.dataLength with
  | none =>
      rw [hdata] at hguess hguess'
      exact hguess.1.symm.trans hguess'.1
  | some dataLength =>
      rw [hdata] at hguess hguess'
      simp only at hguess hguess'
      omega

theorem length_textAfter (h : input.Made) :
    input.textAfter.length + input.stop = input.text.length + input.caret := by
  have hlength := length_splice input.inserted h.start_le h.stop_le
  rw [textAfter, caret]
  omega

theorem pairsKept_of_le (h : input.Made) {place : Nat} (hplace : place ≤ input.start) :
    input.PairsKept place := by
  intro offset hlt
  have hle := h.start_le
  have hstop := h.stop_le
  have hshort : (input.text.take input.start).length = input.start := by
    rw [List.length_take, Nat.min_eq_left (by omega)]
  rw [textAfter, splice, List.append_assoc, pairAt_append_left (by omega), pairAt_take,
    decide_eq_true (by omega), Bool.and_true]

/-- Keys of the old text before a place and of the new one from there on. -/
theorem keys_eq_iff {place : Nat} :
    (pairs input.text).filter (· + 1 < place) ++ (pairs input.textAfter).filter (place ≤ · + 1) =
      pairs input.textAfter ↔ input.PairsKept place := by
  have hsplit : (pairs input.text).filter (· + 1 < place) ++
      (pairs input.textAfter).filter (place ≤ · + 1) = pairs input.textAfter ↔
        (pairs input.text).filter (· + 1 < place) =
          (pairs input.textAfter).filter (· + 1 < place) := by
    conv_lhs => rhs; rw [← pairs_split input.textAfter place]
    rw [List.append_cancel_right_eq]
  rw [hsplit]
  constructor
  · intro hsame offset hlt
    have hmem : offset ∈ (pairs input.text).filter (· + 1 < place) ↔
        offset ∈ (pairs input.textAfter).filter (· + 1 < place) := by
      rw [hsame]
    rw [List.mem_filter, List.mem_filter, mem_pairs, mem_pairs, decide_eq_true hlt] at hmem
    rw [Bool.eq_iff_iff]
    exact ⟨fun h => (hmem.1 ⟨h, rfl⟩).1, fun h => (hmem.2 ⟨h, rfl⟩).1⟩
  · intro hkept
    apply ((sorted_pairs _).filter _).eq_of_mem_iff ((sorted_pairs _).filter _)
    intro offset
    rw [List.mem_filter, List.mem_filter, mem_pairs, mem_pairs, decide_eq_true_eq]
    constructor
    · intro hmem
      rw [← hkept offset hmem.2]
      exact hmem
    · intro hmem
      rw [hkept offset hmem.2]
      exact hmem

/-- A replacement from any place up to the right end measures the text exactly when it
keeps the pairs before that place. -/
theorem replace_measures_iff (h : input.Made) (hexact : index.Exact input.text) {place : Nat}
    (hstop : place ≤ input.stop) (hcaret : place ≤ input.caret) :
    ∃ next, index.replace input.textAfter place input.stop = .ok next ∧
      (next.Measures input.textAfter ↔ input.PairsKept place) := by
  have hstart := h.start_le
  have hend := h.stop_le
  have hfront : (input.text.take input.start ++ input.inserted).length = input.caret := by
    rw [List.length_append, List.length_take, Nat.min_eq_left (by omega), caret]
  have hlength := length_textAfter h
  obtain ⟨next, hreplace, hutf16, hcounted, hplaces⟩ :=
    hexact.replace_front (show place ≤ (input.text.take input.start ++ input.inserted).length by
      omega) hstop hend
  refine ⟨next, hreplace, ?_⟩
  rw [← keys_eq_iff]
  apply NumericTextIndex.measures_iff hutf16 hcounted hplaces
  · rw [List.pairwise_append]
    refine ⟨(sorted_pairs _).filter _, (sorted_pairs _).filter _, ?_⟩
    intro first hfirst second hsecond
    rw [List.mem_filter, decide_eq_true_eq] at hfirst hsecond
    omega
  · intro offset hmem
    show offset + 1 < input.textAfter.length
    rcases List.mem_append.1 hmem with hmem | hmem
    · rw [List.mem_filter, decide_eq_true_eq] at hmem
      omega
    · exact high_of_pairAt (mem_pairs.1 (List.mem_filter.1 hmem).1)

/-- A span that passes the checks ends where the replaced one does, and starts before it
or is misplaced. -/
theorem inferredSpan_cases (h : input.Made) (hexact : index.Exact input.text) {first second : Nat}
    (hfirst : input.intent.start = some first) (hsecond : input.intent.stop = some second)
    {start stop : Int} (hspan : inferredSpan index input.textAfter input.caret input.intent first
      second = some (start, stop)) (hstart : 0 ≤ start) (hstop : start ≤ stop)
    (hinserted : 0 ≤ (input.textAfter.length : Int) - index.utf16Length + stop - start)
    (hcaret : (input.caret : Int) =
      start + (input.textAfter.length - index.utf16Length + stop - start)) :
    stop = input.stop ∧ start ≤ input.caret ∧
      (start ≤ input.start ∨ input.Misplaced start.toNat) := by
  have hlength := length_textAfter h
  rw [hexact.utf16Length] at hinserted hcaret
  rw [inferredSpan, hexact.utf16Length] at hspan
  simp only at hspan
  split at hspan
  · rename_i hdelete
    split at hspan
    · cases hspan
    · cases hspan
      have hnil := (h.deletes hdelete.1).1
      have hsame : input.caret = input.start := by
        rw [caret, hnil, List.length_nil, Nat.add_zero]
      omega
  · rename_i hplain
    split at hspan
    · rename_i dataLength hdata
      cases hspan
      split at hdata
      · rename_i htype
        refine ⟨by omega, by omega, ?_⟩
        by_cases hle : (input.caret : Int) - dataLength ≤ input.start
        · exact Or.inl hle
        · right
          refine ⟨htype, by omega, by omega, by omega, first, second, hfirst, hsecond, ?_⟩
          rw [hdata]
          show ((input.caret : Int) - dataLength).toNat + dataLength = input.caret
          omega
      · cases hdata
    · rename_i hdata
      split at hspan
      · cases hspan
      · rename_i hfamily
        cases hspan
        by_cases htype : input.intent.inputType = js "insertReplacementText"
        · rw [if_pos htype] at hdata
          have hmax : max first second = input.stop := by omega
          refine ⟨by omega, by omega, ?_⟩
          by_cases hle : ((min first second : Nat) : Int) ≤ input.start
          · exact Or.inl hle
          · right
            refine ⟨htype, by omega, by omega, by omega, first, second, hfirst, hsecond, ?_⟩
            rw [hdata]
            exact ⟨by omega, hmax⟩
        · have hselection : input.OfSelection := by
            by_cases hinsert : startsWith input.intent.inputType (js "insert") = true
            · exact h.inserts hinsert htype
            · have hdelete : startsWith input.intent.inputType (js "delete") = true := by
                by_contra hdelete
                simp [hinsert, hdelete] at hfamily
              apply (h.deletes hdelete).2
              intro hsame
              rw [hfirst, hsecond, Option.some.injEq] at hsame
              exact hplain ⟨hdelete, by omega⟩
          obtain ⟨hmin, hmax⟩ := hselection first second hfirst hsecond
          omega

/-- A misplaced replacement passes the checks and is applied where it is taken to be. -/
theorem apply_misplaced (h : input.Made) (hexact : index.Exact input.text) {place : Nat}
    (hplace : input.Misplaced place) :
    applyNumericTextInput index input.textAfter (some input.caret) (some input.intent) =
      index.replace input.textAfter place input.stop := by
  obtain ⟨first, second, hfirst, hsecond, hguess⟩ := hplace.guess
  obtain ⟨hformat, hhistory, hdelete⟩ := not_format_of_insert hplace.insert
  have hlength := length_textAfter h
  have hstop := h.stop_le
  have hright := hplace.le_stop
  have hcaret := hplace.le_caret
  have hspan : inferredSpan index input.textAfter input.caret input.intent first second =
      some ((place : Int), (input.stop : Int)) := by
    rw [inferredSpan, if_neg (by rw [hdelete]; simp), if_pos hplace.type]
    cases hdata : input.intent.dataLength with
    | none =>
        rw [hdata] at hguess
        simp [hplace.insert, hguess.1, hguess.2]
    | some dataLength =>
        rw [hdata] at hguess
        simp only [hexact.utf16Length, Option.some.injEq, Prod.mk.injEq] at hguess ⊢
        omega
  simp only [applyNumericTextInput, hfirst, hsecond]
  rw [if_neg, hspan]
  · simp only
    rw [if_neg]
    rw [hexact.utf16Length]
    omega
  · rw [h.length, hexact.utf16Length, hformat, hhistory]
    simp

theorem reset_measures (index : NumericTextIndex) (text : JsString) :
    (index.reset text).Measures text :=
  ⟨(NumericTextIndex.Exact.reset index text).agrees.length_fresh,
    (NumericTextIndex.Exact.reset index text).agrees.offset_fresh⟩

/-- Every other input that is no format leaves an exact index. -/
theorem apply_placed (h : input.Made) (hexact : index.Exact input.text)
    (hplaced : ∀ place, ¬ input.Misplaced place)
    (hformat : ¬ (startsWith input.intent.inputType (js "format") = true ∧
      input.textAfter.length = input.text.length)) :
    ∃ next, applyNumericTextInput index input.textAfter (some input.caret) (some input.intent) =
      .ok next ∧ next.Measures input.textAfter := by
  have hunmeasured : unmeasured index input.textAfter (some input.intent) =
      index.reset input.textAfter := by
    rw [unmeasured, hexact.utf16Length, Option.any_some, if_neg hformat]
  have hreset := reset_measures index input.textAfter
  cases hfirst : input.intent.start with
  | none =>
      refine ⟨_, ?_, hreset⟩
      simp only [applyNumericTextInput, hfirst, hunmeasured]
  | some first =>
      cases hsecond : input.intent.stop with
      | none =>
          refine ⟨_, ?_, hreset⟩
          simp only [applyNumericTextInput, hfirst, hsecond, hunmeasured]
      | some second =>
          simp only [applyNumericTextInput, hfirst, hsecond, hunmeasured]
          split
          · exact ⟨_, rfl, hreset⟩
          split
          · exact ⟨_, rfl, hreset⟩
          rename_i start stop hspan
          split
          · exact ⟨_, rfl, hreset⟩
          rename_i hchecks
          simp only [not_or, not_lt, ne_eq, not_not] at hchecks
          obtain ⟨hstart, hstop, -, hinserted, hcaret⟩ := hchecks
          obtain ⟨rfl, hbefore, hplace⟩ := inferredSpan_cases h hexact hfirst hsecond hspan hstart
            hstop hinserted hcaret
          have hle : start ≤ input.start := hplace.resolve_right (hplaced _)
          obtain ⟨next, hreplace, hmeasures⟩ := replace_measures_iff h hexact
            (show start.toNat ≤ input.stop by omega) (show start.toNat ≤ input.caret by omega)
          rw [Int.toNat_of_nonneg hstart] at hreplace
          exact ⟨next, hreplace, hmeasures.2 (pairsKept_of_le h (by omega))⟩

/-- A format input that keeps the length leaves the index alone. -/
theorem apply_format (hexact : index.Exact input.text)
    (hformat : startsWith input.intent.inputType (js "format") = true)
    (hlength : input.textAfter.length = input.text.length) :
    applyNumericTextInput index input.textAfter (some input.caret) (some input.intent) =
      .ok index := by
  have hunmeasured : unmeasured index input.textAfter (some input.intent) = index := by
    rw [unmeasured, hexact.utf16Length, Option.any_some, if_pos ⟨hformat, hlength⟩]
  cases hfirst : input.intent.start with
  | none => simp only [applyNumericTextInput, hfirst, hunmeasured]
  | some first =>
      cases hsecond : input.intent.stop with
      | none => simp only [applyNumericTextInput, hfirst, hsecond, hunmeasured]
      | some second =>
          simp only [applyNumericTextInput, hfirst, hsecond, hunmeasured]
          rw [if_pos (Or.inr (Or.inr hformat))]

/-- The input leaves an exact index exactly when the replaced span can be inferred. -/
theorem applyNumericTextInput_iff (h : input.Made) (hexact : index.Exact input.text) :
    ∃ next, applyNumericTextInput index input.textAfter (some input.caret) (some input.intent) =
      .ok next ∧ (next.Measures input.textAfter ↔ input.Inferable) := by
  by_cases hmisplaced : ∃ place, input.Misplaced place
  · obtain ⟨place, hplace⟩ := hmisplaced
    obtain ⟨next, hreplace, hmeasures⟩ :=
      replace_measures_iff h hexact hplace.le_stop hplace.le_caret
    refine ⟨next, (apply_misplaced h hexact hplace).trans hreplace, ?_⟩
    rw [hmeasures]
    constructor
    · intro hkept
      refine ⟨?_, ?_⟩
      · intro other hother
        rw [← hplace.unique hother]
        exact hkept
      · intro hformat
        rw [(not_format_of_insert hplace.insert).1] at hformat
        cases hformat
    · intro hinferable
      exact hinferable.replaces place hplace
  · have hplaced : ∀ place, ¬ input.Misplaced place := fun place hplace =>
      hmisplaced ⟨place, hplace⟩
    by_cases hformat : startsWith input.intent.inputType (js "format") = true ∧
        input.textAfter.length = input.text.length
    · refine ⟨index, apply_format hexact hformat.1 hformat.2, ?_⟩
      rw [NumericTextIndex.measures_iff (hexact.utf16Length.trans hformat.2.symm) hexact.counted
        hexact.places (sorted_pairs _)]
      · constructor
        · intro hsame
          refine ⟨fun place hplace => absurd hplace (hplaced place), ?_⟩
          intro _ _ offset _
          rw [Bool.eq_iff_iff, ← mem_pairs, hsame, mem_pairs]
        · intro hinferable
          have hkept := hinferable.formats hformat.1 hformat.2
          apply (sorted_pairs _).eq_of_mem_iff (sorted_pairs _)
          intro offset
          rw [mem_pairs, mem_pairs]
          constructor
          · intro hpair
            rw [← hkept offset (high_of_pairAt hpair)]
            exact hpair
          · intro hpair
            have hlt := high_of_pairAt hpair
            rw [hformat.2] at hlt
            rw [hkept offset hlt]
            exact hpair
      · intro offset hmem
        have hlt := high_of_pairAt (mem_pairs.1 hmem)
        rw [hformat.2]
        exact hlt
    · obtain ⟨next, hnext, hmeasures⟩ := apply_placed h hexact hplaced hformat
      refine ⟨next, hnext, iff_of_true hmeasures ?_⟩
      refine ⟨fun place hplace => absurd hplace (hplaced place), ?_⟩
      intro htype hlength
      exact absurd ⟨htype, hlength⟩ hformat

/-! ## A replacement without data -/

/-- A letter typed over the first half of a surrogate pair. -/
def typedInput : BrowserInput where
  text := js "a🙂"
  start := 1
  stop := 2
  inserted := js "x"
  intent := { length := 3, start := some 1, stop := some 2, inputType := js "insertText",
              dataLength := some 1 }

theorem typedInput_made : typedInput.Made where
  start_le := by decide
  stop_le := by decide
  length := by decide
  inserts _ _ first second hfirst hsecond := by
    cases hfirst
    cases hsecond
    exact ⟨rfl, rfl⟩
  deletes h := absurd h (by decide)

theorem applyNumericTextInput_typed : ∃ next,
    applyNumericTextInput (.new (js "a🙂")) typedInput.textAfter (some 2) (some typedInput.intent) =
      .ok next ∧ (next.Measures typedInput.textAfter ↔ typedInput.Inferable) :=
  applyNumericTextInput_iff typedInput_made (.reset _ _)

/-- The two characters before the caret become an emoji of two code units. -/
def emojiInput : BrowserInput where
  text := js ":)"
  start := 0
  stop := 2
  inserted := js "🙂"
  intent := { length := 2, start := some 2, stop := some 2,
              inputType := js "insertReplacementText", dataLength := none }

theorem emojiInput_made : emojiInput.Made where
  start_le := by decide
  stop_le := by decide
  length := by decide
  inserts _ h := absurd rfl h
  deletes h := absurd h (by decide)

/-- The index does not see the emoji's pair. -/
theorem not_measures_emoji : ¬ ∀ (input : BrowserInput) (index : NumericTextIndex), input.Made →
    index.Exact input.text → ∀ next, applyNumericTextInput index input.textAfter
      (some input.caret) (some input.intent) = .ok next → next.Measures input.textAfter := by
  intro hmeasures
  have hfalse : ((applyNumericTextInput (.new (js ":)")) emojiInput.textAfter (some 2)
      (some emojiInput.intent)).toOption.any fun next =>
        decide ((next.offset 2).1 ≠ ((NumericTextIndex.new emojiInput.textAfter).offset 2).1)) =
          true := by
    decide +kernel
  obtain ⟨next, hnext, hdiffers⟩ := (Option.any_eq_true _ _).1 hfalse
  rw [decide_eq_true_eq] at hdiffers
  have happly := ok_of_toOption hnext
  exact hdiffers ((hmeasures emojiInput _ emojiInput_made (.reset _ _) next happly).2 2 (by decide))

end BrowserInput

end Pmbah.Browser
