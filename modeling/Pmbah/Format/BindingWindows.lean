import Mathlib.Data.List.Sort
import Pmbah.Format.TextBinding

/-!
# Checking a candidate text

A binding commits to canonical text.  A candidate passes when one of the windows
of its canonical text has the commitment; the windows are those that start near
its beginning or end near its end, counted in code points.
-/

namespace Pmbah.Format

open Js Library

/-! ## Characters -/

/-- `Array.from(text)`. -/
def arrayFrom : JsString → List JsString
  | [] => []
  | [unit] => [[unit]]
  | high :: low :: rest =>
      if isHighSurrogate high ∧ isLowSurrogate low then [high, low] :: arrayFrom rest
      else [high] :: arrayFrom (low :: rest)

theorem flatten_arrayFrom (text : JsString) : (arrayFrom text).flatten = text := by
  induction text using arrayFrom.induct with
  | case1 => rfl
  | case2 unit => rfl
  | case3 high low rest hpair ih =>
      rw [arrayFrom, if_pos hpair, List.flatten_cons, ih]
      rfl
  | case4 high low rest hpair ih =>
      rw [arrayFrom, if_neg hpair, List.flatten_cons, ih]
      rfl

/-- A unit that starts no pair is a character of its own. -/
theorem arrayFrom_cons {high : UInt16} {text : JsString}
    (h : ∀ low ∈ text.head?, ¬ (isHighSurrogate high ∧ isLowSurrogate low)) :
    arrayFrom (high :: text) = [high] :: arrayFrom text := by
  cases text with
  | nil => rfl
  | cons low rest => rw [arrayFrom, if_neg (h low rfl)]

theorem head?_flatten_take {low : UInt16} {rest : JsString} {n : Nat} {unit : UInt16}
    (h : unit ∈ ((arrayFrom (low :: rest)).take n).flatten.head?) : unit = low := by
  cases n with
  | zero => cases h
  | succ n =>
      cases rest with
      | nil =>
          cases h
          rfl
      | cons next rest =>
          rw [arrayFrom] at h
          split at h
          · cases h
            rfl
          · cases h
            rfl

/-- The first characters of a text are the characters of a text. -/
theorem arrayFrom_take (text : JsString) (n : Nat) :
    arrayFrom ((arrayFrom text).take n).flatten = (arrayFrom text).take n := by
  induction text using arrayFrom.induct generalizing n with
  | case1 => rw [arrayFrom, List.take_nil, List.flatten_nil, arrayFrom]
  | case2 unit =>
      cases n with
      | zero => rfl
      | succ n =>
          rw [arrayFrom, List.take_succ_cons, List.take_nil]
          rfl
  | case3 high low rest hpair ih =>
      cases n with
      | zero => rfl
      | succ n =>
          rw [arrayFrom, if_pos hpair, List.take_succ_cons, List.flatten_cons]
          show arrayFrom (high :: low :: ((arrayFrom rest).take n).flatten) = _
          rw [arrayFrom, if_pos hpair, ih]
  | case4 high low rest hpair ih =>
      cases n with
      | zero => rfl
      | succ n =>
          rw [arrayFrom, if_neg hpair, List.take_succ_cons, List.flatten_cons]
          show arrayFrom (high :: ((arrayFrom (low :: rest)).take n).flatten) = _
          rw [arrayFrom_cons, ih]
          intro unit hunit
          rw [head?_flatten_take hunit]
          exact hpair

/-- The last characters of a text are the characters of a text. -/
theorem arrayFrom_drop (text : JsString) (n : Nat) :
    arrayFrom ((arrayFrom text).drop n).flatten = (arrayFrom text).drop n := by
  induction text using arrayFrom.induct generalizing n with
  | case1 => rw [arrayFrom, List.drop_nil, List.flatten_nil, arrayFrom]
  | case2 unit =>
      cases n with
      | zero => rfl
      | succ n =>
          rw [arrayFrom, List.drop_succ_cons, List.drop_nil]
          rfl
  | case3 high low rest hpair ih =>
      cases n with
      | zero => rw [List.drop_zero, flatten_arrayFrom]
      | succ n => rw [arrayFrom, if_pos hpair, List.drop_succ_cons, ih]
  | case4 high low rest hpair ih =>
      cases n with
      | zero => rw [List.drop_zero, flatten_arrayFrom]
      | succ n => rw [arrayFrom, if_neg hpair, List.drop_succ_cons, ih]

/-- `Array.from(text).slice(offset, offset + length).join("")`. -/
def window (text : JsString) (offset length : Nat) : JsString :=
  (((arrayFrom text).drop offset).take length).flatten

/-- A window has as many characters as it takes. -/
theorem length_arrayFrom_window {text : JsString} {offset length : Nat}
    (h : offset + length ≤ (arrayFrom text).length) :
    (arrayFrom (window text offset length)).length = length := by
  have hdrop := arrayFrom_drop text offset
  have htake := arrayFrom_take ((arrayFrom text).drop offset).flatten length
  rw [hdrop] at htake
  rw [window, htake, List.length_take, List.length_drop]
  omega

theorem window_ne_nil {text : JsString} {offset length : Nat} (hpos : 0 < length)
    (h : offset + length ≤ (arrayFrom text).length) : window text offset length ≠ [] := by
  intro hnil
  have hlength := length_arrayFrom_window h
  rw [hnil] at hlength
  simp only [arrayFrom, List.length_nil] at hlength
  omega

/-! ## Windows -/

def textBindingEdgeWindowCanonicalLength : Int := 160

/-- The offsets of a loop from one number up to another. -/
def offsetsUpTo (first last : Int) : List Int :=
  (List.range (last + 1 - first).toNat).map fun step : Nat => first + (step : Int)

def textBindingCandidateWindowOffsets (candidateCanonicalLength bindingCanonicalLength : JsNumber) :
    Except JsError (List Int) :=
  match candidateCanonicalLength.toInt?, bindingCanonicalLength.toInt? with
  | some candidate, some binding =>
      if candidate < binding ∨ binding ≤ 0 then .ok []
      else
        let maxStart := candidate - binding
        let leadingLimit := min textBindingEdgeWindowCanonicalLength maxStart
        let leading : OrderedSet Int := (∅ : OrderedSet Int).addAll (offsetsUpTo 0 leadingLimit)
        let trailingStart := max 0 (maxStart - textBindingEdgeWindowCanonicalLength)
        let offsets := leading.addAll (offsetsUpTo trailingStart maxStart)
        .ok (offsets.members.mergeSort fun left right => decide (left - right ≤ 0))
  | _, _ => .error (.typeError (js "canonical lengths must be integers"))

theorem mem_offsetsUpTo {first last offset : Int} :
    offset ∈ offsetsUpTo first last ↔ first ≤ offset ∧ offset ≤ last := by
  simp only [offsetsUpTo, List.mem_map, List.mem_range]
  constructor
  · rintro ⟨step, hstep, rfl⟩
    omega
  · rintro ⟨hfirst, hlast⟩
    exact ⟨(offset - first).toNat, by omega, by omega⟩

/-- A set that is sorted lists its members once, in order. -/
theorem pairwise_lt_mergeSort {offsets : List Int} (hnodup : offsets.Nodup) :
    (offsets.mergeSort fun left right => decide (left - right ≤ 0)).Pairwise (· < ·) := by
  have hsorted : (offsets.mergeSort fun left right => decide (left - right ≤ 0)).Pairwise
      fun left right => left ≤ right := by
    have hpairwise : (offsets.mergeSort fun left right => decide (left - right ≤ 0)).Pairwise
        fun left right => decide (left - right ≤ 0) = true := by
      apply List.pairwise_mergeSort
      · intro a b c
        simp only [decide_eq_true_eq]
        omega
      · intro a b
        simp only [Bool.or_eq_true, decide_eq_true_eq]
        omega
    apply hpairwise.imp
    intro a b hab
    rw [decide_eq_true_eq] at hab
    omega
  have hdistinct : (offsets.mergeSort fun left right => decide (left - right ≤ 0)).Nodup :=
    (List.mergeSort_perm offsets _).nodup_iff.2 hnodup
  apply (hsorted.and hdistinct).imp
  intro a b hab
  exact lt_of_le_of_ne hab.1 hab.2

/-- The offsets for lengths that are integers. -/
theorem windowOffsets_spec (candidate binding : Int) :
    ∃ offsets, textBindingCandidateWindowOffsets (.ofInt candidate) (.ofInt binding) =
        .ok offsets ∧
      offsets.Pairwise (· < ·) ∧
      ∀ offset, offset ∈ offsets ↔ 0 < binding ∧ binding ≤ candidate ∧
        ((0 ≤ offset ∧ offset ≤ min 160 (candidate - binding)) ∨
          (max 0 (candidate - binding - 160) ≤ offset ∧ offset ≤ candidate - binding)) := by
  unfold textBindingCandidateWindowOffsets
  simp only [JsNumber.toInt?_ofInt]
  by_cases hempty : candidate < binding ∨ binding ≤ 0
  · rw [if_pos hempty]
    refine ⟨[], rfl, List.Pairwise.nil, ?_⟩
    intro offset
    rw [List.mem_nil_iff, false_iff]
    omega
  · rw [if_neg hempty]
    refine ⟨_, rfl, pairwise_lt_mergeSort (OrderedSet.nodup _), ?_⟩
    intro offset
    rw [List.mem_mergeSort, OrderedSet.mem_members, OrderedSet.mem_addAll, OrderedSet.mem_addAll,
      mem_offsetsUpTo, mem_offsetsUpTo]
    have hnot : offset ∉ (∅ : OrderedSet Int) := OrderedSet.not_mem_empty offset
    unfold textBindingEdgeWindowCanonicalLength
    constructor
    · rintro (htrailing | hleading | hnever)
      · exact ⟨by omega, by omega, Or.inr htrailing⟩
      · exact ⟨by omega, by omega, Or.inl hleading⟩
      · exact absurd hnever hnot
    · rintro ⟨-, -, hleading | htrailing⟩
      · exact Or.inr (Or.inl hleading)
      · exact Or.inl htrailing

/-! ## Bindings of texts -/

/-- What the canonical text takes from Unicode. -/
structure UnicodeData where
  /-- `input.normalize("NFKC")`. -/
  nfkc : JsString → JsString
  /-- `unicodeFullCasefold`. -/
  casefold : JsString → JsString
  isLetterNumberOrMark : JsString → Bool

def canonicalizeTextForBinding (U : UnicodeData) (input : JsString) : JsString :=
  ((arrayFrom (U.casefold (U.nfkc input))).filter U.isLetterNumberOrMark).flatten

def computeTextBindingCommitment (P : Platform) (sessionId canonicalForm : JsString) :
    Except JsError B3Hash :=
  if !isUuid sessionId then
    .error (.typeError (js "session_id must be a lowercase UUIDv4 string"))
  else if canonicalForm.length = 0 then
    .error (.typeError (js "text binding canonical form must not be empty"))
  else .ok (P.blake3 (utf8ToBytes sessionId ++ utf8ToBytes canonicalForm))

def createTextBinding (P : Platform) (U : UnicodeData) (input sessionId : JsString) :
    Except JsError Json :=
  let canonicalForm := canonicalizeTextForBinding U input
  (computeTextBindingCommitment P sessionId canonicalForm).map fun commitment =>
    .obj [(js "scheme", .str textBindingScheme),
      (js "canonical_length", Json.ofNat (arrayFrom canonicalForm).length),
      (js "commitment", .str commitment.text)]

structure TextBindingVerificationResult where
  valid : Bool
  canonicalLength : Option Json
  candidateCanonicalLength : Nat
  matchStartCanonicalOffset : Option Nat
  leadingCanonicalLength : Option Nat
  trailingCanonicalLength : Option Int
  checkedWindowCount : Nat
  errors : List JsString

/-- The first offset whose window has the commitment of the binding. -/
def matchingOffset (P : Platform) (sessionId candidateCanonical : JsString) (length : Nat)
    (commitment : JsString) : List Int → Except JsError (Option Nat)
  | [] => .ok none
  | offset :: offsets =>
      match computeTextBindingCommitment P sessionId
          (window candidateCanonical offset.toNat length) with
      | .error thrown => .error thrown
      | .ok computed =>
          if computed.text = commitment then .ok (some offset.toNat)
          else matchingOffset P sessionId candidateCanonical length commitment offsets

/-- Reading a field of `null` throws. -/
def nullBindingError : JsError :=
  .typeError (js "Cannot read properties of null (reading 'canonical_length')")

def verifyTextBindingCandidate (P : Platform) (U : UnicodeData) (binding : Json)
    (candidateText sessionId : JsString) : Except JsError TextBindingVerificationResult :=
  let errors := validateTextBinding binding ++
    require (isUuid sessionId) (js "session_id must be a lowercase UUIDv4 string")
  let candidateCanonical := canonicalizeTextForBinding U candidateText
  let candidateLength := (arrayFrom candidateCanonical).length
  let length := binding.natAt (js "canonical_length")
  let result (found : Option Nat) (checked : Nat) (errors : List JsString) :
      Except JsError TextBindingVerificationResult :=
    match binding with
    | .null => .error nullBindingError
    | _ => .ok
      { valid := found.isSome
        canonicalLength := binding.field (js "canonical_length")
        candidateCanonicalLength := candidateLength
        matchStartCanonicalOffset := found
        leadingCanonicalLength := found
        trailingCanonicalLength :=
          found.map fun offset : Nat => (candidateLength : Int) - (offset : Int) - length
        checkedWindowCount := checked
        errors := errors }
  if !errors.isEmpty then result none 0 errors
  else if candidateLength < length then
    result none 0 [js "canonical length shorter than signed text: expected at least " ++
      natText length ++ js ", got " ++ natText candidateLength]
  else
    match textBindingCandidateWindowOffsets (.ofNat candidateLength) (.ofNat length) with
    | .error thrown => .error thrown
    | .ok offsets =>
        match matchingOffset P sessionId candidateCanonical length
            (binding.textAt (js "commitment")) offsets with
        | .error thrown => .error thrown
        | .ok none => result none offsets.length [js "text binding commitment mismatch"]
        | .ok (some offset) => result (some offset) offsets.length []

variable {P : Platform} {U : UnicodeData}

theorem computeTextBindingCommitment_ok {sessionId canonicalForm : JsString}
    (hsession : isUuid sessionId = true) (hform : canonicalForm ≠ []) :
    computeTextBindingCommitment P sessionId canonicalForm =
      .ok (P.blake3 (utf8ToBytes sessionId ++ utf8ToBytes canonicalForm)) := by
  have hlength : ¬ canonicalForm.length = 0 := by
    rw [List.length_eq_zero_iff]
    exact hform
  unfold computeTextBindingCommitment
  rw [hsession, if_neg (by decide), if_neg hlength]

/-- The window has the commitment. -/
def WindowMatches (P : Platform) (sessionId candidateCanonical : JsString) (length : Nat)
    (commitment : JsString) (offset : Nat) : Prop :=
  ∃ computed, computeTextBindingCommitment P sessionId
    (window candidateCanonical offset length) = .ok computed ∧ computed.text = commitment

/-- The search ends at the first match in the order of the offsets. -/
theorem matchingOffset_spec {sessionId candidateCanonical : JsString} {length : Nat}
    {commitment : JsString} (hsession : isUuid sessionId = true) {offsets : List Int}
    (hforms : ∀ offset ∈ offsets, window candidateCanonical offset.toNat length ≠ [])
    (hsorted : offsets.Pairwise (· < ·)) :
    (matchingOffset P sessionId candidateCanonical length commitment offsets = .ok none ∧
      ∀ offset ∈ offsets,
        ¬ WindowMatches P sessionId candidateCanonical length commitment offset.toNat) ∨
    ∃ found ∈ offsets,
      matchingOffset P sessionId candidateCanonical length commitment offsets =
        .ok (some found.toNat) ∧
      WindowMatches P sessionId candidateCanonical length commitment found.toNat ∧
      ∀ offset ∈ offsets,
        WindowMatches P sessionId candidateCanonical length commitment offset.toNat →
        found ≤ offset := by
  induction offsets with
  | nil => exact Or.inl ⟨rfl, fun offset h => absurd h List.not_mem_nil⟩
  | cons first offsets ih =>
      obtain ⟨hfirst, hrest⟩ := List.pairwise_cons.1 hsorted
      have hcompute := computeTextBindingCommitment_ok (P := P) hsession
        (hforms first List.mem_cons_self)
      rw [matchingOffset, hcompute]
      simp only
      split
      · rename_i hmatch
        right
        refine ⟨first, List.mem_cons_self, rfl, ⟨_, hcompute, hmatch⟩, ?_⟩
        intro offset hoffset _
        rcases List.mem_cons.1 hoffset with rfl | hoffset
        · exact le_refl _
        · exact le_of_lt (hfirst offset hoffset)
      · rename_i hother
        have hskip :
            ¬ WindowMatches P sessionId candidateCanonical length commitment first.toNat := by
          rintro ⟨computed, hcomputed, htext⟩
          rw [hcompute, Except.ok.injEq] at hcomputed
          rw [← hcomputed] at htext
          exact hother htext
        rcases ih (fun offset h => hforms offset (List.mem_cons_of_mem _ h)) hrest with
          ⟨hnone, hall⟩ | ⟨found, hfound, hsome, hmatches, hleast⟩
        · left
          refine ⟨hnone, ?_⟩
          intro offset hoffset
          rcases List.mem_cons.1 hoffset with rfl | hoffset
          · exact hskip
          · exact hall offset hoffset
        · right
          refine ⟨found, List.mem_cons_of_mem _ hfound, hsome, hmatches, ?_⟩
          intro offset hoffset hmatch
          rcases List.mem_cons.1 hoffset with rfl | hoffset
          · exact absurd hmatch hskip
          · exact hleast offset hoffset hmatch

/-! ## Created bindings -/

theorem isHexUnit_hexUnit : ∀ n : Fin 16, isHexUnit (hexUnit n) = true := by decide

theorem isB3HashText_text (hash : B3Hash) : isB3HashText hash.text = true := by
  have hhex : ∀ bytes, (bytesToHex bytes).length = 2 * bytes.length ∧
      ∀ unit ∈ bytesToHex bytes, isHexUnit unit = true := by
    intro bytes
    induction bytes with
    | nil => exact ⟨rfl, fun unit h => absurd h List.not_mem_nil⟩
    | cons byte bytes ih =>
        have hbyte : byte.toNat < 256 := byte.toNat_lt
        refine ⟨?_, ?_⟩
        · show (bytesToHex bytes).length + 1 + 1 = 2 * (bytes.length + 1)
          omega
        · intro unit hunit
          change unit ∈ hexUnit (byte.toNat / 16) :: hexUnit (byte.toNat % 16) ::
            bytesToHex bytes at hunit
          rcases List.mem_cons.1 hunit with rfl | hunit
          · exact isHexUnit_hexUnit ⟨byte.toNat / 16, by omega⟩
          · rcases List.mem_cons.1 hunit with rfl | hunit
            · exact isHexUnit_hexUnit ⟨byte.toNat % 16, by omega⟩
            · exact ih.2 unit hunit
  obtain ⟨hlength, hunits⟩ := hhex hash.bytes
  have hprefix : hashPrefix.length = 3 := by decide
  unfold isB3HashText B3Hash.text
  rw [← hprefix, List.take_left, List.drop_left, List.length_append, hlength, hash.length_eq,
    hprefix, Bool.and_eq_true, Bool.and_eq_true]
  exact ⟨⟨beq_self_eq_true _, rfl⟩, List.all_eq_true.2 hunits⟩

/-- Every binding that is created is valid, while its length can be stated. -/
theorem createTextBinding_valid {input sessionId : JsString} {binding : Json}
    (hcreated : createTextBinding P U input sessionId = .ok binding)
    (hlength : (arrayFrom (canonicalizeTextForBinding U input)).length ≤ maxIntegerFieldValue) :
    validateTextBinding binding = [] := by
  unfold createTextBinding computeTextBindingCommitment at hcreated
  simp only at hcreated
  split at hcreated
  · cases hcreated
  · split at hcreated
    · cases hcreated
    · rename_i hform
      cases hcreated
      apply validateTextBinding_eq_nil.2
      refine ⟨⟨(arrayFrom (canonicalizeTextForBinding U input)).length, _⟩,
        ⟨?_, hlength, isB3HashText_text _⟩, rfl, fun key hkey => hkey, rfl, rfl, rfl⟩
      apply List.length_pos_of_ne_nil
      intro hnil
      apply hform
      rw [← flatten_arrayFrom (canonicalizeTextForBinding U input), hnil]
      rfl

/-! ## The check -/

/-- A start offset near the beginning or near the end, where there is room. -/
def IsWindowOffset (candidate length offset : Nat) : Prop :=
  length ≤ candidate ∧ offset ≤ candidate - length ∧
    (offset ≤ 160 ∨ candidate - length ≤ offset + 160)

/-- What a check of a candidate finds. -/
structure ChecksWindows (P : Platform) (sessionId canonical : JsString) (length : Nat)
    (commitment : JsString) (result : TextBindingVerificationResult) : Prop where
  valid_iff : result.valid = true ↔ ∃ offset,
    IsWindowOffset (arrayFrom canonical).length length offset ∧
      WindowMatches P sessionId canonical length commitment offset
  reports : result.valid = true → ∃ offset, result.matchStartCanonicalOffset = some offset ∧
    IsWindowOffset (arrayFrom canonical).length length offset ∧
    WindowMatches P sessionId canonical length commitment offset ∧
    (∀ other, IsWindowOffset (arrayFrom canonical).length length other →
      WindowMatches P sessionId canonical length commitment other → offset ≤ other) ∧
    result.leadingCanonicalLength = some offset ∧
    ∃ trailing : Nat, result.trailingCanonicalLength = some (trailing : Int) ∧
      offset + length + trailing = (arrayFrom canonical).length

theorem checksWindows_none {sessionId canonical : JsString} {length : Nat}
    {commitment : JsString} {result : TextBindingVerificationResult}
    (hvalid : result.valid = false)
    (hnone : ∀ offset, IsWindowOffset (arrayFrom canonical).length length offset →
      ¬ WindowMatches P sessionId canonical length commitment offset) :
    ChecksWindows P sessionId canonical length commitment result := by
  refine ⟨?_, ?_⟩
  · rw [hvalid]
    apply iff_of_false Bool.false_ne_true
    rintro ⟨offset, hoffset, hmatch⟩
    exact hnone offset hoffset hmatch
  · rw [hvalid]
    exact fun h => absurd h Bool.false_ne_true

/-- Candidates are checked exactly over the windows. -/
theorem verifyTextBindingCandidate_spec {binding : Json} {candidateText sessionId : JsString}
    (hbinding : validateTextBinding binding = []) (hsession : isUuid sessionId = true) :
    ∃ result, verifyTextBindingCandidate P U binding candidateText sessionId = .ok result ∧
      ChecksWindows P sessionId (canonicalizeTextForBinding U candidateText)
        (binding.natAt (js "canonical_length")) (binding.textAt (js "commitment")) result := by
  obtain ⟨read, hread, hreads⟩ := validateTextBinding_eq_nil.1 hbinding
  have hpos : 0 < binding.natAt (js "canonical_length") := by
    have hlength := congrArg TextBinding.canonicalLength (readTextBinding_of_reads hreads)
    rw [show binding.natAt (js "canonical_length") = read.canonicalLength from hlength]
    exact hread.length_pos
  have hobject : ∃ fields, binding = .obj fields := by
    cases binding with
    | obj fields => exact ⟨fields, rfl⟩
    | null | bool _ | num _ | str _ | arr _ => cases hreads.isObject
  obtain ⟨fields, rfl⟩ := hobject
  unfold verifyTextBindingCandidate
  simp only [hbinding, hsession, require, List.nil_append, if_true, List.isEmpty_nil,
    Bool.not_true, Bool.false_eq_true, if_false]
  generalize canonicalizeTextForBinding U candidateText = canonical
  generalize hcommitment : (Json.obj fields).textAt (js "commitment") = commitment
  generalize hlength : (Json.obj fields).natAt (js "canonical_length") = length at hpos
  split
  · rename_i hshort
    refine ⟨_, rfl, checksWindows_none rfl ?_⟩
    rintro offset ⟨hle, -, -⟩
    omega
  · rename_i hroom
    obtain ⟨offsets, hoffsets, hsorted, hmem⟩ :=
      windowOffsets_spec (arrayFrom canonical).length length
    have hwindow : ∀ {offset : Int}, offset ∈ offsets ↔
        0 ≤ offset ∧ IsWindowOffset (arrayFrom canonical).length length offset.toNat := by
      intro offset
      rw [hmem, IsWindowOffset]
      omega
    have hforms : ∀ offset ∈ offsets, window canonical offset.toNat length ≠ [] := by
      intro offset hoffset
      obtain ⟨-, hle, hlast, -⟩ := hwindow.1 hoffset
      exact window_ne_nil hpos (by omega)
    rw [JsNumber.ofNat, JsNumber.ofNat, hoffsets]
    simp only
    rcases @matchingOffset_spec P _ _ _ commitment hsession _ hforms hsorted with
      ⟨hnone, hall⟩ | ⟨found, hfound, hsome, hmatch, hleast⟩
    · rw [hnone]
      refine ⟨_, rfl, checksWindows_none rfl ?_⟩
      intro offset hoffset
      exact hall (offset : Int) (hwindow.2 ⟨Int.natCast_nonneg offset, hoffset⟩)
    · rw [hsome]
      obtain ⟨hnonneg, hoffset⟩ := hwindow.1 hfound
      refine ⟨_, rfl, ⟨iff_of_true rfl ⟨_, hoffset, hmatch⟩, fun _ => ?_⟩⟩
      refine ⟨found.toNat, rfl, hoffset, hmatch, ?_, rfl, ?_⟩
      · intro other hother hmatches
        have := hleast (other : Int) (hwindow.2 ⟨Int.natCast_nonneg other, hother⟩) hmatches
        omega
      · obtain ⟨hle, hlast, -⟩ := hoffset
        refine ⟨(arrayFrom canonical).length - found.toNat - length, ?_, by omega⟩
        show some (((arrayFrom canonical).length : Int) - (found.toNat : Int) - length) = some _
        congr 1
        omega

/-- A binding of a text that is a window of the candidate is found. -/
theorem verifyTextBindingCandidate_created {binding : Json}
    {input candidateText sessionId : JsString} {offset length : Nat}
    (hcreated : createTextBinding P U input sessionId = .ok binding)
    (hbinding : validateTextBinding binding = [])
    (hoffset : IsWindowOffset
      (arrayFrom (canonicalizeTextForBinding U candidateText)).length length offset)
    (hform : canonicalizeTextForBinding U input =
      window (canonicalizeTextForBinding U candidateText) offset length) :
    ∃ result, verifyTextBindingCandidate P U binding candidateText sessionId = .ok result ∧
      result.valid = true := by
  unfold createTextBinding at hcreated
  simp only at hcreated
  cases hcompute : computeTextBindingCommitment P sessionId (canonicalizeTextForBinding U input)
    with
  | error thrown =>
      rw [hcompute] at hcreated
      cases hcreated
  | ok commitment =>
      rw [hcompute] at hcreated
      have hsession : isUuid sessionId = true := by
        by_contra hnot
        unfold computeTextBindingCommitment at hcompute
        rw [if_pos (by simpa using hnot)] at hcompute
        cases hcompute
      have hcount : (arrayFrom (canonicalizeTextForBinding U input)).length = length := by
        rw [hform]
        apply length_arrayFrom_window
        obtain ⟨hle, hlast, -⟩ := hoffset
        omega
      obtain ⟨result, hresult, hchecks⟩ :=
        @verifyTextBindingCandidate_spec P U _ candidateText _ hbinding hsession
      refine ⟨result, hresult, hchecks.valid_iff.2 ⟨offset, ?_⟩⟩
      cases hcreated
      have hlength : (Json.obj [(js "scheme", .str textBindingScheme),
          (js "canonical_length", Json.ofNat (arrayFrom (canonicalizeTextForBinding U input)).length),
          (js "commitment", .str commitment.text)]).natAt (js "canonical_length") = length :=
        hcount
      rw [hlength]
      refine ⟨hoffset, commitment, ?_, rfl⟩
      rw [← hform, hcompute]

/-- The check of a text binding is exact over its windows. -/
theorem textBinding_windows (P : Platform) (U : UnicodeData) :
    (∀ candidate length : Nat, 0 < length → ∃ offsets,
      textBindingCandidateWindowOffsets (.ofNat candidate) (.ofNat length) = .ok offsets ∧
      offsets.Pairwise (· < ·) ∧
      ∀ offset : Int, offset ∈ offsets ↔
        0 ≤ (candidate : Int) - length ∧
        ((0 ≤ offset ∧ offset ≤ min 160 ((candidate : Int) - length)) ∨
          (max 0 ((candidate : Int) - length - 160) ≤ offset ∧
            offset ≤ (candidate : Int) - length))) ∧
    (∀ binding candidateText sessionId, validateTextBinding binding = [] →
      isUuid sessionId = true →
      ∃ result, verifyTextBindingCandidate P U binding candidateText sessionId = .ok result ∧
        ChecksWindows P sessionId (canonicalizeTextForBinding U candidateText)
          (binding.natAt (js "canonical_length")) (binding.textAt (js "commitment")) result) ∧
    ∀ input candidateText sessionId binding offset length,
      createTextBinding P U input sessionId = .ok binding → validateTextBinding binding = [] →
      IsWindowOffset (arrayFrom (canonicalizeTextForBinding U candidateText)).length length
        offset →
      canonicalizeTextForBinding U input =
        window (canonicalizeTextForBinding U candidateText) offset length →
      ∃ result, verifyTextBindingCandidate P U binding candidateText sessionId = .ok result ∧
        result.valid = true := by
  refine ⟨?_, ?_, ?_⟩
  · intro candidate length hpos
    obtain ⟨offsets, hoffsets, hsorted, hmem⟩ := windowOffsets_spec candidate length
    refine ⟨offsets, hoffsets, hsorted, ?_⟩
    intro offset
    rw [hmem]
    omega
  · exact fun binding candidateText sessionId => verifyTextBindingCandidate_spec
  · intro input candidateText sessionId binding offset length hcreated hbinding hoffset hform
    exact verifyTextBindingCandidate_created hcreated hbinding hoffset hform

/-! ## A letter between two others -/

/-- Plain text, of which every character counts. -/
def plainUnicode : UnicodeData where
  nfkc := id
  casefold := id
  isLetterNumberOrMark _ := true

/-- A binding of the second letter is found in the three. -/
theorem textBinding_windows_letter :
    ∃ binding result, createTextBinding Platform.standard plainUnicode (js "b")
        (js "00000000-0000-4000-8000-000000000001") = .ok binding ∧
      verifyTextBindingCandidate Platform.standard plainUnicode binding (js "abc")
        (js "00000000-0000-4000-8000-000000000001") = .ok result ∧ result.valid = true := by
  have hcreated : createTextBinding Platform.standard plainUnicode (js "b")
      (js "00000000-0000-4000-8000-000000000001") = .ok (.obj
        [(js "scheme", .str textBindingScheme), (js "canonical_length", Json.ofNat 1),
          (js "commitment", .str (Platform.standard.blake3
            (utf8ToBytes (js "00000000-0000-4000-8000-000000000001") ++
              utf8ToBytes (js "b"))).text)]) := by
    have hsession : isUuid (js "00000000-0000-4000-8000-000000000001") = true := by
      decide +kernel
    have hform : js "b" ≠ [] := by decide
    unfold createTextBinding
    simp only
    rw [show canonicalizeTextForBinding plainUnicode (js "b") = js "b" by decide +kernel,
      computeTextBindingCommitment_ok hsession hform]
    rfl
  have hvalid := createTextBinding_valid hcreated (by decide +kernel)
  obtain ⟨result, hresult, hfound⟩ :=
    (textBinding_windows Platform.standard plainUnicode).2.2 (js "b") (js "abc") _ _ 1 1 hcreated
      hvalid (by unfold IsWindowOffset; decide +kernel) (by decide +kernel)
  exact ⟨_, result, hcreated, hresult, hfound⟩

end Pmbah.Format
