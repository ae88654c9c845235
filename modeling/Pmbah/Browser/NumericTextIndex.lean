import Mathlib.Algebra.Order.Ring.Int
import Mathlib.Data.List.Sort
import Pmbah.Js.Value
import Pmbah.Library.LazyTreap
import Pmbah.Library.Transition

/-!
# The numeric text index

A text field is measured in code points without reading it again for every edit.
The index keeps the length in code units and, in a treap, where the surrogate pairs
begin; an edit rescans the inserted span and the code units next to it.
-/

namespace Pmbah.Browser

open Js Library

structure NumericTextIndex where
  root : LazyTreap Int Nat
  seed : UInt32
  utf16Length : Nat

/-- A high surrogate with a low one after it. -/
def pairAt (text : JsString) (offset : Nat) : Bool :=
  text[offset]?.any isHighSurrogate && text[offset + 1]?.any isLowSurrogate

def splice (text : JsString) (start stop : Nat) (inserted : JsString) : JsString :=
  text.take start ++ inserted ++ text.drop stop

namespace NumericTextIndex

def nextSeed (seed : UInt32) : UInt32 :=
  let seed := seed ^^^ (seed <<< 13)
  let seed := seed ^^^ (seed >>> 17)
  seed ^^^ (seed <<< 5)

/-- One turn of the scan's loop. -/
def scanAt (text : JsString) (state : UInt32 × LazyTreap Int Nat) (offset : Nat) :
    UInt32 × LazyTreap Int Nat :=
  if pairAt text offset then
    let seed := nextSeed state.1
    (seed, state.2.merge (.node offset seed.toNat 1 0 .nil .nil))
  else state

def scan (seed : UInt32) (text : JsString) (start stop : Nat) : UInt32 × LazyTreap Int Nat :=
  (List.range' start (min stop (text.length - 1) - start)).foldl (scanAt text) (seed, .nil)

def reset (index : NumericTextIndex) (text : JsString) : NumericTextIndex :=
  let (seed, root) := scan index.seed text 0 text.length
  { root, seed, utf16Length := text.length }

def new (text : JsString) : NumericTextIndex :=
  reset { root := .nil, seed := 0x9e3779b9, utf16Length := 0 } text

def length (index : NumericTextIndex) : Int := index.utf16Length - index.root.count

/-- The code points before a place; looking for it passes shifts on in the treap. -/
def offset (index : NumericTextIndex) (utf16 : Int) : Int × NumericTextIndex :=
  let offset : Int := max 0 (min (index.utf16Length : Int) utf16)
  let (preceding, root) := index.root.preceding (offset - 1)
  (offset - preceding, { index with root })

/-- Replaces a span of which the text afterwards is given. -/
def replace (index : NumericTextIndex) (textAfter : JsString) (start stop : Int) :
    Except JsError NumericTextIndex :=
  if start < 0 ∨ stop < start ∨ index.utf16Length < stop then
    .error (.rangeError (js "Invalid numeric text span"))
  else
    let inserted : Int := textAfter.length - index.utf16Length + stop - start
    if inserted < 0 then .error (.rangeError (js "Invalid numeric text delta"))
    else
      let first := max 0 (start - 1)
      let (before, rest) := index.root.split first
      let (_, after) := rest.split (stop + 1)
      let after := after.shift (textAfter.length - index.utf16Length)
      let (seed, middle) := scan index.seed textAfter first.toNat (start + inserted + 1).toNat
      .ok { root := (before.merge middle).merge after, seed, utf16Length := textAfter.length }

end NumericTextIndex

/-! ## Surrogate pairs -/

/-- Where the surrogate pairs of a text begin. -/
def pairs (text : JsString) : List Nat := (List.range text.length).filter (pairAt text)

theorem high_of_pairAt {text : JsString} {offset : Nat} (h : pairAt text offset = true) :
    offset + 1 < text.length := by
  rw [pairAt, Bool.and_eq_true] at h
  obtain ⟨unit, hunit, -⟩ := (Option.any_eq_true _ _).1 h.2
  exact (List.getElem?_eq_some_iff.1 hunit).1

theorem mem_pairs {text : JsString} {offset : Nat} :
    offset ∈ pairs text ↔ pairAt text offset = true := by
  rw [pairs, List.mem_filter, List.mem_range]
  refine ⟨fun h => h.2, fun h => ⟨?_, h⟩⟩
  have := high_of_pairAt h
  omega

theorem pairs_cons (unit : UInt16) (text : JsString) :
    pairs (unit :: text) =
      (if pairAt (unit :: text) 0 then [0] else []) ++ (pairs text).map (· + 1) := by
  have hrest : ((List.range text.length).map Nat.succ).filter (pairAt (unit :: text)) =
      (pairs text).map (· + 1) := by
    rw [List.filter_map, pairs]
    rfl
  rw [pairs, List.length_cons, List.range_succ_eq_map, List.filter_cons, hrest]
  split <;> rfl

theorem not_high_of_low {unit : UInt16} (h : isLowSurrogate unit = true) :
    isHighSurrogate unit = false := by
  simp only [isLowSurrogate, isHighSurrogate, Bool.decide_and, Bool.and_eq_true,
    decide_eq_true_eq, Bool.and_eq_false_iff, decide_eq_false_iff_not] at h ⊢
  omega

/-- A text has a code point for each code unit but the second of a pair. -/
theorem length_codePoints (text : JsString) :
    (codePoints text).length + (pairs text).length = text.length := by
  induction text using codePoints.induct with
  | case1 => rfl
  | case2 unit => simp [codePoints, pairAt, pairs]
  | case3 high low rest hpair ih =>
      have hfirst : pairAt (high :: low :: rest) 0 = true := by
        simp [pairAt, hpair]
      have hsecond : pairAt (low :: rest) 0 = false := by
        simp [pairAt, not_high_of_low hpair.2]
      rw [codePoints, if_pos hpair, pairs_cons, if_pos hfirst, pairs_cons, if_neg (by simp [hsecond])]
      simp only [List.length_cons, List.length_append, List.length_map, List.length_nil] at ih ⊢
      omega
  | case4 high low rest hpair ih =>
      have hfirst : pairAt (high :: low :: rest) 0 = false := by
        simpa [pairAt] using hpair
      rw [codePoints, if_neg hpair, pairs_cons, if_neg (by simp [hfirst])]
      simp only [List.length_cons, List.length_append, List.length_map, List.length_nil] at ih ⊢
      omega

theorem pairAt_take (text : JsString) (place offset : Nat) :
    pairAt (text.take place) offset = (pairAt text offset && decide (offset + 1 < place)) := by
  by_cases hlt : offset + 1 < place
  · rw [pairAt, List.getElem?_take_of_lt (by omega), List.getElem?_take_of_lt hlt,
      decide_eq_true hlt, Bool.and_true, pairAt]
  · have hnone : (text.take place)[offset + 1]? = none := by
      rw [List.getElem?_eq_none_iff, List.length_take]
      omega
    rw [pairAt, hnone, decide_eq_false hlt, Bool.and_false]
    simp

theorem sorted_pairs (text : JsString) : (pairs text).Pairwise (· < ·) :=
  List.pairwise_lt_range.filter _

/-- The pairs of the front of a text are those that end before the cut. -/
theorem pairs_take (text : JsString) (place : Nat) :
    pairs (text.take place) = (pairs text).filter (· + 1 < place) := by
  apply (sorted_pairs _).eq_of_mem_iff ((sorted_pairs text).filter _)
  intro offset
  rw [mem_pairs, pairAt_take, List.mem_filter, mem_pairs, Bool.and_eq_true]

theorem pairAt_append_left {first second : JsString} {offset : Nat}
    (h : offset + 1 < first.length) : pairAt (first ++ second) offset = pairAt first offset := by
  rw [pairAt, List.getElem?_append_left (by omega), List.getElem?_append_left h, pairAt]

theorem pairAt_append_right {first second : JsString} {offset : Nat}
    (h : first.length ≤ offset) :
    pairAt (first ++ second) offset = pairAt second (offset - first.length) := by
  rw [pairAt, List.getElem?_append_right h, List.getElem?_append_right (by omega), pairAt,
    Nat.sub_add_comm h]

theorem pairAt_drop (text : JsString) (count offset : Nat) :
    pairAt (text.drop count) offset = pairAt text (count + offset) := by
  rw [pairAt, List.getElem?_drop, List.getElem?_drop, pairAt, Nat.add_assoc]

theorem length_splice {text : JsString} {start stop : Nat} (inserted : JsString)
    (hstart : start ≤ stop) (hstop : stop ≤ text.length) :
    (splice text start stop inserted).length + stop = text.length + inserted.length + start := by
  rw [splice, List.length_append, List.length_append, List.length_take, List.length_drop]
  omega

/-- Pairs of a text that goes on as another one does after a place. -/
theorem pairAt_front {front text : JsString} {stop offset : Nat} (h : front.length ≤ offset) :
    pairAt (front ++ text.drop stop) offset = pairAt text (offset + stop - front.length) := by
  rw [pairAt_append_right h, pairAt_drop]
  congr 1
  omega

/-- The pairs before a place and the others. -/
theorem pairs_split (text : JsString) (start : Nat) :
    (pairs text).filter (· + 1 < start) ++ (pairs text).filter (start ≤ · + 1) = pairs text := by
  refine List.Pairwise.eq_of_mem_iff (r := (· < ·)) ?_ (sorted_pairs text) ?_
  · rw [List.pairwise_append]
    refine ⟨(sorted_pairs text).filter _, (sorted_pairs text).filter _, ?_⟩
    intro first hfirst second hsecond
    rw [List.mem_filter, decide_eq_true_eq] at hfirst hsecond
    omega
  · intro offset
    rw [List.mem_append, List.mem_filter, List.mem_filter, decide_eq_true_eq, decide_eq_true_eq]
    refine ⟨fun h => h.elim And.left And.left, fun h => ?_⟩
    by_cases hlt : offset + 1 < start
    · exact Or.inl ⟨h, hlt⟩
    · exact Or.inr ⟨h, by omega⟩

/-! ## The index of a text -/

namespace NumericTextIndex

theorem foldl_scanAt (text : JsString) (offsets : List Nat) (seed : UInt32)
    {root : LazyTreap Int Nat} (hroot : root.Counted) :
    (offsets.foldl (scanAt text) (seed, root)).2.Counted ∧
      (offsets.foldl (scanAt text) (seed, root)).2.offsets =
        root.offsets ++ (offsets.filter (pairAt text)).map Int.ofNat := by
  induction offsets generalizing seed root with
  | nil => exact ⟨hroot, (List.append_nil _).symm⟩
  | cons offset offsets ih =>
      rw [List.foldl_cons, scanAt, List.filter_cons]
      split
      · have hnode : (LazyTreap.node (offset : Int) (nextSeed seed).toNat 1 0 .nil .nil).Counted :=
          ⟨rfl, trivial, trivial⟩
        obtain ⟨hcounted, hoffsets⟩ := ih (nextSeed seed) (hroot.merge hnode)
        refine ⟨hcounted, ?_⟩
        rw [hoffsets, LazyTreap.offsets_merge, List.map_cons, List.append_assoc]
        rfl
      · exact ih seed hroot

/-- A scan finds the pairs of its range. -/
theorem scan_spec (seed : UInt32) (text : JsString) (start stop : Nat) :
    (scan seed text start stop).2.Counted ∧
      (scan seed text start stop).2.offsets =
        ((List.range' start (min stop (text.length - 1) - start)).filter (pairAt text)).map
          Int.ofNat :=
  foldl_scanAt text _ seed (show LazyTreap.Counted .nil from trivial)

theorem mem_places {offsets : List Nat} {key : Int} :
    key ∈ offsets.map Int.ofNat ↔ 0 ≤ key ∧ key.toNat ∈ offsets := by
  rw [List.mem_map]
  constructor
  · intro h
    obtain ⟨offset, hoffset, rfl⟩ := h
    exact ⟨Int.natCast_nonneg offset, hoffset⟩
  · intro h
    exact ⟨key.toNat, h.2, Int.toNat_of_nonneg h.1⟩

theorem sorted_places {offsets : List Nat} (h : offsets.Pairwise (· < ·)) :
    (offsets.map Int.ofNat).Pairwise (· < ·) := by
  rw [List.pairwise_map]
  apply h.imp
  intro first second hlt
  exact Int.ofNat_lt.2 hlt

/-- The keys before the span, those of the rescanned part, and those after the span. -/
def replacedKeys (offsets : List Int) (length : Nat) (textAfter : JsString) (start stop : Int) :
    List Int :=
  offsets.filter (· < max 0 (start - 1)) ++
    (((List.range' (max 0 (start - 1)).toNat
      (min (textAfter.length - length + stop + 1 : Int).toNat (textAfter.length - 1) -
        (max 0 (start - 1)).toNat)).filter (pairAt textAfter)).map Int.ofNat ++
      (offsets.filter (stop + 1 ≤ ·)).map (· + ((textAfter.length : Int) - length)))

theorem mem_replacedKeys {offsets : List Int} {length : Nat} {textAfter : JsString}
    {start stop key : Int} (hstart : 0 ≤ start) :
    key ∈ replacedKeys offsets length textAfter start stop ↔
      (key ∈ offsets ∧ key < max 0 (start - 1)) ∨
        ((0 ≤ key ∧ pairAt textAfter key.toNat = true) ∧ start - 1 ≤ key ∧
          key < textAfter.length - length + stop + 1) ∨
        ∃ old ∈ offsets, stop + 1 ≤ old ∧ old + ((textAfter.length : Int) - length) = key := by
  rw [replacedKeys, List.mem_append, List.mem_append, List.mem_filter, mem_places, List.mem_filter,
    List.mem_range'_1, decide_eq_true_eq, List.mem_map]
  apply or_congr Iff.rfl
  apply or_congr
  · constructor
    · intro h
      exact ⟨⟨h.1, h.2.2⟩, by omega⟩
    · intro h
      have hlt := high_of_pairAt h.1.2
      exact ⟨h.1.1, by omega, h.1.2⟩
  · constructor
    · intro h
      obtain ⟨old, hold, hkey⟩ := h
      rw [List.mem_filter, decide_eq_true_eq] at hold
      exact ⟨old, hold.1, hold.2, hkey⟩
    · intro h
      obtain ⟨old, hold, hge, hkey⟩ := h
      refine ⟨old, ?_, hkey⟩
      rw [List.mem_filter, decide_eq_true_eq]
      exact ⟨hold, hge⟩

theorem sorted_replacedKeys {offsets : List Int} {length : Nat} {textAfter : JsString}
    {start stop : Int} (hsorted : offsets.Pairwise (· < ·))
    (hinserted : 0 ≤ (textAfter.length : Int) - length + stop - start) (hstart : 0 ≤ start) :
    (replacedKeys offsets length textAfter start stop).Pairwise (· < ·) := by
  have hmiddle : ∀ key : Int, key ∈ ((List.range' (max 0 (start - 1)).toNat
      (min (textAfter.length - length + stop + 1 : Int).toNat (textAfter.length - 1) -
        (max 0 (start - 1)).toNat)).filter (pairAt textAfter)).map Int.ofNat →
      max 0 (start - 1) ≤ key ∧ key < (textAfter.length : Int) - length + stop + 1 := by
    intro key hkey
    rw [mem_places, List.mem_filter, List.mem_range'_1] at hkey
    omega
  rw [replacedKeys, List.pairwise_append, List.pairwise_append]
  refine ⟨hsorted.filter _, ⟨?_, ?_, ?_⟩, ?_⟩
  · exact sorted_places ((List.pairwise_lt_range' 1).filter _)
  · rw [List.pairwise_map]
    apply (hsorted.filter _).imp
    intro first second hlt
    exact Int.add_lt_add_right hlt _
  · intro key hkey other hother
    have hless := hmiddle key hkey
    obtain ⟨old, hold, rfl⟩ := List.mem_map.1 hother
    rw [List.mem_filter, decide_eq_true_eq] at hold
    omega
  · intro key hkey other hother
    rw [List.mem_filter, decide_eq_true_eq] at hkey
    rcases List.mem_append.1 hother with hother | hother
    · have hless := hmiddle other hother
      omega
    · obtain ⟨old, hold, rfl⟩ := List.mem_map.1 hother
      rw [List.mem_filter, decide_eq_true_eq] at hold
      omega

/-- What a replacement makes of the keys, whatever the text. -/
theorem replace_spec {index : NumericTextIndex} (hcounted : index.root.Counted)
    (hordered : index.root.Ordered) (textAfter : JsString) {start stop : Int} (hstart : 0 ≤ start)
    (hstop : start ≤ stop) (hend : stop ≤ index.utf16Length)
    (hinserted : 0 ≤ (textAfter.length : Int) - index.utf16Length + stop - start) :
    ∃ next, index.replace textAfter start stop = .ok next ∧
      next.utf16Length = textAfter.length ∧ next.root.Counted ∧ next.root.Ordered ∧
      next.root.offsets =
        replacedKeys index.root.offsets index.utf16Length textAfter start stop := by
  have hrest := (hordered.split_ordered (max 0 (start - 1))).2
  have hafter : ((index.root.split (max 0 (start - 1))).2.split (stop + 1)).2.offsets =
      index.root.offsets.filter (stop + 1 ≤ ·) := by
    rw [LazyTreap.offsets_split_snd hrest, LazyTreap.offsets_split_snd hordered, List.filter_filter]
    apply List.filter_congr
    intro key _
    rw [Bool.eq_iff_iff, Bool.and_eq_true, decide_eq_true_eq, decide_eq_true_eq]
    omega
  have hlast : start + ((textAfter.length : Int) - index.utf16Length + stop - start) + 1 =
      textAfter.length - index.utf16Length + stop + 1 := by omega
  simp only [replace, hlast]
  rw [if_neg (by omega), if_neg (by omega)]
  refine ⟨_, rfl, rfl, ?_, ?_, ?_⟩
  · obtain ⟨hbefore, hafterCounted⟩ := hcounted.split (max 0 (start - 1))
    obtain ⟨-, hafterCounted⟩ := hafterCounted.split (stop + 1)
    exact (hbefore.merge (scan_spec _ _ _ _).1).merge (LazyTreap.counted_shift.2 hafterCounted)
  · rw [LazyTreap.Ordered]
    simp only [LazyTreap.offsets_merge, LazyTreap.offsets_shift, hafter,
      LazyTreap.offsets_split_fst hordered, (scan_spec _ _ _ _).2, List.append_assoc]
    exact sorted_replacedKeys hordered hinserted hstart
  · simp only [LazyTreap.offsets_merge, LazyTreap.offsets_shift, hafter,
      LazyTreap.offsets_split_fst hordered, (scan_spec _ _ _ _).2, List.append_assoc]
    rfl

@[simp] theorem length_offset (index : NumericTextIndex) (place : Int) :
    (index.offset place).2.length = index.length := by
  simp only [length, offset, LazyTreap.count_preceding]

/-- The index is that of a text. -/
structure Exact (index : NumericTextIndex) (text : JsString) : Prop where
  utf16Length : index.utf16Length = text.length
  counted : index.root.Counted
  places : index.root.offsets = (pairs text).map Int.ofNat

instance (index : NumericTextIndex) (text : JsString) : Decidable (index.Exact text) :=
  decidable_of_iff (index.utf16Length = text.length ∧ index.root.Counted ∧
      index.root.offsets = (pairs text).map Int.ofNat)
    ⟨fun ⟨hlength, hcounted, hplaces⟩ => ⟨hlength, hcounted, hplaces⟩,
      fun h => ⟨h.utf16Length, h.counted, h.places⟩⟩

/-- What an index answers about the text it is for. -/
structure Agrees (index : NumericTextIndex) (text : JsString) : Prop where
  length_eq : index.length = (codePoints text).length
  length_fresh : index.length = (new text).length
  offset_eq : ∀ place ≤ text.length,
    (index.offset place).1 = (codePoints (text.take place)).length
  offset_fresh : ∀ place ≤ text.length, (index.offset place).1 = ((new text).offset place).1
  ordered : index.root.Ordered
  counted : index.root.Counted
  places : index.root.offsets = (new text).root.offsets

namespace Exact

variable {index : NumericTextIndex} {text : JsString}

theorem ordered (h : index.Exact text) : index.root.Ordered := by
  rw [LazyTreap.Ordered, h.places]
  exact sorted_places (sorted_pairs text)

theorem reset (index : NumericTextIndex) (text : JsString) : (index.reset text).Exact text where
  utf16Length := rfl
  counted := (scan_spec index.seed text 0 text.length).1
  places := by
    have hspec := (scan_spec index.seed text 0 text.length).2
    rw [NumericTextIndex.reset]
    refine hspec.trans ?_
    congr 1
    apply ((List.pairwise_lt_range' 1).filter _).eq_of_mem_iff (sorted_pairs text)
    intro offset
    rw [List.mem_filter, List.mem_range'_1, mem_pairs]
    refine ⟨fun hmem => hmem.2, fun hpair => ⟨?_, hpair⟩⟩
    have hlt := high_of_pairAt hpair
    omega

theorem length_eq (h : index.Exact text) : index.length = (codePoints text).length := by
  have hcount : index.root.count = (pairs text).length := by
    rw [h.counted.count_eq, h.places, List.length_map]
  have htotal := length_codePoints text
  rw [NumericTextIndex.length, h.utf16Length, hcount]
  omega

theorem offset_eq (h : index.Exact text) {place : Nat} (hplace : place ≤ text.length) :
    (index.offset place).1 = (codePoints (text.take place)).length := by
  have hbound : max 0 (min (index.utf16Length : Int) place) = place := by
    rw [h.utf16Length]
    omega
  have hcount : (index.root.preceding (place - 1)).1 = (pairs (text.take place)).length := by
    rw [LazyTreap.preceding_eq h.counted h.ordered, h.places, List.countP_map, pairs_take,
      ← List.countP_eq_length_filter]
    apply List.countP_congr
    intro offset _
    simp only [Function.comp_apply, decide_eq_true_eq, Int.ofNat_eq_natCast]
    omega
  have htotal := length_codePoints (text.take place)
  rw [List.length_take, Nat.min_eq_left hplace] at htotal
  simp only [NumericTextIndex.offset, hbound, hcount]
  omega

/-- Reading an offset keeps the index. -/
theorem offset (h : index.Exact text) (place : Int) : (index.offset place).2.Exact text where
  utf16Length := h.utf16Length
  counted := h.counted.preceding _
  places := (LazyTreap.offsets_preceding _ _).trans h.places

theorem agrees (h : index.Exact text) : index.Agrees text where
  length_eq := h.length_eq
  length_fresh := by
    rw [h.length_eq, new, (reset _ text).length_eq]
  offset_eq _ hplace := h.offset_eq hplace
  offset_fresh place hplace := by
    rw [h.offset_eq hplace, new, (reset _ text).offset_eq hplace]
  ordered := h.ordered
  counted := h.counted
  places := by
    rw [h.places, new, (reset _ text).places]

/-- A span of the text is replaced, of which the index is told the right end.  The keys
before the span stay, and those from there on are the pairs of the new text. -/
theorem replace_front (h : index.Exact text) {front : JsString} {start stop : Nat}
    (hfront : start ≤ front.length) (hstart : start ≤ stop) (hstop : stop ≤ text.length) :
    ∃ next, index.replace (front ++ text.drop stop) start stop = .ok next ∧
      next.utf16Length = (front ++ text.drop stop).length ∧ next.root.Counted ∧
      next.root.offsets = ((pairs text).filter (· + 1 < start) ++
        (pairs (front ++ text.drop stop)).filter (start ≤ · + 1)).map Int.ofNat := by
  generalize hafter : front ++ text.drop stop = textAfter
  have hlength : textAfter.length + stop = front.length + text.length := by
    rw [← hafter, List.length_append, List.length_drop]
    omega
  obtain ⟨next, hreplace, hutf16, hcounted, hordered, hoffsets⟩ :=
    replace_spec h.counted h.ordered textAfter (show (0 : Int) ≤ start by omega)
      (show (start : Int) ≤ stop by omega) (by rw [h.utf16Length]; omega)
      (by rw [h.utf16Length]; omega)
  refine ⟨next, hreplace, hutf16, hcounted, ?_⟩
  apply List.Pairwise.eq_of_mem_iff (r := (· < ·)) hordered
  · apply sorted_places
    rw [List.pairwise_append]
    refine ⟨(sorted_pairs text).filter _, (sorted_pairs textAfter).filter _, ?_⟩
    intro first hfirst second hsecond
    rw [List.mem_filter, decide_eq_true_eq] at hfirst hsecond
    omega
  intro key
  have hmoved : front.length ≤ key.toNat →
      pairAt textAfter key.toNat = pairAt text (key.toNat + stop - front.length) := by
    intro hle
    rw [← hafter, pairAt_front hle]
  have hold : ∀ old, old ∈ (pairs text).map Int.ofNat ↔ 0 ≤ old ∧ pairAt text old.toNat = true := by
    intro old
    rw [mem_places, mem_pairs]
  rw [hoffsets, h.places, h.utf16Length, mem_replacedKeys (by omega), hold, mem_places,
    List.mem_append, List.mem_filter, List.mem_filter, mem_pairs, mem_pairs, decide_eq_true_eq,
    decide_eq_true_eq]
  constructor
  · intro hkey
    rcases hkey with hkey | hkey | hkey
    · exact ⟨hkey.1.1, Or.inl ⟨hkey.1.2, by omega⟩⟩
    · exact ⟨hkey.1.1, Or.inr ⟨hkey.1.2, by omega⟩⟩
    · obtain ⟨old, hmem, hge, rfl⟩ := hkey
      obtain ⟨hnonneg, hpair⟩ := (hold old).1 hmem
      refine ⟨by omega, Or.inr ⟨?_, by omega⟩⟩
      rw [hmoved (by omega), ← hpair]
      congr 1
      omega
  · intro hkey
    obtain ⟨hnonneg, hkey | hkey⟩ := hkey
    · exact Or.inl ⟨⟨hnonneg, hkey.1⟩, by omega⟩
    · by_cases hlt : key.toNat < front.length + 1
      · exact Or.inr (Or.inl ⟨⟨hnonneg, hkey.1⟩, by omega, by omega⟩)
      · rw [hmoved (by omega)] at hkey
        refine Or.inr (Or.inr ⟨key - ((textAfter.length : Int) - text.length), ?_, by omega,
          by omega⟩)
        rw [hold]
        refine ⟨by omega, ?_⟩
        rw [← hkey.1]
        congr 1
        omega

theorem replace (h : index.Exact text) {start stop : Nat} (hstart : start ≤ stop)
    (hstop : stop ≤ text.length) (inserted : JsString) :
    ∃ next, index.replace (splice text start stop inserted) start stop = .ok next ∧
      next.Exact (splice text start stop inserted) := by
  have hlength : (text.take start ++ inserted).length = start + inserted.length := by
    rw [List.length_append, List.length_take, Nat.min_eq_left (by omega)]
  obtain ⟨next, hreplace, hutf16, hcounted, hplaces⟩ :=
    h.replace_front (show start ≤ (text.take start ++ inserted).length by omega) hstart hstop
  refine ⟨next, hreplace, hutf16, hcounted, ?_⟩
  rw [hplaces]
  have hbefore : (pairs text).filter (· + 1 < start) =
      (pairs (splice text start stop inserted)).filter (· + 1 < start) := by
    rw [← pairs_take, ← pairs_take, splice, List.append_assoc, List.take_append_of_le_length,
      List.take_take, Nat.min_self]
    rw [List.length_take]
    omega
  rw [hbefore]
  exact congrArg (List.map Int.ofNat) (pairs_split _ start)

end Exact

/-! ## Indexes that answer alike -/

/-- Two indexes with the same keys, whatever the shape of their treaps. -/
structure Alike (index other : NumericTextIndex) : Prop where
  utf16Length : index.utf16Length = other.utf16Length
  offsets : index.root.offsets = other.root.offsets
  counted : index.root.Counted
  counted' : other.root.Counted
  ordered : index.root.Ordered

namespace Alike

variable {index other : NumericTextIndex}

theorem ordered' (h : index.Alike other) : other.root.Ordered := by
  rw [LazyTreap.Ordered, ← h.offsets]
  exact h.ordered

theorem symm (h : index.Alike other) : other.Alike index where
  utf16Length := h.utf16Length.symm
  offsets := h.offsets.symm
  counted := h.counted'
  counted' := h.counted
  ordered := h.ordered'

theorem length_eq (h : index.Alike other) : index.length = other.length := by
  rw [length, length, h.utf16Length, h.counted.count_eq, h.counted'.count_eq, h.offsets]

theorem offset_eq (h : index.Alike other) (place : Int) :
    (index.offset place).1 = (other.offset place).1 := by
  simp only [NumericTextIndex.offset, h.utf16Length]
  rw [LazyTreap.preceding_eq h.counted h.ordered, LazyTreap.preceding_eq h.counted' h.ordered',
    h.offsets]

theorem self (h : index.Alike other) : index.Alike index :=
  ⟨rfl, rfl, h.counted, h.counted, h.ordered⟩

theorem trans {last : NumericTextIndex} (h : index.Alike other) (h' : other.Alike last) :
    index.Alike last :=
  ⟨h.utf16Length.trans h'.utf16Length, h.offsets.trans h'.offsets, h.counted, h'.counted',
    h.ordered⟩

/-- Reading one of them keeps them alike. -/
theorem read (h : index.Alike other) (place : Int) : (index.offset place).2.Alike other where
  utf16Length := h.utf16Length
  offsets := (LazyTreap.offsets_preceding _ _).trans h.offsets
  counted := h.counted.preceding _
  counted' := h.counted'
  ordered := by
    have hsame : (index.offset place).2.root.offsets = index.root.offsets :=
      LazyTreap.offsets_preceding _ _
    rw [LazyTreap.Ordered, hsame]
    exact h.ordered

theorem read' (h : index.Alike other) (place : Int) : index.Alike (other.offset place).2 :=
  (h.symm.read place).symm

theorem reset (index other : NumericTextIndex) (text : JsString) :
    (index.reset text).Alike (other.reset text) where
  utf16Length := rfl
  offsets := (Exact.reset index text).places.trans (Exact.reset other text).places.symm
  counted := (Exact.reset index text).counted
  counted' := (Exact.reset other text).counted
  ordered := (Exact.reset index text).ordered

theorem replace (h : index.Alike other) (textAfter : JsString) {start stop : Int}
    (hstart : 0 ≤ start) (hstop : start ≤ stop) (hend : stop ≤ index.utf16Length)
    (hinserted : 0 ≤ (textAfter.length : Int) - index.utf16Length + stop - start) :
    ∃ next next', index.replace textAfter start stop = .ok next ∧
      other.replace textAfter start stop = .ok next' ∧ next.Alike next' ∧
      next.utf16Length = textAfter.length := by
  obtain ⟨next, hreplace, hutf16, hcounted, hordered, hoffsets⟩ :=
    replace_spec h.counted h.ordered textAfter hstart hstop hend hinserted
  rw [h.utf16Length] at hend hinserted
  obtain ⟨next', hreplace', hutf16', hcounted', hordered', hoffsets'⟩ :=
    replace_spec h.counted' h.ordered' textAfter hstart hstop hend hinserted
  refine ⟨next, next', hreplace, hreplace', ⟨?_, ?_, hcounted, hcounted', hordered⟩, hutf16⟩
  · rw [hutf16, hutf16']
  · rw [hoffsets, hoffsets', h.offsets, h.utf16Length]

end Alike

/-! ## Runs of edits -/

/-- An edit of the text, or a reading, which passes shifts on in the treap. -/
inductive Edit where
  | replace (start stop : Nat) (inserted : JsString)
  | offset (place : Int)

def step (state : NumericTextIndex × JsString) : Edit → Option (NumericTextIndex × JsString)
  | .replace start stop inserted =>
      let textAfter := splice state.2 start stop inserted
      (state.1.replace textAfter start stop).toOption.map fun index => (index, textAfter)
  | .offset place => some ((state.1.offset place).2, state.2)

def InRange (state : NumericTextIndex × JsString) : Edit → Prop
  | .replace start stop _ => start ≤ stop ∧ stop ≤ state.2.length
  | .offset _ => True

instance (state : NumericTextIndex × JsString) (edit : Edit) : Decidable (InRange state edit) := by
  cases edit <;> (unfold InRange; infer_instance)

theorem Exact.step {state : NumericTextIndex × JsString} (h : state.1.Exact state.2) {edit : Edit}
    (hrange : InRange state edit) : ∃ next, step state edit = some next ∧ next.1.Exact next.2 := by
  cases edit with
  | replace start stop inserted =>
      obtain ⟨index, hreplace, hexact⟩ := h.replace hrange.1 hrange.2 inserted
      refine ⟨(index, splice state.2 start stop inserted), ?_, hexact⟩
      rw [NumericTextIndex.step, hreplace]
      rfl
  | offset place => exact ⟨_, rfl, h.offset place⟩

/-- After every run of edits the index agrees with the text, and takes the next edit. -/
theorem agrees_run {first text : JsString} {index : NumericTextIndex}
    (run : Run step InRange (new first, first) (index, text)) :
    index.Agrees text ∧
      ∀ edit, InRange (index, text) edit → ∃ next, step (index, text) edit = some next := by
  have hexact : index.Exact text := by
    refine run.invariant (I := fun state => state.1.Exact state.2) ?_ (Exact.reset _ first)
    intro state edit next hstate hrange hstep
    obtain ⟨other, hother, hexact⟩ := hstate.step hrange
    rw [hstep] at hother
    cases hother
    exact hexact
  refine ⟨hexact.agrees, ?_⟩
  intro edit hrange
  obtain ⟨next, hnext, -⟩ := hexact.step hrange
  exact ⟨next, hnext⟩

/-- A pair is cut by a letter, and its halves are joined again. -/
def cutAndJoin : List Edit :=
  [.replace 2 2 (js "x"), .offset 4, .replace 2 3 []]

theorem agrees_joined : ∃ index : NumericTextIndex, index.Agrees (js "a🙂b") := by
  have hrun : (runAll step InRange (new (js "a🙂b"), js "a🙂b") cutAndJoin).any
      (fun state => state.2 == js "a🙂b") = true := by
    decide +kernel
  obtain ⟨⟨index, text⟩, hstate, htext⟩ := (Option.any_eq_true _ _).1 hrun
  rw [beq_iff_eq] at htext
  cases htext
  exact ⟨index, (agrees_run (Run.of_runAll hstate)).1⟩

end NumericTextIndex

end Pmbah.Browser
