import Pmbah.Emacs.JournalLine
import Pmbah.Format.JsonText
import Pmbah.Js.Utf8

/-!
# The reader of the journal

`journalEvents` reads the journal in buffers of the size that the file system
delivers.  A line may lie across buffers, and the bytes after the last newline
are no event.  What is read is described by the bytes alone.
-/

namespace Pmbah.Emacs

open Js Format Library

def maxLineBytes : Nat := 4096

structure JournalItem where
  event : Json
  startByte : Nat
  endByte : Nat

/-- What a reader yields, and how it ends: by a throw, or with the offset of an
incomplete last line when there is one. -/
structure Reading where
  items : List JournalItem
  outcome : Except JsError (Option Nat)

def oversizeLine : JsError :=
  .error (js "journal event line exceeds the numeric-event limit")

def invalidLine (offset : Nat) : JsError :=
  .error (js "journal contains an invalid complete event at byte " ++ natText offset)

variable {P : Platform}

/-- `JSON.parse(line.toString("utf8"))`. -/
def parseLine (numbers : NumberSyntax P) (line : List UInt8) : Option Json :=
  jsonParse numbers (decodeUtf8 line)

/-- The events of the complete lines of a buffer, and the bytes after the last newline with
their offset. -/
def completeLines (numbers : NumberSyntax P) (pending : List UInt8) (offset : Nat) :
    List JournalItem × Except JsError (List UInt8 × Nat) :=
  match _hindex : pending.findIdx? (· == 10) with
  | none => ([], .ok (pending, offset))
  | some newline =>
      if maxLineBytes < newline then ([], .error oversizeLine)
      else
        match parseLine numbers (pending.take newline) with
        | none => ([], .error (invalidLine offset))
        | some event =>
            let read := completeLines numbers (pending.drop (newline + 1))
              (offset + newline + 1)
            (⟨event, offset, offset + newline + 1⟩ :: read.1, read.2)
  termination_by pending.length
  decreasing_by
    have hlt := (List.findIdx?_eq_some_iff_getElem.1 _hindex).1
    rw [List.length_drop]
    omega

/-- The loop over the buffers of the stream. -/
def readChunks (numbers : NumberSyntax P) :
    List (List UInt8) → List UInt8 → Nat → Reading
  | [], pending, offset => ⟨[], .ok (if pending.isEmpty then none else some offset)⟩
  | chunk :: chunks, pending, offset =>
      match completeLines numbers (pending ++ chunk) offset with
      | (items, .error thrown) => ⟨items, .error thrown⟩
      | (items, .ok (rest, after)) =>
          if maxLineBytes < rest.length then ⟨items, .error oversizeLine⟩
          else
            let read := readChunks numbers chunks rest after
            ⟨items ++ read.items, read.outcome⟩

/-- How a file system cuts what it delivers. -/
structure ReadCuts where
  cut : List UInt8 → List (List UInt8)
  flatten_cut : ∀ bytes, (cut bytes).flatten = bytes

/-- A safe integer that is not negative. -/
def safeNat (value : Json) : Option Nat :=
  ((Json.number? (some value)).bind JsNumber.toInt?).bind fun z =>
    if 0 ≤ z ∧ z ≤ maxSafeInteger then some z.toNat else none

def invalidRange : JsError := .error (js "invalid journal byte range")

/-- `journalEvents` of a file with these bytes; `endByte` is `none` when it is `undefined`. -/
def journalEvents (numbers : NumberSyntax P) (cuts : ReadCuts) (file : List UInt8)
    (startByte : Nat) (endByte : Option Nat) : Reading :=
  if maxSafeInteger < startByte then ⟨[], .error invalidRange⟩
  else if endByte.any fun stop => decide (maxSafeInteger < stop ∨ stop < startByte) then
    ⟨[], .error invalidRange⟩
  else if endByte = some startByte then ⟨[], .ok none⟩
  else
    readChunks numbers (cuts.cut ((match endByte with
      | none => file
      | some stop => file.take stop).drop startByte)) [] startByte

/-! ## The reading of bytes -/

/-- The bytes in one buffer. -/
def readAll (numbers : NumberSyntax P) (bytes : List UInt8) (offset : Nat) : Reading :=
  readChunks numbers [bytes] [] offset

theorem completeLines_tail (numbers : NumberSyntax P) {pending : List UInt8}
    (h : (10 : UInt8) ∉ pending) (offset : Nat) :
    completeLines numbers pending offset = ([], .ok (pending, offset)) := by
  have hnone : pending.findIdx? (· == 10) = none := by
    rw [List.findIdx?_eq_none_iff]
    intro byte hbyte
    exact beq_false_of_ne fun hten => h (hten ▸ hbyte)
  rw [completeLines]
  split
  · rfl
  · rename_i hsome
    rw [hnone] at hsome
    cases hsome

theorem findIdx?_line {line rest : List UInt8} (h : (10 : UInt8) ∉ line) :
    (line ++ 10 :: rest).findIdx? (· == 10) = some line.length := by
  have hnone : line.findIdx? (· == 10) = none := by
    rw [List.findIdx?_eq_none_iff]
    intro byte hbyte
    exact beq_false_of_ne fun hten => h (hten ▸ hbyte)
  rw [List.findIdx?_append, hnone, List.findIdx?_cons]
  simp

/-- The first line of a buffer. -/
theorem completeLines_line (numbers : NumberSyntax P) {line : List UInt8}
    (h : (10 : UInt8) ∉ line) (rest : List UInt8) (offset : Nat) :
    completeLines numbers (line ++ 10 :: rest) offset =
      if maxLineBytes < line.length then ([], .error oversizeLine)
      else
        match parseLine numbers line with
        | none => ([], .error (invalidLine offset))
        | some event =>
            (⟨event, offset, offset + line.length + 1⟩ ::
                (completeLines numbers rest (offset + line.length + 1)).1,
              (completeLines numbers rest (offset + line.length + 1)).2) := by
  have hfind : (line ++ 10 :: rest).findIdx? (· == 10) = some line.length := findIdx?_line h
  have htake : (line ++ 10 :: rest).take line.length = line := List.take_left
  have hdrop : (line ++ 10 :: rest).drop (line.length + 1) = rest := by
    rw [List.append_cons]
    exact List.drop_left' (List.length_append ..)
  rw [completeLines]
  split
  · rename_i hnone
    rw [hfind] at hnone
    cases hnone
  · rename_i newline hsome
    rw [hfind] at hsome
    cases hsome
    rw [htake, hdrop]

/-- Bytes without a newline, or a first line and the bytes behind it. -/
theorem tail_or_line (bytes : List UInt8) :
    (10 : UInt8) ∉ bytes ∨
      ∃ line rest, bytes = line ++ 10 :: rest ∧ (10 : UInt8) ∉ line := by
  by_cases h : (10 : UInt8) ∈ bytes
  · obtain ⟨line, rest, hbytes, hline⟩ := List.eq_append_cons_of_mem h
    exact Or.inr ⟨line, rest, hbytes, hline⟩
  · exact Or.inl h

/-- Induction over the lines of a buffer. -/
theorem lines_induction {motive : List UInt8 → Prop}
    (tail : ∀ bytes, (10 : UInt8) ∉ bytes → motive bytes)
    (line : ∀ line rest, (10 : UInt8) ∉ line → motive rest → motive (line ++ 10 :: rest))
    (bytes : List UInt8) : motive bytes := by
  induction hlength : bytes.length using Nat.strong_induction_on generalizing bytes with
  | _ length ih =>
      rcases tail_or_line bytes with h | ⟨first, rest, rfl, h⟩
      · exact tail bytes h
      · apply line first rest h
        apply ih rest.length _ rest rfl
        rw [← hlength, List.length_append, List.length_cons]
        omega

/-- The bytes after a last newline hold none. -/
theorem completeLines_rest (numbers : NumberSyntax P) {bytes rest : List UInt8}
    {offset after : Nat} {items : List JournalItem}
    (h : completeLines numbers bytes offset = (items, .ok (rest, after))) :
    (10 : UInt8) ∉ rest := by
  induction bytes using lines_induction generalizing offset items with
  | tail bytes hbytes =>
      rw [completeLines_tail numbers hbytes, Prod.mk.injEq, Except.ok.injEq,
        Prod.mk.injEq] at h
      rw [← h.2.1]
      exact hbytes
  | line line more hline ih =>
      rw [completeLines_line numbers hline] at h
      split at h
      · cases h
      · split at h
        · cases h
        · rw [Prod.mk.injEq] at h
          exact ih (Prod.ext rfl h.2)

/-- More bytes are read where the complete lines of the bytes before end. -/
theorem completeLines_append (numbers : NumberSyntax P) (bytes more : List UInt8)
    (offset : Nat) :
    completeLines numbers (bytes ++ more) offset =
      match completeLines numbers bytes offset with
      | (items, .error thrown) => (items, .error thrown)
      | (items, .ok (rest, after)) =>
          (items ++ (completeLines numbers (rest ++ more) after).1,
            (completeLines numbers (rest ++ more) after).2) := by
  induction bytes using lines_induction generalizing offset with
  | tail bytes h =>
      rw [completeLines_tail numbers h]
      rfl
  | line line rest h ih =>
      rw [List.append_assoc, List.cons_append, completeLines_line numbers h,
        completeLines_line numbers h]
      by_cases hlong : maxLineBytes < line.length
      · rw [if_pos hlong, if_pos hlong]
      · rw [if_neg hlong, if_neg hlong]
        cases parseLine numbers line with
        | none => rfl
        | some event =>
            show (_ :: (completeLines numbers (rest ++ more) _).1, _) = _
            rw [ih]
            cases completeLines numbers rest (offset + line.length + 1) with
            | mk items outcome =>
                cases outcome with
                | error thrown => rfl
                | ok read => rfl

/-- How a reading ends once its complete lines have been read. -/
def finishReading (read : List JournalItem × Except JsError (List UInt8 × Nat)) : Reading :=
  match read with
  | (items, .error thrown) => ⟨items, .error thrown⟩
  | (items, .ok (rest, after)) =>
      if maxLineBytes < rest.length then ⟨items, .error oversizeLine⟩
      else ⟨items, .ok (if rest.isEmpty then none else some after)⟩

theorem readAll_eq (numbers : NumberSyntax P) (bytes : List UInt8) (offset : Nat) :
    readAll numbers bytes offset = finishReading (completeLines numbers bytes offset) := by
  rw [readAll, readChunks, List.nil_append]
  cases completeLines numbers bytes offset with
  | mk items outcome =>
      cases outcome with
      | error thrown => rfl
      | ok read =>
          show (if maxLineBytes < read.1.length then _ else Reading.mk (items ++ []) _) = _
          rw [List.append_nil]
          rfl

theorem finishReading_append (items : List JournalItem)
    (read : List JournalItem × Except JsError (List UInt8 × Nat)) :
    finishReading (items ++ read.1, read.2) =
      ⟨items ++ (finishReading read).items, (finishReading read).outcome⟩ := by
  obtain ⟨more, outcome⟩ := read
  cases outcome with
  | error thrown => rfl
  | ok read =>
      by_cases h : maxLineBytes < read.1.length
      · simp only [finishReading, if_pos h]
      · simp only [finishReading, if_neg h]

/-- Bytes past the limit without a newline are refused, whatever follows. -/
theorem readAll_oversize (numbers : NumberSyntax P) {rest : List UInt8}
    (h : (10 : UInt8) ∉ rest) (hlong : maxLineBytes < rest.length) (more : List UInt8)
    (offset : Nat) : readAll numbers (rest ++ more) offset = ⟨[], .error oversizeLine⟩ := by
  rw [readAll_eq]
  rcases tail_or_line (rest ++ more) with hnone | ⟨line, behind, hsplit, hline⟩
  · rw [completeLines_tail numbers hnone]
    exact if_pos (by rw [List.length_append]; omega)
  · -- the first newline lies behind the bytes that have none
    have hlength : rest.length ≤ line.length := by
      by_contra hshort
      have hget : (rest ++ more)[line.length]? = some 10 := by
        rw [hsplit]
        simp
      rw [List.getElem?_append_left (by omega)] at hget
      exact h (List.mem_of_getElem? hget)
    rw [hsplit, completeLines_line numbers hline, if_pos (by omega)]
    rfl

/-- How the stream is cut does not matter. -/
theorem readChunks_eq (numbers : NumberSyntax P) (chunks : List (List UInt8))
    {pending : List UInt8} (h : (10 : UInt8) ∉ pending)
    (hshort : pending.length ≤ maxLineBytes) (offset : Nat) :
    readChunks numbers chunks pending offset =
      readAll numbers (pending ++ chunks.flatten) offset := by
  induction chunks generalizing pending offset with
  | nil =>
      rw [List.flatten_nil, List.append_nil, readAll_eq, completeLines_tail numbers h]
      exact (if_neg (Nat.not_lt.2 hshort)).symm
  | cons chunk chunks ih =>
      rw [List.flatten_cons, ← List.append_assoc, readAll_eq,
        completeLines_append numbers (pending ++ chunk) chunks.flatten offset, readChunks]
      cases hread : completeLines numbers (pending ++ chunk) offset with
      | mk items outcome =>
          cases outcome with
          | error thrown => rfl
          | ok read =>
              obtain ⟨rest, after⟩ := read
              have hrest := completeLines_rest numbers hread
              show (if maxLineBytes < rest.length then _ else _) = finishReading (_, _)
              rw [finishReading_append, ← readAll_eq]
              by_cases hlong : maxLineBytes < rest.length
              · rw [if_pos hlong, readAll_oversize numbers hrest hlong, List.append_nil]
              · rw [if_neg hlong, ih hrest (Nat.not_lt.1 hlong)]

end Pmbah.Emacs
