import Mathlib.Data.List.Basic
import Mathlib.Data.List.Infix

/-!
# Splitting at a separator

A list is cut at every place where the separator stands, from the left and without overlap.
The parts come back where no separator starts within a part.
-/

namespace Pmbah.Library

variable {α : Type} [DecidableEq α]

/-- Puts elements before the first of the parts. -/
def prependFirst (front : List α) : List (List α) → List (List α)
  | [] => [front]
  | first :: parts => (front ++ first) :: parts

/-- Splits after as many elements as are left to skip. -/
def splitAfter (separator : List α) : Nat → List α → List (List α)
  | _, [] => [[]]
  | skip + 1, _ :: rest => splitAfter separator skip rest
  | 0, unit :: rest =>
      if separator <+: unit :: rest then [] :: splitAfter separator (separator.length - 1) rest
      else prependFirst [unit] (splitAfter separator 0 rest)

/-- The parts between the separators, which are not empty. -/
def split (separator text : List α) : List (List α) := splitAfter separator 0 text

variable {separator text rest first last following : List α} {unit : α}

omit [DecidableEq α] in
theorem prependFirst_append (first last : List α) (parts : List (List α)) :
    prependFirst (first ++ last) parts = prependFirst first (prependFirst last parts) := by
  cases parts with
  | nil => rfl
  | cons part parts => rw [prependFirst, prependFirst, prependFirst, List.append_assoc]

theorem splitAfter_drop (skip : Nat) (text : List α) :
    splitAfter separator skip text = splitAfter separator 0 (text.drop skip) := by
  induction text generalizing skip with
  | nil =>
      rw [List.drop_nil]
      cases skip with
      | zero => rfl
      | succ skip => rfl
  | cons unit rest ih =>
      cases skip with
      | zero => rfl
      | succ skip => exact ih skip

theorem splitAfter_ne_nil (skip : Nat) (text : List α) : splitAfter separator skip text ≠ [] := by
  induction text generalizing skip with
  | nil =>
      rw [splitAfter]
      exact List.cons_ne_nil _ _
  | cons unit rest ih =>
      cases skip with
      | zero =>
          rw [splitAfter]
          split
          · exact List.cons_ne_nil _ _
          · cases splitAfter separator 0 rest with
            | nil => exact List.cons_ne_nil _ _
            | cons part parts => exact List.cons_ne_nil _ _
      | succ skip => exact ih skip

theorem split_nil : split separator [] = [[]] := rfl

theorem split_separator_append (hne : separator ≠ []) (rest : List α) :
    split separator (separator ++ rest) = [] :: split separator rest := by
  obtain ⟨unit, units, rfl⟩ := List.exists_cons_of_ne_nil hne
  have hstarts : unit :: units <+: unit :: (units ++ rest) :=
    List.prefix_append (unit :: units) rest
  rw [split, List.cons_append, splitAfter, if_pos hstarts, splitAfter_drop, List.length_cons,
    Nat.add_sub_cancel, List.drop_left]
  rfl

/-- No separator starts within a part that something follows. -/
def Free (separator following part : List α) : Prop :=
  ∀ skip, skip < part.length → ¬ separator <+: (part ++ following).drop skip

omit [DecidableEq α] in
theorem free_nil : Free separator following [] := fun _ hskip => absurd hskip (Nat.not_lt_zero _)

omit [DecidableEq α] in
theorem free_append (h : Free separator (last ++ following) first)
    (h' : Free separator following last) : Free separator following (first ++ last) := by
  intro skip hskip
  rw [List.append_assoc]
  by_cases hfirst : skip < first.length
  · exact h skip hfirst
  · rw [List.length_append] at hskip
    rw [List.drop_append, List.drop_eq_nil_of_le (by omega), List.nil_append]
    exact h' _ (by omega)

omit [DecidableEq α] in
theorem Free.tail (h : Free separator following (unit :: rest)) : Free separator following rest :=
  fun skip hskip => h (skip + 1) (Nat.succ_lt_succ hskip)

omit [DecidableEq α] in
/-- The separator does not start where none of its first elements stands. -/
theorem free_of_not_mem (h : unit ∉ first) : Free (unit :: rest) following first := by
  intro skip hskip hstarts
  have hhead : (first ++ following).drop skip =
      first[skip] :: (first ++ following).drop (skip + 1) := by
    rw [List.drop_eq_getElem_cons (by rw [List.length_append]; omega),
      List.getElem_append_left hskip]
  rw [hhead] at hstarts
  have hsame := (List.cons_prefix_cons.1 hstarts).1
  exact h (hsame ▸ List.getElem_mem hskip)

theorem split_free_append (h : Free separator following first) :
    split separator (first ++ following) = prependFirst first (split separator following) := by
  induction first with
  | nil =>
      rw [List.nil_append]
      cases hsplit : split separator following with
      | nil => exact absurd hsplit (splitAfter_ne_nil 0 following)
      | cons part parts => rfl
  | cons unit first ih =>
      have hstart : ¬ separator <+: unit :: (first ++ following) :=
        h 0 (Nat.zero_lt_succ first.length)
      rw [List.cons_append, split, splitAfter, if_neg hstart]
      show prependFirst [unit] (split separator (first ++ following)) = _
      rw [ih h.tail]
      exact (prependFirst_append [unit] first _).symm

/-- A part comes back, and the others after its separator. -/
theorem split_part (hne : separator ≠ []) (h : Free separator (separator ++ rest) first) :
    split separator (first ++ separator ++ rest) = first :: split separator rest := by
  rw [List.append_assoc, split_free_append h, split_separator_append hne, prependFirst,
    List.append_nil]

/-- A text without the separator is one part. -/
theorem split_single (h : Free separator [] first) : split separator first = [first] := by
  have hsplit := split_free_append h
  rw [List.append_nil, split_nil, prependFirst, List.append_nil] at hsplit
  exact hsplit

/-- Splitting loses nothing but the separators. -/
theorem mem_splitAfter (hne : separator ≠ []) {skip : Nat}
    (hskipped : ∀ other ∈ text.take skip, other ∈ separator) (hunit : unit ∈ text) :
    unit ∈ separator ∨ ∃ part ∈ splitAfter separator skip text, unit ∈ part := by
  induction text generalizing skip with
  | nil => exact absurd hunit List.not_mem_nil
  | cons next rest ih =>
      cases skip with
      | succ skip =>
          rw [List.take_succ_cons] at hskipped
          rcases List.mem_cons.1 hunit with rfl | hrest
          · exact Or.inl (hskipped unit List.mem_cons_self)
          · exact ih (fun other hother => hskipped other (List.mem_cons_of_mem _ hother)) hrest
      | zero =>
          rw [splitAfter]
          split
          · rename_i hstarts
            obtain ⟨first, units, rfl⟩ := List.exists_cons_of_ne_nil hne
            obtain ⟨rfl, hunits⟩ := List.cons_prefix_cons.1 hstarts
            rcases List.mem_cons.1 hunit with rfl | hrest
            · exact Or.inl List.mem_cons_self
            · have htake : ∀ other ∈ rest.take ((first :: units).length - 1),
                  other ∈ first :: units := by
                intro other hother
                rw [List.length_cons, Nat.add_sub_cancel,
                  ← List.prefix_iff_eq_take.1 hunits] at hother
                exact List.mem_cons_of_mem _ hother
              refine (ih htake hrest).imp_right fun ⟨part, hpart, hmem⟩ => ?_
              exact ⟨part, List.mem_cons_of_mem _ hpart, hmem⟩
          · have hrest : unit ∈ rest → unit ∈ separator ∨
                ∃ part ∈ splitAfter separator 0 rest, unit ∈ part :=
              ih fun other hother => absurd hother (by rw [List.take_zero]; exact List.not_mem_nil)
            cases hparts : splitAfter separator 0 rest with
            | nil => exact absurd hparts (splitAfter_ne_nil 0 rest)
            | cons part parts =>
                rw [hparts] at hrest
                rcases List.mem_cons.1 hunit with rfl | hunit
                · exact Or.inr ⟨unit :: part, List.mem_cons_self, List.mem_cons_self⟩
                · refine (hrest hunit).imp_right fun ⟨found, hfound, hmem⟩ => ?_
                  rcases List.mem_cons.1 hfound with rfl | hfound
                  · exact ⟨next :: found, List.mem_cons_self, List.mem_cons_of_mem _ hmem⟩
                  · exact ⟨found, List.mem_cons_of_mem _ hfound, hmem⟩

theorem mem_split (hne : separator ≠ []) (hunit : unit ∈ text) :
    unit ∈ separator ∨ ∃ part ∈ split separator text, unit ∈ part :=
  mem_splitAfter hne
    (fun other hother => absurd hother (by rw [List.take_zero]; exact List.not_mem_nil)) hunit

end Pmbah.Library
