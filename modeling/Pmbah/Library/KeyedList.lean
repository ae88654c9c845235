import Mathlib.Data.Finset.Sort
import Mathlib.Data.List.DropRight

/-!
# Lists in the order of a key

One entry a key, and a new entry takes the place of the old one.  Cutting such a list down
to its first entry and its last few after every entry keeps what cutting it down once at
the end would keep.
-/

namespace Pmbah.Library.KeyedList

variable {α κ : Type} [LinearOrder κ] (key : α → κ)

/-- The keys increase. -/
def Ordered (entries : List α) : Prop := entries.Pairwise fun left right => key left < key right

def insert (entry : α) : List α → List α
  | [] => [entry]
  | first :: entries =>
      if key entry < key first then entry :: first :: entries
      else if key first < key entry then first :: insert entry entries
      else entry :: entries

/-- Everything that has been inserted, one entry a key. -/
def table (history : List α) : List α :=
  history.foldl (fun entries entry => insert key entry entries) []

/-- The last entry of the key. -/
def latest (history : List α) (wanted : κ) : Option α :=
  history.reverse.find? fun entry => key entry = wanted

/-- The first entry and the last few after it. -/
def ends (count : Nat) : List α → List α
  | [] => []
  | first :: entries => first :: entries.rtake count

variable {key} {entry : α} {entries history : List α}

/-! ## Inserting -/

theorem mem_insert (h : Ordered key entries) {found : α} :
    found ∈ insert key entry entries ↔
      found = entry ∨ (found ∈ entries ∧ key found ≠ key entry) := by
  induction entries with
  | nil => simp [insert]
  | cons first entries ih =>
      obtain ⟨hfirst, hrest⟩ := List.pairwise_cons.1 h
      rw [insert]
      split
      · rename_i hbefore
        have hlater : ∀ later ∈ first :: entries, key later ≠ key entry := by
          intro later hlater
          rcases List.mem_cons.1 hlater with rfl | hlater
          · exact hbefore.ne'
          · exact (hbefore.trans (hfirst later hlater)).ne'
        rw [List.mem_cons]
        exact or_congr_right ⟨fun hmem => ⟨hmem, hlater found hmem⟩, And.left⟩
      · split
        · rename_i hafter
          rw [List.mem_cons, ih hrest, List.mem_cons]
          have hkeep : found = first → key found ≠ key entry := fun heq => heq ▸ hafter.ne
          tauto
        · rename_i hnotBefore hnotAfter
          have heq : key first = key entry := le_antisymm (not_lt.1 hnotBefore) (not_lt.1 hnotAfter)
          have hlater : ∀ later ∈ entries, key later ≠ key entry := by
            intro later hlater
            exact heq ▸ (hfirst later hlater).ne'
          rw [List.mem_cons, List.mem_cons]
          refine or_congr_right ⟨fun hmem => ⟨Or.inr hmem, hlater found hmem⟩, ?_⟩
          intro hmem
          exact hmem.1.resolve_left fun hsame => hmem.2 (hsame ▸ heq)

theorem ordered_insert (h : Ordered key entries) : Ordered key (insert key entry entries) := by
  induction entries with
  | nil => exact List.pairwise_singleton _ _
  | cons first entries ih =>
      obtain ⟨hfirst, hrest⟩ := List.pairwise_cons.1 h
      rw [insert]
      split
      · rename_i hbefore
        apply List.pairwise_cons.2 ⟨?_, h⟩
        intro later hlater
        rcases List.mem_cons.1 hlater with rfl | hlater
        · exact hbefore
        · exact hbefore.trans (hfirst later hlater)
      · split
        · rename_i hafter
          apply List.pairwise_cons.2 ⟨?_, ih hrest⟩
          intro later hlater
          rcases (mem_insert hrest).1 hlater with rfl | ⟨hlater, -⟩
          · exact hafter
          · exact hfirst later hlater
        · rename_i hnotBefore hnotAfter
          have heq : key first = key entry := le_antisymm (not_lt.1 hnotBefore) (not_lt.1 hnotAfter)
          apply List.pairwise_cons.2 ⟨?_, hrest⟩
          intro later hlater
          rw [← heq]
          exact hfirst later hlater

/-- The order leaves one list for a set of entries. -/
theorem eq_of_mem_iff {others : List α} (h : Ordered key entries) (hothers : Ordered key others)
    (hsame : ∀ found, found ∈ entries ↔ found ∈ others) : entries = others := by
  have hnodup : ∀ {entries : List α}, Ordered key entries → entries.Nodup := by
    intro entries h
    apply h.imp
    intro left right hlt heq
    exact hlt.ne (heq ▸ rfl)
  have hperm := (List.perm_ext_iff_of_nodup (hnodup h) (hnodup hothers)).2 hsame
  apply hperm.eq_of_pairwise _ h hothers
  intro left right _ _ hlt hgt
  exact absurd hgt hlt.asymm

/-- Writing over the entry of a key that is there. -/
theorem map_eq_insert (h : Ordered key entries) (hmem : ∃ found ∈ entries, key found = key entry) :
    entries.map (fun found => if key found = key entry then entry else found) =
      insert key entry entries := by
  have hkey : ∀ found, key (if key found = key entry then entry else found) = key found := by
    intro found
    split
    · exact Eq.symm ‹_›
    · rfl
  apply eq_of_mem_iff _ (ordered_insert h)
  · intro found
    rw [mem_insert h, List.mem_map]
    refine ⟨fun ⟨before, hbefore, heq⟩ => ?_, fun hfound => ?_⟩
    · split at heq
      · exact Or.inl heq.symm
      · rename_i hne
        rw [← heq]
        exact Or.inr ⟨hbefore, hne⟩
    · rcases hfound with rfl | ⟨hfound, hne⟩
      · obtain ⟨before, hbefore, heq⟩ := hmem
        exact ⟨before, hbefore, if_pos heq⟩
      · exact ⟨found, hfound, if_neg hne⟩
  · apply List.pairwise_map.2
    simp only [hkey]
    exact h

/-- Sorting an entry with a new key in. -/
theorem mergeSort_eq_insert (h : Ordered key entries)
    (hnew : ∀ found ∈ entries, key found ≠ key entry) :
    (entries ++ [entry]).mergeSort (fun left right => key left ≤ key right) =
      insert key entry entries := by
  have hle : ((entries ++ [entry]).mergeSort fun left right => key left ≤ key right).Pairwise
      fun left right => key left ≤ key right := by
    have hsorted : ((entries ++ [entry]).mergeSort fun left right =>
        decide (key left ≤ key right)).Pairwise
          fun left right => decide (key left ≤ key right) = true := by
      apply List.pairwise_mergeSort
      · intro first second third hleft hright
        exact decide_eq_true ((of_decide_eq_true hleft).trans (of_decide_eq_true hright))
      · intro left right
        simpa using le_total (key left) (key right)
    exact hsorted.imp of_decide_eq_true
  have hne : ((entries ++ [entry]).mergeSort fun left right => key left ≤ key right).Pairwise
      fun left right => key left ≠ key right := by
    apply (List.mergeSort_perm _ _).symm.pairwise _ (fun hne => hne.symm)
    apply List.pairwise_append.2
    refine ⟨h.imp ne_of_lt, List.pairwise_singleton _ _, ?_⟩
    intro found hfound last hlast
    rw [List.mem_singleton.1 hlast]
    exact hnew found hfound
  apply eq_of_mem_iff _ (ordered_insert h)
  · intro found
    rw [List.mem_mergeSort, mem_insert h, List.mem_append, List.mem_singleton, or_comm]
    exact or_congr_right ⟨fun hfound => ⟨hfound, hnew found hfound⟩, And.left⟩
  · exact hle.imp₂ (fun _ _ hle hne => lt_of_le_of_ne hle hne) hne

/-- An entry whose key comes before all others. -/
theorem insert_before (h : ∀ later ∈ entries, key entry < key later) :
    insert key entry entries = entry :: entries := by
  cases entries with
  | nil => rfl
  | cons first entries => rw [insert, if_pos (h first List.mem_cons_self)]

theorem length_le_insert : entries.length ≤ (insert key entry entries).length := by
  induction entries with
  | nil => exact Nat.zero_le _
  | cons first entries ih =>
      rw [insert]
      split
      · exact Nat.le_succ _
      · split
        · exact Nat.succ_le_succ ih
        · exact Nat.le_refl _

/-! ## Cutting down -/

theorem rtake_of_length_le {count : Nat} (h : entries.length ≤ count) :
    entries.rtake count = entries := by
  rw [List.rtake, Nat.sub_eq_zero_of_le h, List.drop_zero]

/-- The last few do not reach the first. -/
theorem rtake_cons {count : Nat} {first : α} (h : count ≤ entries.length) :
    (first :: entries).rtake count = entries.rtake count := by
  rw [List.rtake, List.rtake, List.length_cons, Nat.succ_sub h, List.drop_succ_cons]

theorem rtake_rtake (count : Nat) : (entries.rtake count).rtake count = entries.rtake count := by
  apply rtake_of_length_le
  rw [List.rtake, List.length_drop]
  omega

theorem mem_of_mem_rtake {count : Nat} {found : α} (h : found ∈ entries.rtake count) :
    found ∈ entries := List.mem_of_mem_drop h

theorem length_rtake {count : Nat} (h : count ≤ entries.length) :
    (entries.rtake count).length = count := by
  rw [List.rtake, List.length_drop]
  omega

theorem rtake_insert (h : Ordered key entries) (count : Nat) :
    (insert key entry (entries.rtake count)).rtake count =
      (insert key entry entries).rtake count := by
  induction entries with
  | nil => rw [List.rtake_nil]
  | cons first entries ih =>
      obtain ⟨hfirst, hrest⟩ := List.pairwise_cons.1 h
      by_cases hfits : (first :: entries).length ≤ count
      · rw [rtake_of_length_le hfits]
      · have hcount : count ≤ entries.length := by
          rw [List.length_cons] at hfits
          omega
        have hkept : ∀ later ∈ entries.rtake count, key first < key later :=
          fun later hlater => hfirst later (mem_of_mem_rtake hlater)
        rw [rtake_cons hcount]
        by_cases hafter : key first < key entry
        · rw [ih hrest, insert, if_neg hafter.not_gt, if_pos hafter,
            rtake_cons (hcount.trans length_le_insert)]
        · -- The entry is at or before the first, which has been cut off.
          have hbefore : ∀ later ∈ entries.rtake count, key entry < key later :=
            fun later hlater => (not_lt.1 hafter).trans_lt (hkept later hlater)
          rw [insert_before hbefore, rtake_cons (length_rtake hcount).ge, rtake_rtake, insert]
          split
          · rw [rtake_cons (hcount.trans (Nat.le_succ _)), rtake_cons hcount]
          · rw [rtake_cons hcount]

theorem ends_insert (h : Ordered key entries) (count : Nat) :
    ends count (insert key entry (ends count entries)) =
      ends count (insert key entry entries) := by
  cases entries with
  | nil => rfl
  | cons first entries =>
      obtain ⟨-, hrest⟩ := List.pairwise_cons.1 h
      rw [ends, insert, insert]
      split
      · rw [ends, ends]
        by_cases hfits : entries.length ≤ count
        · rw [rtake_of_length_le hfits]
        · have hcount : count ≤ entries.length := Nat.le_of_not_le hfits
          rw [rtake_cons (length_rtake hcount).ge, rtake_rtake, rtake_cons hcount]
      · split
        · rw [ends, ends, rtake_insert hrest]
        · rw [ends, ends, rtake_rtake]

theorem ends_eq (count : Nat) :
    ends count entries = entries.take 1 ++ entries.rtake (min count (entries.length - 1)) := by
  cases entries with
  | nil => rw [ends, List.rtake_nil, List.take_nil, List.append_nil]
  | cons first entries =>
      have hmin : min count entries.length ≤ entries.length := Nat.min_le_right _ _
      rw [ends, List.length_cons, Nat.add_sub_cancel, rtake_cons hmin]
      by_cases hfits : entries.length ≤ count
      · rw [Nat.min_eq_right hfits, rtake_of_length_le hfits, rtake_of_length_le (Nat.le_refl _)]
        rfl
      · rw [Nat.min_eq_left (Nat.le_of_not_le hfits)]
        rfl

theorem ends_sublist (count : Nat) : (ends count entries).Sublist entries := by
  cases entries with
  | nil => exact List.Sublist.refl _
  | cons first entries => exact (List.drop_sublist _ _).cons_cons first

theorem ordered_ends (h : Ordered key entries) (count : Nat) :
    Ordered key (ends count entries) := List.Pairwise.sublist (ends_sublist count) h

theorem map_ends {β : Type} (f : α → β) (count : Nat) :
    (ends count entries).map f = ends count (entries.map f) := by
  cases entries with
  | nil => rfl
  | cons first entries => rw [ends, List.map_cons, List.map_cons, ends, List.rtake, List.rtake,
      List.map_drop, List.length_map]

/-! ## Histories -/

variable (key)

theorem table_concat (history : List α) (entry : α) :
    table key (history ++ [entry]) = insert key entry (table key history) := by
  rw [table, List.foldl_concat]
  rfl

theorem latest_concat (history : List α) (entry : α) (wanted : κ) :
    latest key (history ++ [entry]) wanted =
      if key entry = wanted then some entry else latest key history wanted := by
  rw [latest, List.reverse_concat, List.find?_cons]
  by_cases heq : key entry = wanted
  · simp [heq]
  · simp [heq, latest]

theorem ordered_table (history : List α) : Ordered key (table key history) := by
  induction history using List.reverseRecOn with
  | nil => exact List.Pairwise.nil
  | append_singleton history entry ih =>
      rw [table_concat]
      exact ordered_insert ih

/-- Of every key the table has the last entry. -/
theorem mem_table (history : List α) {found : α} :
    found ∈ table key history ↔ latest key history (key found) = some found := by
  induction history using List.reverseRecOn with
  | nil => simp [table, latest]
  | append_singleton history entry ih =>
      rw [table_concat, latest_concat, mem_insert (ordered_table key history), ih]
      by_cases hkey : key entry = key found
      · rw [if_pos hkey]
        simp [hkey, eq_comm]
      · rw [if_neg hkey]
        have hne : found ≠ entry := fun heq => hkey (heq ▸ rfl)
        simp [hne, Ne.symm hkey]

theorem key_of_latest {history : List α} {wanted : κ} {found : α}
    (h : latest key history wanted = some found) : key found = wanted := by
  have hfound := List.find?_some h
  simpa using hfound

theorem isSome_latest (history : List α) (wanted : κ) :
    (latest key history wanted).isSome = true ↔ wanted ∈ history.map key := by
  rw [latest, List.find?_isSome, List.mem_map]
  simp only [List.mem_reverse, decide_eq_true_eq]

theorem mem_map_table (history : List α) (wanted : κ) :
    wanted ∈ (table key history).map key ↔ wanted ∈ history.map key := by
  rw [← isSome_latest key history, List.mem_map, Option.isSome_iff_exists]
  apply exists_congr
  intro found
  rw [mem_table]
  refine ⟨fun ⟨hfound, hkey⟩ => hkey ▸ hfound, fun hfound => ?_⟩
  have hkey := key_of_latest key hfound
  exact ⟨hkey.symm ▸ hfound, hkey⟩

/-- The keys of the table are those that have been inserted. -/
theorem map_table (history : List α) :
    (table key history).map key = (history.map key).toFinset.sort (· ≤ ·) := by
  have hordered : ((table key history).map key).Pairwise (· < ·) :=
    List.pairwise_map.2 (ordered_table key history)
  have hset : ((table key history).map key).toFinset = (history.map key).toFinset := by
    ext wanted
    rw [List.mem_toFinset, List.mem_toFinset, mem_map_table]
  rw [← hset]
  exact ((List.toFinset_sort _ (hordered.imp ne_of_lt)).2 (hordered.imp le_of_lt)).symm

end Pmbah.Library.KeyedList
