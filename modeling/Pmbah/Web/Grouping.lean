import Pmbah.Web.AdoptionRun

/-!
# Continuations share a row

After the adopted rows have been written, every session has one row.  The sessions of a
chain share theirs just when the visits come in turn, and they are listed in the order of
the chain just when their base times follow it.
-/

namespace Pmbah.Web

open Js

variable {W : List SessionSummary} {drafts : List DraftRow} {uuid : Nat → JsString}
variable {visited : List SessionSummary} {adoption : Adoption}

/-- The rows to be written, as `adoptSessions` returns them. -/
def adoptedRows (W : List SessionSummary) (adoption : Adoption) : List DraftRow :=
  adoption.changed.filterMap fun place => adoption.rows[place]?.map (sortRow W)

/-- A row after the rows to be written have been. -/
def settledRow (W : List SessionSummary) (adoption : Adoption) (place : Nat) (row : DraftRow) :
    DraftRow :=
  if place ∈ adoption.changed then sortRow W row else row

theorem mem_sortRow {row : DraftRow} {id : JsString} :
    id ∈ (sortRow W row).sessionIds ↔ id ∈ row.sessionIds := by
  rw [sortRow]
  exact List.mem_mergeSort

theorem mem_settledRow {place : Nat} {row : DraftRow} {id : JsString} :
    id ∈ (settledRow W adoption place row).sessionIds ↔ id ∈ row.sessionIds := by
  rw [settledRow]
  split
  · exact mem_sortRow
  · exact Iff.rfl

theorem draftId_settledRow (place : Nat) (row : DraftRow) :
    (settledRow W adoption place row).draftId = row.draftId := by
  rw [settledRow]
  split
  · rfl
  · rfl

theorem mem_adoptedRows {row : DraftRow} :
    row ∈ adoptedRows W adoption ↔ ∃ place ∈ adoption.changed, ∃ old : DraftRow,
      adoption.rows[place]? = some old ∧ sortRow W old = row := by
  rw [adoptedRows, List.mem_filterMap]
  simp only [Option.map_eq_some_iff]

namespace Sound

theorem draftId_old (h : Sound W drafts uuid visited adoption) {place : Nat} {row draft : DraftRow}
    (hrow : adoption.rows[place]? = some row) (hdraft : drafts[place]? = some draft) :
    row.draftId = draft.draftId := by
  obtain ⟨other, hother, hname, -⟩ := h.kept place draft hdraft
  rw [hrow] at hother
  cases hother
  exact hname

/-- Two rows never have one id. -/
theorem place_eq (h : Sound W drafts uuid visited adoption) (hwell : Wellformed W drafts uuid)
    {first second : Nat} {row other : DraftRow} (hrow : adoption.rows[first]? = some row)
    (hother : adoption.rows[second]? = some other) (hid : row.draftId = other.draftId) :
    first = second := by
  have hfresh {old new : Nat} {draft row : DraftRow} (hdraft : drafts[old]? = some draft)
      (hrow : adoption.rows[new]? = some row) (hnew : drafts.length ≤ new) :
      draft.draftId ≠ row.draftId := by
    rw [h.named new row hrow hnew]
    exact (hwell.uuid_fresh _ draft (List.mem_of_getElem? hdraft)).symm
  by_cases hfirst : first < drafts.length
  · have hdraft := List.getElem?_eq_getElem hfirst
    rw [h.draftId_old hrow hdraft] at hid
    by_cases hsecond : second < drafts.length
    · have hdraft' := List.getElem?_eq_getElem hsecond
      rw [h.draftId_old hother hdraft'] at hid
      have hfirst' : first < (drafts.map DraftRow.draftId).length := by
        rw [List.length_map]
        exact hfirst
      have hsecond' : second < (drafts.map DraftRow.draftId).length := by
        rw [List.length_map]
        exact hsecond
      have hget : (drafts.map DraftRow.draftId)[first] = (drafts.map DraftRow.draftId)[second] := by
        rw [List.getElem_map, List.getElem_map, hid]
      exact hwell.draftIds.getElem_inj_iff.1 hget
    · exact absurd hid (hfresh hdraft hother (Nat.le_of_not_lt hsecond))
  · have hnew := Nat.le_of_not_lt hfirst
    by_cases hsecond : second < drafts.length
    · have hdraft' := List.getElem?_eq_getElem hsecond
      rw [h.draftId_old hother hdraft'] at hid
      exact absurd hid.symm (hfresh hdraft' hrow hnew)
    · rw [h.named first row hrow hnew, h.named second other hother (Nat.le_of_not_lt hsecond)] at hid
      have hcall := hwell.uuid_injective _ _ hid
      omega

theorem find_adopted (h : Sound W drafts uuid visited adoption) (hwell : Wellformed W drafts uuid)
    {place : Nat} {row draft : DraftRow} (hrow : adoption.rows[place]? = some row)
    (hdraft : drafts[place]? = some draft) :
    ((adoptedRows W adoption).find? (·.draftId = draft.draftId)).getD draft =
      settledRow W adoption place row := by
  have hplace {other : Nat} {found : DraftRow} (hfound : adoption.rows[other]? = some found)
      (hid : found.draftId = draft.draftId) : other = place := by
    rw [← h.draftId_old hrow hdraft] at hid
    exact h.place_eq hwell hfound hrow hid
  by_cases hchanged : place ∈ adoption.changed
  · have hlisted : sortRow W row ∈ adoptedRows W adoption :=
      mem_adoptedRows.2 ⟨place, hchanged, row, hrow, rfl⟩
    cases hfind : (adoptedRows W adoption).find? (·.draftId = draft.draftId) with
    | none =>
        have hnot := List.find?_eq_none.1 hfind _ hlisted
        rw [decide_eq_true_iff] at hnot
        exact absurd (h.draftId_old hrow hdraft) hnot
    | some found =>
        obtain ⟨other, -, old, hold, rfl⟩ := mem_adoptedRows.1 (List.mem_of_find?_eq_some hfind)
        have hid := List.find?_some hfind
        rw [decide_eq_true_iff] at hid
        have hsame := hplace hold hid
        subst hsame
        rw [hrow] at hold
        cases hold
        rw [settledRow, if_pos hchanged]
        rfl
  · have hsame : draft = row := by
      have hkept := h.unchanged place row hrow hchanged
      rw [hdraft] at hkept
      exact Option.some.inj hkept
    rw [settledRow, if_neg hchanged, ← hsame, List.find?_eq_none.2]
    · rfl
    · intro found hfound
      obtain ⟨other, hother, old, hold, rfl⟩ := mem_adoptedRows.1 hfound
      rw [decide_eq_true_iff]
      intro hid
      rw [hplace hold hid] at hother
      exact hchanged hother

/-- The rows after the adopted ones have been written. -/
theorem mem_merged (h : Sound W drafts uuid visited adoption) (hwell : Wellformed W drafts uuid)
    {row : DraftRow} :
    row ∈ merged drafts (adoptedRows W adoption) ↔ ∃ (place : Nat) (old : DraftRow),
      adoption.rows[place]? = some old ∧ settledRow W adoption place old = row := by
  rw [merged, List.mem_append, List.mem_map, List.mem_filter]
  constructor
  · rintro (⟨draft, hdraft, rfl⟩ | ⟨hlisted, -⟩)
    · obtain ⟨place, hplace⟩ := List.getElem?_of_mem hdraft
      obtain ⟨old, hold, -⟩ := h.kept place draft hplace
      exact ⟨place, old, hold, (h.find_adopted hwell hold hplace).symm⟩
    · obtain ⟨place, hchanged, old, hold, rfl⟩ := mem_adoptedRows.1 hlisted
      refine ⟨place, old, hold, ?_⟩
      rw [settledRow, if_pos hchanged]
  · rintro ⟨place, old, hold, rfl⟩
    by_cases hplace : place < drafts.length
    · have hdraft := List.getElem?_eq_getElem hplace
      exact .inl ⟨drafts[place], List.getElem_mem hplace, h.find_adopted hwell hold hdraft⟩
    · right
      have hnew := Nat.le_of_not_lt hplace
      have hchanged : place ∈ adoption.changed := by
        by_contra hnot
        have hlt := (List.getElem?_eq_some_iff.1 (h.unchanged place old hold hnot)).1
        omega
      rw [settledRow, if_pos hchanged]
      refine ⟨mem_adoptedRows.2 ⟨place, hchanged, old, hold, rfl⟩, ?_⟩
      rw [Bool.not_eq_true', List.any_eq_false]
      intro draft hdraft hid
      rw [decide_eq_true_iff] at hid
      have hname : (sortRow W old).draftId = old.draftId := rfl
      rw [hname, h.named place old hold hnew] at hid
      exact hwell.uuid_fresh _ draft hdraft hid.symm

theorem nodup_merged (h : Sound W drafts uuid visited adoption)
    (hwell : Wellformed W drafts uuid) : (merged drafts (adoptedRows W adoption)).Nodup := by
  refine List.nodup_append.2 ⟨?_, ?_, ?_⟩
  · rw [List.nodup_map_iff_inj_on (List.Nodup.of_map _ hwell.draftIds)]
    intro first hfirst second hsecond heq
    obtain ⟨place, hplace⟩ := List.getElem?_of_mem hfirst
    obtain ⟨place', hplace'⟩ := List.getElem?_of_mem hsecond
    obtain ⟨old, hold, hname, -⟩ := h.kept place first hplace
    obtain ⟨old', hold', hname', -⟩ := h.kept place' second hplace'
    rw [h.find_adopted hwell hold hplace, h.find_adopted hwell hold' hplace'] at heq
    have hid := congrArg DraftRow.draftId heq
    rw [draftId_settledRow, draftId_settledRow] at hid
    have hsame := h.place_eq hwell hold hold' hid
    rw [hsame, hplace'] at hplace
    exact (Option.some.inj hplace).symm
  · apply List.Nodup.filter
    apply List.Nodup.filterMap ?_ h.changed_nodup
    intro first second row hfirst hsecond
    obtain ⟨old, hold, rfl⟩ := Option.map_eq_some_iff.1 hfirst
    obtain ⟨old', hold', hrow⟩ := Option.map_eq_some_iff.1 hsecond
    exact h.place_eq hwell hold hold' (congrArg DraftRow.draftId hrow).symm
  · rintro row hrow _ hnew rfl
    obtain ⟨draft, hdraft, rfl⟩ := List.mem_map.1 hrow
    obtain ⟨place, hplace⟩ := List.getElem?_of_mem hdraft
    obtain ⟨old, hold, hname, -⟩ := h.kept place draft hplace
    have hfresh := (List.mem_filter.1 hnew).2
    rw [h.find_adopted hwell hold hplace, Bool.not_eq_true', List.any_eq_false] at hfresh
    apply hfresh draft hdraft
    rw [decide_eq_true_iff, draftId_settledRow, hname]

/-- Every session has a row at the end. -/
theorem owner_isSome (h : Sound W drafts uuid (visitOrder W) adoption) {entry : SessionSummary}
    (hentry : entry ∈ W) : ∃ place, adoption.owner entry.sessionId = some place := by
  apply Option.isSome_iff_exists.1
  by_contra hnone
  have hfree := h.unowned_of_owner (Option.not_isSome_iff_eq_none.1 hnone)
  apply hnone
  exact (h.owned_iff entry hentry hfree).2
    ⟨entry, (visitOrder_perm W).mem_iff.2 hentry, Below.refl hentry hfree⟩

end Sound

/-! ## What the drafts are to be -/

/-- Rows that group the sessions into drafts. -/
structure Groups (W : List SessionSummary) (drafts rows : List DraftRow) : Prop where
  one_row : ∀ entry ∈ W,
    (rows.filter fun row => row.sessionIds.contains entry.sessionId).length = 1
  kept : ∀ draft ∈ drafts, ∃ row ∈ rows, row.draftId = draft.draftId ∧
    draft.sessionIds ⊆ row.sessionIds
  joins : ∀ entry top, Below W drafts top entry → ∀ parent, Continues W top parent →
    ∀ draft ∈ drafts, parent.sessionId ∈ draft.sessionIds →
      ∃ row ∈ rows, row.draftId = draft.draftId ∧ entry.sessionId ∈ row.sessionIds
  shared : ∀ entry above, Below W drafts above entry →
    ∃ row ∈ rows, above.sessionId ∈ row.sessionIds ∧ entry.sessionId ∈ row.sessionIds
  listed : ∀ entry ∈ W, Unowned drafts entry → ∀ parent, Continues W entry parent →
    Unowned drafts parent → ∀ row ∈ rows, entry.sessionId ∈ row.sessionIds →
      parent.sessionId ∈ row.sessionIds →
        [parent.sessionId, entry.sessionId].Sublist row.sessionIds

/-- `adoptSessions` ends, it groups the sessions, and once its rows have been written it
has no more. -/
def Grouped (drafts : List DraftRow) (sessions : List SessionSummary) (uuid : Nat → JsString) :
    Prop :=
  ∃ adopted, adoptSessions drafts sessions uuid = some adopted ∧
    Groups (writeSessionsOf sessions) drafts (merged drafts adopted) ∧
    ∀ again, adoptSessions (merged drafts adopted) sessions again = some []

/-- Among unowned sessions, none has an earlier base time than the one that it continues. -/
def BaseOrdered (W : List SessionSummary) (drafts : List DraftRow) : Prop :=
  ∀ entry ∈ W, Unowned drafts entry → ∀ parent, Continues W entry parent →
    Unowned drafts parent → parent.baseWallMs ≤ entry.baseWallMs

theorem baseOf_mem (hwell : Wellformed W drafts uuid) {entry : SessionSummary} (hentry : entry ∈ W) :
    baseOf W entry.sessionId = entry.baseWallMs := by
  rw [baseOf, byId]
  cases hfind : W.reverse.find? (·.sessionId = entry.sessionId) with
  | none =>
      have hnone := List.find?_eq_none.1 hfind entry (List.mem_reverse.2 hentry)
      simp at hnone
  | some found =>
      have hmem := List.mem_reverse.1 (List.mem_of_find?_eq_some hfind)
      have hid := List.find?_some hfind
      rw [decide_eq_true_iff] at hid
      rw [eq_of_sessionId hwell hmem hentry hid]
      rfl

theorem base_le_trans (first second third : JsString)
    (h : decide (baseOf W first ≤ baseOf W second) = true)
    (h' : decide (baseOf W second ≤ baseOf W third) = true) :
    decide (baseOf W first ≤ baseOf W third) = true := by
  rw [decide_eq_true_iff] at *
  exact h.trans h'

theorem base_le_total (first second : JsString) :
    (decide (baseOf W first ≤ baseOf W second) || decide (baseOf W second ≤ baseOf W first)) =
      true := by
  rw [Bool.or_eq_true, decide_eq_true_iff, decide_eq_true_iff]
  exact le_total _ _

/-- Two sessions of a sorted row stand in the order of their base times. -/
theorem base_le_of_sublist {row : DraftRow} {first second : JsString}
    (h : [first, second].Sublist (sortRow W row).sessionIds) :
    baseOf W first ≤ baseOf W second := by
  have hsorted := List.pairwise_mergeSort (base_le_trans (W := W)) base_le_total row.sessionIds
  have hpair := List.pairwise_pair.1 (hsorted.sublist h)
  exact decide_eq_true_iff.1 hpair

theorem sublist_sortRow {row : DraftRow} {first second : JsString}
    (hle : baseOf W first ≤ baseOf W second) (h : [first, second].Sublist row.sessionIds) :
    [first, second].Sublist (sortRow W row).sessionIds :=
  List.pair_sublist_mergeSort base_le_trans base_le_total (decide_eq_true_iff.2 hle) h

/-- A row of the drafts holds nothing that was unowned, so one that does is sorted. -/
theorem Sound.changed_of_unowned (h : Sound W drafts uuid visited adoption)
    {entry : SessionSummary} (hfree : Unowned drafts entry) {place : Nat} {row : DraftRow}
    (hrow : adoption.rows[place]? = some row) (hmem : entry.sessionId ∈ row.sessionIds) :
    place ∈ adoption.changed := by
  by_contra hnot
  have hdraft := h.unchanged place row hrow hnot
  exact hfree row (List.mem_of_getElem? hdraft) hmem

/-- With the sessions in the rows of those they continue, a chain has one row. -/
theorem Follows.owner_below (hfollows : Follows W drafts adoption) {entry above : SessionSummary}
    (hbelow : Below W drafts above entry) {place : Nat}
    (howner : adoption.owner entry.sessionId = some place) :
    adoption.owner above.sessionId = some place := by
  obtain ⟨hentry, hfree, hpath⟩ := hbelow
  induction hpath with
  | refl => exact howner
  | @tail middle above hpath hstep ih =>
      have hmiddle : Below W drafts middle entry := ⟨hentry, hfree, hpath⟩
      exact hfollows middle hmiddle.mem hmiddle.unowned above hstep.1 place ih

/-! ## When they are grouped -/

theorem Sound.mem_settled (h : Sound W drafts uuid visited adoption) {place : Nat} {old : DraftRow}
    (hold : adoption.rows[place]? = some old) {id : JsString} :
    id ∈ (settledRow W adoption place old).sessionIds ↔ adoption.owner id = some place := by
  rw [mem_settledRow, h.owner_iff]
  constructor
  · intro hmem
    exact ⟨old, hold, hmem⟩
  · rintro ⟨row, hrow, hmem⟩
    rw [hold] at hrow
    cases hrow
    exact hmem

theorem Sound.row_of_owner (h : Sound W drafts uuid visited adoption)
    (hwell : Wellformed W drafts uuid) {id : JsString} {place : Nat}
    (howner : adoption.owner id = some place) :
    ∃ old : DraftRow, adoption.rows[place]? = some old ∧
      settledRow W adoption place old ∈ merged drafts (adoptedRows W adoption) := by
  obtain ⟨old, hold, -⟩ := (h.owner_iff id place).1 howner
  exact ⟨old, hold, (h.mem_merged hwell).2 ⟨place, old, hold, rfl⟩⟩

theorem Sound.one_row (h : Sound W drafts uuid (visitOrder W) adoption)
    (hwell : Wellformed W drafts uuid) {entry : SessionSummary} (hentry : entry ∈ W) :
    ((merged drafts (adoptedRows W adoption)).filter fun row =>
      row.sessionIds.contains entry.sessionId).length = 1 := by
  obtain ⟨place, howner⟩ := h.owner_isSome hentry
  obtain ⟨old, hold, hrow⟩ := h.row_of_owner hwell howner
  have hnodup := (h.nodup_merged hwell).filter fun row => row.sessionIds.contains entry.sessionId
  have hperm : ((merged drafts (adoptedRows W adoption)).filter fun row =>
      row.sessionIds.contains entry.sessionId).Perm [settledRow W adoption place old] := by
    rw [List.perm_ext_iff_of_nodup hnodup (List.nodup_singleton _)]
    intro row
    rw [List.mem_filter, List.mem_singleton, List.contains_iff_mem, h.mem_merged hwell]
    constructor
    · rintro ⟨⟨other, found, hfound, rfl⟩, hmem⟩
      have hother := (h.mem_settled hfound).1 hmem
      rw [howner] at hother
      cases hother
      rw [hold] at hfound
      cases hfound
      rfl
    · rintro rfl
      exact ⟨⟨place, old, hold, rfl⟩, (h.mem_settled hold).2 howner⟩
  exact hperm.length_eq

theorem Sound.groups (h : Sound W drafts uuid (visitOrder W) adoption)
    (hwell : Wellformed W drafts uuid) (hfollows : Follows W drafts adoption)
    (hbase : BaseOrdered W drafts) : Groups W drafts (merged drafts (adoptedRows W adoption)) := by
  constructor
  case one_row => exact fun entry hentry => h.one_row hwell hentry
  case kept =>
    intro draft hdraft
    obtain ⟨place, hplace⟩ := List.getElem?_of_mem hdraft
    obtain ⟨old, hold, hname, hkept⟩ := h.kept place draft hplace
    refine ⟨_, (h.mem_merged hwell).2 ⟨place, old, hold, rfl⟩, ?_, ?_⟩
    · rw [draftId_settledRow, hname]
    · exact fun id hmem => mem_settledRow.2 (hkept id hmem)
  case joins =>
    intro entry top hbelow parent hcontinues draft hdraft hmem
    obtain ⟨place, hplace⟩ := List.getElem?_of_mem hdraft
    obtain ⟨old, hold, hname, hkept⟩ := h.kept place draft hplace
    have hparent := (h.owner_iff parent.sessionId place).2 ⟨old, hold, hkept _ hmem⟩
    obtain ⟨other, howner⟩ := h.owner_isSome hbelow.1
    have htop := hfollows.owner_below hbelow howner
    have hsame := hfollows top hbelow.mem hbelow.unowned parent hcontinues other htop
    rw [hparent] at hsame
    cases hsame
    refine ⟨_, (h.mem_merged hwell).2 ⟨place, old, hold, rfl⟩, ?_, (h.mem_settled hold).2 howner⟩
    rw [draftId_settledRow, hname]
  case shared =>
    intro entry above hbelow
    obtain ⟨place, howner⟩ := h.owner_isSome hbelow.1
    obtain ⟨old, hold, hrow⟩ := h.row_of_owner hwell howner
    exact ⟨_, hrow, (h.mem_settled hold).2 (hfollows.owner_below hbelow howner),
      (h.mem_settled hold).2 howner⟩
  case listed =>
    intro entry hentry hfree parent hcontinues hparent row hrow hmem hmem'
    obtain ⟨place, old, hold, rfl⟩ := (h.mem_merged hwell).1 hrow
    rw [mem_settledRow] at hmem hmem'
    have hsub := h.ordered entry hentry parent hcontinues hfree hparent place old hold hmem hmem'
    rw [settledRow, if_pos (h.changed_of_unowned hfree hold hmem)]
    apply sublist_sortRow ?_ hsub
    rw [baseOf_mem hwell hentry, baseOf_mem hwell (mem_of_parentOf hcontinues)]
    exact hbase entry hentry hfree parent hcontinues hparent

theorem Sound.follows_of_groups (h : Sound W drafts uuid (visitOrder W) adoption)
    (hwell : Wellformed W drafts uuid)
    (hgroups : Groups W drafts (merged drafts (adoptedRows W adoption))) :
    Follows W drafts adoption := by
  intro entry hentry hfree parent hcontinues place howner
  by_cases hparent : Unowned drafts parent
  · obtain ⟨row, hrow, hmem, hmem'⟩ :=
      hgroups.shared entry parent ((Below.refl hentry hfree).up hcontinues hparent)
    obtain ⟨other, old, hold, rfl⟩ := (h.mem_merged hwell).1 hrow
    have hother := (h.mem_settled hold).1 hmem'
    rw [howner] at hother
    cases hother
    exact (h.mem_settled hold).1 hmem
  · obtain ⟨draft, hdraft, hmem⟩ : ∃ draft ∈ drafts, parent.sessionId ∈ draft.sessionIds := by
      simpa [Unowned] using hparent
    obtain ⟨row, hrow, hname, hjoined⟩ := hgroups.joins entry entry (Below.refl hentry hfree)
      parent hcontinues draft hdraft hmem
    obtain ⟨other, old, hold, rfl⟩ := (h.mem_merged hwell).1 hrow
    have hother := (h.mem_settled hold).1 hjoined
    rw [howner] at hother
    cases hother
    obtain ⟨first, hfirst⟩ := List.getElem?_of_mem hdraft
    obtain ⟨row, hrow', hname', hkept⟩ := h.kept first draft hfirst
    rw [draftId_settledRow, ← hname'] at hname
    rw [h.place_eq hwell hold hrow' hname]
    exact (h.owner_iff parent.sessionId first).2 ⟨row, hrow', hkept _ hmem⟩

theorem Sound.baseOrdered_of_groups (h : Sound W drafts uuid (visitOrder W) adoption)
    (hwell : Wellformed W drafts uuid)
    (hgroups : Groups W drafts (merged drafts (adoptedRows W adoption))) : BaseOrdered W drafts := by
  intro entry hentry hfree parent hcontinues hparent
  obtain ⟨row, hrow, hmem, hmem'⟩ :=
    hgroups.shared entry parent ((Below.refl hentry hfree).up hcontinues hparent)
  have hsub := hgroups.listed entry hentry hfree parent hcontinues hparent row hrow hmem' hmem
  obtain ⟨place, old, hold, rfl⟩ := (h.mem_merged hwell).1 hrow
  have hchanged := h.changed_of_unowned hfree hold (mem_settledRow.1 hmem')
  rw [settledRow, if_pos hchanged] at hsub
  have hle := base_le_of_sublist hsub
  rw [baseOf_mem hwell hentry, baseOf_mem hwell (mem_of_parentOf hcontinues)] at hle
  exact hle

/-- Where every session has a row, there is nothing to write. -/
theorem adoptAll_owned {entries : List SessionSummary}
    (h : ∀ entry ∈ entries, (adoption.owner entry.sessionId).isSome) :
    adoptAll W uuid adoption entries = some adoption := by
  induction entries with
  | nil => rfl
  | cons entry entries ih =>
      have hone : adoptOne W uuid adoption entry = some adoption := by
        rw [adoptOne, if_pos (h entry (List.mem_cons_self ..))]
      rw [adoptAll, hone, Option.bind_some]
      exact ih fun other hother => h other (List.mem_cons_of_mem _ hother)

theorem adoptSessions_again {rows : List DraftRow} {sessions : List SessionSummary}
    (h : ∀ entry ∈ writeSessionsOf sessions, ∃ row ∈ rows, entry.sessionId ∈ row.sessionIds) :
    adoptSessions rows sessions uuid = some [] := by
  have hall : adoptAll (writeSessionsOf sessions) uuid ⟨rows, ownerOf rows, [], 0⟩
      (visitOrder (writeSessionsOf sessions)) = some ⟨rows, ownerOf rows, [], 0⟩ := by
    apply adoptAll_owned
    intro entry hentry
    obtain ⟨row, hrow, hmem⟩ := h entry ((visitOrder_perm _).mem_iff.1 hentry)
    by_contra hnone
    exact ownerOf_eq_none.1 (Option.not_isSome_iff_eq_none.1 hnone) row hrow hmem
  simp only [adoptSessions, hall, Option.map_some, List.filterMap_nil]

/-- The loop ends, with the rows that `adoptSessions` returns. -/
theorem exists_adoption {sessions : List SessionSummary}
    (hwell : Wellformed (writeSessionsOf sessions) drafts uuid) :
    ∃ adoption, adoptAll (writeSessionsOf sessions) uuid ⟨drafts, ownerOf drafts, [], 0⟩
        (visitOrder (writeSessionsOf sessions)) = some adoption ∧
      Sound (writeSessionsOf sessions) drafts uuid (visitOrder (writeSessionsOf sessions)) adoption ∧
      adoptSessions drafts sessions uuid =
        some (adoptedRows (writeSessionsOf sessions) adoption) := by
  obtain ⟨adoption, hall, h, -⟩ := adoptAll_spec hwell (sound_drafts hwell)
    fun entry hentry => (visitOrder_perm (writeSessionsOf sessions)).subset hentry
  rw [List.nil_append] at h
  refine ⟨adoption, hall, h, ?_⟩
  simp only [adoptSessions, hall, Option.map_some]
  rfl

theorem grouped_iff {sessions : List SessionSummary}
    (hwell : Wellformed (writeSessionsOf sessions) drafts uuid) :
    Grouped drafts sessions uuid ↔
      BaseOrdered (writeSessionsOf sessions) drafts ∧ InTurn (writeSessionsOf sessions) drafts := by
  obtain ⟨adoption, hall, h, hadopted⟩ := exists_adoption hwell
  constructor
  · rintro ⟨adopted, hreturned, hgroups, -⟩
    rw [hadopted] at hreturned
    cases hreturned
    exact ⟨h.baseOrdered_of_groups hwell hgroups,
      inTurn_of_follows hwell hall (h.follows_of_groups hwell hgroups)⟩
  · rintro ⟨hbase, hinTurn⟩
    have hstart : Follows (writeSessionsOf sessions) drafts ⟨drafts, ownerOf drafts, [], 0⟩ := by
      intro entry hentry hfree parent hcontinues place howner
      exact absurd (howner.symm.trans (ownerOf_eq_none.2 hfree)) (Option.some_ne_none place)
    have hfollows := follows_run hwell hinTurn (sound_drafts hwell) rfl hstart hall
    refine ⟨_, hadopted, h.groups hwell hfollows hbase, fun again => adoptSessions_again ?_⟩
    intro entry hentry
    obtain ⟨place, howner⟩ := h.owner_isSome hentry
    obtain ⟨old, hold, hrow⟩ := h.row_of_owner hwell howner
    exact ⟨_, hrow, (h.mem_settled hold).2 howner⟩

/-! ## A chain of three sessions -/

def recordHashOf (byte : UInt8) : B3Hash := ⟨List.replicate 32 byte, rfl⟩

def chainSession (id : String) (base : ℚ) (parent uploaded : Option B3Hash) : SessionSummary where
  sessionId := js id
  baseWallMs := base
  lastEditWallMs := base
  surface := some (js "web-draft")
  parentRecord := parent
  uploadedRecordHash := uploaded

def firstSession : SessionSummary := chainSession "a" 1 none (some (recordHashOf 1))

def secondSession (base : ℚ) : SessionSummary :=
  chainSession "b" base (some (recordHashOf 1)) (some (recordHashOf 2))

def thirdSession (base : ℚ) : SessionSummary := chainSession "c" base (some (recordHashOf 2)) none

/-- The third session continues the second, and that one the first. -/
def chainOf (second third : ℚ) : List SessionSummary :=
  [firstSession, secondSession second, thirdSession third]

/-- A draft that lists the first session only. -/
def firstDraft : DraftRow where
  draftId := js "d"
  name := none
  text := []
  textTag := none
  sessionIds := [js "a"]
  createdMs := 1
  updatedMs := 1

def replicatedUuid (call : Nat) : JsString := List.replicate (call + 1) 0x75

theorem writeSessionsOf_chain (second third : ℚ) :
    writeSessionsOf (chainOf second third) = chainOf second third := rfl

theorem recordHashOf_ne : some (recordHashOf 1) ≠ some (recordHashOf 2) := by decide

theorem continues_chain {second third : ℚ} {entry parent : SessionSummary}
    (h : Continues (chainOf second third) entry parent) :
    entry.parentRecord = some (recordHashOf 1) ∧ parent = firstSession ∨
      entry.parentRecord = some (recordHashOf 2) ∧ parent = secondSession second := by
  obtain ⟨hash, hrecord, hfound⟩ := Option.bind_eq_some_iff.1 h
  have hmem := List.mem_of_find?_eq_some hfound
  have huploaded := List.find?_some hfound
  rw [decide_eq_true_iff] at huploaded
  rw [hrecord, ← huploaded]
  simp only [chainOf, List.reverse_cons, List.reverse_nil, List.nil_append, List.cons_append,
    List.mem_cons, List.not_mem_nil, or_false] at hmem
  rcases hmem with rfl | rfl | rfl
  · cases huploaded
  · exact .inr ⟨rfl, rfl⟩
  · exact .inl ⟨rfl, rfl⟩

theorem wellformed_chain (second third : ℚ) :
    Wellformed (chainOf second third) [firstDraft] replicatedUuid := by
  constructor
  case owned_once => exact List.nodup_singleton _
  case draftIds => exact List.nodup_singleton _
  case sessionIds =>
    show [js "a", js "b", js "c"].Nodup
    decide
  case acyclic =>
    -- The record that a session continues gives its depth.
    have hdepth {entry parent : SessionSummary}
        (h : Relation.TransGen (Continues (chainOf second third)) entry parent) :
        entry.parentRecord = some (recordHashOf 2) ∧ parent.parentRecord ≠ some (recordHashOf 2) ∨
          entry.parentRecord = some (recordHashOf 1) ∧ parent.parentRecord = none := by
      induction h with
      | single hstep =>
          rcases continues_chain hstep with ⟨hrecord, rfl⟩ | ⟨hrecord, rfl⟩
          · exact .inr ⟨hrecord, rfl⟩
          · exact .inl ⟨hrecord, recordHashOf_ne⟩
      | tail _ hstep ih =>
          rcases continues_chain hstep with ⟨hrecord, rfl⟩ | ⟨hrecord, rfl⟩
          · rcases ih with ⟨hentry, -⟩ | ⟨-, hnone⟩
            · exact .inl ⟨hentry, by decide⟩
            · rw [hrecord] at hnone
              cases hnone
          · rcases ih with ⟨-, hne⟩ | ⟨-, hnone⟩
            · exact absurd hrecord hne
            · rw [hrecord] at hnone
              cases hnone
    intro entry hcycle
    rcases hdepth hcycle with ⟨hrecord, hne⟩ | ⟨hrecord, hnone⟩
    · exact hne hrecord
    · rw [hrecord] at hnone
      cases hnone
  case uuid_injective =>
    intro first second h
    have hlength := congrArg List.length h
    rw [replicatedUuid, replicatedUuid, List.length_replicate, List.length_replicate] at hlength
    omega
  case uuid_fresh =>
    intro call draft hdraft h
    rw [List.mem_singleton.1 hdraft] at h
    have hhead : some (0x75 : UInt16) = some 0x64 := congrArg List.head? h
    revert hhead
    decide

theorem unowned_chain {entry : SessionSummary} (hid : entry.sessionId ≠ js "a") :
    Unowned [firstDraft] entry := by
  intro draft hdraft hmem
  rw [List.mem_singleton.1 hdraft] at hmem
  exact hid (List.mem_singleton.1 hmem)

/-- The third session is visited before the second, which links it to the draft. -/
theorem not_grouped_lateParent :
    Wellformed (writeSessionsOf (chainOf 20 10)) [firstDraft] replicatedUuid ∧
      ¬ Grouped [firstDraft] (chainOf 20 10) replicatedUuid := by
  have hwell := wellformed_chain 20 10
  refine ⟨hwell, ?_⟩
  obtain ⟨adoption, hall, h, hadopted⟩ := exists_adoption (show Wellformed
    (writeSessionsOf (chainOf 20 10)) [firstDraft] replicatedUuid from hwell)
  rw [writeSessionsOf_chain] at hall h hadopted
  rintro ⟨adopted, hreturned, hgroups, -⟩
  rw [hadopted] at hreturned
  cases hreturned
  have horder : visitOrder (chainOf 20 10) =
      [firstSession, thirdSession 10, secondSession 20] := by
    have hfirst : visitedFirst firstSession (secondSession 20) = true := by decide +kernel
    have hlate : visitedFirst (secondSession 20) (thirdSession 10) = false := by decide +kernel
    have hthird : visitedFirst firstSession (thirdSession 10) = true := by decide +kernel
    simp [visitOrder, chainOf, List.mergeSort, List.MergeSort.Internal.splitInTwo, hfirst, hlate,
      hthird]
  have howners : (adoptAll (chainOf 20 10) replicatedUuid ⟨[firstDraft], ownerOf [firstDraft], [], 0⟩
      [firstSession, thirdSession 10, secondSession 20]).map (fun adoption =>
        (adoption.owner (js "a"), adoption.owner (js "b"))) = some (some 0, some 1) := by
    decide +kernel
  rw [← horder, hall] at howners
  obtain ⟨hfirst, hsecond⟩ := Prod.mk.inj (Option.some.inj howners)
  have hsame := h.follows_of_groups hwell hgroups (secondSession 20)
    (List.mem_cons_of_mem _ (List.mem_cons_self ..)) (unowned_chain (by decide)) firstSession
    (show parentOf _ _ = _ by decide +kernel) 1 hsecond
  rw [show adoption.owner firstSession.sessionId = some 0 from hfirst] at hsame
  cases hsame

theorem owned_first : ¬ Unowned [firstDraft] firstSession := fun h =>
  h firstDraft (List.mem_singleton_self _) (List.mem_singleton_self _)

theorem mem_chain_unowned {second third : ℚ} {entry : SessionSummary}
    (hentry : entry ∈ chainOf second third) (hfree : Unowned [firstDraft] entry) :
    entry = secondSession second ∨ entry = thirdSession third := by
  rcases List.mem_cons.1 hentry with rfl | hentry
  · exact absurd hfree owned_first
  · simpa using hentry

theorem inTurn_chain : InTurn (chainOf 2 3) [firstDraft] := by
  have horder : visitOrder (chainOf 2 3) = [firstSession, secondSession 2, thirdSession 3] :=
    List.mergeSort_of_pairwise (by decide +kernel)
  intro entry hentry hfree parent hcontinues first hfirst
  left
  have hbelow := hfirst.1
  rcases mem_chain_unowned hentry hfree with rfl | rfl
  · rcases mem_chain_unowned hbelow.1 hbelow.2.1 with hsecond | rfl
    · exact hsecond
    · have hturn := hfirst.2 _ (Below.refl hentry hfree)
      rw [turn, turn, horder] at hturn
      exact absurd hturn (by decide +kernel)
  · rcases mem_chain_unowned hbelow.1 hbelow.2.1 with rfl | hthird
    · -- The second session continues one that has a row, so it leads up to none but itself.
      rcases Relation.ReflTransGen.cases_head hbelow.2.2 with hself | ⟨middle, hstep, -⟩
      · exact hself
      · rcases continues_chain hstep.1 with ⟨-, rfl⟩ | ⟨hrecord, -⟩
        · exact absurd hstep.2 owned_first
        · exact absurd hrecord recordHashOf_ne
    · exact hthird

theorem baseOrdered_chain : BaseOrdered (chainOf 2 3) [firstDraft] := by
  intro entry hentry hfree parent hcontinues hparent
  rcases mem_chain_unowned hentry hfree with rfl | rfl
  · rcases continues_chain hcontinues with ⟨-, rfl⟩ | ⟨hrecord, -⟩
    · exact absurd hparent owned_first
    · exact absurd hrecord recordHashOf_ne
  · rcases continues_chain hcontinues with ⟨hrecord, -⟩ | ⟨-, rfl⟩
    · exact absurd hrecord.symm recordHashOf_ne
    · show (2 : ℚ) ≤ 3
      decide +kernel

theorem grouped_inTurn : Grouped [firstDraft] (chainOf 2 3) replicatedUuid := by
  have hwell : Wellformed (writeSessionsOf (chainOf 2 3)) [firstDraft] replicatedUuid :=
    wellformed_chain 2 3
  exact (grouped_iff hwell).2 ⟨baseOrdered_chain, inTurn_chain⟩

end Pmbah.Web
