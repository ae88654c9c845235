import Pmbah.Web.Lineage

/-!
# What the loop over the sessions keeps

An unowned session gets a row with the first session to be visited among itself and those
that continue it.
-/

namespace Pmbah.Web

open Js

variable {W : List SessionSummary} {drafts : List DraftRow} {uuid : Nat → JsString}

/-- No draft lists the session at first. -/
def Unowned (drafts : List DraftRow) (entry : SessionSummary) : Prop :=
  ∀ draft ∈ drafts, entry.sessionId ∉ draft.sessionIds

/-- `entry` leads up to `above` through unowned sessions only. -/
def Below (W : List SessionSummary) (drafts : List DraftRow) (above entry : SessionSummary) :
    Prop :=
  entry ∈ W ∧ Unowned drafts entry ∧
    Relation.ReflTransGen (fun entry parent => Continues W entry parent ∧ Unowned drafts parent)
      entry above

theorem Below.up {above parent entry : SessionSummary} (h : Below W drafts above entry)
    (hcontinues : Continues W above parent) (hparent : Unowned drafts parent) :
    Below W drafts parent entry :=
  ⟨h.1, h.2.1, h.2.2.tail ⟨hcontinues, hparent⟩⟩

theorem Below.unowned {above entry : SessionSummary} (h : Below W drafts above entry) :
    Unowned drafts above := by
  obtain ⟨-, hentry, hpath⟩ := h
  induction hpath with
  | refl => exact hentry
  | tail _ hstep _ => exact hstep.2

theorem Below.mem {above entry : SessionSummary} (h : Below W drafts above entry) :
    above ∈ W := by
  obtain ⟨hentry, -, hpath⟩ := h
  induction hpath with
  | refl => exact hentry
  | tail _ hstep _ => exact mem_of_parentOf hstep.1

theorem Below.refl {entry : SessionSummary} (hentry : entry ∈ W)
    (hunowned : Unowned drafts entry) : Below W drafts entry entry :=
  ⟨hentry, hunowned, .refl⟩

theorem Below.trans {above middle entry : SessionSummary} (h : Below W drafts above middle)
    (h' : Below W drafts middle entry) : Below W drafts above entry :=
  ⟨h'.1, h'.2.1, h'.2.2.trans h.2.2⟩

theorem zipIdx_mem {rows : List DraftRow} {row : DraftRow} {place : Nat} :
    (row, place) ∈ rows.zipIdx ↔ rows[place]? = some row := by
  rw [List.mem_zipIdx_iff_getElem?]

/-- Where every session is listed once, its owner is the row that lists it. -/
theorem ownerOf_eq_some {rows : List DraftRow}
    (honce : ∀ (id : JsString) (first second : Nat) (row other : DraftRow),
      rows[first]? = some row → rows[second]? = some other → id ∈ row.sessionIds →
        id ∈ other.sessionIds → first = second) {id : JsString} {place : Nat} :
    ownerOf rows id = some place ↔ ∃ row, rows[place]? = some row ∧ id ∈ row.sessionIds := by
  rw [ownerOf]
  constructor
  · intro h
    obtain ⟨⟨row, found⟩, hfound, rfl⟩ := Option.map_eq_some_iff.1 h
    have hmem := List.mem_reverse.1 (List.mem_of_find?_eq_some hfound)
    have hlists := List.find?_some hfound
    exact ⟨row, zipIdx_mem.1 hmem, by simpa using hlists⟩
  · rintro ⟨row, hrow, hmem⟩
    cases hfound : rows.zipIdx.reverse.find? fun entry => entry.1.sessionIds.contains id with
    | none =>
        have hnone := List.find?_eq_none.1 hfound (row, place)
          (List.mem_reverse.2 (zipIdx_mem.2 hrow))
        simp [hmem] at hnone
    | some entry =>
        obtain ⟨other, found⟩ := entry
        have hother := zipIdx_mem.1 (List.mem_reverse.1 (List.mem_of_find?_eq_some hfound))
        have hlists := List.find?_some hfound
        have hplace := honce id found place other row hother hrow (by simpa using hlists) hmem
        rw [hplace]
        rfl

theorem ownerOf_eq_none {rows : List DraftRow} {id : JsString} :
    ownerOf rows id = none ↔ ∀ row ∈ rows, id ∉ row.sessionIds := by
  rw [ownerOf, Option.map_eq_none_iff, List.find?_eq_none]
  constructor
  · intro h row hrow hmem
    obtain ⟨place, hplace⟩ := List.getElem?_of_mem hrow
    have hnone := h (row, place) (List.mem_reverse.2 (zipIdx_mem.2 hplace))
    simp [hmem] at hnone
  · rintro h ⟨row, place⟩ hmem
    have hrow := zipIdx_mem.1 (List.mem_reverse.1 hmem)
    simpa using h row (List.mem_of_getElem? hrow)

/-- The drafts and sessions that the page can have. -/
structure Wellformed (W : List SessionSummary) (drafts : List DraftRow)
    (uuid : Nat → JsString) : Prop where
  owned_once : (drafts.flatMap DraftRow.sessionIds).Nodup
  draftIds : (drafts.map DraftRow.draftId).Nodup
  sessionIds : (W.map SessionSummary.sessionId).Nodup
  acyclic : Acyclic W
  uuid_injective : ∀ first second, uuid first = uuid second → first = second
  uuid_fresh : ∀ call, ∀ draft ∈ drafts, uuid call ≠ draft.draftId

/-- What the loop keeps, once these sessions have been visited. -/
structure Sound (W : List SessionSummary) (drafts : List DraftRow) (uuid : Nat → JsString)
    (visited : List SessionSummary) (adoption : Adoption) : Prop where
  owner_iff : ∀ (id : JsString) (place : Nat), adoption.owner id = some place ↔
    ∃ row : DraftRow, adoption.rows[place]? = some row ∧ id ∈ row.sessionIds
  nodup : ∀ (place : Nat) (row : DraftRow), adoption.rows[place]? = some row →
    row.sessionIds.Nodup
  kept : ∀ (place : Nat) (draft : DraftRow), drafts[place]? = some draft →
    ∃ row : DraftRow, adoption.rows[place]? = some row ∧ row.draftId = draft.draftId ∧
      ∀ id ∈ draft.sessionIds, id ∈ row.sessionIds
  named : ∀ (place : Nat) (row : DraftRow), adoption.rows[place]? = some row →
    drafts.length ≤ place → row.draftId = uuid (place - drafts.length)
  count : adoption.rows.length = drafts.length + adoption.generated
  changed_lt : ∀ place ∈ adoption.changed, place < adoption.rows.length
  changed_nodup : adoption.changed.Nodup
  unchanged : ∀ (place : Nat) (row : DraftRow), adoption.rows[place]? = some row →
    place ∉ adoption.changed → drafts[place]? = some row
  owned_iff : ∀ entry ∈ W, Unowned drafts entry →
    ((adoption.owner entry.sessionId).isSome ↔ ∃ first ∈ visited, Below W drafts entry first)
  ordered : ∀ entry ∈ W, ∀ parent, Continues W entry parent → Unowned drafts entry →
    Unowned drafts parent → ∀ (place : Nat) (row : DraftRow),
      adoption.rows[place]? = some row → entry.sessionId ∈ row.sessionIds →
        parent.sessionId ∈ row.sessionIds →
          [parent.sessionId, entry.sessionId].Sublist row.sessionIds

theorem sessionIds_foldl_addMember (row : DraftRow) (lineage : List SessionSummary) :
    (lineage.foldl addMember row).sessionIds =
        row.sessionIds ++ lineage.map SessionSummary.sessionId ∧
      (lineage.foldl addMember row).draftId = row.draftId := by
  induction lineage generalizing row with
  | nil => exact ⟨(List.append_nil _).symm, rfl⟩
  | cons member lineage ih =>
      obtain ⟨hids, hname⟩ := ih (addMember row member)
      rw [List.foldl_cons, hids, hname]
      exact ⟨List.append_assoc _ _ _, rfl⟩

theorem eq_of_sessionId (hwell : Wellformed W drafts uuid) {first second : SessionSummary}
    (hfirst : first ∈ W) (hsecond : second ∈ W) (h : first.sessionId = second.sessionId) :
    first = second :=
  List.inj_on_of_nodup_map hwell.sessionIds hfirst hsecond h

namespace Sound

variable {visited : List SessionSummary} {adoption : Adoption} {entry parent : SessionSummary}

/-- What a draft lists has an owner. -/
theorem unowned_of_owner (h : Sound W drafts uuid visited adoption)
    (hnone : adoption.owner entry.sessionId = none) : Unowned drafts entry := by
  intro draft hdraft hmem
  obtain ⟨place, hplace⟩ := List.getElem?_of_mem hdraft
  obtain ⟨row, hrow, -, hkept⟩ := h.kept place draft hplace
  have howner := (h.owner_iff entry.sessionId place).2 ⟨row, hrow, hkept _ hmem⟩
  rw [hnone] at howner
  cases howner

/-- With a session the one that it continues has an owner too. -/
theorem upward (h : Sound W drafts uuid visited adoption) (hentry : entry ∈ W)
    (hunowned : Unowned drafts entry) (hcontinues : Continues W entry parent)
    (hparent : Unowned drafts parent) (howner : (adoption.owner entry.sessionId).isSome) :
    (adoption.owner parent.sessionId).isSome := by
  obtain ⟨first, hfirst, hbelow⟩ := (h.owned_iff entry hentry hunowned).1 howner
  exact (h.owned_iff parent (mem_of_parentOf hcontinues) hparent).2
    ⟨first, hfirst, hbelow.up hcontinues hparent⟩

theorem mem_of_lineage {owner : JsString → Option Nat} {lineage : List SessionSummary}
    (hlineage : Lineage W owner entry lineage) (hentry : entry ∈ W) {member : SessionSummary}
    (hmem : member ∈ lineage) : member ∈ W := by
  have hpath := hlineage.path member hmem
  induction hpath with
  | refl => exact hentry
  | tail _ hstep _ => exact mem_of_parentOf hstep.1

theorem below_of_lineage (h : Sound W drafts uuid visited adoption)
    {lineage : List SessionSummary} (hlineage : Lineage W adoption.owner entry lineage)
    (hentry : entry ∈ W) {member : SessionSummary} (hmem : member ∈ lineage) :
    Below W drafts member entry :=
  ⟨hentry, h.unowned_of_owner (hlineage.unowned entry hlineage.entry_mem), Relation.ReflTransGen.mono (fun _ _ hstep =>
    ⟨hstep.1, h.unowned_of_owner hstep.2⟩) _ _ (hlineage.path member hmem)⟩

/-- A new row at the end, which is about to get its first session. -/
theorem openRow (h : Sound W drafts uuid visited adoption) (root : SessionSummary) :
    Sound W drafts uuid visited
      { adoption with
        rows := adoption.rows ++ [newRow uuid adoption.generated root]
        generated := adoption.generated + 1
        changed := adoption.changed ++ [adoption.rows.length] } := by
  have hrows {place : Nat} {row : DraftRow}
      (hrow : (adoption.rows ++ [newRow uuid adoption.generated root])[place]? = some row) :
      adoption.rows[place]? = some row ∨
        place = adoption.rows.length ∧ row = newRow uuid adoption.generated root := by
    by_cases hold : place < adoption.rows.length
    · rw [List.getElem?_append_left hold] at hrow
      exact .inl hrow
    · rw [List.getElem?_append_right (by omega)] at hrow
      have hlast : place - adoption.rows.length = 0 := by
        have hlt := (List.getElem?_eq_some_iff.1 hrow).1
        rw [List.length_singleton] at hlt
        omega
      rw [hlast] at hrow
      exact .inr ⟨by omega, (Option.some.inj hrow).symm⟩
  have hold {place : Nat} {row : DraftRow} (hrow : adoption.rows[place]? = some row) :
      (adoption.rows ++ [newRow uuid adoption.generated root])[place]? = some row := by
    rw [List.getElem?_append_left (List.getElem?_eq_some_iff.1 hrow).1]
    exact hrow
  constructor
  case owner_iff =>
    intro id place
    rw [h.owner_iff]
    constructor
    · rintro ⟨row, hrow, hmem⟩
      exact ⟨row, hold hrow, hmem⟩
    · rintro ⟨row, hrow, hmem⟩
      rcases hrows hrow with hrow | ⟨-, rfl⟩
      · exact ⟨row, hrow, hmem⟩
      · cases hmem
  case nodup =>
    intro place row hrow
    rcases hrows hrow with hrow | ⟨-, rfl⟩
    · exact h.nodup place row hrow
    · exact List.nodup_nil
  case kept =>
    intro place draft hdraft
    obtain ⟨row, hrow, hkept⟩ := h.kept place draft hdraft
    exact ⟨row, hold hrow, hkept⟩
  case named =>
    intro place row hrow hnew
    rcases hrows hrow with hrow | ⟨rfl, rfl⟩
    · exact h.named place row hrow hnew
    · rw [h.count, Nat.add_sub_cancel_left]
      rfl
  case count =>
    rw [List.length_append, List.length_singleton, h.count, Nat.add_assoc]
  case changed_lt =>
    intro place hmem
    rw [List.length_append, List.length_singleton]
    rcases List.mem_append.1 hmem with hmem | hmem
    · exact Nat.lt_succ_of_lt (h.changed_lt place hmem)
    · rw [List.mem_singleton.1 hmem]
      exact Nat.lt_succ_self _
  case changed_nodup =>
    refine List.nodup_append.2 ⟨h.changed_nodup, List.nodup_singleton _, ?_⟩
    rintro place hmem _ hlast rfl
    rw [List.mem_singleton.1 hlast] at hmem
    exact Nat.lt_irrefl _ (h.changed_lt _ hmem)
  case unchanged =>
    intro place row hrow hunchanged
    rw [List.mem_append, not_or, List.mem_singleton] at hunchanged
    rcases hrows hrow with hrow | ⟨hlast, -⟩
    · exact h.unchanged place row hrow hunchanged.1
    · exact absurd hlast hunchanged.2
  case owned_iff => exact h.owned_iff
  case ordered =>
    intro entry hentry parent hcontinues hunowned hparent place row hrow hmem hmem'
    rcases hrows hrow with hrow | ⟨-, rfl⟩
    · exact h.ordered entry hentry parent hcontinues hunowned hparent place row hrow hmem hmem'
    · cases hmem

/-- The rows after a lineage has joined one of them. -/
theorem row_joinRow {place : Nat} {lineage : List SessionSummary} {other : Nat} {row : DraftRow} :
    (joinRow adoption place lineage).rows[other]? = some row ↔
      ∃ old, adoption.rows[other]? = some old ∧
        row = if other = place then lineage.foldl addMember old else old := by
  simp only [joinRow, List.getElem?_modify, Option.map_eq_map, Option.map_eq_some_iff]
  constructor
  · rintro ⟨old, hold, rfl⟩
    refine ⟨old, hold, ?_⟩
    by_cases hplace : other = place
    · rw [if_pos hplace, if_pos hplace.symm]
    · rw [if_neg hplace, if_neg (Ne.symm hplace)]
  · rintro ⟨old, hold, rfl⟩
    refine ⟨old, hold, ?_⟩
    by_cases hplace : other = place
    · rw [if_pos hplace, if_pos hplace.symm]
    · rw [if_neg hplace, if_neg (Ne.symm hplace)]

/-- What a row lists after a lineage has joined one. -/
theorem mem_joinRow {place other : Nat} {lineage : List SessionSummary} {old : DraftRow}
    {id : JsString} :
    id ∈ (if other = place then lineage.foldl addMember old else old).sessionIds ↔
      id ∈ old.sessionIds ∨ other = place ∧ ∃ member ∈ lineage, member.sessionId = id := by
  by_cases hplace : other = place
  · rw [if_pos hplace, (sessionIds_foldl_addMember old lineage).1, List.mem_append, List.mem_map]
    simp [hplace]
  · rw [if_neg hplace]
    simp [hplace]

theorem owner_joinRow {place : Nat} {lineage : List SessionSummary} {id : JsString} {other : Nat} :
    (joinRow adoption place lineage).owner id = some other ↔
      (∃ member ∈ lineage, member.sessionId = id) ∧ other = place ∨
        (¬ ∃ member ∈ lineage, member.sessionId = id) ∧ adoption.owner id = some other := by
  have hany : lineage.any (·.sessionId = id) = true ↔ ∃ member ∈ lineage, member.sessionId = id := by
    simp
  rw [joinRow]
  by_cases hmember : ∃ member ∈ lineage, member.sessionId = id
  · simp only [hany.2 hmember, if_true, hmember, true_and, not_true, false_and, or_false,
      Option.some.injEq]
    exact eq_comm
  · have hnone : ¬ lineage.any (·.sessionId = id) = true := fun h => hmember (hany.1 h)
    simp only [hnone, hmember]
    simp

section

variable {place : Nat} {lineage : List SessionSummary}

/-- The members of a new lineage are in no row yet. -/
theorem fresh (h : Sound W drafts uuid visited adoption)
    (hlineage : Lineage W adoption.owner entry lineage) {member : SessionSummary}
    (hmem : member ∈ lineage) {other : Nat} {row : DraftRow}
    (hrow : adoption.rows[other]? = some row) : member.sessionId ∉ row.sessionIds := by
  intro hlists
  have howner := (h.owner_iff member.sessionId other).2 ⟨row, hrow, hlists⟩
  rw [hlineage.unowned member hmem] at howner
  cases howner

theorem owner_joinRow_isSome {id : JsString} (howner : (adoption.owner id).isSome) :
    ((joinRow adoption place lineage).owner id).isSome := by
  simp only [joinRow]
  split
  · rfl
  · exact howner

/-- What leads up from the entry is in its lineage, or has a row already. -/
theorem reached (h : Sound W drafts uuid visited adoption)
    (hlineage : Lineage W adoption.owner entry lineage) (hentry : entry ∈ W)
    {above : SessionSummary} (hbelow : Below W drafts above entry) :
    above ∈ lineage ∨ (adoption.owner above.sessionId).isSome := by
  have hunowned : Unowned drafts entry :=
    h.unowned_of_owner (hlineage.unowned entry hlineage.entry_mem)
  obtain ⟨-, -, hpath⟩ := hbelow
  induction hpath with
  | refl => exact .inl hlineage.entry_mem
  | @tail middle above hpath hstep ih =>
      by_cases hfree : adoption.owner above.sessionId = none
      · left
        rcases ih with hmem | howner
        · exact (hlineage.after middle hmem above hstep.1 hfree).subset (List.mem_cons_self ..)
        · have hmiddle : Below W drafts middle entry := ⟨hentry, hunowned, hpath⟩
          have hup := h.upward hmiddle.mem hmiddle.unowned hstep.1 hstep.2 howner
          rw [hfree] at hup
          cases hup
      · exact .inr (Option.isSome_iff_ne_none.2 hfree)

theorem join_owner_iff (h : Sound W drafts uuid visited adoption)
    (hplace : place < adoption.rows.length) (hlineage : Lineage W adoption.owner entry lineage)
    (id : JsString) (other : Nat) :
    (joinRow adoption place lineage).owner id = some other ↔
      ∃ row : DraftRow, (joinRow adoption place lineage).rows[other]? = some row ∧
        id ∈ row.sessionIds := by
  rw [owner_joinRow]
  constructor
  · rintro (⟨⟨member, hmem, rfl⟩, rfl⟩ | ⟨-, howner⟩)
    · refine ⟨_, row_joinRow.2 ⟨_, List.getElem?_eq_getElem hplace, rfl⟩, ?_⟩
      exact mem_joinRow.2 (.inr ⟨rfl, member, hmem, rfl⟩)
    · obtain ⟨row, hrow, hmem⟩ := (h.owner_iff id other).1 howner
      exact ⟨_, row_joinRow.2 ⟨row, hrow, rfl⟩, mem_joinRow.2 (.inl hmem)⟩
  · rintro ⟨row, hrow, hmem⟩
    obtain ⟨old, hold, rfl⟩ := row_joinRow.1 hrow
    rcases mem_joinRow.1 hmem with hmem | ⟨rfl, hmember⟩
    · right
      refine ⟨?_, (h.owner_iff id other).2 ⟨old, hold, hmem⟩⟩
      rintro ⟨member, hmember, rfl⟩
      exact h.fresh hlineage hmember hold hmem
    · exact .inl ⟨hmember, rfl⟩

theorem join_nodup (h : Sound W drafts uuid visited adoption) (hwell : Wellformed W drafts uuid)
    (hlineage : Lineage W adoption.owner entry lineage) (hentry : entry ∈ W) {other : Nat}
    {row : DraftRow} (hrow : (joinRow adoption place lineage).rows[other]? = some row) :
    row.sessionIds.Nodup := by
  obtain ⟨old, hold, rfl⟩ := row_joinRow.1 hrow
  by_cases hother : other = place
  · rw [if_pos hother, (sessionIds_foldl_addMember old lineage).1]
    refine List.nodup_append.2 ⟨h.nodup other old hold, ?_, ?_⟩
    · apply hlineage.nodup.map_on
      intro first hfirst second hsecond heq
      exact eq_of_sessionId hwell (mem_of_lineage hlineage hentry hfirst)
        (mem_of_lineage hlineage hentry hsecond) heq
    · rintro id hmem _ hid rfl
      obtain ⟨member, hmember, rfl⟩ := List.mem_map.1 hid
      exact h.fresh hlineage hmember hold hmem
  · rw [if_neg hother]
    exact h.nodup other old hold

/-- A row keeps its draft. -/
theorem draftId_joinRow {other : Nat} {old : DraftRow} :
    (if other = place then lineage.foldl addMember old else old).draftId = old.draftId := by
  by_cases hother : other = place
  · rw [if_pos hother, (sessionIds_foldl_addMember old lineage).2]
  · rw [if_neg hother]

theorem mem_changed_joinRow {other : Nat} :
    other ∈ (joinRow adoption place lineage).changed ↔ other ∈ adoption.changed ∨ other = place := by
  simp only [joinRow]
  split
  · rename_i hin
    have hin : place ∈ adoption.changed := by simpa using hin
    exact ⟨.inl, fun hmem => hmem.elim id fun hother => hother ▸ hin⟩
  · rw [List.mem_append, List.mem_singleton]

theorem join_changed_nodup (h : Sound W drafts uuid visited adoption) :
    (joinRow adoption place lineage).changed.Nodup := by
  simp only [joinRow]
  split
  · exact h.changed_nodup
  · rename_i hnew
    refine List.nodup_append.2 ⟨h.changed_nodup, List.nodup_singleton _, ?_⟩
    rintro other hmem _ hlast rfl
    rw [List.mem_singleton.1 hlast] at hmem
    exact hnew (by simpa using hmem)

/-- Exactly what leads up from the entries visited so far has a row. -/
theorem join_owned_iff (h : Sound W drafts uuid visited adoption)
    (hwell : Wellformed W drafts uuid) (hlineage : Lineage W adoption.owner entry lineage)
    (hentry : entry ∈ W) {member : SessionSummary} (hmember : member ∈ W)
    (hfree : Unowned drafts member) :
    ((joinRow adoption place lineage).owner member.sessionId).isSome ↔
      ∃ first ∈ visited ++ [entry], Below W drafts member first := by
  constructor
  · intro howner
    obtain ⟨other, hother⟩ := Option.isSome_iff_exists.1 howner
    rcases owner_joinRow.1 hother with ⟨⟨found, hfound, hid⟩, -⟩ | ⟨-, hbefore⟩
    · have hsame := eq_of_sessionId hwell (mem_of_lineage hlineage hentry hfound) hmember hid
      subst hsame
      exact ⟨entry, List.mem_append_right _ (List.mem_singleton_self entry),
        h.below_of_lineage hlineage hentry hfound⟩
    · obtain ⟨first, hfirst, hbelow⟩ :=
        (h.owned_iff member hmember hfree).1 (hbefore ▸ rfl)
      exact ⟨first, List.mem_append_left _ hfirst, hbelow⟩
  · rintro ⟨first, hfirst, hbelow⟩
    rcases List.mem_append.1 hfirst with hfirst | hfirst
    · exact owner_joinRow_isSome
        ((h.owned_iff member hmember hfree).2 ⟨first, hfirst, hbelow⟩)
    · rw [List.mem_singleton.1 hfirst] at hbelow
      rcases h.reached hlineage hentry hbelow with hmem | howner
      · obtain ⟨other, hother⟩ : ∃ other,
            (joinRow adoption place lineage).owner member.sessionId = some other :=
          ⟨place, owner_joinRow.2 (.inl ⟨⟨member, hmem, rfl⟩, rfl⟩)⟩
        rw [hother]
        rfl
      · exact owner_joinRow_isSome howner

theorem mem_lineage (hwell : Wellformed W drafts uuid)
    (hlineage : Lineage W adoption.owner entry lineage) (hentry : entry ∈ W)
    {session : SessionSummary} (hsession : session ∈ W)
    (hfound : ∃ found ∈ lineage, found.sessionId = session.sessionId) : session ∈ lineage := by
  obtain ⟨found, hfound, hid⟩ := hfound
  rw [← eq_of_sessionId hwell (mem_of_lineage hlineage hentry hfound) hsession hid]
  exact hfound

/-- In a row a session stands after the one that it continues. -/
theorem join_ordered (h : Sound W drafts uuid visited adoption)
    (hwell : Wellformed W drafts uuid) (hlineage : Lineage W adoption.owner entry lineage)
    (hentry : entry ∈ W) {member above : SessionSummary} (hmember : member ∈ W)
    (hcontinues : Continues W member above) (hfree : Unowned drafts member)
    (hfree' : Unowned drafts above) {other : Nat} {old : DraftRow}
    (hold : adoption.rows[other]? = some old)
    (hlists : member.sessionId ∈
      (if other = place then lineage.foldl addMember old else old).sessionIds)
    (hlists' : above.sessionId ∈
      (if other = place then lineage.foldl addMember old else old).sessionIds) :
    [above.sessionId, member.sessionId].Sublist
      (if other = place then lineage.foldl addMember old else old).sessionIds := by
  have habove : above ∈ W := mem_of_parentOf hcontinues
  rcases mem_joinRow.1 hlists with hmem | ⟨hother, hmem⟩
  · rcases mem_joinRow.1 hlists' with hmem' | ⟨-, hmem'⟩
    · have hsub := h.ordered member hmember above hcontinues hfree hfree' other old hold hmem hmem'
      by_cases hother : other = place
      · rw [if_pos hother, (sessionIds_foldl_addMember old lineage).1]
        exact hsub.trans (List.sublist_append_left _ _)
      · rw [if_neg hother]
        exact hsub
    · -- A session does not get its row before the one that it continues.
      have howner := (h.owner_iff member.sessionId other).2 ⟨old, hold, hmem⟩
      have hup := h.upward hmember hfree hcontinues hfree' (howner ▸ rfl)
      rw [hlineage.unowned above (mem_lineage hwell hlineage hentry habove hmem')] at hup
      cases hup
  · have hmember' := mem_lineage hwell hlineage hentry hmember hmem
    rw [if_pos hother, (sessionIds_foldl_addMember old lineage).1]
    rcases mem_joinRow.1 hlists' with hmem' | ⟨-, hmem'⟩
    · have hfront : [above.sessionId].Sublist old.sessionIds := List.singleton_sublist.2 hmem'
      exact hfront.append (List.singleton_sublist.2 (List.mem_map_of_mem hmember'))
    · have hsub := hlineage.after member hmember' above hcontinues
        (hlineage.unowned above (mem_lineage hwell hlineage hentry habove hmem'))
      exact (hsub.map SessionSummary.sessionId).trans (List.sublist_append_right _ _)

/-- A lineage joins one of the rows. -/
theorem join (h : Sound W drafts uuid visited adoption) (hwell : Wellformed W drafts uuid)
    (hplace : place < adoption.rows.length) (hlineage : Lineage W adoption.owner entry lineage)
    (hentry : entry ∈ W) :
    Sound W drafts uuid (visited ++ [entry]) (joinRow adoption place lineage) where
  owner_iff := h.join_owner_iff hplace hlineage
  nodup _ _ hrow := h.join_nodup hwell hlineage hentry hrow
  kept other draft hdraft := by
    obtain ⟨row, hrow, hname, hkept⟩ := h.kept other draft hdraft
    exact ⟨_, row_joinRow.2 ⟨row, hrow, rfl⟩, draftId_joinRow.trans hname,
      fun id hmem => mem_joinRow.2 (.inl (hkept id hmem))⟩
  named other row hrow hnew := by
    obtain ⟨old, hold, rfl⟩ := row_joinRow.1 hrow
    exact draftId_joinRow.trans (h.named other old hold hnew)
  count := by
    rw [joinRow, List.length_modify]
    exact h.count
  changed_lt other hmem := by
    rw [joinRow, List.length_modify]
    rcases mem_changed_joinRow.1 hmem with hmem | rfl
    · exact h.changed_lt other hmem
    · exact hplace
  changed_nodup := h.join_changed_nodup
  unchanged other row hrow hunchanged := by
    obtain ⟨old, hold, rfl⟩ := row_joinRow.1 hrow
    rw [mem_changed_joinRow, not_or] at hunchanged
    rw [if_neg hunchanged.2]
    exact h.unchanged other old hold hunchanged.1
  owned_iff _ hmember hfree := h.join_owned_iff hwell hlineage hentry hmember hfree
  ordered member hmember above hcontinues hfree hfree' other row hrow hlists hlists' := by
    obtain ⟨old, hold, rfl⟩ := row_joinRow.1 hrow
    exact h.join_ordered hwell hlineage hentry hmember hcontinues hfree hfree' hold hlists hlists'

end

end Sound

end Pmbah.Web
