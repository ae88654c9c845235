import Pmbah.Web.Adoption

/-!
# The loop over the sessions, turn by turn

A turn leaves the rows as they are, or gives a row to a lineage: the row of the session
that its last member continues, or a new one.
-/

namespace Pmbah.Web

open Js

variable {W : List SessionSummary} {drafts : List DraftRow} {uuid : Nat → JsString}
variable {visited : List SessionSummary} {adoption next : Adoption} {entry : SessionSummary}

/-- A turn that finds the entry without a row. -/
structure Joins (W : List SessionSummary) (entry : SessionSummary) (adoption next : Adoption)
    (lineage : List SessionSummary) (place : Nat) : Prop where
  collected : Lineage W adoption.owner entry lineage
  owner_next : ∀ (id : JsString) (other : Nat), next.owner id = some other ↔
    (∃ member ∈ lineage, member.sessionId = id) ∧ other = place ∨
      (¬ ∃ member ∈ lineage, member.sessionId = id) ∧ adoption.owner id = some other
  joined : ∀ parent, parentOf W entry = some parent → ∀ other,
    adoption.owner parent.sessionId = some other → place = other
  opened : (∀ parent, parentOf W entry = some parent → adoption.owner parent.sessionId = none) →
    place = adoption.rows.length

theorem Sound.owner_lt (h : Sound W drafts uuid visited adoption) {id : JsString} {place : Nat}
    (howner : adoption.owner id = some place) : place < adoption.rows.length := by
  obtain ⟨row, hrow, -⟩ := (h.owner_iff id place).1 howner
  exact (List.getElem?_eq_some_iff.1 hrow).1

theorem Joins.persists (hjoins : ∃ lineage place, Joins W entry adoption next lineage place)
    (hwell : Wellformed W drafts uuid) (hentry : entry ∈ W) {other : SessionSummary}
    (hother : other ∈ W) {place : Nat} (howner : adoption.owner other.sessionId = some place) :
    next.owner other.sessionId = some place := by
  obtain ⟨lineage, target, hjoins⟩ := hjoins
  refine (hjoins.owner_next _ _).2 (.inr ⟨?_, howner⟩)
  rintro ⟨member, hmember, hid⟩
  have hmem := Sound.mem_of_lineage hjoins.collected hentry hmember
  have hsame := eq_of_sessionId hwell hmem hother hid
  have hfree := hjoins.collected.unowned member hmember
  rw [hsame, howner] at hfree
  cases hfree

/-- Of an entry that has a row already nothing below has been missed. -/
theorem Sound.revisit (h : Sound W drafts uuid visited adoption) (hentry : entry ∈ W)
    (howner : (adoption.owner entry.sessionId).isSome) :
    Sound W drafts uuid (visited ++ [entry]) adoption := by
  refine { h with owned_iff := ?_ }
  intro member hmember hfree
  rw [h.owned_iff member hmember hfree]
  constructor
  · rintro ⟨first, hfirst, hbelow⟩
    exact ⟨first, List.mem_append_left _ hfirst, hbelow⟩
  · rintro ⟨first, hfirst, hbelow⟩
    rcases List.mem_append.1 hfirst with hfirst | hfirst
    · exact ⟨first, hfirst, hbelow⟩
    · rw [List.mem_singleton.1 hfirst] at hbelow
      obtain ⟨before, hbefore, hunder⟩ := (h.owned_iff entry hentry hbelow.2.1).1 howner
      exact ⟨before, hbefore, hbelow.trans hunder⟩

/-- The new row of a chain of continuations. -/
theorem joinRow_opened (h : Sound W drafts uuid visited adoption) (root : SessionSummary)
    (lineage : List SessionSummary) :
    joinRow { adoption with
        rows := adoption.rows ++ [newRow uuid adoption.generated root]
        generated := adoption.generated + 1 } adoption.rows.length lineage =
      joinRow { adoption with
        rows := adoption.rows ++ [newRow uuid adoption.generated root]
        generated := adoption.generated + 1
        changed := adoption.changed ++ [adoption.rows.length] } adoption.rows.length lineage := by
  have hnew : adoption.changed.contains adoption.rows.length = false := by
    rw [List.contains_eq_mem, decide_eq_false_iff_not]
    exact fun hmem => Nat.lt_irrefl _ (h.changed_lt _ hmem)
  have hlast :
      (adoption.changed ++ [adoption.rows.length]).contains adoption.rows.length = true := by
    rw [List.contains_eq_mem, decide_eq_true_iff]
    exact List.mem_append_right _ (List.mem_singleton_self _)
  simp only [joinRow, hnew, hlast, if_true, Bool.false_eq_true, if_false]

theorem adoptOne_spec (hwell : Wellformed W drafts uuid)
    (h : Sound W drafts uuid visited adoption) (hentry : entry ∈ W) :
    ∃ next, adoptOne W uuid adoption entry = some next ∧
      Sound W drafts uuid (visited ++ [entry]) next ∧
      ((adoption.owner entry.sessionId).isSome ∧ next = adoption ∨
        ∃ lineage place, Joins W entry adoption next lineage place) := by
  by_cases howner : (adoption.owner entry.sessionId).isSome
  · refine ⟨adoption, ?_, h.revisit hentry howner, .inl ⟨howner, rfl⟩⟩
    rw [adoptOne, if_pos howner]
  · have hfree := Option.not_isSome_iff_eq_none.1 howner
    obtain ⟨lineage, hcollected⟩ : ∃ lineage,
        lineageFrom W adoption.owner W.length entry = some lineage :=
      lineage_ends hwell.acyclic hentry
    have hlineage := lineage_of_some hwell.acyclic hcollected hfree
    rw [adoptOne, if_neg howner, hcollected]
    cases hplace : (parentOf W entry).bind fun parent => adoption.owner parent.sessionId with
    | some place =>
        obtain ⟨parent, hparent, hrow⟩ := Option.bind_eq_some_iff.1 hplace
        have hbound := h.owner_lt hrow
        refine ⟨joinRow adoption place lineage, rfl, h.join hwell hbound hlineage hentry, .inr
          ⟨lineage, place, hlineage, fun id other => Sound.owner_joinRow, ?_, ?_⟩⟩
        · intro other hother found hfound
          rw [hparent] at hother
          cases hother
          rw [hrow] at hfound
          exact Option.some.inj hfound
        · intro hnone
          rw [hnone parent hparent] at hrow
          cases hrow
    | none =>
        obtain ⟨root, hroot⟩ : ∃ root, chainRoot W adoption.owner entry = some root :=
          chainRoot_ends hwell.acyclic hentry
        -- The root of the chain never has a row, so the lineage gets a new one.
        have hnone : (if root ≠ entry then adoption.owner root.sessionId else none) = none := by
          split
          · exact owner_chainRoot hroot hfree
          · rfl
        have hbound : adoption.rows.length <
            (adoption.rows ++ [newRow uuid adoption.generated root]).length := by
          rw [List.length_append, List.length_singleton]
          exact Nat.lt_succ_self _
        refine ⟨joinRow { adoption with
            rows := adoption.rows ++ [newRow uuid adoption.generated root]
            generated := adoption.generated + 1 } adoption.rows.length lineage, ?_, ?_, .inr
          ⟨lineage, adoption.rows.length, hlineage, fun id other => ?_, ?_, fun _ => rfl⟩⟩
        · simp only [Option.bind_eq_bind, Option.bind_some, hroot, hnone]
        · rw [joinRow_opened h]
          exact (h.openRow root).join hwell hbound hlineage hentry
        · exact Sound.owner_joinRow
        · intro parent hparent other hother
          rw [hparent, Option.bind_some, hother] at hplace
          cases hplace

theorem adoptAll_append (adoption : Adoption) (front back : List SessionSummary) :
    adoptAll W uuid adoption (front ++ back) =
      (adoptAll W uuid adoption front).bind fun middle => adoptAll W uuid middle back := by
  induction front generalizing adoption with
  | nil => rfl
  | cons entry front ih =>
      rw [List.cons_append, adoptAll, adoptAll, Option.bind_assoc]
      exact congrArg _ (funext ih)

theorem adoptAll_spec (hwell : Wellformed W drafts uuid) {entries : List SessionSummary}
    (h : Sound W drafts uuid visited adoption) (hentries : ∀ entry ∈ entries, entry ∈ W) :
    ∃ final, adoptAll W uuid adoption entries = some final ∧
      Sound W drafts uuid (visited ++ entries) final ∧
      ∀ session ∈ W, ∀ place, adoption.owner session.sessionId = some place →
        final.owner session.sessionId = some place := by
  induction entries generalizing visited adoption with
  | nil =>
      rw [List.append_nil]
      exact ⟨adoption, rfl, h, fun _ _ _ howner => howner⟩
  | cons entry entries ih =>
      have hentry := hentries entry (List.mem_cons_self ..)
      obtain ⟨next, hnext, hsound, hturn⟩ := adoptOne_spec hwell h hentry
      obtain ⟨final, hfinal, hrest, hpersists⟩ :=
        ih hsound fun other hother => hentries other (List.mem_cons_of_mem _ hother)
      rw [List.append_assoc, List.singleton_append] at hrest
      refine ⟨final, ?_, hrest, ?_⟩
      · rw [adoptAll, hnext, Option.bind_some, hfinal]
      · intro session hsession place howner
        apply hpersists session hsession
        rcases hturn with ⟨-, rfl⟩ | hjoins
        · exact howner
        · exact Joins.persists hjoins hwell hentry hsession howner

theorem sound_drafts (hwell : Wellformed W drafts uuid) :
    Sound W drafts uuid [] ⟨drafts, ownerOf drafts, [], 0⟩ := by
  have honce (id : JsString) (first second : Nat) (row other : DraftRow)
      (hfirst : drafts[first]? = some row) (hsecond : drafts[second]? = some other)
      (hmem : id ∈ row.sessionIds) (hmem' : id ∈ other.sessionIds) : first = second := by
    obtain ⟨hlt, rfl⟩ := List.getElem?_eq_some_iff.1 hfirst
    obtain ⟨hlt', rfl⟩ := List.getElem?_eq_some_iff.1 hsecond
    have hdisjoint := (List.pairwise_iff_getElem.1 (List.nodup_flatMap.1 hwell.owned_once).2)
    by_contra hne
    rcases Nat.lt_or_gt_of_ne hne with hbefore | hbefore
    · exact hdisjoint first second hlt hlt' hbefore hmem hmem'
    · exact hdisjoint second first hlt' hlt hbefore hmem' hmem
  constructor
  case owner_iff => exact fun id place => ownerOf_eq_some honce
  case nodup =>
    intro place row hrow
    exact (List.nodup_flatMap.1 hwell.owned_once).1 row (List.mem_of_getElem? hrow)
  case kept => exact fun place draft hdraft => ⟨draft, hdraft, rfl, fun _ hmem => hmem⟩
  case named =>
    intro place row hrow hnew
    have hlt : place < drafts.length := (List.getElem?_eq_some_iff.1 hrow).1
    omega
  case count => rfl
  case changed_lt => exact fun place hmem => absurd hmem List.not_mem_nil
  case changed_nodup => exact List.nodup_nil
  case unchanged => exact fun place row hrow _ => hrow
  case owned_iff =>
    intro entry hentry hunowned
    show (ownerOf drafts entry.sessionId).isSome ↔ _
    rw [ownerOf_eq_none.2 hunowned]
    simp
  case ordered =>
    intro entry hentry parent hcontinues hunowned hparent place row hrow hmem hmem'
    exact absurd hmem (hunowned row (List.mem_of_getElem? hrow))

/-! ## Rows of continuations -/

/-- The turn of a session. -/
def turn (W : List SessionSummary) (entry : SessionSummary) : Nat :=
  (visitOrder W).idxOf entry

/-- The first session to be visited of `above` and those that lead up to it. -/
def FirstBelow (W : List SessionSummary) (drafts : List DraftRow)
    (above first : SessionSummary) : Prop :=
  Below W drafts above first ∧
    ∀ entry, Below W drafts above entry → turn W first ≤ turn W entry

/-- Of an unowned session and those that lead up to it, it is the first to be visited; or
the first is also the first for the session that it continues, and that one is unowned. -/
def InTurn (W : List SessionSummary) (drafts : List DraftRow) : Prop :=
  ∀ entry ∈ W, Unowned drafts entry → ∀ parent, Continues W entry parent →
    ∀ first, FirstBelow W drafts entry first →
      first = entry ∨ Unowned drafts parent ∧ FirstBelow W drafts parent first

/-- A session that was unowned is in the row of the one that it continues. -/
def Follows (W : List SessionSummary) (drafts : List DraftRow) (adoption : Adoption) : Prop :=
  ∀ entry ∈ W, Unowned drafts entry → ∀ parent, Continues W entry parent →
    ∀ place, adoption.owner entry.sessionId = some place →
      adoption.owner parent.sessionId = some place

theorem visitOrder_perm (W : List SessionSummary) : (visitOrder W).Perm W :=
  List.mergeSort_perm W visitedFirst

theorem nodup_visitOrder (hwell : Wellformed W drafts uuid) : (visitOrder W).Nodup :=
  (visitOrder_perm W).nodup_iff.2 (List.Nodup.of_map _ hwell.sessionIds)

section

variable {entries : List SessionSummary}

theorem turn_visit (hwell : Wellformed W drafts uuid)
    (horder : visitOrder W = visited ++ entry :: entries) : turn W entry = visited.length := by
  have hnodup := nodup_visitOrder hwell
  rw [horder, List.nodup_append] at hnodup
  rw [turn, horder, List.idxOf_append_of_notMem, List.idxOf_cons_self, Nat.add_zero]
  intro hmem
  exact hnodup.2.2 entry hmem entry (List.mem_cons_self ..) rfl

theorem mem_visited_iff (horder : visitOrder W = visited ++ entries) :
    entry ∈ visited ↔ turn W entry < visited.length := by
  rw [turn, horder]
  constructor
  · intro hmem
    rw [List.idxOf_append_of_mem hmem]
    exact List.idxOf_lt_length_of_mem hmem
  · intro hlt
    by_contra hnot
    rw [List.idxOf_append_of_notMem hnot] at hlt
    omega

/-- At a visit, the entry is the first of those below a session just when nothing below it
has been visited. -/
theorem firstBelow_iff (hwell : Wellformed W drafts uuid) {above : SessionSummary}
    (horder : visitOrder W = visited ++ entry :: entries) (hbelow : Below W drafts above entry) :
    FirstBelow W drafts above entry ↔ ∀ first ∈ visited, ¬ Below W drafts above first := by
  have hturn := turn_visit hwell horder
  constructor
  · intro h first hfirst hunder
    have hle := h.2 first hunder
    have hlt := (mem_visited_iff horder).1 hfirst
    omega
  · intro h
    refine ⟨hbelow, fun other hother => ?_⟩
    by_contra hgt
    exact h other ((mem_visited_iff horder).2 (by omega)) hother

theorem Sound.owner_eq_none (h : Sound W drafts uuid visited adoption) {member : SessionSummary}
    (hmember : member ∈ W) (hfree : Unowned drafts member) :
    adoption.owner member.sessionId = none ↔ ∀ first ∈ visited, ¬ Below W drafts member first := by
  rw [← Option.not_isSome_iff_eq_none, h.owned_iff member hmember hfree]
  simp

theorem Joins.owner_member {lineage : List SessionSummary} {place : Nat}
    (hjoins : Joins W entry adoption next lineage place) {member : SessionSummary}
    (hmember : member ∈ lineage) : next.owner member.sessionId = some place :=
  (hjoins.owner_next _ _).2 (.inl ⟨⟨member, hmember, rfl⟩, rfl⟩)

theorem Joins.mem_or_owner (hwell : Wellformed W drafts uuid) (hentry : entry ∈ W)
    {lineage : List SessionSummary} {place other : Nat}
    (hjoins : Joins W entry adoption next lineage place) {session : SessionSummary}
    (hsession : session ∈ W) (howner : next.owner session.sessionId = some other) :
    session ∈ lineage ∧ other = place ∨ adoption.owner session.sessionId = some other := by
  rcases (hjoins.owner_next _ _).1 howner with ⟨⟨member, hmember, hid⟩, hplace⟩ | ⟨-, hbefore⟩
  · have hmem := Sound.mem_of_lineage hjoins.collected hentry hmember
    rw [← eq_of_sessionId hwell hmem hsession hid]
    exact .inl ⟨hmember, hplace⟩
  · exact .inr hbefore

theorem follows_turn (hwell : Wellformed W drafts uuid)
    (h : Sound W drafts uuid visited adoption) (horder : visitOrder W = visited ++ entry :: entries)
    (hentry : entry ∈ W) (hinTurn : InTurn W drafts) (hfollows : Follows W drafts adoption)
    {lineage : List SessionSummary} {place : Nat}
    (hjoins : Joins W entry adoption next lineage place) : Follows W drafts next := by
  intro session hsession hfree parent hcontinues other howner
  have hparent := mem_of_parentOf hcontinues
  rcases hjoins.mem_or_owner hwell hentry hsession howner with ⟨hmember, rfl⟩ | hbefore
  · have hbelow := h.below_of_lineage hjoins.collected hentry hmember
    have hfirst : FirstBelow W drafts session entry :=
      (firstBelow_iff hwell horder hbelow).2
        ((h.owner_eq_none hsession hfree).1 (hjoins.collected.unowned session hmember))
    have hafter (hnone : adoption.owner parent.sessionId = none) :
        next.owner parent.sessionId = some other := by
      have hsub := hjoins.collected.after session hmember parent hcontinues hnone
      exact hjoins.owner_member (hsub.subset (List.mem_cons_self ..))
    rcases hinTurn session hsession hfree parent hcontinues entry hfirst with hself | hshared
    · subst hself
      cases hfound : adoption.owner parent.sessionId with
      | none => exact hafter hfound
      | some found =>
          rw [hjoins.joined parent hcontinues found hfound]
          exact Joins.persists ⟨lineage, other, hjoins⟩ hwell hentry hparent hfound
    · have hnone := (firstBelow_iff hwell horder hshared.2.1).1 hshared.2
      exact hafter ((h.owner_eq_none hparent hshared.1).2 hnone)
  · have hsame := hfollows session hsession hfree parent hcontinues other hbefore
    exact Joins.persists ⟨lineage, place, hjoins⟩ hwell hentry hparent hsame

theorem follows_run (hwell : Wellformed W drafts uuid) (hinTurn : InTurn W drafts)
    (h : Sound W drafts uuid visited adoption) (horder : visitOrder W = visited ++ entries)
    (hfollows : Follows W drafts adoption) {final : Adoption}
    (hfinal : adoptAll W uuid adoption entries = some final) : Follows W drafts final := by
  induction entries generalizing visited adoption with
  | nil =>
      cases hfinal
      exact hfollows
  | cons entry entries ih =>
      have hentry : entry ∈ W := by
        apply (visitOrder_perm W).subset
        rw [horder]
        exact List.mem_append_right _ (List.mem_cons_self ..)
      obtain ⟨next, hnext, hsound, hturn⟩ := adoptOne_spec hwell h hentry
      rw [adoptAll, hnext, Option.bind_some] at hfinal
      apply ih hsound (by rw [horder, List.append_assoc, List.singleton_append]) ?_ hfinal
      rcases hturn with ⟨-, rfl⟩ | ⟨lineage, place, hjoins⟩
      · exact hfollows
      · exact follows_turn hwell h horder hentry hinTurn hfollows hjoins

/-- Where the first to be visited leads up through another session, its lineage opens a new
row; a row that the session above had already is never that one. -/
theorem inTurn_of_follows (hwell : Wellformed W drafts uuid) {final : Adoption}
    (hfinal : adoptAll W uuid ⟨drafts, ownerOf drafts, [], 0⟩ (visitOrder W) = some final)
    (hfollows : Follows W drafts final) : InTurn W drafts := by
  intro session hsession hfree parent hcontinues first hfirst
  by_cases hself : first = session
  · exact .inl hself
  right
  have hmem : first ∈ visitOrder W := (visitOrder_perm W).mem_iff.2 hfirst.1.1
  obtain ⟨visited, entries, horder⟩ := List.append_of_mem hmem
  have hin (other : SessionSummary) (hother : other ∈ visitOrder W) : other ∈ W :=
    (visitOrder_perm W).subset hother
  rw [horder] at hin
  rw [horder, adoptAll_append] at hfinal
  obtain ⟨adoption, hvisited, h, -⟩ := adoptAll_spec hwell (sound_drafts hwell)
    fun other hother => hin other (List.mem_append_left _ hother)
  rw [List.nil_append] at h
  obtain ⟨next, hnext, hsound, hturn⟩ := adoptOne_spec hwell h hfirst.1.1
  obtain ⟨final', hrest, -, hpersists⟩ := adoptAll_spec hwell hsound fun other hother =>
    hin other (List.mem_append_right _ (List.mem_cons_of_mem _ hother))
  rw [hvisited, Option.bind_some, adoptAll, hnext, Option.bind_some, hrest] at hfinal
  cases hfinal
  have hunvisited := (firstBelow_iff hwell horder hfirst.1).1 hfirst
  have hnone : adoption.owner first.sessionId = none :=
    (h.owner_eq_none hfirst.1.1 hfirst.1.2.1).2 fun other hother hbelow =>
      hunvisited other hother (hfirst.1.trans hbelow)
  obtain ⟨lineage, place, hjoins⟩ : ∃ lineage place,
      Joins W first adoption next lineage place := by
    rcases hturn with ⟨howner, -⟩ | hjoins
    · rw [hnone] at howner
      cases howner
    · exact hjoins
  have hplace : place = adoption.rows.length := by
    apply hjoins.opened
    intro above habove
    obtain ⟨hfirstMem, hfirstFree, hpath⟩ := hfirst.1
    obtain ⟨middle, hstep, hrest⟩ := (Relation.ReflTransGen.cases_head hpath).resolve_left hself
    rw [hstep.1] at habove
    cases habove
    have hmiddle := mem_of_parentOf hstep.1
    refine (h.owner_eq_none hmiddle hstep.2).2 fun other hother hbelow => ?_
    exact hunvisited other hother (Below.trans ⟨hmiddle, hstep.2, hrest⟩ hbelow)
  have hmember : session ∈ lineage := by
    obtain ⟨other, hother⟩ := Option.isSome_iff_exists.1 ((hsound.owned_iff session hsession hfree).2
      ⟨first, List.mem_append_right _ (List.mem_singleton_self first), hfirst.1⟩)
    rcases hjoins.mem_or_owner hwell hfirst.1.1 hsession hother with ⟨hmember, -⟩ | hbefore
    · exact hmember
    · rw [(h.owner_eq_none hsession hfree).2 hunvisited] at hbefore
      cases hbefore
  have hparent := mem_of_parentOf hcontinues
  have howner := hpersists session hsession place (hjoins.owner_member hmember)
  have hsame := hfollows session hsession hfree parent hcontinues place howner
  have hparentNone : adoption.owner parent.sessionId = none := by
    cases hfound : adoption.owner parent.sessionId with
    | none => rfl
    | some found =>
        have hkept := hpersists parent hparent found
          (Joins.persists ⟨lineage, place, hjoins⟩ hwell hfirst.1.1 hparent hfound)
        rw [hkept] at hsame
        have hlt := h.owner_lt hfound
        have heq := Option.some.inj hsame
        omega
  have hparentFree := h.unowned_of_owner hparentNone
  have hup := hfirst.1.up hcontinues hparentFree
  exact ⟨hparentFree, (firstBelow_iff hwell horder hup).2
    ((h.owner_eq_none hparent hparentFree).1 hparentNone)⟩

end

end Pmbah.Web
