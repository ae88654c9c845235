import Mathlib.Data.List.Nodup
import Mathlib.Data.List.Perm.Subperm
import Pmbah.Web.AdoptSessions

/-!
# Lineages of continuations

Where no session continues itself, the loops over continuations end, and they collect the
sessions up to the first one that has a row.
-/

namespace Pmbah.Web

open Js

variable {W : List SessionSummary} {owner : JsString → Option Nat}

def Continues (W : List SessionSummary) (entry parent : SessionSummary) : Prop :=
  parentOf W entry = some parent

/-- No session continues itself, directly or through others. -/
def Acyclic (W : List SessionSummary) : Prop :=
  ∀ entry, ¬ Relation.TransGen (Continues W) entry entry

theorem mem_of_parentOf {entry parent : SessionSummary} (h : parentOf W entry = some parent) :
    parent ∈ W := by
  obtain ⟨hash, -, hfound⟩ := Option.bind_eq_some_iff.1 h
  exact List.mem_reverse.1 (List.mem_of_find?_eq_some hfound)

/-! ## The loops end -/

/-- A chain of continuations has no session twice. -/
theorem nodup_of_chain {chain : List SessionSummary} (hacyclic : Acyclic W)
    (h : chain.IsChain (Continues W)) : chain.Nodup := by
  have hpairs : chain.Pairwise (Relation.TransGen (Continues W)) :=
    List.isChain_iff_pairwise.1 (h.imp fun _ _ => Relation.TransGen.single)
  apply hpairs.imp
  rintro entry _ hchain rfl
  exact hacyclic entry hchain

theorem length_chain_le {entry : SessionSummary} {chain : List SessionSummary}
    (hacyclic : Acyclic W) (hentry : entry ∈ W) (h : (entry :: chain).IsChain (Continues W)) :
    (entry :: chain).length ≤ W.length := by
  apply (List.subperm_of_subset (nodup_of_chain hacyclic h) ?_).length_le
  intro member hmem
  induction chain generalizing entry with
  | nil =>
      rw [List.mem_singleton.1 hmem]
      exact hentry
  | cons parent chain ih =>
      rcases List.mem_cons.1 hmem with rfl | hrest
      · exact hentry
      · obtain ⟨hparent, hchain⟩ := List.isChain_cons_cons.1 h
        exact ih (mem_of_parentOf hparent) hchain hrest

/-- A loop that runs out of steps has followed as many continuations. -/
theorem lineageFrom_none {steps : Nat} {entry : SessionSummary}
    (h : lineageFrom W owner steps entry = none) :
    ∃ chain : List SessionSummary, chain.length = steps ∧
      (entry :: chain).IsChain (Continues W) := by
  induction steps generalizing entry with
  | zero => exact ⟨[], rfl, .singleton entry⟩
  | succ steps ih =>
      rw [lineageFrom] at h
      split at h
      · cases h
      split at h
      · cases h
      · rename_i parent hparent
        obtain ⟨chain, hlength, hchain⟩ := ih (Option.map_eq_none_iff.1 h)
        refine ⟨parent :: chain, ?_, List.isChain_cons_cons.2 ⟨hparent, hchain⟩⟩
        rw [List.length_cons, hlength]

theorem chainRootFrom_none {steps : Nat} {seen : List JsString} {entry : SessionSummary}
    (h : chainRootFrom W owner steps seen entry = none) :
    ∃ chain : List SessionSummary, chain.length = steps ∧
      (entry :: chain).IsChain (Continues W) := by
  induction steps generalizing entry seen with
  | zero => exact ⟨[], rfl, .singleton entry⟩
  | succ steps ih =>
      rw [chainRootFrom] at h
      split at h
      · cases h
      split at h
      · cases h
      · rename_i parent hparent
        split at h
        · cases h
        · obtain ⟨chain, hlength, hchain⟩ := ih h
          refine ⟨parent :: chain, ?_, List.isChain_cons_cons.2 ⟨hparent, hchain⟩⟩
          rw [List.length_cons, hlength]

theorem lineage_ends (hacyclic : Acyclic W) {entry : SessionSummary} (hentry : entry ∈ W) :
    ∃ lineage, lineageFrom W owner W.length entry = some lineage := by
  cases hcase : lineageFrom W owner W.length entry with
  | some lineage => exact ⟨lineage, rfl⟩
  | none =>
      obtain ⟨chain, hlength, hchain⟩ := lineageFrom_none hcase
      have hle := length_chain_le hacyclic hentry hchain
      rw [List.length_cons] at hle
      omega

theorem chainRoot_ends (hacyclic : Acyclic W) {entry : SessionSummary} (hentry : entry ∈ W) :
    ∃ root, chainRoot W owner entry = some root := by
  cases hcase : chainRoot W owner entry with
  | some root => exact ⟨root, rfl⟩
  | none =>
      obtain ⟨chain, hlength, hchain⟩ := chainRootFrom_none hcase
      have hle := length_chain_le hacyclic hentry hchain
      rw [List.length_cons] at hle
      omega

/-- The root of a chain has no row: the loop stops before it reaches one that has. -/
theorem owner_chainRoot {steps : Nat} {seen : List JsString} {entry root : SessionSummary}
    (h : chainRootFrom W owner steps seen entry = some root)
    (hentry : owner entry.sessionId = none) : owner root.sessionId = none := by
  induction steps generalizing entry seen with
  | zero => cases h
  | succ steps ih =>
      rw [chainRootFrom] at h
      split at h
      · cases h
        exact hentry
      split at h
      · cases h
        exact hentry
      · split at h
        · cases h
          exact hentry
        · rename_i hparent
          exact ih h (Option.not_isSome_iff_eq_none.1 hparent)

/-! ## What they collect -/

/-- Sessions without a row, each after the one that it continues. -/
structure Lineage (W : List SessionSummary) (owner : JsString → Option Nat)
    (entry : SessionSummary) (lineage : List SessionSummary) : Prop where
  unowned : ∀ member ∈ lineage, owner member.sessionId = none
  path : ∀ member ∈ lineage, Relation.ReflTransGen
    (fun entry parent => Continues W entry parent ∧ owner parent.sessionId = none) entry member
  entry_mem : entry ∈ lineage
  after : ∀ member ∈ lineage, ∀ parent, parentOf W member = some parent →
    owner parent.sessionId = none → [parent, member].Sublist lineage
  nodup : lineage.Nodup

/-- An entry that continues none, or one that has a row, is a lineage by itself. -/
theorem lineage_single {steps : Nat} {entry : SessionSummary} {lineage : List SessionSummary}
    (h : lineageFrom W owner steps entry = some lineage) (hentry : owner entry.sessionId = none)
    (hparent : ∀ parent, parentOf W entry = some parent → (owner parent.sessionId).isSome) :
    lineage = [entry] := by
  cases steps with
  | zero => cases h
  | succ steps =>
      rw [lineageFrom, if_neg (by rw [hentry]; exact Bool.false_ne_true)] at h
      split at h
      · cases h
        rfl
      · rename_i parent hcontinues
        obtain ⟨front, hfront, rfl⟩ := Option.map_eq_some_iff.1 h
        cases steps with
        | zero => cases hfront
        | succ steps =>
            rw [lineageFrom, if_pos (hparent parent hcontinues)] at hfront
            cases hfront
            rfl

theorem lineage_of_some (hacyclic : Acyclic W) {steps : Nat} {entry : SessionSummary}
    {lineage : List SessionSummary} (h : lineageFrom W owner steps entry = some lineage)
    (hentry : owner entry.sessionId = none) : Lineage W owner entry lineage := by
  induction steps generalizing entry lineage with
  | zero => cases h
  | succ steps ih =>
      by_cases hparent : ∀ parent, parentOf W entry = some parent → (owner parent.sessionId).isSome
      · rw [lineage_single h hentry hparent]
        refine ⟨?_, ?_, List.mem_singleton_self entry, ?_, List.nodup_singleton entry⟩
        · intro member hmem
          rw [List.mem_singleton.1 hmem]
          exact hentry
        · intro member hmem
          rw [List.mem_singleton.1 hmem]
        · intro member hmem parent hcontinues hunowned
          rw [List.mem_singleton.1 hmem] at hcontinues
          have howned := hparent parent hcontinues
          rw [hunowned] at howned
          cases howned
      · rw [not_forall] at hparent
        obtain ⟨parent, hparent⟩ := hparent
        obtain ⟨hcontinues, hunowned⟩ := Classical.not_imp.1 hparent
        rw [lineageFrom, if_neg (by rw [hentry]; exact Bool.false_ne_true), hcontinues] at h
        obtain ⟨front, hfront, rfl⟩ := Option.map_eq_some_iff.1 h
        have hfree := Option.not_isSome_iff_eq_none.1 hunowned
        have hlineage := ih hfront hfree
        refine ⟨?_, ?_, List.mem_append_right _ (List.mem_singleton_self entry), ?_, ?_⟩
        · intro member hmem
          rcases List.mem_append.1 hmem with hmem | hmem
          · exact hlineage.unowned member hmem
          · rw [List.mem_singleton.1 hmem]
            exact hentry
        · intro member hmem
          rcases List.mem_append.1 hmem with hmem | hmem
          · exact .head ⟨hcontinues, hfree⟩ (hlineage.path member hmem)
          · rw [List.mem_singleton.1 hmem]
        · intro member hmem above habove hunowned
          rcases List.mem_append.1 hmem with hmem | hmem
          · exact (hlineage.after member hmem above habove hunowned).trans
              (List.sublist_append_left front [entry])
          · rw [List.mem_singleton.1 hmem] at habove ⊢
            rw [hcontinues] at habove
            cases habove
            exact (List.singleton_sublist.2 hlineage.entry_mem).append (List.Sublist.refl [entry])
        · refine List.nodup_append.2 ⟨hlineage.nodup, List.nodup_singleton entry, ?_⟩
          rintro member hmem _ hlast rfl
          rw [List.mem_singleton.1 hlast] at hmem
          have hchain : Relation.ReflTransGen (Continues W) parent entry :=
            Relation.ReflTransGen.mono (fun _ _ hstep => hstep.1) _ _ (hlineage.path entry hmem)
          exact hacyclic entry (Relation.TransGen.head' hcontinues hchain)

end Pmbah.Web
