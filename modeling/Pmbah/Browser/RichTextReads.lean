import Pmbah.Browser.RichTextTreap

/-!
# Reading and refreshing the treap

What the loops over the pointers of a tree return, and how the caches above a changed entry
are brought up to date.
-/

namespace Pmbah.Browser.RichTextIndex

open Library Library.NodeTree

variable {heap heap' : Heap}

theorem sum_append (heap : Heap) (first second : List Nat) :
    heap.sum (first ++ second) = heap.sum first * heap.sum second := by
  rw [Heap.sum, List.map_append, List.prod_append]
  rfl

theorem sum_cons (heap : Heap) (link : Nat) (links : List Nat) :
    heap.sum (link :: links) = heap.entryWeight link * heap.sum links := by
  rw [Heap.sum, List.map_cons, List.prod_cons]
  rfl

@[simp] theorem sum_nil (heap : Heap) : heap.sum [] = 1 := rfl

/-- A subtree of what a root stands for points to the link above it. -/
theorem Holds.of_plug {place : Place Nat} {tree : NodeTree Nat}
    (h : Holds heap none (place.plug tree)) : Holds heap place.parent tree := by
  induction place generalizing tree with
  | top => exact h
  | left name sibling up ih => exact (ih h).2.2.2.2.2.1
  | right name sibling up ih => exact (ih h).2.2.2.2.2.2

/-- The climb from a subtree adds what is before it. -/
theorem rankWithin_spec {place : Place Nat} {tree : NodeTree Nat} {name turns result : Nat}
    (hroot : tree.root = some name) (hholds : Holds heap none (place.plug tree))
    (hnodup : (place.plug tree).inorder.Nodup) (hturns : place.depth < turns) :
    rankWithin turns heap name result = some (result + place.before.length) := by
  induction turns generalizing place tree name result with
  | zero => cases hturns
  | succ turns ih =>
      have hparent : (heap.links name).parent = place.parent := by
        have hbelow := hholds.of_plug
        cases tree with
        | nil => cases hroot
        | node other left right =>
            cases hroot
            exact hbelow.2.2.1
      rw [rankWithin, hparent]
      cases place with
      | top => rfl
      | left other sibling up =>
          have hwhole : Holds heap none (up.plug (node other tree sibling)) := hholds
          have hnodupWhole : (up.plug (node other tree sibling)).inorder.Nodup := hnodup
          have hother := hwhole.of_plug
          have hapart := (nodup_node.1 (Place.nodup_of_plug hnodupWhole)).2.2.2.2
          have hnot : (heap.links other).right ≠ some name := by
            rw [hother.2.1]
            intro hsame
            exact hapart name (mem_of_root hroot) (mem_of_root hsame)
          simp only [Place.parent, if_neg hnot, Nat.add_zero]
          have hclimb : rankWithin turns heap other result = some (result + up.before.length) :=
            ih rfl hwhole hnodupWhole (Nat.lt_of_succ_lt_succ hturns)
          exact hclimb
      | right other sibling up =>
          have hwhole : Holds heap none (up.plug (node other sibling tree)) := hholds
          have hother := hwhole.of_plug
          have hright : (heap.links other).right = some name := by rw [hother.2.1, hroot]
          simp only [Place.parent, if_pos hright]
          rw [ih rfl hwhole hnodup (Nat.lt_of_succ_lt_succ hturns), hother.1,
            hother.2.2.2.2.2.1.size_eq, Place.before, List.length_append, List.length_append,
            List.length_singleton]
          congr 1
          omega

/-- The rank of a link is its place in the order. -/
theorem rank_spec {tree : NodeTree Nat} {place link : Nat} (hholds : Holds heap none tree)
    (hnodup : tree.inorder.Nodup) (hsize : tree.inorder.length ≤ heap.linkCount)
    (hlink : tree.inorder[place]? = some link) : rank heap link = some place := by
  obtain ⟨around, left, right, rfl⟩ := exists_place (List.mem_of_getElem? hlink)
  have hdepth := around.depth_le (node link left right)
  have hpositive : 0 < (node link left right).inorder.length := by simp
  have hbelow := hholds.of_plug
  rw [rank, rankWithin_spec rfl hholds hnodup (by omega), hbelow.1, hbelow.2.2.2.2.2.1.size_eq]
  -- a name stands at one place only
  have hfound : (around.plug (node link left right)).inorder[around.before.length +
      left.inorder.length]? = some link := by
    rw [Place.inorder_plug, inorder_node, List.getElem?_append_right (Nat.le_add_right _ _),
      Nat.add_sub_cancel_left, List.append_assoc, List.getElem?_append_right (le_refl _),
      Nat.sub_self]
    rfl
  obtain ⟨hlt, -⟩ := List.getElem?_eq_some_iff.1 hlink
  have hsame := (List.getElem?_inj hlt hnodup).1 (hlink.trans hfound.symm)
  rw [hsame]
  congr 1
  omega

/-- The prefix of a tree weighs what the entries before a place weigh. -/
theorem prefixWithin_spec {turns : Nat} {tree : NodeTree Nat} {parent : Option Nat} {count : Nat}
    (hholds : Holds heap parent tree) (hturns : tree.inorder.length < turns) :
    prefixWithin turns heap tree.root count = some (heap.sum (tree.inorder.take count)) := by
  induction turns generalizing tree parent count with
  | zero => cases hturns
  | succ turns ih =>
      cases tree with
      | nil => simp [prefixWithin]
      | node name left right =>
          have hsize := hholds.size_eq
          obtain ⟨hl, hr, -, -, hweight, hbelow, habove⟩ := hholds
          have hlength : (node name left right).inorder.length =
            left.inorder.length + (right.inorder.length + 1) := by simp
          rw [root_node] at hsize ⊢
          rw [prefixWithin]
          by_cases hzero : count = 0
          · rw [if_pos hzero, hzero, List.take_zero, sum_nil]
          rw [if_neg hzero, hsize]
          by_cases hall : (node name left right).inorder.length ≤ count
          · rw [if_pos hall, List.take_of_length_le hall, hweight]
          rw [if_neg hall]
          simp only [hl, hr, hbelow.size_eq]
          rw [inorder_node, take_append_cons]
          by_cases hcount : count ≤ left.inorder.length
          · rw [if_pos hcount, if_pos hcount]
            exact ih hbelow (by omega)
          · rw [if_neg hcount, if_neg hcount, ih habove (by omega), hbelow.weight_eq, sum_append,
              sum_cons, ← mul_assoc]
            rfl

/-- What is before a place and what is from there on. -/
theorem suffixWithin_spec {turns : Nat} {tree : NodeTree Nat} {parent : Option Nat} {start : Nat}
    (hholds : Holds heap parent tree) (hturns : tree.inorder.length < turns) :
    suffixWithin turns heap tree.root start =
      some (heap.sum (tree.inorder.take start), heap.sum (tree.inorder.drop start)) := by
  induction turns generalizing tree parent start with
  | zero => cases hturns
  | succ turns ih =>
      cases tree with
      | nil => simp [suffixWithin]
      | node name left right =>
          obtain ⟨hl, hr, -, -, -, hbelow, habove⟩ := hholds
          have hlength : (node name left right).inorder.length =
            left.inorder.length + (right.inorder.length + 1) := by simp
          rw [root_node, suffixWithin]
          simp only [hl, hr, hbelow.size_eq]
          rw [inorder_node, take_append_cons, drop_append_cons]
          by_cases hstart : start ≤ left.inorder.length
          · rw [if_pos hstart, if_pos hstart, if_pos hstart, ih hbelow (by omega),
              habove.weight_eq, sum_append, sum_cons, ← mul_assoc]
            rfl
          · rw [if_neg hstart, if_neg hstart, if_neg hstart, ih habove (by omega),
              hbelow.weight_eq, sum_append, sum_cons, ← mul_assoc]
            rfl

/-! ## Changed entries -/

/-- The links above a subtree point as they should, and what hangs off them holds; what they
cache is not looked at. -/
def Fits (heap : Heap) : Place Nat → Option Nat → Prop
  | .top, _ => True
  | .left name sibling up, root =>
      (heap.links name).left = root ∧ (heap.links name).right = sibling.root ∧
      (heap.links name).parent = up.parent ∧ Holds heap (some name) sibling ∧
      Fits heap up (some name)
  | .right name sibling up, root =>
      (heap.links name).left = sibling.root ∧ (heap.links name).right = root ∧
      (heap.links name).parent = up.parent ∧ Holds heap (some name) sibling ∧
      Fits heap up (some name)

theorem Holds.fits {place : Place Nat} {tree : NodeTree Nat}
    (h : Holds heap none (place.plug tree)) : Fits heap place tree.root := by
  induction place generalizing tree with
  | top => trivial
  | left name sibling up ih =>
      have hwhole : Holds heap none (up.plug (node name tree sibling)) := h
      obtain ⟨hleft, hright, hparent, -, -, -, hsibling⟩ := hwhole.of_plug
      exact ⟨hleft, hright, hparent, hsibling, ih hwhole⟩
  | right name sibling up ih =>
      have hwhole : Holds heap none (up.plug (node name sibling tree)) := h
      obtain ⟨hleft, hright, hparent, -, -, hsibling, -⟩ := hwhole.of_plug
      exact ⟨hleft, hright, hparent, hsibling, ih hwhole⟩

theorem Fits.congr {place : Place Nat} {root : Option Nat} (h : Fits heap place root)
    (hsame : ∀ link, link ∈ place.before ∨ link ∈ place.after → Same heap heap' link) :
    Fits heap' place root := by
  induction place generalizing root with
  | top => trivial
  | left name sibling up ih =>
      obtain ⟨hleft, hright, hparent, hsibling, hup⟩ := h
      have hname := (hsame name (by simp [Place.after])).1
      refine ⟨by rw [hname, hleft], by rw [hname, hright], by rw [hname, hparent], ?_, ?_⟩
      · exact hsibling.congr fun link hlink => hsame link (by simp [Place.after, hlink])
      · apply ih hup
        intro link hlink
        apply hsame
        rcases hlink with hlink | hlink
        · exact Or.inl hlink
        · exact Or.inr (by simp [Place.after, hlink])
  | right name sibling up ih =>
      obtain ⟨hleft, hright, hparent, hsibling, hup⟩ := h
      have hname := (hsame name (by simp [Place.before])).1
      refine ⟨by rw [hname, hleft], by rw [hname, hright], by rw [hname, hparent], ?_, ?_⟩
      · exact hsibling.congr fun link hlink => hsame link (by simp [Place.before, hlink])
      · apply ih hup
        intro link hlink
        apply hsame
        rcases hlink with hlink | hlink
        · exact Or.inl (by simp [Place.before, hlink])
        · exact Or.inr hlink

/-- Updates from a link up to the root make the whole tree hold. -/
theorem updateWithin_spec {turns : Nat} {place : Place Nat} {name : Nat}
    {left right : NodeTree Nat} {p q : Option Nat}
    (hnodup : (place.plug (node name left right)).inorder.Nodup)
    (hleft : (heap.links name).left = left.root) (hright : (heap.links name).right = right.root)
    (hparent : (heap.links name).parent = place.parent) (hbelow : Holds heap p left)
    (habove : Holds heap q right) (hfits : Fits heap place (some name))
    (hturns : place.depth < turns) :
    ∃ heap', updateWithin turns heap (some name) = some heap' ∧
      Holds heap' none (place.plug (node name left right)) ∧
      Rearranges (place.plug (node name left right)).inorder heap heap' := by
  induction turns generalizing heap place name left right p q with
  | zero => cases hturns
  | succ turns ih =>
      obtain ⟨hholds, hrearranged⟩ := update_spec (Place.nodup_of_plug hnodup) hleft hright hbelow
        habove
      rw [hparent] at hholds
      have hwithin : (node name left right).inorder ⊆
          (place.plug (node name left right)).inorder := by
        intro link hlink
        rw [Place.inorder_plug]
        exact List.mem_append_right _ (List.mem_append_left _ hlink)
      have haround : Fits (update heap name) place (some name) := by
        apply hfits.congr
        intro link hlink
        apply hrearranged.same
        intro hmem
        exact Place.not_mem_around hnodup hmem hlink
      rw [updateWithin, hholds.2.2.1]
      cases place with
      | top => exact ⟨_, updateWithin.eq_1 .., hholds, hrearranged⟩
      | left other sibling up =>
          have hwhole : (up.plug (node other (node name left right) sibling)).inorder.Nodup := hnodup
          obtain ⟨hotherLeft, hotherRight, hotherParent, hsibling, hup⟩ := haround
          obtain ⟨heap', hupdate, hdone, hmore⟩ := ih hwhole hotherLeft hotherRight hotherParent
            hholds hsibling hup (Nat.lt_of_succ_lt_succ hturns)
          exact ⟨heap', hupdate, hdone, (hrearranged.mono hwithin).trans hmore⟩
      | right other sibling up =>
          have hwhole : (up.plug (node other sibling (node name left right))).inorder.Nodup := hnodup
          obtain ⟨hotherLeft, hotherRight, hotherParent, hsibling, hup⟩ := haround
          obtain ⟨heap', hupdate, hdone, hmore⟩ := ih hwhole hotherLeft hotherRight hotherParent
            hsibling hholds hup (Nat.lt_of_succ_lt_succ hturns)
          exact ⟨heap', hupdate, hdone, (hrearranged.mono hwithin).trans hmore⟩

/-- After the entry of a link has got another weight, the updates above it make its tree hold
again. -/
theorem updateWithin_reweighed {turns : Nat} {tree : NodeTree Nat} {name : Nat}
    (hholds : Holds heap none tree) (hnodup : tree.inorder.Nodup) (hname : name ∈ tree.inorder)
    (hlinks : heap'.links = heap.links)
    (hsame : ∀ link ∈ tree.inorder, link ≠ name → heap'.entryWeight link = heap.entryWeight link)
    (hturns : tree.inorder.length < turns) :
    ∃ done, updateWithin turns heap' (some name) = some done ∧ Holds done none tree ∧
      Rearranges tree.inorder heap' done := by
  obtain ⟨place, left, right, rfl⟩ := exists_place hname
  have hdepth := place.depth_le (node name left right)
  obtain ⟨hl, hr, hparent, -, -, hbelow, habove⟩ := hholds.of_plug
  obtain ⟨-, -, hnotLeft, hnotRight, -⟩ := nodup_node.1 (Place.nodup_of_plug hnodup)
  have hmem : ∀ link, link ∈ left.inorder ∨ link ∈ right.inorder →
      link ∈ (place.plug (node name left right)).inorder := by
    intro link hlink
    rw [Place.inorder_plug]
    rcases hlink with hlink | hlink
    · simp [hlink]
    · simp [hlink]
  apply updateWithin_spec hnodup
  · rw [hlinks, hl]
  · rw [hlinks, hr]
  · rw [hlinks, hparent]
  · apply hbelow.congr
    intro link hlink
    refine ⟨by rw [hlinks], hsame link (hmem link (Or.inl hlink)) ?_⟩
    rintro rfl
    exact hnotLeft hlink
  · apply habove.congr
    intro link hlink
    refine ⟨by rw [hlinks], hsame link (hmem link (Or.inr hlink)) ?_⟩
    rintro rfl
    exact hnotRight hlink
  · apply hholds.fits.congr
    intro link hlink
    refine ⟨by rw [hlinks], hsame link ?_ ?_⟩
    · rw [Place.inorder_plug]
      rcases hlink with hlink | hlink
      · simp [hlink]
      · simp [hlink]
    · rintro rfl
      exact Place.not_mem_around hnodup (by simp) hlink
  · omega

end Pmbah.Browser.RichTextIndex
