import Pmbah.Browser.RichTextRuns

/-!
# The index keeps the order

Whatever is split and merged, what the index reads off its links is what the entries say in
order.
-/

namespace Pmbah.Browser.RichTextIndex

open Js Library Library.NodeTree

/-- The left fold over what the entries of an order weigh. -/
def foldEntries (heap : Heap) (order : List Nat) : Weight :=
  Weight.fold (order.map fun entry => (heap.entries entry).weight.weight)

/-- The entries of links. -/
def entriesOf (heap : Heap) (links : List Nat) : List Nat :=
  links.map fun link => (heap.links link).entry

theorem weight_sum (heap : Heap) (links : List Nat) :
    (heap.sum links).weight = foldEntries heap (entriesOf heap links) := by
  rw [Heap.sum, RichWeight.weight_prod, foldEntries, entriesOf, List.map_map, List.map_map]
  rfl

/-- What a link caches and points to, at its place in a tree. -/
structure Cached (heap : Heap) (place : Place Nat) (link : Nat) (left right : NodeTree Nat) :
    Prop where
  leftLink : (heap.links link).left = left.root
  rightLink : (heap.links link).right = right.root
  parent : (heap.links link).parent = place.parent
  size : (heap.links link).size = (node link left right).inorder.length
  weight : (heap.links link).weight.weight =
    foldEntries heap (entriesOf heap (node link left right).inorder)

/-- A root answers as the order of the entries below it says. -/
structure Indexed (heap : Heap) (root : Option Nat) (order : List Nat) : Prop where
  tree : ∃ tree : NodeTree Nat, tree.root = root ∧ entriesOf heap tree.inorder = order ∧
    ∀ place link left right, tree = Place.plug place (node link left right) →
      Cached heap place link left right
  rank : ∀ position entry, order[position]? = some entry →
    ∃ link, (heap.entries entry).link = some link ∧ rank heap link = some position
  prefixes : ∀ count, ∃ found, prefixWeight heap root count = some found ∧
    found.weight = foldEntries heap (order.take count)
  suffixes : ∀ start, ∃ before after, suffixWeight heap root start = some (before, after) ∧
    before.weight = foldEntries heap (order.take start) ∧
    after.weight = foldEntries heap (order.drop start)

theorem Forest.indexed {heap : Heap} {trees : List (NodeTree Nat)} (h : Forest heap trees)
    {tree : NodeTree Nat} (htree : tree ∈ trees) :
    Indexed heap tree.root (entriesOf heap tree.inorder) where
  tree := by
    refine ⟨tree, rfl, rfl, ?_⟩
    intro place link left right hplug
    have hholds := h.holds tree htree
    rw [hplug] at hholds
    obtain ⟨hleft, hright, hparent, hsize, hweight, -⟩ := hholds.of_plug
    exact ⟨hleft, hright, hparent, hsize, by rw [hweight, weight_sum]⟩
  rank := by
    intro position entry hentry
    rw [entriesOf, List.getElem?_map, Option.map_eq_some_iff] at hentry
    obtain ⟨link, hlink, hback⟩ := hentry
    have hmem := mem_allLinks htree (List.mem_of_getElem? hlink)
    exact ⟨link, (h.linked entry link).2 ⟨hmem, hback⟩, rank_spec (h.holds tree htree)
      (h.nodup_tree htree) (h.length_tree_le htree) hlink⟩
  prefixes := by
    intro count
    refine ⟨_, prefixWithin_spec (h.holds tree htree)
      (Nat.lt_succ_of_le (h.length_tree_le htree)), ?_⟩
    rw [weight_sum, entriesOf, entriesOf, List.map_take]
  suffixes := by
    intro start
    refine ⟨_, _, suffixWithin_spec (h.holds tree htree)
      (Nat.lt_succ_of_le (h.length_tree_le htree)), ?_, ?_⟩
    · rw [weight_sum, entriesOf, entriesOf, List.map_take]
    · rw [weight_sum, entriesOf, entriesOf, List.map_drop]

/-- Every loop over the pointers ends. -/
structure Returns (heap : Heap) (held : List (Option Nat × List Nat)) : Prop where
  split : ∀ root order rest count, held = (root, order) :: rest →
    (split heap root count).isSome = true
  merge : ∀ a first b second rest, held = (a, first) :: (b, second) :: rest →
    (merge heap a b).isSome = true
  refresh : ∀ dom root entry, entry < heap.entryCount →
    (refresh dom root heap entry).isSome = true

theorem Forest.returns {heap : Heap} {trees : List (NodeTree Nat)} (h : Forest heap trees) :
    Returns heap (trees.map (shown heap)) where
  split := by
    intro root order rest count hheld
    obtain ⟨tree, others, rfl, hshown, -⟩ := List.map_eq_cons_iff.1 hheld
    obtain ⟨rfl, -⟩ := Prod.mk.inj hshown
    obtain ⟨_, _, _, hsplit, -⟩ := h.split count
    rw [hsplit]
    rfl
  merge := by
    intro a first b second rest hheld
    obtain ⟨tree, others, rfl, hshown, hothers⟩ := List.map_eq_cons_iff.1 hheld
    obtain ⟨tree', others', rfl, hshown', -⟩ := List.map_eq_cons_iff.1 hothers
    obtain ⟨rfl, -⟩ := Prod.mk.inj hshown
    obtain ⟨rfl, -⟩ := Prod.mk.inj hshown'
    obtain ⟨_, _, hmerged, -⟩ := h.merge
    rw [hmerged]
    rfl
  refresh := by
    intro dom root entry hentry
    obtain ⟨_, hrefreshed, -⟩ := h.refresh dom root hentry
    rw [hrefreshed]
    rfl

/-- The weights of entries form a monoid, and after any splits, merges and refreshes every
link, rank, prefix and suffix is that of the entries in order. -/
theorem richText_ordered :
    (∀ a b c, Weight.Produced a → Weight.Produced b → Weight.Produced c →
      Weight.combine (Weight.combine a b) c = Weight.combine a (Weight.combine b c) ∧
      Weight.combine Weight.empty a = a ∧ Weight.combine a Weight.empty = a) ∧
    ∀ heap held, Holding heap held →
      (∀ root order, (root, order) ∈ held → Indexed heap root order) ∧ Returns heap held := by
  constructor
  · intro a b c ha hb _
    exact ⟨hb.legal.combine_assoc a c, ha.legal.empty_combine, ha.legal.combine_empty⟩
  · intro heap held hholding
    obtain ⟨trees, hforest, rfl⟩ := hholding.forest
    refine ⟨?_, hforest.returns⟩
    intro root order hmem
    obtain ⟨tree, htree, hshown⟩ := List.mem_map.1 hmem
    obtain ⟨rfl, rfl⟩ := Prod.mk.inj hshown
    exact hforest.indexed htree

/-- A text and the line break after it. -/
theorem richText_ordered_break :
    ∃ heap root, Holding heap [(root, [0, 1])] ∧ Indexed heap root [0, 1] := by
  let dom : Nat → DomNode := fun node =>
    if node = 0 then .text else .element (js "BR") none false
  have hroot : ∀ entry ∈ (none : Option Nat), entry < 0 := by
    intro entry hnone
    cases hnone
  have htext : Holding _ [(some 0, [0])] :=
    .link (.weigh (.create .start 0 (some (.new (js "a"))) hroot) dom none Nat.zero_lt_one rfl)
      Nat.zero_lt_one rfl
  have hparent : ∀ entry ∈ (none : Option Nat), entry < 1 := by
    intro entry hnone
    cases hnone
  have hbreak : Holding _ ([(some 1, [1])] ++ (some 0, [0]) :: []) :=
    .link (.weigh (.create htext 1 none hparent) dom none (Nat.lt_succ_self 1) rfl)
      (Nat.lt_succ_self 1) rfl
  have hpicked := Holding.pick hbreak
  obtain ⟨⟨heap, root⟩, hmerged⟩ := Option.isSome_iff_exists.1
    ((richText_ordered.2 _ _ hpicked).2.merge _ _ _ _ _ rfl)
  have hboth : Holding heap [(root, [0, 1])] := .merge hpicked hmerged
  exact ⟨heap, root, hboth, (richText_ordered.2 _ _ hboth).1 root [0, 1] (List.mem_singleton.2 rfl)⟩

end Pmbah.Browser.RichTextIndex
