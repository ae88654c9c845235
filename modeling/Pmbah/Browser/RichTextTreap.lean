import Pmbah.Browser.RichTextIndex
import Pmbah.Library.NodeTree

/-!
# The treap of links

Which tree a root stands for, what each link of it caches, and what the operations on roots
do to the trees.
-/

namespace Pmbah.Browser.RichTextIndex

open Library Library.NodeTree

/-- What the entry of a link weighs. -/
def Heap.entryWeight (heap : Heap) (link : Nat) : RichWeight :=
  (heap.entries (heap.links link).entry).weight

/-- What the entries of a run of links weigh together. -/
def Heap.sum (heap : Heap) (links : List Nat) : RichWeight := (links.map heap.entryWeight).prod

/-- The links of a tree point as the tree says, and cache what is below them. -/
def Holds (heap : Heap) : Option Nat → NodeTree Nat → Prop
  | _, nil => True
  | parent, node name left right =>
      (heap.links name).left = left.root ∧ (heap.links name).right = right.root ∧
      (heap.links name).parent = parent ∧
      (heap.links name).size = (node name left right).inorder.length ∧
      (heap.links name).weight = heap.sum (node name left right).inorder ∧
      Holds heap (some name) left ∧ Holds heap (some name) right

/-- A link and the weight of its entry are what they were. -/
def Same (heap heap' : Heap) (link : Nat) : Prop :=
  heap'.links link = heap.links link ∧ heap'.entryWeight link = heap.entryWeight link

/-- Only pointers and caches of the given links were changed. -/
structure Rearranges (touched : List Nat) (heap heap' : Heap) : Prop where
  entries : heap'.entries = heap.entries
  entryCount : heap'.entryCount = heap.entryCount
  linkCount : heap'.linkCount = heap.linkCount
  entry : ∀ link, (heap'.links link).entry = (heap.links link).entry
  others : ∀ link, link ∉ touched → heap'.links link = heap.links link

namespace Rearranges

variable {touched more : List Nat} {heap heap' heap'' : Heap}

theorem refl (touched : List Nat) (heap : Heap) : Rearranges touched heap heap :=
  ⟨rfl, rfl, rfl, fun _ => rfl, fun _ _ => rfl⟩

theorem trans (h : Rearranges touched heap heap') (h' : Rearranges touched heap' heap'') :
    Rearranges touched heap heap'' where
  entries := h'.entries.trans h.entries
  entryCount := h'.entryCount.trans h.entryCount
  linkCount := h'.linkCount.trans h.linkCount
  entry link := (h'.entry link).trans (h.entry link)
  others link hlink := (h'.others link hlink).trans (h.others link hlink)

theorem mono (h : Rearranges touched heap heap') (hmore : touched ⊆ more) :
    Rearranges more heap heap' :=
  { h with others := fun link hlink => h.others link fun hmem => hlink (hmore hmem) }

theorem entryWeight_eq (h : Rearranges touched heap heap') (link : Nat) :
    heap'.entryWeight link = heap.entryWeight link := by
  rw [Heap.entryWeight, Heap.entryWeight, h.entries, h.entry]

theorem sum_eq (h : Rearranges touched heap heap') (links : List Nat) :
    heap'.sum links = heap.sum links := by
  rw [Heap.sum, Heap.sum, funext h.entryWeight_eq]

theorem same (h : Rearranges touched heap heap') {link : Nat} (hlink : link ∉ touched) :
    Same heap heap' link := ⟨h.others link hlink, h.entryWeight_eq link⟩

end Rearranges

section

variable {heap heap' : Heap} {tree left right : NodeTree Nat} {name : Nat}
  {parent : Option Nat}

/-- What a tree says depends on its links only. -/
theorem Holds.congr (h : Holds heap parent tree)
    (hsame : ∀ link ∈ tree.inorder, Same heap heap' link) : Holds heap' parent tree := by
  induction tree generalizing parent with
  | nil => trivial
  | node name left right ihleft ihright =>
      obtain ⟨hleft, hright, hparent, hsize, hweight, hbelow, habove⟩ := h
      have hname := (hsame name (by simp)).1
      have hsum : heap'.sum (node name left right).inorder =
          heap.sum (node name left right).inorder := by
        rw [Heap.sum, Heap.sum, List.map_congr_left fun link hlink => (hsame link hlink).2]
      refine ⟨?_, ?_, ?_, ?_, ?_, ?_, ?_⟩
      · rw [hname, hleft]
      · rw [hname, hright]
      · rw [hname, hparent]
      · rw [hname, hsize]
      · rw [hname, hweight, hsum]
      · exact ihleft hbelow fun link hlink => hsame link (by simp [hlink])
      · exact ihright habove fun link hlink => hsame link (by simp [hlink])

theorem Holds.rearrange {touched : List Nat} (h : Holds heap parent tree)
    (hrearranged : Rearranges touched heap heap')
    (hapart : ∀ link ∈ tree.inorder, link ∉ touched) : Holds heap' parent tree :=
  h.congr fun link hlink => hrearranged.same (hapart link hlink)

theorem Holds.size_eq (h : Holds heap parent tree) :
    size heap tree.root = tree.inorder.length := by
  cases tree with
  | nil => rfl
  | node name left right => exact h.2.2.2.1

theorem Holds.weight_eq (h : Holds heap parent tree) :
    weight heap tree.root = heap.sum tree.inorder := by
  cases tree with
  | nil => rfl
  | node name left right => exact h.2.2.2.2.1

theorem sum_node (heap : Heap) (name : Nat) (left right : NodeTree Nat) :
    heap.sum (node name left right).inorder =
      heap.sum left.inorder * heap.entryWeight name * heap.sum right.inorder := by
  rw [Heap.sum, inorder_node, List.map_append, List.map_cons, List.prod_append, List.prod_cons,
    ← mul_assoc]
  rfl

/-! ## Single links -/

theorem links_setLink (heap : Heap) (link : Nat) (value : Link) (other : Nat) :
    (heap.setLink link value).links other = if other = link then value else heap.links other :=
  Function.update_apply ..

/-- A link keeps its entry when another value is put in its place. -/
theorem rearranges_setLink {value : Link} {link : Nat}
    (hentry : value.entry = (heap.links link).entry) :
    Rearranges [link] heap (heap.setLink link value) where
  entries := rfl
  entryCount := rfl
  linkCount := rfl
  entry other := by
    rw [links_setLink]
    split
    · rename_i hsame
      rw [hentry, hsame]
    · rfl
  others other hother := by
    rw [links_setLink, if_neg (by simpa using hother)]

theorem rearranges_setParent (heap : Heap) (root parent : Option Nat) :
    Rearranges root.toList heap (heap.setParent root parent) := by
  cases root with
  | none => exact .refl _ _
  | some root => exact rearranges_setLink rfl

theorem Holds.setParent (h : Holds heap parent tree) (hnodup : tree.inorder.Nodup)
    (other : Option Nat) : Holds (heap.setParent tree.root other) other tree := by
  cases tree with
  | nil => trivial
  | node name left right =>
      obtain ⟨-, -, hleft, hright, -⟩ := nodup_node.1 hnodup
      obtain ⟨hl, hr, -, hsize, hweight, hbelow, habove⟩ := h
      have hrearranged := rearranges_setParent heap (some name) other
      have hname : (heap.setParent (some name) other).links name =
          { heap.links name with parent := other } := by
        rw [Heap.setParent, links_setLink, if_pos rfl]
      rw [root_node]
      refine ⟨?_, ?_, ?_, ?_, ?_, ?_, ?_⟩
      · rw [hname, hl]
      · rw [hname, hr]
      · rw [hname]
      · rw [hname, hsize]
      · rw [hname, hweight, hrearranged.sum_eq]
      · apply hbelow.rearrange hrearranged
        intro link hlink hmem
        rw [Option.toList_some, List.mem_singleton] at hmem
        exact hleft (hmem ▸ hlink)
      · apply habove.rearrange hrearranged
        intro link hlink hmem
        rw [Option.toList_some, List.mem_singleton] at hmem
        exact hright (hmem ▸ hlink)

theorem rearranges_root {touched : List Nat} (tree : NodeTree Nat)
    (hroot : tree.inorder ⊆ touched) (heap : Heap) (other : Option Nat) :
    Rearranges touched heap (heap.setParent tree.root other) := by
  apply (rearranges_setParent heap tree.root other).mono
  intro link hlink
  exact hroot (mem_of_root (Option.mem_toList.1 hlink))

/-- A link with its subtrees in place becomes the root of a tree. -/
theorem update_spec {p q : Option Nat} (hnodup : (node name left right).inorder.Nodup)
    (hleft : (heap.links name).left = left.root) (hright : (heap.links name).right = right.root)
    (hbelow : Holds heap p left) (habove : Holds heap q right) :
    Holds (update heap name) (heap.links name).parent (node name left right) ∧
      Rearranges (node name left right).inorder heap (update heap name) := by
  obtain ⟨hnodupLeft, hnodupRight, hnotLeft, hnotRight, hapart⟩ := nodup_node.1 hnodup
  generalize hmade : heap.setLink name { heap.links name with
    size := 1 + size heap (heap.links name).left + size heap (heap.links name).right
    weight := weight heap (heap.links name).left *
      (heap.entries (heap.links name).entry).weight * weight heap (heap.links name).right } = made
  have hupdate : update heap name =
      (made.setParent left.root (some name)).setParent right.root (some name) := by
    rw [update, ← hleft, ← hright, ← hmade]
  have hfirst : Rearranges [name] heap made := hmade ▸ rearranges_setLink rfl
  have hsecond := rearranges_setParent made left.root (some name)
  have hthird := rearranges_setParent (made.setParent left.root (some name)) right.root (some name)
  have hrootLeft : ∀ link ∈ left.root.toList, link ∈ left.inorder := by
    intro link hlink
    exact mem_of_root (Option.mem_toList.1 hlink)
  have hrootRight : ∀ link ∈ right.root.toList, link ∈ right.inorder := by
    intro link hlink
    exact mem_of_root (Option.mem_toList.1 hlink)
  have hleftMade : Holds made p left := by
    apply hbelow.rearrange hfirst
    intro link hlink hmem
    exact hnotLeft (List.mem_singleton.1 hmem ▸ hlink)
  have hrightMade : Holds made q right := by
    apply habove.rearrange hfirst
    intro link hlink hmem
    exact hnotRight (List.mem_singleton.1 hmem ▸ hlink)
  have hleftDone : Holds (update heap name) (some name) left := by
    rw [hupdate]
    apply (hleftMade.setParent hnodupLeft (some name)).rearrange hthird
    intro link hlink hmem
    exact hapart link hlink (hrootRight link hmem)
  have hrightDone : Holds (update heap name) (some name) right := by
    rw [hupdate]
    apply Holds.setParent _ hnodupRight
    · exact q
    apply hrightMade.rearrange hsecond
    intro link hlink hmem
    exact hapart link (hrootLeft link hmem) hlink
  have hall : Rearranges (node name left right).inorder heap (update heap name) := by
    rw [hupdate]
    refine (hfirst.mono ?_).trans ((hsecond.mono ?_).trans (hthird.mono ?_))
    · intro link hlink
      rw [List.mem_singleton.1 hlink]
      simp
    · intro link hlink
      simp [hrootLeft link hlink]
    · intro link hlink
      simp [hrootRight link hlink]
  have hname : (update heap name).links name = made.links name := by
    rw [hupdate, hthird.others name fun hmem => hnotRight (hrootRight name hmem),
      hsecond.others name fun hmem => hnotLeft (hrootLeft name hmem)]
  have hlink : made.links name = { heap.links name with
      size := 1 + size heap (heap.links name).left + size heap (heap.links name).right
      weight := weight heap (heap.links name).left *
        (heap.entries (heap.links name).entry).weight * weight heap (heap.links name).right } := by
    rw [← hmade, links_setLink, if_pos rfl]
  refine ⟨⟨?_, ?_, ?_, ?_, ?_, hleftDone, hrightDone⟩, hall⟩
  · rw [hname, hlink, hleft]
  · rw [hname, hlink, hright]
  · rw [hname, hlink]
  · rw [hname, hlink, hleft, hright, hbelow.size_eq, habove.size_eq, inorder_node,
      List.length_append, List.length_cons]
    show 1 + left.inorder.length + right.inorder.length = _
    omega
  · rw [hname, hlink, hleft, hright, hbelow.weight_eq, habove.weight_eq, hall.sum_eq, sum_node]
    rfl

/-- A link whose left subtree is replaced becomes the root of a tree of its own. -/
theorem replaceLeft_spec {q : Option Nat} (hnodup : (node name left right).inorder.Nodup)
    (hright : (heap.links name).right = right.root) (hbelow : Holds heap none left)
    (habove : Holds heap q right) :
    let made := heap.setLink name { heap.links name with left := left.root }
    Holds ((update made name).setParent (some name) none) none (node name left right) ∧
      Rearranges (node name left right).inorder heap
        ((update made name).setParent (some name) none) := by
  intro made
  obtain ⟨-, -, hnotLeft, hnotRight, -⟩ := nodup_node.1 hnodup
  have hmade : Rearranges [name] heap made := rearranges_setLink rfl
  have hname : made.links name = { heap.links name with left := left.root } := by
    rw [links_setLink, if_pos rfl]
  have hbelowMade : Holds made none left := by
    apply hbelow.rearrange hmade
    intro link hlink hmem
    exact hnotLeft (List.mem_singleton.1 hmem ▸ hlink)
  have haboveMade : Holds made q right := by
    apply habove.rearrange hmade
    intro link hlink hmem
    exact hnotRight (List.mem_singleton.1 hmem ▸ hlink)
  obtain ⟨hholds, hupdated⟩ := update_spec hnodup (by rw [hname]) (by rw [hname, hright])
    hbelowMade haboveMade
  refine ⟨hholds.setParent hnodup none, (hmade.mono ?_).trans (hupdated.trans ?_)⟩
  · intro link hlink
    rw [List.mem_singleton.1 hlink]
    simp
  · exact rearranges_root (node name left right) (List.Subset.refl _) _ _

/-- The same of the right subtree. -/
theorem replaceRight_spec {p : Option Nat} (hnodup : (node name left right).inorder.Nodup)
    (hleft : (heap.links name).left = left.root) (hbelow : Holds heap p left)
    (habove : Holds heap none right) :
    let made := heap.setLink name { heap.links name with right := right.root }
    Holds ((update made name).setParent (some name) none) none (node name left right) ∧
      Rearranges (node name left right).inorder heap
        ((update made name).setParent (some name) none) := by
  intro made
  obtain ⟨-, -, hnotLeft, hnotRight, -⟩ := nodup_node.1 hnodup
  have hmade : Rearranges [name] heap made := rearranges_setLink rfl
  have hname : made.links name = { heap.links name with right := right.root } := by
    rw [links_setLink, if_pos rfl]
  have hbelowMade : Holds made p left := by
    apply hbelow.rearrange hmade
    intro link hlink hmem
    exact hnotLeft (List.mem_singleton.1 hmem ▸ hlink)
  have haboveMade : Holds made none right := by
    apply habove.rearrange hmade
    intro link hlink hmem
    exact hnotRight (List.mem_singleton.1 hmem ▸ hlink)
  obtain ⟨hholds, hupdated⟩ := update_spec hnodup (by rw [hname, hleft]) (by rw [hname])
    hbelowMade haboveMade
  refine ⟨hholds.setParent hnodup none, (hmade.mono ?_).trans (hupdated.trans ?_)⟩
  · intro link hlink
    rw [List.mem_singleton.1 hlink]
    simp
  · exact rearranges_root (node name left right) (List.Subset.refl _) _ _

end

/-! ## Splits and merges -/

/-- One tree after another. -/
theorem mergeWithin_spec {turns : Nat} {heap : Heap} {first second : NodeTree Nat}
    {p q : Option Nat} (hnodup : (first.inorder ++ second.inorder).Nodup)
    (hfirst : Holds heap p first) (hsecond : Holds heap q second)
    (hturns : first.inorder.length + second.inorder.length < turns) :
    ∃ heap' tree, mergeWithin turns heap first.root second.root = some (heap', tree.root) ∧
      Holds heap' none tree ∧ tree.inorder = first.inorder ++ second.inorder ∧
      Rearranges (first.inorder ++ second.inorder) heap heap' := by
  induction turns generalizing heap first second p q with
  | zero => cases hturns
  | succ turns ih =>
      cases first with
      | nil =>
          refine ⟨_, second, rfl, hsecond.setParent (by simpa using hnodup) none, rfl, ?_⟩
          exact rearranges_root second (by simp) _ _
      | node a left right =>
          cases second with
          | nil =>
              refine ⟨_, node a left right, rfl, hfirst.setParent (by simpa using hnodup) none,
                by simp, ?_⟩
              exact rearranges_root (node a left right) (by simp) _ _
          | node b left' right' =>
              have hnodupFirst := hnodup.of_append_left
              have hnodupSecond := hnodup.of_append_right
              simp only [inorder_node, List.length_append, List.length_cons] at hturns
              rw [root_node, root_node, mergeWithin]
              by_cases hpriority : (heap.links a).priority < (heap.links b).priority
              · -- the second tree goes below the first link, on its right
                have hrest : (right.inorder ++ (node b left' right').inorder).Nodup := by
                  rw [inorder_node, List.append_assoc, List.cons_append] at hnodup
                  exact hnodup.of_append_right.of_cons
                obtain ⟨heap', tree, hmerged, hholds, hinorder, hrearranged⟩ :=
                  ih hrest hfirst.2.2.2.2.2.2 hsecond (by
                    rw [inorder_node, List.length_append, List.length_cons]
                    omega)
                have hwhole : (node a left tree).inorder =
                    (node a left right).inorder ++ (node b left' right').inorder := by
                  rw [inorder_node a left tree, hinorder, inorder_node a left right, List.append_assoc,
                    List.cons_append]
                have hnodupWhole : (node a left tree).inorder.Nodup := by
                  rw [hwhole]
                  exact hnodup
                obtain ⟨-, -, -, hnotTree, hapart⟩ := nodup_node.1 hnodupWhole
                rw [hinorder] at hnotTree hapart
                have hname := hrearranged.others a hnotTree
                have hleft : Holds heap' (some a) left :=
                  hfirst.2.2.2.2.2.1.rearrange hrearranged hapart
                obtain ⟨hdone, hmade⟩ := replaceRight_spec hnodupWhole
                  (by rw [hname, hfirst.1]) hleft hholds
                rw [if_pos hpriority, hfirst.2.1]
                rw [root_node] at hmerged
                refine ⟨_, node a left tree, by rw [hmerged]; rfl, hdone, hwhole, ?_⟩
                rw [hwhole] at hmade
                apply (hrearranged.mono _).trans hmade
                intro link hlink
                rcases List.mem_append.1 hlink with hlink | hlink
                · simp [hlink]
                · exact List.mem_append_right _ hlink
              · have hrest : ((node a left right).inorder ++ left'.inorder).Nodup := by
                  rw [inorder_node b, ← List.append_assoc] at hnodup
                  exact hnodup.of_append_left
                obtain ⟨heap', tree, hmerged, hholds, hinorder, hrearranged⟩ :=
                  ih hrest hfirst hsecond.2.2.2.2.2.1 (by
                    rw [inorder_node, List.length_append, List.length_cons]
                    omega)
                have hwhole : (node b tree right').inorder =
                    (node a left right).inorder ++ (node b left' right').inorder := by
                  rw [inorder_node b, hinorder, inorder_node b, List.append_assoc]
                have hnodupWhole : (node b tree right').inorder.Nodup := by
                  rw [hwhole]
                  exact hnodup
                obtain ⟨-, -, hnotTree, -, hapart⟩ := nodup_node.1 hnodupWhole
                rw [hinorder] at hnotTree hapart
                have hname := hrearranged.others b hnotTree
                have hright : Holds heap' (some b) right' := by
                  apply hsecond.2.2.2.2.2.2.rearrange hrearranged
                  intro link hlink hmem
                  exact hapart link hmem hlink
                obtain ⟨hdone, hmade⟩ := replaceLeft_spec hnodupWhole
                  (by rw [hname, hsecond.2.1]) hholds hright
                rw [if_neg hpriority, hsecond.1]
                rw [root_node] at hmerged
                refine ⟨_, node b tree right', by rw [hmerged]; rfl, hdone, hwhole, ?_⟩
                rw [hwhole] at hmade
                apply (hrearranged.mono _).trans hmade
                intro link hlink
                rcases List.mem_append.1 hlink with hlink | hlink
                · exact List.mem_append_left _ hlink
                · simp [hlink]

theorem take_append_cons {α : Type} {front back : List α} {a : α} {count : Nat} :
    (front ++ a :: back).take count =
      if count ≤ front.length then front.take count
      else front ++ a :: back.take (count - front.length - 1) := by
  split
  · rename_i hle
    exact List.take_append_of_le_length hle
  · rename_i hlt
    obtain ⟨more, hmore⟩ : ∃ more, count = front.length + 1 + more :=
      ⟨count - front.length - 1, by omega⟩
    rw [hmore, List.take_append, List.take_of_length_le (by omega)]
    have hrest : front.length + 1 + more - front.length = more + 1 := by omega
    have hback : front.length + 1 + more - front.length - 1 = more := by omega
    rw [hback, hrest, List.take_succ_cons]

theorem drop_append_cons {α : Type} {front back : List α} {a : α} {count : Nat} :
    (front ++ a :: back).drop count =
      if count ≤ front.length then front.drop count ++ a :: back
      else back.drop (count - front.length - 1) := by
  split
  · rename_i hle
    exact List.drop_append_of_le_length hle
  · rename_i hlt
    obtain ⟨more, hmore⟩ : ∃ more, count = front.length + 1 + more :=
      ⟨count - front.length - 1, by omega⟩
    rw [hmore, List.drop_append, List.drop_of_length_le (by omega)]
    have hrest : front.length + 1 + more - front.length = more + 1 := by omega
    have hback : front.length + 1 + more - front.length - 1 = more := by omega
    rw [hback, hrest, List.drop_succ_cons, List.nil_append]

/-- The first links of a tree, and the others. -/
theorem splitWithin_spec {turns : Nat} {heap : Heap} {tree : NodeTree Nat} {p : Option Nat}
    {count : Nat} (hnodup : tree.inorder.Nodup) (hholds : Holds heap p tree)
    (hturns : tree.inorder.length < turns) :
    ∃ heap' first second, splitWithin turns heap tree.root count =
        some (heap', first.root, second.root) ∧
      Holds heap' none first ∧ Holds heap' none second ∧
      first.inorder = tree.inorder.take count ∧ second.inorder = tree.inorder.drop count ∧
      Rearranges tree.inorder heap heap' := by
  induction turns generalizing heap tree p count with
  | zero => cases hturns
  | succ turns ih =>
      cases tree with
      | nil => exact ⟨heap, nil, nil, rfl, trivial, trivial, by simp, by simp, .refl _ _⟩
      | node name left right =>
          obtain ⟨hnodupLeft, hnodupRight, hnotLeft, hnotRight, hapart⟩ := nodup_node.1 hnodup
          obtain ⟨hl, hr, -, -, -, hbelow, habove⟩ := hholds
          rw [inorder_node, List.length_append, List.length_cons] at hturns
          rw [root_node, splitWithin, hl, hr, hbelow.size_eq, inorder_node, take_append_cons,
            drop_append_cons]
          by_cases hcount : count ≤ left.inorder.length
          · obtain ⟨heap', first, second, hsplit, hfirst, hsecond, htake, hdrop, hrearranged⟩ :=
              @ih heap left (some name) count hnodupLeft hbelow (by omega)
            have hsubset : (node name second right).inorder ⊆ (node name left right).inorder := by
              intro link hlink
              rw [inorder_node, List.mem_append, hdrop] at hlink
              rw [inorder_node, List.mem_append]
              exact hlink.imp List.mem_of_mem_drop id
            have hnodupRest : (node name second right).inorder.Nodup := by
              rw [inorder_node, hdrop]
              exact hnodup.sublist ((List.drop_sublist _ _).append_right _)
            have hright : Holds heap' (some name) right := by
              apply habove.rearrange hrearranged
              intro link hlink hmem
              exact hapart link hmem hlink
            obtain ⟨hdone, hmade⟩ := replaceLeft_spec hnodupRest
              (by rw [hrearranged.others name hnotLeft, hr]) hsecond hright
            simp only [if_pos hcount]
            refine ⟨_, first, node name second right, by rw [hsplit]; rfl, ?_, hdone, htake,
              by rw [inorder_node, hdrop], ?_⟩
            · apply hfirst.rearrange hmade
              intro link hlink hmem
              rw [htake] at hlink
              rw [inorder_node, hdrop, List.mem_append, List.mem_cons] at hmem
              rcases hmem with hmem | rfl | hmem
              · rw [← List.take_append_drop count left.inorder] at hnodupLeft
                exact (List.nodup_append.1 hnodupLeft).2.2 link hlink link hmem rfl
              · exact hnotLeft (List.mem_of_mem_take hlink)
              · exact hapart link (List.mem_of_mem_take hlink) hmem
            · apply (hrearranged.mono _).trans (hmade.mono hsubset)
              intro link hlink
              simp [hlink]
          · obtain ⟨heap', first, second, hsplit, hfirst, hsecond, htake, hdrop, hrearranged⟩ :=
              @ih heap right (some name) (count - left.inorder.length - 1) hnodupRight habove
                (by omega)
            have hsubset : (node name left first).inorder ⊆ (node name left right).inorder := by
              intro link hlink
              rw [inorder_node, List.mem_append, List.mem_cons, htake] at hlink
              rw [inorder_node, List.mem_append, List.mem_cons]
              exact hlink.imp id (Or.imp id List.mem_of_mem_take)
            have hnodupRest : (node name left first).inorder.Nodup := by
              rw [inorder_node, htake]
              exact hnodup.sublist (((List.take_sublist _ _).cons_cons _).append_left _)
            have hleft : Holds heap' (some name) left := hbelow.rearrange hrearranged hapart
            obtain ⟨hdone, hmade⟩ := replaceRight_spec hnodupRest
              (by rw [hrearranged.others name hnotRight, hl]) hleft hfirst
            simp only [if_neg hcount]
            refine ⟨_, node name left first, second, by rw [hsplit]; rfl, hdone, ?_,
              by rw [inorder_node, htake], hdrop, ?_⟩
            · apply hsecond.rearrange hmade
              intro link hlink hmem
              rw [hdrop] at hlink
              rw [inorder_node, htake, List.mem_append, List.mem_cons] at hmem
              rcases hmem with hmem | rfl | hmem
              · exact hapart link hmem (List.mem_of_mem_drop hlink)
              · exact hnotRight (List.mem_of_mem_drop hlink)
              · rw [← List.take_append_drop (count - left.inorder.length - 1) right.inorder]
                  at hnodupRight
                exact (List.nodup_append.1 hnodupRight).2.2 link hmem link hlink rfl
            · apply (hrearranged.mono _).trans (hmade.mono hsubset)
              intro link hlink
              simp [hlink]

end Pmbah.Browser.RichTextIndex
