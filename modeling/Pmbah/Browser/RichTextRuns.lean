import Pmbah.Browser.RichTextReads

/-!
# Sequences of splits and merges

The roots that the index holds while it follows the changes of a text, each with the entries
that should be below it in order.
-/

namespace Pmbah.Browser.RichTextIndex

open Library Library.NodeTree

/-- `entry.parent = null` and `entry.link = null`. -/
def forget (heap : Heap) (entry : Nat) : Heap :=
  heap.setEntry entry { heap.entries entry with parent := none, link := none }

/-- `entry.children = root`. -/
def adopt (heap : Heap) (entry : Nat) (root : Option Nat) : Heap :=
  heap.setEntry entry { heap.entries entry with children := root }

/-- An edit of the text of an entry. -/
def edit (heap : Heap) (entry : Nat) (text : Option NumericTextIndex) : Heap :=
  heap.setEntry entry { heap.entries entry with text }

/-- What can come to be held: roots, and the order of the entries of each. -/
inductive Holding : Heap → List (Option Nat × List Nat) → Prop
  | start : Holding empty []
  | null {heap held} (before : Holding heap held) : Holding heap ((none, []) :: held)
  | unnull {heap held} (before : Holding heap ((none, []) :: held)) : Holding heap held
  /-- Any of the roots is turned to. -/
  | pick {heap first one last} (before : Holding heap (first ++ one :: last)) :
      Holding heap (one :: (first ++ last))
  | create {heap held parent} (before : Holding heap held) (node : Nat)
      (text : Option NumericTextIndex) (made : ∀ entry ∈ parent, entry < heap.entryCount) :
      Holding (create heap node parent text).1 held
  /-- An entry is weighed before it is linked. -/
  | weigh {heap held entry} (before : Holding heap held) (dom : Nat → DomNode)
      (root : Option Nat) (made : entry < heap.entryCount)
      (unlinked : (heap.entries entry).link = none) :
      Holding (setWeight dom root heap entry) held
  | link {heap held entry} (before : Holding heap held) (made : entry < heap.entryCount)
      (unlinked : (heap.entries entry).link = none) :
      Holding (link heap entry).1 ((some (link heap entry).2, [entry]) :: held)
  | adopt {heap held} (before : Holding heap held) (entry : Nat) (root : Option Nat) :
      Holding (adopt heap entry root) held
  | edit {heap held} (before : Holding heap held) (entry : Nat)
      (text : Option NumericTextIndex) : Holding (edit heap entry text) held
  | split {heap heap' root order held a b} {count : Nat}
      (before : Holding heap ((root, order) :: held))
      (done : split heap root count = some (heap', a, b)) :
      Holding heap' ((a, order.take count) :: (b, order.drop count) :: held)
  | merge {heap heap' a b root first second held}
      (before : Holding heap ((a, first) :: (b, second) :: held))
      (done : merge heap a b = some (heap', root)) :
      Holding heap' ((root, first ++ second) :: held)
  /-- An entry that was split off is given up with its link. -/
  | detach {heap root entry held} (before : Holding heap ((root, [entry]) :: held)) :
      Holding (forget heap entry) held
  | refresh {heap heap' held entry} (before : Holding heap held) (dom : Nat → DomNode)
      (root : Option Nat) (made : entry < heap.entryCount)
      (done : refresh dom root heap entry = some heap') : Holding heap' held

/-! ## Trees behind the roots -/

def allLinks (trees : List (NodeTree Nat)) : List Nat := trees.flatMap NodeTree.inorder

/-- A tree as it is held. -/
def shown (heap : Heap) (tree : NodeTree Nat) : Option Nat × List Nat :=
  (tree.root, tree.inorder.map fun link => (heap.links link).entry)

/-- The trees share no link, and an entry and its link know each other. -/
structure Forest (heap : Heap) (trees : List (NodeTree Nat)) : Prop where
  holds : ∀ tree ∈ trees, Holds heap none tree
  nodup : (allLinks trees).Nodup
  made : ∀ link ∈ allLinks trees, link < heap.linkCount ∧
    (heap.links link).entry < heap.entryCount
  linked : ∀ entry link, (heap.entries entry).link = some link ↔
    link ∈ allLinks trees ∧ (heap.links link).entry = entry
  parents : ∀ entry, ∀ parent ∈ (heap.entries entry).parent, parent < entry

variable {heap heap' : Heap} {trees rest : List (NodeTree Nat)}

theorem allLinks_cons (tree : NodeTree Nat) (trees : List (NodeTree Nat)) :
    allLinks (tree :: trees) = tree.inorder ++ allLinks trees := rfl

theorem allLinks_append (trees rest : List (NodeTree Nat)) :
    allLinks (trees ++ rest) = allLinks trees ++ allLinks rest := List.flatMap_append ..

theorem mem_allLinks {tree : NodeTree Nat} {link : Nat} (htree : tree ∈ trees)
    (hlink : link ∈ tree.inorder) : link ∈ allLinks trees :=
  List.mem_flatMap.2 ⟨tree, htree, hlink⟩

/-- A link is in one tree only. -/
theorem eq_of_mem_allLinks (hnodup : (allLinks trees).Nodup) {first second : NodeTree Nat}
    (hfirst : first ∈ trees) (hsecond : second ∈ trees) {link : Nat}
    (hlink : link ∈ first.inorder) (hlink' : link ∈ second.inorder) : first = second := by
  induction trees with
  | nil => cases hfirst
  | cons tree trees ih =>
      rw [allLinks_cons, List.nodup_append] at hnodup
      rcases List.mem_cons.1 hfirst with hhead | hrest
      · rcases List.mem_cons.1 hsecond with hhead' | hrest'
        · rw [hhead, hhead']
        · rw [hhead] at hlink
          exact absurd rfl (hnodup.2.2 link hlink link (mem_allLinks hrest' hlink'))
      · rcases List.mem_cons.1 hsecond with hhead' | hrest'
        · rw [hhead'] at hlink'
          exact absurd rfl (hnodup.2.2 link hlink' link (mem_allLinks hrest hlink))
        · exact ih hnodup.2.1 hrest hrest'

namespace Forest

theorem nodup_tree (h : Forest heap trees) {tree : NodeTree Nat} (htree : tree ∈ trees) :
    tree.inorder.Nodup := by
  have hsublist := List.sublist_flatten_of_mem (List.mem_map_of_mem (f := NodeTree.inorder) htree)
  exact h.nodup.sublist hsublist

/-- The links are numbers below the count, so that no tree has more of them. -/
theorem length_le (h : Forest heap trees) : (allLinks trees).length ≤ heap.linkCount := by
  have hsubset : allLinks trees ⊆ List.range heap.linkCount := by
    intro link hlink
    exact List.mem_range.2 (h.made link hlink).1
  have hle := (List.subperm_of_subset h.nodup hsubset).length_le
  rwa [List.length_range] at hle

theorem length_tree_le (h : Forest heap trees) {tree : NodeTree Nat} (htree : tree ∈ trees) :
    tree.inorder.length ≤ heap.linkCount := by
  have hsublist := List.sublist_flatten_of_mem (List.mem_map_of_mem (f := NodeTree.inorder) htree)
  exact le_trans hsublist.length_le h.length_le

theorem perm (h : Forest heap trees) (hperm : trees.Perm rest) : Forest heap rest := by
  have hlinks : (allLinks trees).Perm (allLinks rest) := hperm.flatMap_right _
  refine ⟨?_, hlinks.nodup_iff.1 h.nodup, ?_, ?_, h.parents⟩
  · intro tree htree
    exact h.holds tree (hperm.mem_iff.2 htree)
  · intro link hlink
    exact h.made link (hlinks.mem_iff.2 hlink)
  · intro entry link
    rw [h.linked, hlinks.mem_iff]

/-- Some of the trees are replaced by others of the same links. -/
theorem rearrange {old new : List (NodeTree Nat)} (h : Forest heap (old ++ rest))
    (hrearranged : Rearranges (allLinks old) heap heap')
    (hholds : ∀ tree ∈ new, Holds heap' none tree)
    (hperm : (allLinks new).Perm (allLinks old)) : Forest heap' (new ++ rest) := by
  have hlinks : (allLinks (new ++ rest)).Perm (allLinks (old ++ rest)) := by
    rw [allLinks_append, allLinks_append]
    exact hperm.append_right _
  have hapart := h.nodup
  rw [allLinks_append, List.nodup_append] at hapart
  refine ⟨?_, hlinks.nodup_iff.2 h.nodup, ?_, ?_, ?_⟩
  · intro tree htree
    rcases List.mem_append.1 htree with hnew | hrest
    · exact hholds tree hnew
    · apply (h.holds tree (List.mem_append_right _ hrest)).rearrange hrearranged
      intro link hlink hold
      exact hapart.2.2 link hold link (mem_allLinks hrest hlink) rfl
  · intro link hlink
    rw [hrearranged.linkCount, hrearranged.entryCount, hrearranged.entry]
    exact h.made link (hlinks.mem_iff.1 hlink)
  · intro entry link
    rw [hrearranged.entries, hrearranged.entry, h.linked, hlinks.mem_iff]
  · rw [hrearranged.entries]
    exact h.parents

/-- The entries are changed in what the trees do not look at. -/
theorem of_entries (h : Forest heap trees) (hlinks : heap'.links = heap.links)
    (hlinkCount : heap'.linkCount = heap.linkCount)
    (hentryCount : heap.entryCount ≤ heap'.entryCount)
    (hweight : ∀ link ∈ allLinks trees, heap'.entryWeight link = heap.entryWeight link)
    (hlink : ∀ entry, (heap'.entries entry).link = (heap.entries entry).link)
    (hparents : ∀ entry, ∀ parent ∈ (heap'.entries entry).parent, parent < entry) :
    Forest heap' trees where
  holds tree htree := (h.holds tree htree).congr fun link hmem =>
    ⟨by rw [hlinks], hweight link (mem_allLinks htree hmem)⟩
  nodup := h.nodup
  made link hmem := by
    rw [hlinkCount, hlinks]
    exact ⟨(h.made link hmem).1, lt_of_lt_of_le (h.made link hmem).2 hentryCount⟩
  linked entry link := by rw [hlink, hlinks, h.linked]
  parents := hparents

end Forest

theorem shown_of_entry (hentry : ∀ link, (heap'.links link).entry = (heap.links link).entry)
    (tree : NodeTree Nat) : shown heap' tree = shown heap tree := by
  rw [shown, shown]
  simp only [hentry]

theorem entries_setEntry (heap : Heap) (entry : Nat) (value : Entry) (other : Nat) :
    (heap.setEntry entry value).entries other = if other = entry then value else heap.entries other :=
  Function.update_apply ..

namespace Forest

/-! ## Operations on roots -/

theorem split {tree : NodeTree Nat} (h : Forest heap (tree :: rest)) (count : Nat) :
    ∃ heap' first second, RichTextIndex.split heap tree.root count =
        some (heap', first.root, second.root) ∧
      Forest heap' (first :: second :: rest) ∧
      first.inorder = tree.inorder.take count ∧ second.inorder = tree.inorder.drop count ∧
      ∀ link, (heap'.links link).entry = (heap.links link).entry := by
  have htree : tree ∈ tree :: rest := List.mem_cons_self ..
  obtain ⟨heap', first, second, hsplit, hfirst, hsecond, htake, hdrop, hrearranged⟩ :=
    @splitWithin_spec (heap.linkCount + 1) heap tree none count (h.nodup_tree htree)
      (h.holds tree htree) (Nat.lt_succ_of_le (h.length_tree_le htree))
  have hold : allLinks [tree] = tree.inorder := List.append_nil _
  have hnew : allLinks [first, second] = tree.inorder := by
    rw [allLinks_cons, allLinks_cons, htake, hdrop]
    show tree.inorder.take count ++ (tree.inorder.drop count ++ []) = _
    rw [List.append_nil, List.take_append_drop]
  have hforest : Forest heap ([tree] ++ rest) := h
  have hall : Forest heap' ([first, second] ++ rest) := by
    apply hforest.rearrange
    · rw [hold]
      exact hrearranged
    · intro part hpart
      rcases List.mem_pair.1 hpart with rfl | rfl
      · exact hfirst
      · exact hsecond
    · rw [hold, hnew]
  exact ⟨heap', first, second, hsplit, hall, htake, hdrop, hrearranged.entry⟩

theorem merge {first second : NodeTree Nat} (h : Forest heap (first :: second :: rest)) :
    ∃ heap' tree, RichTextIndex.merge heap first.root second.root = some (heap', tree.root) ∧
      Forest heap' (tree :: rest) ∧ tree.inorder = first.inorder ++ second.inorder ∧
      ∀ link, (heap'.links link).entry = (heap.links link).entry := by
  have hforest : Forest heap ([first, second] ++ rest) := h
  have hold : allLinks [first, second] = first.inorder ++ second.inorder := by
    rw [allLinks_cons, allLinks_cons]
    show first.inorder ++ (second.inorder ++ []) = _
    rw [List.append_nil]
  have hnodup : (first.inorder ++ second.inorder).Nodup := by
    have hall := h.nodup
    rw [allLinks_cons, allLinks_cons, ← List.append_assoc] at hall
    exact hall.of_append_left
  have hlength : first.inorder.length + second.inorder.length ≤ heap.linkCount := by
    have hall := h.length_le
    rw [allLinks_cons, allLinks_cons, List.length_append, List.length_append] at hall
    omega
  obtain ⟨heap', tree, hmerged, hholds, hinorder, hrearranged⟩ :=
    mergeWithin_spec hnodup (h.holds first (by simp)) (h.holds second (by simp))
      (Nat.lt_succ_of_le hlength)
  have hnew : allLinks [tree] = first.inorder ++ second.inorder := by
    rw [← hinorder]
    exact List.append_nil _
  have hall : Forest heap' ([tree] ++ rest) := by
    apply hforest.rearrange
    · rw [hold]
      exact hrearranged
    · intro part hpart
      rw [List.mem_singleton.1 hpart]
      exact hholds
    · rw [hold, hnew]
  exact ⟨heap', tree, hmerged, hall, hinorder, hrearranged.entry⟩

/-! ## Operations on entries -/

/-- An entry that is linked keeps its weight. -/
theorem setEntry (h : Forest heap trees) {entry : Nat} {value : Entry}
    (hlink : value.link = (heap.entries entry).link)
    (hparent : ∀ parent ∈ value.parent, parent < entry)
    (hweight : value.weight = (heap.entries entry).weight ∨ (heap.entries entry).link = none) :
    Forest (heap.setEntry entry value) trees := by
  have hlinks : (heap.setEntry entry value).links = heap.links := rfl
  have hcount : (heap.setEntry entry value).linkCount = heap.linkCount := rfl
  apply h.of_entries hlinks hcount (le_refl _)
  · intro link hmem
    show ((heap.setEntry entry value).entries (heap.links link).entry).weight = _
    rw [entries_setEntry]
    split
    · rename_i hsame
      rcases hweight with hweight | hnone
      · rw [hweight, Heap.entryWeight, hsame]
      · rw [(h.linked entry link).2 ⟨hmem, hsame⟩] at hnone
        cases hnone
    · rfl
  · intro other
    rw [entries_setEntry]
    split
    · rename_i hsame
      rw [hlink, hsame]
    · rfl
  · intro other parent
    rw [entries_setEntry]
    split
    · rename_i hsame
      rw [hsame]
      exact hparent parent
    · exact h.parents other parent

/-- Nothing is linked to an entry that has not been made. -/
theorem unlinked (h : Forest heap trees) {entry : Nat} (hentry : heap.entryCount ≤ entry) :
    (heap.entries entry).link = none := by
  cases hlink : (heap.entries entry).link with
  | none => rfl
  | some link =>
      obtain ⟨hmem, hsame⟩ := (h.linked entry link).1 hlink
      have hmade := (h.made link hmem).2
      omega

theorem create (h : Forest heap trees) {parent : Option Nat} (node : Nat)
    (text : Option NumericTextIndex) (hparent : ∀ entry ∈ parent, entry < heap.entryCount) :
    Forest (RichTextIndex.create heap node parent text).1 trees := by
  have hnone := h.unlinked (le_refl heap.entryCount)
  have hset : Forest (heap.setEntry heap.entryCount
      { node, parent, link := none, children := none, text, weight := 1 }) trees :=
    h.setEntry hnone.symm hparent (Or.inr hnone)
  exact hset.of_entries rfl rfl (Nat.le_succ _) (fun _ _ => rfl) (fun _ => rfl) hset.parents

theorem weigh (h : Forest heap trees) {entry : Nat} (dom : Nat → DomNode) (root : Option Nat)
    (hnone : (heap.entries entry).link = none) :
    Forest (setWeight dom root heap entry) trees :=
  h.setEntry rfl (h.parents entry) (Or.inr hnone)

/-- A new link is a tree of its own. -/
theorem link (h : Forest heap trees) {entry : Nat} (hentry : entry < heap.entryCount)
    (hnone : (heap.entries entry).link = none) :
    Forest (RichTextIndex.link heap entry).1 (node heap.linkCount nil nil :: trees) ∧
      ((RichTextIndex.link heap entry).1.links heap.linkCount).entry = entry ∧
      ∀ other ∈ allLinks trees, ((RichTextIndex.link heap entry).1.links other).entry =
        (heap.links other).entry := by
  generalize hmade : (RichTextIndex.link heap entry).1 = made
  have hentries : ∀ other, made.entries other =
      if other = entry then { heap.entries entry with link := some heap.linkCount }
      else heap.entries other := by
    intro other
    rw [← hmade]
    exact Function.update_apply ..
  have hnew : made.links heap.linkCount =
      { entry, left := none, right := none, parent := none, size := 1
        priority := (NumericTextIndex.nextSeed heap.seed).toNat
        weight := (heap.entries entry).weight } := by
    rw [← hmade]
    exact Function.update_self ..
  have hfresh : ∀ other ∈ allLinks trees, made.links other = heap.links other := by
    intro other hother
    rw [← hmade]
    exact Function.update_of_ne (Nat.ne_of_lt (h.made other hother).1) ..
  have hweight : ∀ other, (made.entries other).weight = (heap.entries other).weight := by
    intro other
    rw [hentries]
    split
    · rename_i hsame
      rw [hsame]
    · rfl
  have hmem : ∀ other, other ∈ allLinks (node heap.linkCount nil nil :: trees) ↔
      other = heap.linkCount ∨ other ∈ allLinks trees := by
    intro other
    rw [allLinks_cons, List.mem_append]
    simp
  refine ⟨⟨?_, ?_, ?_, ?_, ?_⟩, by rw [hnew], fun other hother => by rw [hfresh other hother]⟩
  · intro tree htree
    rcases List.mem_cons.1 htree with rfl | htree
    · refine ⟨by rw [hnew]; rfl, by rw [hnew]; rfl, by rw [hnew], by rw [hnew]; rfl, ?_, trivial,
        trivial⟩
      rw [hnew, inorder_node, inorder_nil, List.nil_append, sum_cons, sum_nil, mul_one,
        Heap.entryWeight, hnew, hweight]
    · apply (h.holds tree htree).congr
      intro other hother
      have hkept := hfresh other (mem_allLinks htree hother)
      exact ⟨hkept, by rw [Heap.entryWeight, hkept, hweight, Heap.entryWeight]⟩
  · rw [allLinks_cons]
    apply List.nodup_cons.2 ⟨?_, h.nodup⟩
    intro hold
    exact Nat.lt_irrefl _ (h.made _ hold).1
  · intro other hother
    rw [← hmade]
    show other < heap.linkCount + 1 ∧ _ < heap.entryCount
    rw [hmade]
    rcases (hmem other).1 hother with rfl | hold
    · rw [hnew]
      exact ⟨Nat.lt_succ_self _, hentry⟩
    · rw [hfresh other hold]
      exact ⟨Nat.lt_succ_of_lt (h.made other hold).1, (h.made other hold).2⟩
  · intro other other'
    rw [hentries, hmem]
    by_cases hsame : other = entry
    · subst hsame
      rw [if_pos rfl]
      constructor
      · intro hlink
        obtain rfl := Option.some.inj hlink
        exact ⟨Or.inl rfl, by rw [hnew]⟩
      · rintro ⟨rfl | hold, hentry'⟩
        · rfl
        · rw [hfresh other' hold] at hentry'
          rw [(h.linked other other').2 ⟨hold, hentry'⟩] at hnone
          cases hnone
    · rw [if_neg hsame, h.linked]
      constructor
      · rintro ⟨hold, hentry'⟩
        exact ⟨Or.inr hold, by rw [hfresh other' hold, hentry']⟩
      · rintro ⟨rfl | hold, hentry'⟩
        · rw [hnew] at hentry'
          exact absurd hentry'.symm hsame
        · rw [hfresh other' hold] at hentry'
          exact ⟨hold, hentry'⟩
  · intro other parent
    rw [hentries]
    split
    · rename_i hsame
      rw [hsame]
      exact h.parents entry parent
    · exact h.parents other parent

/-- A tree of one link is given up together with what its entry knew of it. -/
theorem detach {tree : NodeTree Nat} {entry : Nat} (h : Forest heap (tree :: rest))
    (hentries : tree.inorder.map (fun link => (heap.links link).entry) = [entry]) :
    Forest (forget heap entry) rest := by
  obtain ⟨link, hinorder, hlink⟩ : ∃ link, tree.inorder = [link] ∧
      (heap.links link).entry = entry := by
    obtain ⟨link, hinorder, hentry⟩ := List.map_eq_singleton_iff.1 hentries
    exact ⟨link, hinorder, hentry⟩
  have hall := h.nodup
  rw [allLinks_cons, hinorder, List.singleton_append, List.nodup_cons] at hall
  have hmem : ∀ other, other ∈ allLinks (tree :: rest) ↔ other = link ∨ other ∈ allLinks rest := by
    intro other
    rw [allLinks_cons, hinorder, List.singleton_append, List.mem_cons]
  have hother : ∀ other ∈ allLinks rest, (heap.links other).entry ≠ entry := by
    intro other hrest hsame
    have hfirst := (h.linked entry link).2 ⟨(hmem link).2 (Or.inl rfl), hlink⟩
    have hsecond := (h.linked entry other).2 ⟨(hmem other).2 (Or.inr hrest), hsame⟩
    rw [hfirst] at hsecond
    obtain rfl := Option.some.inj hsecond
    exact hall.1 hrest
  have hfound : ∀ other, (forget heap entry).entries other =
      if other = entry then { heap.entries entry with parent := none, link := none }
      else heap.entries other := fun other => entries_setEntry ..
  refine ⟨?_, hall.2, ?_, ?_, ?_⟩
  · intro part hpart
    apply (h.holds part (List.mem_cons_of_mem _ hpart)).congr
    intro other hmember
    refine ⟨rfl, ?_⟩
    show ((forget heap entry).entries (heap.links other).entry).weight = _
    rw [hfound, if_neg (hother other (mem_allLinks hpart hmember))]
    rfl
  · intro other hrest
    exact h.made other ((hmem other).2 (Or.inr hrest))
  · intro other other'
    rw [hfound]
    by_cases hsame : other = entry
    · subst hsame
      rw [if_pos rfl]
      constructor
      · intro hnone
        cases hnone
      · rintro ⟨hrest, hentry⟩
        exact absurd hentry (hother other' hrest)
    · rw [if_neg hsame, h.linked, hmem]
      constructor
      · rintro ⟨rfl | hrest, hentry⟩
        · exact absurd (hentry.symm.trans hlink) hsame
        · exact ⟨hrest, hentry⟩
      · rintro ⟨hrest, hentry⟩
        exact ⟨Or.inr hrest, hentry⟩
  · intro other parent
    rw [hfound]
    split
    · intro hnone
      cases hnone
    · exact h.parents other parent

/-- What a refresh leaves as it is. -/
structure Keeps (heap heap' : Heap) : Prop where
  entryCount : heap'.entryCount = heap.entryCount
  entry : ∀ link, (heap'.links link).entry = (heap.links link).entry
  parent : ∀ entry, (heap'.entries entry).parent = (heap.entries entry).parent

theorem setWeight_keeps (dom : Nat → DomNode) (root : Option Nat) (heap : Heap) (entry : Nat) :
    Keeps heap (setWeight dom root heap entry) ∧
      ∀ other, ((setWeight dom root heap entry).entries other).link =
        (heap.entries other).link := by
  refine ⟨⟨rfl, fun _ => rfl, ?_⟩, ?_⟩
  · intro other
    rw [setWeight, entries_setEntry]
    split
    · rename_i hsame
      rw [hsame]
    · rfl
  · intro other
    rw [setWeight, entries_setEntry]
    split
    · rename_i hsame
      rw [hsame]
    · rfl

/-- An entry gets another weight, and the links above its own are brought up to date. -/
theorem reweigh (h : Forest heap trees) (dom : Nat → DomNode) (root : Option Nat) (entry : Nat) :
    ∃ heap', RichTextIndex.reweigh dom root heap entry = some heap' ∧ Forest heap' trees ∧
      Keeps heap heap' := by
  obtain ⟨hkeeps, hlinkKept⟩ := setWeight_keeps dom root heap entry
  rw [RichTextIndex.reweigh, hlinkKept]
  cases hlink : (heap.entries entry).link with
  | none => exact ⟨_, updateWithin.eq_1 .., h.weigh dom root hlink, hkeeps⟩
  | some link =>
      obtain ⟨hmem, hentry⟩ := (h.linked entry link).1 hlink
      obtain ⟨tree, htree, hintree⟩ := List.mem_flatMap.1 hmem
      generalize hweighed : setWeight dom root heap entry = weighed at hkeeps hlinkKept
      have hlinks : weighed.links = heap.links := by
        rw [← hweighed]
        rfl
      have hcount : weighed.linkCount = heap.linkCount := by
        rw [← hweighed]
        rfl
      have hweight : ∀ other ∈ allLinks trees, other ≠ link →
          weighed.entryWeight other = heap.entryWeight other := by
        intro other hother hne
        have hapart : (heap.links other).entry ≠ entry := by
          intro hsame
          have hback := (h.linked entry other).2 ⟨hother, hsame⟩
          rw [hlink] at hback
          exact hne (Option.some.inj hback).symm
        rw [Heap.entryWeight, hlinks, ← hweighed, setWeight, entries_setEntry, if_neg hapart]
        rfl
      obtain ⟨done, hdone, hholds, hrearranged⟩ :=
        updateWithin_reweighed (h.holds tree htree) (h.nodup_tree htree) hintree hlinks
          (fun other hother hne => hweight other (mem_allLinks htree hother) hne)
          (Nat.lt_succ_of_le (h.length_tree_le htree))
      have hkept : Keeps heap done :=
        ⟨hrearranged.entryCount.trans hkeeps.entryCount,
          fun other => (hrearranged.entry other).trans (hkeeps.entry other),
          fun other => by rw [hrearranged.entries, hkeeps.parent]⟩
      rw [hcount]
      refine ⟨done, hdone, ⟨?_, h.nodup, ?_, ?_, ?_⟩, hkept⟩
      · intro other hother
        by_cases hsame : other = tree
        · rw [hsame]
          exact hholds
        · -- another tree has neither the link nor any of those that were updated
          have hapart : ∀ name ∈ other.inorder, name ∉ tree.inorder := by
            intro name hname hname'
            exact hsame (eq_of_mem_allLinks h.nodup hother htree hname hname')
          have hother' : Holds weighed none other := by
            apply (h.holds other hother).congr
            intro name hname
            refine ⟨by rw [hlinks], hweight name (mem_allLinks hother hname) ?_⟩
            rintro rfl
            exact hapart name hname hintree
          exact hother'.rearrange hrearranged hapart
      · intro other hother
        rw [hrearranged.linkCount, hcount, hkept.entryCount, hkept.entry]
        exact h.made other hother
      · intro other other'
        rw [hrearranged.entries, hlinkKept, hkept.entry]
        exact h.linked other other'
      · intro other parent
        rw [hkept.parent]
        exact h.parents other parent

/-- A refresh ends, since every entry was made after its parent. -/
theorem refreshWithin {turns : Nat} (h : Forest heap trees) (dom : Nat → DomNode)
    (root : Option Nat) {current : Option Nat} (hturns : ∀ entry ∈ current, entry < turns) :
    ∃ heap', RichTextIndex.refreshWithin dom root turns heap current = some heap' ∧
      Forest heap' trees ∧ Keeps heap heap' := by
  induction turns generalizing heap current with
  | zero =>
      cases current with
      | none => exact ⟨heap, RichTextIndex.refreshWithin.eq_1 .., h, rfl, fun _ => rfl, fun _ => rfl⟩
      | some entry => cases hturns entry rfl
  | succ turns ih =>
      cases current with
      | none => exact ⟨heap, RichTextIndex.refreshWithin.eq_1 .., h, rfl, fun _ => rfl, fun _ => rfl⟩
      | some entry =>
          obtain ⟨next, hnext, hforest, hkeeps⟩ := h.reweigh dom root entry
          have hup : ∀ parent ∈ (next.entries entry).parent, parent < turns := by
            intro parent hparent
            have hbelow := hforest.parents entry parent hparent
            have hentry := hturns entry rfl
            omega
          obtain ⟨heap', hrefreshed, hdone, hkept⟩ := ih hforest hup
          refine ⟨heap', ?_, hdone, hkept.entryCount.trans hkeeps.entryCount, ?_, ?_⟩
          · rw [RichTextIndex.refreshWithin, hnext]
            exact hrefreshed
          · exact fun link => (hkept.entry link).trans (hkeeps.entry link)
          · exact fun other => (hkept.parent other).trans (hkeeps.parent other)

theorem refresh (h : Forest heap trees) (dom : Nat → DomNode) (root : Option Nat) {entry : Nat}
    (hentry : entry < heap.entryCount) :
    ∃ heap', RichTextIndex.refresh dom root heap entry = some heap' ∧ Forest heap' trees ∧
      Keeps heap heap' := by
  apply h.refreshWithin dom root
  intro other hother
  obtain rfl := Option.some.inj hother
  exact Nat.lt_succ_of_lt hentry

end Forest

/-- Behind all that is held there are trees, in the order in which it should be held. -/
theorem Holding.forest {held : List (Option Nat × List Nat)} (h : Holding heap held) :
    ∃ trees, Forest heap trees ∧ held = trees.map (shown heap) := by
  induction h with
  | start =>
      refine ⟨[], ⟨nofun, List.nodup_nil, nofun, ?_, nofun⟩, rfl⟩
      intro entry link
      constructor
      · intro hnone
        cases hnone
      · rintro ⟨hmem, -⟩
        cases hmem
  | null _ ih =>
      obtain ⟨trees, hforest, rfl⟩ := ih
      refine ⟨nil :: trees, ⟨?_, hforest.nodup, hforest.made, hforest.linked, hforest.parents⟩, rfl⟩
      intro tree htree
      rcases List.mem_cons.1 htree with rfl | htree
      · trivial
      · exact hforest.holds tree htree
  | unnull _ ih =>
      obtain ⟨trees, hforest, hheld⟩ := ih
      obtain ⟨tree, rest, rfl, hnone, rfl⟩ := List.map_eq_cons_iff.1 hheld.symm
      have hnil : tree = nil := by
        cases tree with
        | nil => rfl
        | node name left right => cases hnone
      subst hnil
      exact ⟨rest, ⟨fun tree htree => hforest.holds tree (List.mem_cons_of_mem _ htree),
        hforest.nodup, hforest.made, hforest.linked, hforest.parents⟩, rfl⟩
  | pick _ ih =>
      obtain ⟨trees, hforest, hheld⟩ := ih
      obtain ⟨first, others, rfl, rfl, hothers⟩ := List.map_eq_append_iff.1 hheld.symm
      obtain ⟨one, last, rfl, rfl, rfl⟩ := List.map_eq_cons_iff.1 hothers
      refine ⟨one :: (first ++ last), hforest.perm List.perm_middle, ?_⟩
      rw [List.map_cons, List.map_append]
  | create _ node text made ih =>
      obtain ⟨trees, hforest, rfl⟩ := ih
      exact ⟨trees, hforest.create node text made, rfl⟩
  | weigh _ dom root _ unlinked ih =>
      obtain ⟨trees, hforest, rfl⟩ := ih
      exact ⟨trees, hforest.weigh dom root unlinked, rfl⟩
  | link _ made unlinked ih =>
      obtain ⟨trees, hforest, rfl⟩ := ih
      obtain ⟨hdone, hnew, hold⟩ := hforest.link made unlinked
      refine ⟨_, hdone, ?_⟩
      rw [List.map_cons]
      congr 1
      · rw [shown, inorder_node, inorder_nil, List.nil_append, List.map_singleton, hnew]
        rfl
      · apply List.map_congr_left
        intro tree htree
        rw [shown, shown]
        congr 1
        apply List.map_congr_left
        intro link hlink
        exact (hold link (mem_allLinks htree hlink)).symm
  | adopt _ entry root ih =>
      obtain ⟨trees, hforest, rfl⟩ := ih
      exact ⟨trees, hforest.setEntry rfl (hforest.parents entry) (Or.inl rfl), rfl⟩
  | edit _ entry text ih =>
      obtain ⟨trees, hforest, rfl⟩ := ih
      exact ⟨trees, hforest.setEntry rfl (hforest.parents entry) (Or.inl rfl), rfl⟩
  | split _ done ih =>
      obtain ⟨trees, hforest, hheld⟩ := ih
      obtain ⟨tree, rest, rfl, hshown, rfl⟩ := List.map_eq_cons_iff.1 hheld.symm
      obtain ⟨rfl, rfl⟩ := Prod.mk.inj hshown
      obtain ⟨_, first, second, hsplit, hdone, htake, hdrop, hentry⟩ := hforest.split _
      obtain ⟨rfl, rfl, rfl⟩ := Option.some.inj (hsplit.symm.trans done)
      refine ⟨first :: second :: rest, hdone, ?_⟩
      rw [List.map_cons, List.map_cons, List.map_congr_left fun tree _ => shown_of_entry hentry tree,
        shown_of_entry hentry, shown_of_entry hentry, shown, shown, htake, hdrop, List.map_take,
        List.map_drop]
  | merge _ done ih =>
      obtain ⟨trees, hforest, hheld⟩ := ih
      obtain ⟨first, others, rfl, hshown, hothers⟩ := List.map_eq_cons_iff.1 hheld.symm
      obtain ⟨second, rest, rfl, hshown', rfl⟩ := List.map_eq_cons_iff.1 hothers
      obtain ⟨rfl, rfl⟩ := Prod.mk.inj hshown
      obtain ⟨rfl, rfl⟩ := Prod.mk.inj hshown'
      obtain ⟨_, tree, hmerged, hdone, hinorder, hentry⟩ := hforest.merge
      obtain ⟨rfl, rfl⟩ := Option.some.inj (hmerged.symm.trans done)
      refine ⟨tree :: rest, hdone, ?_⟩
      rw [List.map_cons, List.map_congr_left fun tree _ => shown_of_entry hentry tree,
        shown_of_entry hentry, shown, hinorder, List.map_append]
  | detach _ ih =>
      obtain ⟨trees, hforest, hheld⟩ := ih
      obtain ⟨tree, rest, rfl, hshown, rfl⟩ := List.map_eq_cons_iff.1 hheld.symm
      exact ⟨rest, hforest.detach (Prod.mk.inj hshown).2, rfl⟩
  | refresh _ dom root made done ih =>
      obtain ⟨trees, hforest, rfl⟩ := ih
      obtain ⟨_, hrefreshed, hdone, hkeeps⟩ := hforest.refresh dom root made
      obtain rfl := Option.some.inj (hrefreshed.symm.trans done)
      exact ⟨trees, hdone, (List.map_congr_left fun tree _ =>
        shown_of_entry hkeeps.entry tree).symm⟩

end Pmbah.Browser.RichTextIndex
