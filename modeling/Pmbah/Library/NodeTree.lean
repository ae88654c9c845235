import Mathlib.Data.List.Nodup

/-!
# Trees of named nodes

A binary tree whose nodes are names, with the place that a subtree has in a whole: what is
above it, and what stands before and after it in order.
-/

namespace Pmbah.Library

variable {N : Type}

inductive NodeTree (N : Type) where
  | nil
  | node (name : N) (left right : NodeTree N)

namespace NodeTree

def root : NodeTree N → Option N
  | nil => none
  | node name _ _ => some name

def inorder : NodeTree N → List N
  | nil => []
  | node name left right => left.inorder ++ name :: right.inorder

@[simp] theorem root_nil : (nil : NodeTree N).root = none := rfl

@[simp] theorem root_node (name : N) (left right : NodeTree N) :
    (node name left right).root = some name := rfl

@[simp] theorem inorder_nil : (nil : NodeTree N).inorder = [] := rfl

@[simp] theorem inorder_node (name : N) (left right : NodeTree N) :
    (node name left right).inorder = left.inorder ++ name :: right.inorder := rfl

theorem mem_of_root {tree : NodeTree N} {name : N} (h : tree.root = some name) :
    name ∈ tree.inorder := by
  cases tree with
  | nil => cases h
  | node other left right =>
      cases h
      simp

/-- What the names of a tree with distinct names say of its parts. -/
theorem nodup_node {name : N} {left right : NodeTree N} :
    (node name left right).inorder.Nodup ↔
      left.inorder.Nodup ∧ right.inorder.Nodup ∧ name ∉ left.inorder ∧ name ∉ right.inorder ∧
        ∀ other ∈ left.inorder, other ∉ right.inorder := by
  rw [inorder_node, List.nodup_append, List.nodup_cons]
  constructor
  · rintro ⟨hleft, ⟨hname, hright⟩, hdisjoint⟩
    refine ⟨hleft, hright, ?_, hname, ?_⟩
    · intro hmem
      exact hdisjoint name hmem name (List.mem_cons_self ..) rfl
    · intro other hother hmem
      exact hdisjoint other hother other (List.mem_cons_of_mem _ hmem) rfl
  · rintro ⟨hleft, hright, hnameLeft, hnameRight, hdisjoint⟩
    refine ⟨hleft, ⟨hnameRight, hright⟩, ?_⟩
    intro other hother other' hother' hsame
    subst hsame
    rcases List.mem_cons.1 hother' with rfl | hmem
    · exact hnameLeft hother
    · exact hdisjoint other hother hmem

/-! ## Places -/

/-- What is around a subtree, from its parent upwards. -/
inductive Place (N : Type) where
  | top
  | left (name : N) (sibling : NodeTree N) (up : Place N)
  | right (name : N) (sibling : NodeTree N) (up : Place N)

namespace Place

/-- The whole with a subtree at the place. -/
def plug : Place N → NodeTree N → NodeTree N
  | top, tree => tree
  | left name sibling up, tree => up.plug (node name tree sibling)
  | right name sibling up, tree => up.plug (node name sibling tree)

def parent : Place N → Option N
  | top => none
  | left name _ _ => some name
  | right name _ _ => some name

def depth : Place N → Nat
  | top => 0
  | left _ _ up => up.depth + 1
  | right _ _ up => up.depth + 1

/-- The names before the place. -/
def before : Place N → List N
  | top => []
  | left _ _ up => up.before
  | right name sibling up => up.before ++ (sibling.inorder ++ [name])

/-- The names after the place. -/
def after : Place N → List N
  | top => []
  | left name sibling up => name :: sibling.inorder ++ up.after
  | right _ _ up => up.after

theorem inorder_plug (place : Place N) (tree : NodeTree N) :
    (place.plug tree).inorder = place.before ++ (tree.inorder ++ place.after) := by
  induction place generalizing tree with
  | top => simp [plug, before, after]
  | left name sibling up ih => rw [plug, ih]; simp [before, after]
  | right name sibling up ih => rw [plug, ih]; simp [before, after]

theorem depth_le (place : Place N) (tree : NodeTree N) :
    place.depth + tree.inorder.length ≤ (place.plug tree).inorder.length := by
  induction place generalizing tree with
  | top => simp [plug, depth]
  | left name sibling up ih =>
      have hup := ih (node name tree sibling)
      rw [inorder_node, List.length_append, List.length_cons] at hup
      rw [plug, depth]
      omega
  | right name sibling up ih =>
      have hup := ih (node name sibling tree)
      rw [inorder_node, List.length_append, List.length_cons] at hup
      rw [plug, depth]
      omega

/-- A subtree of a tree with distinct names has distinct names. -/
theorem nodup_of_plug {place : Place N} {tree : NodeTree N}
    (h : (place.plug tree).inorder.Nodup) : tree.inorder.Nodup := by
  rw [inorder_plug] at h
  exact h.of_append_right.of_append_left

/-- Nothing around a place is below it. -/
theorem not_mem_around {place : Place N} {tree : NodeTree N}
    (h : (place.plug tree).inorder.Nodup) {name : N} (hname : name ∈ tree.inorder) :
    ¬ (name ∈ place.before ∨ name ∈ place.after) := by
  rw [inorder_plug, List.nodup_append, List.nodup_append] at h
  rintro (hbefore | hafter)
  · exact h.2.2 name hbefore name (List.mem_append_left _ hname) rfl
  · exact h.2.1.2.2 name hname name hafter rfl

end Place

/-- Every name of a tree has its place. -/
theorem exists_place {tree : NodeTree N} {name : N} (h : name ∈ tree.inorder) :
    ∃ place left right, tree = Place.plug place (node name left right) := by
  have hat : ∀ (tree : NodeTree N) (up : Place N), name ∈ tree.inorder →
      ∃ place left right, up.plug tree = Place.plug place (node name left right) := by
    intro tree
    induction tree with
    | nil => intro up hmem; cases hmem
    | node other left right ihleft ihright =>
        intro up hmem
        rw [inorder_node, List.mem_append, List.mem_cons] at hmem
        rcases hmem with hmem | rfl | hmem
        · exact ihleft (.left other right up) hmem
        · exact ⟨up, left, right, rfl⟩
        · exact ihright (.right other left up) hmem
  exact hat tree .top h

end NodeTree

end Pmbah.Library
