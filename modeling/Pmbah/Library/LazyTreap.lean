import Mathlib.Algebra.Order.Group.Defs
import Mathlib.Data.List.Pairwise

/-!
# Treaps with lazy shifts

A tree of keys in which all keys of a subtree can be shifted at once: a node keeps
the shift that it still owes its two subtrees.  Priorities shape the tree and mean
nothing for the keys, which are read in order.
-/

namespace Pmbah.Library

variable {K P : Type}

/-- `owed` is a shift of the two subtrees that has not been passed on to them. -/
inductive LazyTreap (K P : Type) where
  | nil
  | node (offset : K) (priority : P) (count : Nat) (owed : K) (left right : LazyTreap K P)

namespace LazyTreap

def count : LazyTreap K P → Nat
  | nil => 0
  | node _ _ count _ _ _ => count

def size : LazyTreap K P → Nat
  | nil => 0
  | node _ _ _ _ left right => 1 + left.size + right.size

/-- Every count is that of the nodes below. -/
def Counted : LazyTreap K P → Prop
  | nil => True
  | node _ _ count _ left right =>
      count = 1 + left.count + right.count ∧ left.Counted ∧ right.Counted

instance decidableCounted : (tree : LazyTreap K P) → Decidable tree.Counted
  | nil => .isTrue trivial
  | node _ _ _ _ left right =>
      have := decidableCounted left
      have := decidableCounted right
      inferInstanceAs (Decidable (_ ∧ _ ∧ _))

/-- A node that owes nothing, with its count brought up to date. -/
def update [Zero K] (offset : K) (priority : P) (left right : LazyTreap K P) : LazyTreap K P :=
  node offset priority (1 + left.count + right.count) 0 left right

def shift [Add K] : LazyTreap K P → K → LazyTreap K P
  | nil, _ => nil
  | node offset priority count owed left right, delta =>
      node (offset + delta) priority count (owed + delta) left right

/-- The keys in order, with all that is owed to them. -/
def offsets [Add K] : LazyTreap K P → List K
  | nil => []
  | node offset _ _ owed left right =>
      left.offsets.map (· + owed) ++ offset :: right.offsets.map (· + owed)

def Ordered [Add K] [LT K] (tree : LazyTreap K P) : Prop := tree.offsets.Pairwise (· < ·)

@[simp] theorem size_shift [Add K] (tree : LazyTreap K P) (delta : K) :
    (tree.shift delta).size = tree.size := by
  cases tree <;> rfl

@[simp] theorem count_shift [Add K] (tree : LazyTreap K P) (delta : K) :
    (tree.shift delta).count = tree.count := by
  cases tree <;> rfl

@[simp] theorem counted_shift [Add K] {tree : LazyTreap K P} {delta : K} :
    (tree.shift delta).Counted ↔ tree.Counted := by
  cases tree <;> rfl

theorem Counted.update [Zero K] {left right : LazyTreap K P} (hleft : left.Counted)
    (hright : right.Counted) (offset : K) (priority : P) :
    (update offset priority left right).Counted :=
  ⟨rfl, hleft, hright⟩

section

variable [AddCommGroup K] [LinearOrder K]

/-- The keys below a bound, and the others. -/
def split : LazyTreap K P → K → LazyTreap K P × LazyTreap K P
  | nil, _ => (nil, nil)
  | node offset priority _ owed left right, bound =>
      if offset < bound then
        let (low, high) := split (right.shift owed) bound
        (update offset priority (left.shift owed) low, high)
      else
        let (low, high) := split (left.shift owed) bound
        (low, update offset priority high (right.shift owed))
termination_by tree => tree.size
decreasing_by
  · rw [size_shift, size]
    omega
  · rw [size_shift, size]
    omega

/-- All keys of the first tree before all those of the second. -/
def merge [LinearOrder P] : LazyTreap K P → LazyTreap K P → LazyTreap K P
  | nil, right => right
  | left, nil => left
  | node offset priority count owed left right, node offset' priority' count' owed' left' right' =>
      if priority < priority' then
        update offset priority (left.shift owed)
          (merge (right.shift owed) (node offset' priority' count' owed' left' right'))
      else
        update offset' priority'
          (merge (node offset priority count owed left right) (left'.shift owed'))
          (right'.shift owed')
termination_by left right => left.size + right.size
decreasing_by
  · simp only [size_shift, size]
    omega
  · simp only [size_shift, size]
    omega

/-- How many keys are below a bound; what is owed on the way is passed on. -/
def preceding : LazyTreap K P → K → Nat × LazyTreap K P
  | nil, _ => (0, nil)
  | node offset priority count owed left right, bound =>
      if offset < bound then
        let (below, right) := preceding (right.shift owed) bound
        (left.count + 1 + below, node offset priority count 0 (left.shift owed) right)
      else
        let (below, left) := preceding (left.shift owed) bound
        (below, node offset priority count 0 left (right.shift owed))
termination_by tree => tree.size
decreasing_by
  · rw [size_shift, size]
    omega
  · rw [size_shift, size]
    omega

end

/-! ## The keys in order -/

section

variable [AddCommGroup K]

@[simp] theorem offsets_nil : (nil : LazyTreap K P).offsets = [] := rfl

@[simp] theorem offsets_shift (tree : LazyTreap K P) (delta : K) :
    (tree.shift delta).offsets = tree.offsets.map (· + delta) := by
  cases tree with
  | nil => rfl
  | node offset priority count owed left right =>
      have hshift : (fun key : K => key + (owed + delta)) = (· + delta) ∘ (· + owed) := by
        funext key
        exact (add_assoc key owed delta).symm
      simp only [shift, offsets, List.map_append, List.map_cons, List.map_map, hshift]

@[simp] theorem offsets_settled (offset : K) (priority : P) (count : Nat)
    (left right : LazyTreap K P) :
    (node offset priority count 0 left right).offsets =
      left.offsets ++ offset :: right.offsets := by
  simp [offsets]

@[simp] theorem offsets_update (offset : K) (priority : P) (left right : LazyTreap K P) :
    (update offset priority left right).offsets = left.offsets ++ offset :: right.offsets :=
  offsets_settled _ _ _ _ _

/-- Passing on what is owed changes no key. -/
theorem offsets_node (offset : K) (priority : P) (count : Nat) (owed : K)
    (left right : LazyTreap K P) :
    (node offset priority count owed left right).offsets =
      (left.shift owed).offsets ++ offset :: (right.shift owed).offsets := by
  rw [offsets_shift, offsets_shift, offsets]

theorem Counted.count_eq {tree : LazyTreap K P} (h : tree.Counted) :
    tree.count = tree.offsets.length := by
  induction tree with
  | nil => rfl
  | node offset priority count owed left right ihleft ihright =>
      obtain ⟨hcount, hleft, hright⟩ := h
      have hbelow := ihleft hleft
      have habove := ihright hright
      simp only [LazyTreap.count, offsets, List.length_append, List.length_map, List.length_cons]
      omega

end

section

variable [AddCommGroup K] [LinearOrder P]

@[simp] theorem offsets_merge (left right : LazyTreap K P) :
    (merge left right).offsets = left.offsets ++ right.offsets := by
  induction left, right using merge.induct with
  | case1 right => simp [merge]
  | case2 left hleft =>
      cases left with
      | nil => exact absurd rfl hleft
      | node => simp [merge]
  | case3 offset priority count owed left right offset' priority' count' owed' left' right' hless ih =>
      rw [merge, if_pos hless, offsets_update, ih, offsets_node offset, List.append_assoc,
        List.cons_append]
  | case4 offset priority count owed left right offset' priority' count' owed' left' right' hless ih =>
      rw [merge, if_neg hless, offsets_update, ih, List.append_assoc, ← offsets_node]

theorem Counted.merge {left right : LazyTreap K P} (hleft : left.Counted)
    (hright : right.Counted) : (merge left right).Counted := by
  induction left, right using merge.induct with
  | case1 right => simpa [LazyTreap.merge] using hright
  | case2 left hnil =>
      cases left with
      | nil => exact absurd rfl hnil
      | node => simpa [LazyTreap.merge] using hleft
  | case3 offset priority count owed left right offset' priority' count' owed' left' right' hless ih =>
      rw [LazyTreap.merge, if_pos hless]
      exact .update (counted_shift.2 hleft.2.1) (ih (counted_shift.2 hleft.2.2) hright) _ _
  | case4 offset priority count owed left right offset' priority' count' owed' left' right' hless ih =>
      rw [LazyTreap.merge, if_neg hless]
      exact .update (ih hleft (counted_shift.2 hright.2.1)) (counted_shift.2 hright.2.2) _ _

end

section

variable [AddCommGroup K] [LinearOrder K]

/-- A split loses no key. -/
theorem offsets_split (tree : LazyTreap K P) (bound : K) :
    (tree.split bound).1.offsets ++ (tree.split bound).2.offsets = tree.offsets := by
  induction tree, bound using split.induct with
  | case1 bound => simp [split]
  | case2 offset priority count owed left right bound hless _ _ _ ih =>
      rw [split, if_pos hless, offsets_node]
      simp only [offsets_update, List.append_assoc, List.cons_append, ih]
  | case3 offset priority count owed left right bound hless _ _ _ ih =>
      rw [split, if_neg hless, offsets_node]
      simp only [offsets_update, ← List.append_assoc, ih]

theorem Counted.split {tree : LazyTreap K P} (h : tree.Counted) (bound : K) :
    (tree.split bound).1.Counted ∧ (tree.split bound).2.Counted := by
  induction tree, bound using split.induct with
  | case1 bound =>
      rw [LazyTreap.split]
      exact ⟨h, h⟩
  | case2 offset priority count owed left right bound hless _ _ _ ih =>
      obtain ⟨hlow, hhigh⟩ := ih (counted_shift.2 h.2.2)
      rw [LazyTreap.split, if_pos hless]
      exact ⟨.update (counted_shift.2 h.2.1) hlow _ _, hhigh⟩
  | case3 offset priority count owed left right bound hless _ _ _ ih =>
      obtain ⟨hlow, hhigh⟩ := ih (counted_shift.2 h.2.1)
      rw [LazyTreap.split, if_neg hless]
      exact ⟨hlow, .update hhigh (counted_shift.2 h.2.2) _ _⟩

/-- The subtrees of an ordered tree, and where their keys lie. -/
theorem ordered_node {offset : K} {priority : P} {count : Nat} {owed : K}
    {left right : LazyTreap K P} :
    (node offset priority count owed left right).Ordered ↔
      (left.shift owed).Ordered ∧ (right.shift owed).Ordered ∧
        (∀ key ∈ (left.shift owed).offsets, key < offset) ∧
        ∀ key ∈ (right.shift owed).offsets, offset < key := by
  rw [Ordered, offsets_node, List.pairwise_append, List.pairwise_cons]
  constructor
  · intro h
    refine ⟨h.1, h.2.1.2, ?_, h.2.1.1⟩
    intro key hkey
    exact h.2.2 key hkey offset (List.mem_cons_self ..)
  · intro h
    refine ⟨h.1, ⟨h.2.2.2, h.2.1⟩, ?_⟩
    intro key hkey other hother
    rcases List.mem_cons.1 hother with rfl | hother
    · exact h.2.2.1 key hkey
    · exact (h.2.2.1 key hkey).trans (h.2.2.2 other hother)

/-- The first part of an ordered tree has the keys below the bound. -/
theorem Ordered.split {tree : LazyTreap K P} (h : tree.Ordered) (bound : K) :
    (∀ key ∈ (tree.split bound).1.offsets, key < bound) ∧
      ∀ key ∈ (tree.split bound).2.offsets, bound ≤ key := by
  induction tree, bound using split.induct with
  | case1 bound => simp [LazyTreap.split]
  | case2 offset priority count owed left right bound hless _ _ _ ih =>
      obtain ⟨-, hright, hbelow, -⟩ := ordered_node.1 h
      obtain ⟨hlow, hhigh⟩ := ih hright
      rw [LazyTreap.split, if_pos hless]
      refine ⟨?_, hhigh⟩
      intro key hkey
      rw [offsets_update, List.mem_append, List.mem_cons] at hkey
      rcases hkey with hkey | rfl | hkey
      · exact (hbelow key hkey).trans hless
      · exact hless
      · exact hlow key hkey
  | case3 offset priority count owed left right bound hless _ _ _ ih =>
      obtain ⟨hleft, -, -, habove⟩ := ordered_node.1 h
      obtain ⟨hlow, hhigh⟩ := ih hleft
      rw [LazyTreap.split, if_neg hless]
      refine ⟨hlow, ?_⟩
      intro key hkey
      rw [offsets_update, List.mem_append, List.mem_cons] at hkey
      rcases hkey with hkey | rfl | hkey
      · exact hhigh key hkey
      · exact not_lt.1 hless
      · exact (not_lt.1 hless).trans (habove key hkey).le

theorem offsets_split_fst {tree : LazyTreap K P} (h : tree.Ordered) (bound : K) :
    (tree.split bound).1.offsets = tree.offsets.filter (· < bound) := by
  have hlow : (tree.split bound).1.offsets.filter (· < bound) = (tree.split bound).1.offsets := by
    rw [List.filter_eq_self]
    intro key hkey
    exact decide_eq_true ((h.split bound).1 key hkey)
  have hhigh : (tree.split bound).2.offsets.filter (· < bound) = [] := by
    rw [List.filter_eq_nil_iff]
    intro key hkey
    rw [decide_eq_true_eq]
    exact not_lt.2 ((h.split bound).2 key hkey)
  rw [← offsets_split tree bound, List.filter_append, hlow, hhigh, List.append_nil]

theorem offsets_split_snd {tree : LazyTreap K P} (h : tree.Ordered) (bound : K) :
    (tree.split bound).2.offsets = tree.offsets.filter (bound ≤ ·) := by
  have hlow : (tree.split bound).1.offsets.filter (bound ≤ ·) = [] := by
    rw [List.filter_eq_nil_iff]
    intro key hkey
    rw [decide_eq_true_eq]
    exact not_le.2 ((h.split bound).1 key hkey)
  have hhigh : (tree.split bound).2.offsets.filter (bound ≤ ·) = (tree.split bound).2.offsets := by
    rw [List.filter_eq_self]
    intro key hkey
    exact decide_eq_true ((h.split bound).2 key hkey)
  rw [← offsets_split tree bound, List.filter_append, hlow, hhigh, List.nil_append]

theorem Ordered.split_ordered {tree : LazyTreap K P} (h : tree.Ordered) (bound : K) :
    (tree.split bound).1.Ordered ∧ (tree.split bound).2.Ordered := by
  rw [Ordered, ← offsets_split tree bound, List.pairwise_append] at h
  exact ⟨h.1, h.2.1⟩

/-- Counting keys changes none of them. -/
theorem offsets_preceding (tree : LazyTreap K P) (bound : K) :
    (tree.preceding bound).2.offsets = tree.offsets := by
  induction tree, bound using preceding.induct with
  | case1 bound => simp [preceding]
  | case2 offset priority count owed left right bound hless _ _ _ ih =>
      rw [preceding, if_pos hless, offsets_node offset priority count owed]
      simp only [offsets_settled, ih]
  | case3 offset priority count owed left right bound hless _ _ _ ih =>
      rw [preceding, if_neg hless, offsets_node offset priority count owed]
      simp only [offsets_settled, ih]

@[simp] theorem count_preceding (tree : LazyTreap K P) (bound : K) :
    (tree.preceding bound).2.count = tree.count := by
  cases tree with
  | nil => simp [preceding]
  | node offset priority count owed left right =>
      rw [preceding]
      split <;> rfl

theorem Counted.preceding {tree : LazyTreap K P} (h : tree.Counted) (bound : K) :
    (tree.preceding bound).2.Counted := by
  induction tree, bound using preceding.induct with
  | case1 bound =>
      rw [LazyTreap.preceding]
      exact h
  | case2 offset priority count owed left right bound hless _ _ _ ih =>
      have hright := ih (counted_shift.2 h.2.2)
      have hsame := hright.count_eq
      rw [offsets_preceding, ← (counted_shift.2 h.2.2).count_eq, count_shift] at hsame
      rw [LazyTreap.preceding, if_pos hless]
      refine ⟨?_, counted_shift.2 h.2.1, hright⟩
      rw [hsame, count_shift]
      exact h.1
  | case3 offset priority count owed left right bound hless _ _ _ ih =>
      have hleft := ih (counted_shift.2 h.2.1)
      have hsame := hleft.count_eq
      rw [offsets_preceding, ← (counted_shift.2 h.2.1).count_eq, count_shift] at hsame
      rw [LazyTreap.preceding, if_neg hless]
      refine ⟨?_, hleft, counted_shift.2 h.2.2⟩
      rw [hsame, count_shift]
      exact h.1

theorem preceding_eq {tree : LazyTreap K P} (hcounted : tree.Counted) (h : tree.Ordered)
    (bound : K) : (tree.preceding bound).1 = tree.offsets.countP (· < bound) := by
  induction tree, bound using preceding.induct with
  | case1 bound => simp [preceding]
  | case2 offset priority count owed left right bound hless _ _ _ ih =>
      obtain ⟨-, hright, hbelow, -⟩ := ordered_node.1 h
      have hall : (left.shift owed).offsets.countP (· < bound) = left.count := by
        rw [← count_shift left owed, (counted_shift.2 hcounted.2.1).count_eq,
          List.countP_eq_length]
        intro key hkey
        exact decide_eq_true ((hbelow key hkey).trans hless)
      rw [preceding, if_pos hless, offsets_node, List.countP_append,
        List.countP_cons_of_pos (by simpa using hless), hall]
      simp only [ih (counted_shift.2 hcounted.2.2) hright]
      omega
  | case3 offset priority count owed left right bound hless _ _ _ ih =>
      obtain ⟨hleft, -, -, habove⟩ := ordered_node.1 h
      have hnone : (right.shift owed).offsets.countP (· < bound) = 0 := by
        rw [List.countP_eq_zero]
        intro key hkey
        have hle := (not_lt.1 hless).trans (habove key hkey).le
        simpa using hle
      rw [preceding, if_neg hless, offsets_node, List.countP_append,
        List.countP_cons_of_neg (by simpa using hless), hnone]
      simp only [ih (counted_shift.2 hcounted.2.1) hleft]
      omega

end

end LazyTreap

end Pmbah.Library
