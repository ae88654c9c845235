import Mathlib.Logic.Function.Basic
import Pmbah.Browser.RichWeight

/-!
# The rich text index

An entry for every node of the editable text.  The entries below one node are held by links,
which make up a treap: each link caches how many links stand in its subtree and what their
entries weigh together, and points back to its parent.

Entries and links are objects that are changed in place; they are named by numbers here, and
loops over their pointers end within as many turns as there are objects.
-/

namespace Pmbah.Browser

open Js Library

namespace RichTextIndex

structure Entry where
  node : Nat
  parent : Option Nat
  link : Option Nat
  children : Option Nat
  text : Option NumericTextIndex
  weight : RichWeight

structure Link where
  entry : Nat
  left : Option Nat
  right : Option Nat
  parent : Option Nat
  size : Nat
  priority : Nat
  weight : RichWeight

/-- The objects made so far are those below the counts. -/
structure Heap where
  entries : Nat → Entry
  links : Nat → Link
  entryCount : Nat
  linkCount : Nat
  seed : UInt32

namespace Heap

def setEntry (heap : Heap) (entry : Nat) (value : Entry) : Heap :=
  { heap with entries := Function.update heap.entries entry value }

def setLink (heap : Heap) (link : Nat) (value : Link) : Heap :=
  { heap with links := Function.update heap.links link value }

/-- `node.parent = parent`, of a node that is not `null`. -/
def setParent (heap : Heap) (node parent : Option Nat) : Heap :=
  match node with
  | none => heap
  | some node => heap.setLink node { heap.links node with parent }

end Heap

def size (heap : Heap) (node : Option Nat) : Nat := node.elim 0 fun node => (heap.links node).size

/-- The empty weight is the monoid's one. -/
def weight (heap : Heap) (node : Option Nat) : RichWeight :=
  node.elim 1 fun node => (heap.links node).weight

def update (heap : Heap) (node : Nat) : Heap :=
  let link := heap.links node
  let heap := heap.setLink node { link with
    size := 1 + size heap link.left + size heap link.right
    weight := weight heap link.left * (heap.entries link.entry).weight * weight heap link.right }
  (heap.setParent link.left (some node)).setParent link.right (some node)

def mergeWithin : Nat → Heap → Option Nat → Option Nat → Option (Heap × Option Nat)
  | 0, _, _, _ => none
  | _ + 1, heap, none, b => some (heap.setParent b none, b)
  | _ + 1, heap, some a, none => some (heap.setParent (some a) none, some a)
  | turns + 1, heap, some a, some b =>
      if (heap.links a).priority < (heap.links b).priority then do
        let (heap, right) ← mergeWithin turns heap (heap.links a).right (some b)
        let heap := heap.setLink a { heap.links a with right }
        some ((update heap a).setParent (some a) none, some a)
      else do
        let (heap, left) ← mergeWithin turns heap (some a) (heap.links b).left
        let heap := heap.setLink b { heap.links b with left }
        some ((update heap b).setParent (some b) none, some b)

def merge (heap : Heap) (a b : Option Nat) : Option (Heap × Option Nat) :=
  mergeWithin (heap.linkCount + 1) heap a b

def splitWithin : Nat → Heap → Option Nat → Nat → Option (Heap × Option Nat × Option Nat)
  | 0, _, _, _ => none
  | _ + 1, heap, none, _ => some (heap, none, none)
  | turns + 1, heap, some node, count =>
      let before := size heap (heap.links node).left
      if count ≤ before then do
        let (heap, a, b) ← splitWithin turns heap (heap.links node).left count
        let heap := heap.setLink node { heap.links node with left := b }
        some ((update heap node).setParent (some node) none, a, some node)
      else do
        let (heap, a, b) ← splitWithin turns heap (heap.links node).right (count - before - 1)
        let heap := heap.setLink node { heap.links node with right := a }
        some ((update heap node).setParent (some node) none, some node, b)

def split (heap : Heap) (node : Option Nat) (count : Nat) :
    Option (Heap × Option Nat × Option Nat) :=
  splitWithin (heap.linkCount + 1) heap node count

/-- The loop of `rank`, which climbs to the root. -/
def rankWithin : Nat → Heap → Nat → Nat → Option Nat
  | 0, _, _, _ => none
  | turns + 1, heap, node, result =>
      match (heap.links node).parent with
      | none => some result
      | some parent =>
          let passed :=
            if (heap.links parent).right = some node then size heap (heap.links parent).left + 1
            else 0
          rankWithin turns heap parent (result + passed)

def rank (heap : Heap) (node : Nat) : Option Nat :=
  rankWithin (heap.linkCount + 1) heap node (size heap (heap.links node).left)

def prefixWithin : Nat → Heap → Option Nat → Nat → Option RichWeight
  | 0, _, _, _ => none
  | _ + 1, _, none, _ => some 1
  | turns + 1, heap, some node, count =>
      if count = 0 then some 1
      else if size heap (some node) ≤ count then some (heap.links node).weight
      else
        let link := heap.links node
        let left := size heap link.left
        if count ≤ left then prefixWithin turns heap link.left count
        else do
          let rest ← prefixWithin turns heap link.right (count - left - 1)
          some (weight heap link.left * (heap.entries link.entry).weight * rest)

/-- `prefix`. -/
def prefixWeight (heap : Heap) (node : Option Nat) (count : Nat) : Option RichWeight :=
  prefixWithin (heap.linkCount + 1) heap node count

def suffixWithin : Nat → Heap → Option Nat → Nat → Option (RichWeight × RichWeight)
  | 0, _, _, _ => none
  | _ + 1, _, none, _ => some (1, 1)
  | turns + 1, heap, some node, start =>
      let link := heap.links node
      let left := size heap link.left
      if start ≤ left then do
        let (a, b) ← suffixWithin turns heap link.left start
        some (a, b * (heap.entries link.entry).weight * weight heap link.right)
      else do
        let (a, b) ← suffixWithin turns heap link.right (start - left - 1)
        some (weight heap link.left * (heap.entries link.entry).weight * a, b)

/-- `#suffixWeight`, which returns what stands before the place too. -/
def suffixWeight (heap : Heap) (node : Option Nat) (start : Nat) :
    Option (RichWeight × RichWeight) :=
  suffixWithin (heap.linkCount + 1) heap node start

/-! ## Entries -/

/-- `#link`. -/
def link (heap : Heap) (entry : Nat) : Heap × Nat :=
  let seed := NumericTextIndex.nextSeed heap.seed
  let name := heap.linkCount
  let made : Link :=
    { entry, left := none, right := none, parent := none, size := 1, priority := seed.toNat
      weight := (heap.entries entry).weight }
  ({ (heap.setLink name made).setEntry entry { heap.entries entry with link := some name } with
    linkCount := name + 1
    seed }, name)

/-- The entry that `#build` begins with. -/
def create (heap : Heap) (node : Nat) (parent : Option Nat) (text : Option NumericTextIndex) :
    Heap × Nat :=
  let name := heap.entryCount
  ({ heap.setEntry name
      { node, parent, link := none, children := none, text, weight := 1 } with
    entryCount := name + 1 }, name)

/-- `#setWeight`; `dom` has the nodes as they are, `root` is the node of `#root` once there
is one. -/
def setWeight (dom : Nat → DomNode) (root : Option Nat) (heap : Heap) (entry : Nat) : Heap :=
  let found := heap.entries entry
  let isRoot := root == some found.node
  let children := weight heap found.children
  heap.setEntry entry { found with
    weight :=
      ⟨weightOf (dom found.node) found.text isRoot found.parent.isSome children.weight,
        Weight.legal_weightOf ..⟩ }

/-- The loop that brings the links above a changed entry up to date. -/
def updateWithin : Nat → Heap → Option Nat → Option Heap
  | _, heap, none => some heap
  | 0, _, some _ => none
  | turns + 1, heap, some link =>
      let heap := update heap link
      updateWithin turns heap (heap.links link).parent

/-- One turn of the loop of `#refresh`. -/
def reweigh (dom : Nat → DomNode) (root : Option Nat) (heap : Heap) (current : Nat) :
    Option Heap :=
  let heap := setWeight dom root heap current
  updateWithin (heap.linkCount + 1) heap (heap.entries current).link

def refreshWithin (dom : Nat → DomNode) (root : Option Nat) :
    Nat → Heap → Option Nat → Option Heap
  | _, heap, none => some heap
  | 0, _, some _ => none
  | turns + 1, heap, some current => do
      let heap ← reweigh dom root heap current
      refreshWithin dom root turns heap (heap.entries current).parent

/-- `#refresh`. -/
def refresh (dom : Nat → DomNode) (root : Option Nat) (heap : Heap) (entry : Nat) : Option Heap :=
  refreshWithin dom root (heap.entryCount + 1) heap (some entry)

/-- Before anything is indexed. -/
def empty : Heap where
  entries := fun _ =>
    { node := 0, parent := none, link := none, children := none, text := none, weight := 1 }
  links := fun _ =>
    { entry := 0, left := none, right := none, parent := none, size := 0, priority := 0
      weight := 1 }
  entryCount := 0
  linkCount := 0
  seed := 0x12345678

end RichTextIndex

end Pmbah.Browser
