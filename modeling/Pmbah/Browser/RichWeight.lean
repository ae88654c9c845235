import Mathlib.Algebra.BigOperators.Group.List.Basic
import Pmbah.Browser.NumericTextIndex

/-!
# Weights of rich text

The length of a run of sibling nodes depends on what stands at its ends: a line break is
withheld until a visible sibling follows, and a block adds a line between semantic
neighbours.  A weight keeps of a run what a neighbour needs to know of it.
-/

namespace Pmbah.Browser

open Js Library

structure Weight where
  length : Int
  pending : Bool
  visible : Bool
  semantic : Bool
  firstBlock : Bool
  lastBlock : Bool
  unsupported : Bool
  deriving DecidableEq, Repr

namespace Weight

def empty : Weight where
  length := 0
  pending := false
  visible := false
  semantic := false
  firstBlock := false
  lastBlock := false
  unsupported := false

/-- A trailing BR is withheld until a later visible sibling proves it is not a placeholder. -/
def combine (a b : Weight) : Weight where
  length :=
    a.length + b.length + (if a.pending && b.visible then 1 else 0) +
      (if a.semantic && b.semantic && (a.lastBlock || b.firstBlock) then 1 else 0)
  pending := if b.visible then b.pending else a.pending
  visible := a.visible || b.visible
  semantic := a.semantic || b.semantic
  firstBlock := if a.semantic then a.firstBlock else b.firstBlock
  lastBlock := if b.semantic then b.lastBlock else a.lastBlock
  unsupported := a.unsupported || b.unsupported

end Weight

/-! ## The weight of a node -/

/-- A node as far as its weight depends on it; `other` is neither a comment nor HTML. -/
inductive DomNode where
  | text
  | comment
  | element (tagName : JsString) (contenteditable : Option JsString) (hidden : Bool)
  | other

/-- `BLOCK`. -/
def isBlock (tagName : JsString) : Bool :=
  decide (tagName ∈ [js "DIV", js "P", js "LI", js "UL", js "OL", js "BLOCKQUOTE", js "PRE",
    js "H1", js "H2", js "H3", js "H4", js "H5", js "H6"])

/-- `UNSUPPORTED`. -/
def isUnsupported (tagName : JsString) : Bool :=
  decide (tagName ∈ [js "IMG", js "VIDEO", js "AUDIO", js "IFRAME", js "CANVAS", js "SVG",
    js "MATH", js "TABLE", js "INPUT", js "TEXTAREA", js "HR", js "SCRIPT", js "STYLE"])

/-- The weight that `#setWeight` gives an entry, from its node, its text and the weight of its
children; `isRoot` and `hasParent` say where it stands. -/
def weightOf (node : DomNode) (text : Option NumericTextIndex) (isRoot hasParent : Bool)
    (children : Weight) : Weight :=
  match text, node with
  | some text, _ =>
      { Weight.empty with
        length := text.length
        semantic := true
        visible := decide (0 < text.utf16Length) }
  | none, .comment => Weight.empty
  | none, .element tagName contenteditable hidden =>
      let block := isBlock tagName
      { children with
        semantic := true
        visible := true
        firstBlock := block
        lastBlock := block
        pending :=
          if tagName = js "BR" then true
          else if isRoot || block then false
          else children.pending
        unsupported :=
          children.unsupported ||
            (hasParent && (isUnsupported tagName || contenteditable == some (js "false") ||
              hidden)) }
  | none, .text => { Weight.empty with unsupported := true }
  | none, .other => { Weight.empty with unsupported := true }

/-! ## The monoid -/

namespace Weight

/-- What is withheld was seen, and only semantic nodes are blocks. -/
structure Legal (w : Weight) : Prop where
  visible_of_pending : w.pending = true → w.visible = true
  semantic_of_firstBlock : w.firstBlock = true → w.semantic = true
  semantic_of_lastBlock : w.lastBlock = true → w.semantic = true

theorem legal_empty : empty.Legal := ⟨nofun, nofun, nofun⟩

theorem Legal.combine {a b : Weight} (ha : a.Legal) (hb : b.Legal) : (combine a b).Legal where
  visible_of_pending := by
    simp only [Weight.combine, Bool.or_eq_true]
    cases hvisible : b.visible with
    | true => exact fun _ => Or.inr rfl
    | false => exact fun hpending => Or.inl (ha.visible_of_pending hpending)
  semantic_of_firstBlock := by
    simp only [Weight.combine, Bool.or_eq_true]
    cases hsemantic : a.semantic with
    | true => exact fun _ => Or.inl rfl
    | false => exact fun hblock => Or.inr (hb.semantic_of_firstBlock hblock)
  semantic_of_lastBlock := by
    simp only [Weight.combine, Bool.or_eq_true]
    cases hsemantic : b.semantic with
    | true => exact fun _ => Or.inr rfl
    | false => exact fun hblock => Or.inl (ha.semantic_of_lastBlock hblock)

theorem legal_weightOf (node : DomNode) (text : Option NumericTextIndex) (isRoot hasParent : Bool)
    (children : Weight) : (weightOf node text isRoot hasParent children).Legal := by
  cases text with
  | some text => exact ⟨nofun, nofun, nofun⟩
  | none =>
      cases node with
      | text => exact ⟨nofun, nofun, nofun⟩
      | comment => exact legal_empty
      | element tagName contenteditable hidden => exact ⟨fun _ => rfl, fun _ => rfl, fun _ => rfl⟩
      | other => exact ⟨nofun, nofun, nofun⟩

/-- What only holds together with `q` is nothing without it. -/
theorem eq_of_guarded {p q : Bool} (h : p = true → q = true) : (if q then p else false) = p := by
  cases hq : q with
  | true => rfl
  | false =>
      rw [hq] at h
      cases p with
      | false => rfl
      | true => cases h rfl

theorem Legal.empty_combine {w : Weight} (h : w.Legal) : Weight.combine empty w = w := by
  have hpending := eq_of_guarded h.visible_of_pending
  have hlast := eq_of_guarded h.semantic_of_lastBlock
  simp [Weight.combine, empty, hpending, hlast]

theorem Legal.combine_empty {w : Weight} (h : w.Legal) : Weight.combine w empty = w := by
  have hfirst := eq_of_guarded h.semantic_of_firstBlock
  simp [Weight.combine, empty, hfirst]

/-- The line break that becomes visible between two weights. -/
def withheld (a b : Weight) : Int := if a.pending && b.visible then 1 else 0

/-- The line that a block adds between two weights. -/
def boundary (a b : Weight) : Int :=
  if a.semantic && b.semantic && (a.lastBlock || b.firstBlock) then 1 else 0

theorem length_combine (a b : Weight) :
    (combine a b).length = a.length + b.length + withheld a b + boundary a b := rfl

/-- A withheld line break counts at the first visible weight to its right. -/
theorem withheld_assoc {b : Weight} (hb : b.Legal) (a c : Weight) :
    withheld a b + withheld (combine a b) c = withheld b c + withheld a (combine b c) := by
  have hbreaks : ∀ pa pb vb vc : Bool, (pb = true → vb = true) →
      ((if pa && vb then 1 else 0) + if (if vb then pb else pa) && vc then 1 else 0 : Int) =
        (if pb && vc then 1 else 0) + if pa && (vb || vc) then 1 else 0 := by decide
  exact hbreaks a.pending b.pending b.visible c.visible hb.visible_of_pending

/-- A block boundary counts between the nearest semantic weights on its two sides. -/
theorem boundary_assoc (a b c : Weight) :
    boundary a b + boundary (combine a b) c = boundary b c + boundary a (combine b c) := by
  have hblocks : ∀ sa sb sc la fb lb fc : Bool,
      ((if sa && sb && (la || fb) then 1 else 0) +
        if (sa || sb) && sc && ((if sb then lb else la) || fc) then 1 else 0 : Int) =
      (if sb && sc && (lb || fc) then 1 else 0) +
        if sa && (sb || sc) && (la || (if sb then fb else fc)) then 1 else 0 := by decide
  exact hblocks a.semantic b.semantic c.semantic a.lastBlock b.firstBlock b.lastBlock c.firstBlock

theorem Legal.combine_assoc {b : Weight} (hb : b.Legal) (a c : Weight) :
    Weight.combine (Weight.combine a b) c = Weight.combine a (Weight.combine b c) := by
  have hlength : (Weight.combine (Weight.combine a b) c).length =
      (Weight.combine a (Weight.combine b c)).length := by
    have hwithheld := withheld_assoc hb a c
    have hboundary := boundary_assoc a b c
    simp only [length_combine]
    omega
  have hlast : ∀ p q x y z : Bool, (if p then x else if q then y else z) =
      if q || p then (if p then x else y) else z := by decide
  have hfirst : ∀ p q x y z : Bool, (if p || q then (if p then x else y) else z) =
      if p then x else if q then y else z := by decide
  exact Weight.mk.injEq .. ▸ ⟨hlength, hlast .., Bool.or_assoc .., Bool.or_assoc .., hfirst .., hlast ..,
    Bool.or_assoc ..⟩

/-- The weights that entries are given, and what they combine to. -/
inductive Produced : Weight → Prop
  | empty : Produced Weight.empty
  | set (node : DomNode) (text : Option NumericTextIndex) (isRoot hasParent : Bool)
      {children : Weight} (below : Produced children) :
      Produced (weightOf node text isRoot hasParent children)
  | combine {a b : Weight} (left : Produced a) (right : Produced b) :
      Produced (Weight.combine a b)

theorem Produced.legal {w : Weight} (h : Produced w) : w.Legal := by
  induction h with
  | empty => exact legal_empty
  | set node text isRoot hasParent _ _ => exact legal_weightOf node text isRoot hasParent _
  | combine _ _ ihleft ihright => exact ihleft.combine ihright

/-- The left fold over the weights of a run. -/
def fold (weights : List Weight) : Weight := weights.foldl combine empty

end Weight

/-- A weight that has the form of those that are given to entries. -/
structure RichWeight where
  weight : Weight
  legal : weight.Legal

namespace RichWeight

theorem ext_weight {a b : RichWeight} (h : a.weight = b.weight) : a = b := by
  cases a
  cases b
  cases h
  rfl

instance : One RichWeight := ⟨⟨Weight.empty, Weight.legal_empty⟩⟩

instance : Mul RichWeight := ⟨fun a b => ⟨Weight.combine a.weight b.weight, a.legal.combine b.legal⟩⟩

instance : Monoid RichWeight where
  mul_assoc a b c := ext_weight (b.legal.combine_assoc a.weight c.weight)
  one_mul a := ext_weight a.legal.empty_combine
  mul_one a := ext_weight a.legal.combine_empty

@[simp] theorem weight_one : (1 : RichWeight).weight = Weight.empty := rfl

@[simp] theorem weight_mul (a b : RichWeight) :
    (a * b).weight = Weight.combine a.weight b.weight := rfl

theorem weight_prod (weights : List RichWeight) :
    weights.prod.weight = Weight.fold (weights.map RichWeight.weight) := by
  have hfold : ∀ (weights : List RichWeight) (first : RichWeight),
      (first * weights.prod).weight =
        (weights.map RichWeight.weight).foldl Weight.combine first.weight := by
    intro weights
    induction weights with
    | nil => intro first; rw [List.prod_nil, mul_one]; rfl
    | cons next weights ih => intro first; rw [List.prod_cons, ← mul_assoc, ih]; rfl
  have hone := hfold weights 1
  rw [one_mul] at hone
  exact hone

end RichWeight

end Pmbah.Browser
