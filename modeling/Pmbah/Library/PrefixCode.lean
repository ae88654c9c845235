import Mathlib.Data.List.Basic
import Mathlib.Logic.Function.Basic

/-!
# Prefix codes

An encoding is a prefix code for a set of stop symbols when the encoded value
can be read off the front of any text that goes on with a stop symbol.  Fixed
keys, quoted names and decimal numbers are of this kind, and a record written
as a sequence of such parts is again uniquely readable.
-/

namespace Pmbah.Library

variable {α β : Type}

/-- The text is empty or goes on with an admissible symbol. -/
def StopsWith (stop : β → Prop) (text : List β) : Prop :=
  ∀ c ∈ text.head?, stop c

/-- A value followed by a stop is determined by the text, and so is the rest. -/
def PrefixCode (stop : β → Prop) (enc : α → List β) : Prop :=
  ∀ a b s t, StopsWith stop s → StopsWith stop t →
    enc a ++ s = enc b ++ t → a = b ∧ s = t

theorem stopsWith_nil (stop : β → Prop) : StopsWith stop [] := by
  simp [StopsWith]

theorem stopsWith_cons {stop : β → Prop} {c : β} {text : List β} (hc : stop c) :
    StopsWith stop (c :: text) := by
  simpa [StopsWith] using hc

theorem PrefixCode.injective {stop : β → Prop} {enc : α → List β}
    (henc : PrefixCode stop enc) : Function.Injective enc := by
  intro a b hab
  exact (henc a b [] [] (stopsWith_nil stop) (stopsWith_nil stop)
    (by rw [hab])).1

theorem map_injOn {f : α → β} {l k : List α}
    (hinj : ∀ a ∈ l, ∀ b ∈ k, f a = f b → a = b) (h : l.map f = k.map f) : l = k := by
  induction l generalizing k with
  | nil =>
      cases k with
      | nil => rfl
      | cons b k => simp at h
  | cons a l ih =>
      cases k with
      | nil => simp at h
      | cons b k =>
          simp only [List.map_cons, List.cons.injEq] at h
          have hab : a = b := hinj a (by simp) b (by simp) h.1
          have hlk : l = k :=
            ih (fun x hx y hy => hinj x (by simp [hx]) y (by simp [hy])) h.2
          rw [hab, hlk]

/-- Words over a body alphabet that contains no stop symbol are read up to the
first stop. -/
theorem word_cancel {stop : β → Prop} {u v s t : List β}
    (hu : ∀ c ∈ u, ¬ stop c) (hv : ∀ c ∈ v, ¬ stop c)
    (hs : StopsWith stop s) (ht : StopsWith stop t)
    (h : u ++ s = v ++ t) : u = v ∧ s = t := by
  induction u generalizing v with
  | nil =>
      cases v with
      | nil => exact ⟨rfl, h⟩
      | cons c v =>
          rw [List.nil_append] at h
          subst h
          exact absurd (hs c (by simp)) (hv c (by simp))
  | cons c u ih =>
      cases v with
      | nil =>
          rw [List.nil_append] at h
          subst h
          exact absurd (ht c (by simp)) (hu c (by simp))
      | cons d v =>
          simp only [List.cons_append, List.cons.injEq] at h
          obtain ⟨hcd, hrest⟩ := h
          have hu' : ∀ x ∈ u, ¬ stop x := fun x hx => hu x (by simp [hx])
          have hv' : ∀ x ∈ v, ¬ stop x := fun x hx => hv x (by simp [hx])
          obtain ⟨huv, hst⟩ := ih hu' hv' hrest
          exact ⟨by rw [hcd, huv], hst⟩

theorem PrefixCode.of_words {stop : β → Prop} {enc : α → List β}
    (hinj : Function.Injective enc) (hbody : ∀ a, ∀ c ∈ enc a, ¬ stop c) :
    PrefixCode stop enc := by
  intro a b s t hs ht h
  obtain ⟨hab, hst⟩ := word_cancel (hbody a) (hbody b) hs ht h
  exact ⟨hinj hab, hst⟩

end Pmbah.Library
