import Mathlib.Data.List.Basic
import Mathlib.Data.List.Induction

/-!
# Hash chains

A log is committed to by hashing each entry after the digest of what precedes
it, the first entry after a fixed start.  When the hashed messages can be taken
apart again, two logs with one tip are equal or two of their messages collide.
-/

namespace Pmbah.Library

variable {ε β δ : Type}

/-- How entries and digests are turned into hashed messages. -/
structure ChainScheme (ε β δ : Type) where
  hash : List β → δ
  bytes : δ → List β
  encode : ε → List β

/-- A message of the first list and a different one of the second hash alike. -/
def Collision (hash : List β → δ) (first second : List (List β)) : Prop :=
  ∃ a ∈ first, ∃ b ∈ second, a ≠ b ∧ hash a = hash b

theorem Collision.mono {hash : List β → δ} {first first' second second' : List (List β)}
    (h : Collision hash first second) (hfirst : first ⊆ first') (hsecond : second ⊆ second') :
    Collision hash first' second' := by
  obtain ⟨a, ha, b, hb, hne, heq⟩ := h
  exact ⟨a, hfirst ha, b, hsecond hb, hne, heq⟩

theorem eq_or_collision {hash : List β → δ} {a b : List β} {first second : List (List β)}
    (ha : a ∈ first) (hb : b ∈ second) (h : hash a = hash b) :
    a = b ∨ Collision hash first second := by
  by_cases hab : a = b
  · exact Or.inl hab
  · exact Or.inr ⟨a, ha, b, hb, hab, h⟩

namespace ChainScheme

variable (S : ChainScheme ε β δ)

/-- What is hashed for an entry after the given tip. -/
def message (start : List β) (previous : Option δ) (entry : ε) : List β :=
  (match previous with
    | none => start
    | some digest => S.bytes digest) ++ S.encode entry

def advance (start : List β) (previous : Option δ) (entry : ε) : δ :=
  S.hash (S.message start previous entry)

def tipFrom (start : List β) : Option δ → List ε → Option δ
  | previous, [] => previous
  | previous, entry :: entries => tipFrom start (some (S.advance start previous entry)) entries

/-- The digest after every entry. -/
def chainFrom (start : List β) : Option δ → List ε → List δ
  | _, [] => []
  | previous, entry :: entries =>
      S.advance start previous entry ::
        chainFrom start (some (S.advance start previous entry)) entries

def messagesFrom (start : List β) : Option δ → List ε → List (List β)
  | _, [] => []
  | previous, entry :: entries =>
      S.message start previous entry ::
        messagesFrom start (some (S.advance start previous entry)) entries

def tip (start : List β) (entries : List ε) : Option δ := S.tipFrom start none entries

def chain (start : List β) (entries : List ε) : List δ := S.chainFrom start none entries

def messages (start : List β) (entries : List ε) : List (List β) :=
  S.messagesFrom start none entries

@[simp] theorem tip_nil (start : List β) : S.tip start [] = none := rfl

theorem tipFrom_append (start : List β) (previous : Option δ) (xs ys : List ε) :
    S.tipFrom start previous (xs ++ ys) =
      S.tipFrom start (S.tipFrom start previous xs) ys := by
  induction xs generalizing previous with
  | nil => rfl
  | cons x xs ih => exact ih _

@[simp] theorem tip_concat (start : List β) (entries : List ε) (entry : ε) :
    S.tip start (entries ++ [entry]) =
      some (S.advance start (S.tip start entries) entry) := by
  rw [tip, tipFrom_append]
  rfl

theorem messagesFrom_append (start : List β) (previous : Option δ) (xs ys : List ε) :
    S.messagesFrom start previous (xs ++ ys) =
      S.messagesFrom start previous xs ++
        S.messagesFrom start (S.tipFrom start previous xs) ys := by
  induction xs generalizing previous with
  | nil => rfl
  | cons x xs ih =>
      rw [List.cons_append, messagesFrom, messagesFrom, ih]
      rfl

theorem messages_concat (start : List β) (entries : List ε) (entry : ε) :
    S.messages start (entries ++ [entry]) =
      S.messages start entries ++ [S.message start (S.tip start entries) entry] := by
  rw [messages, messagesFrom_append]
  rfl

theorem chainFrom_append (start : List β) (previous : Option δ) (xs ys : List ε) :
    S.chainFrom start previous (xs ++ ys) =
      S.chainFrom start previous xs ++
        S.chainFrom start (S.tipFrom start previous xs) ys := by
  induction xs generalizing previous with
  | nil => rfl
  | cons x xs ih =>
      rw [List.cons_append, chainFrom, chainFrom, ih]
      rfl

theorem chain_concat (start : List β) (entries : List ε) (entry : ε) :
    S.chain start (entries ++ [entry]) =
      S.chain start entries ++ [S.advance start (S.tip start entries) entry] := by
  rw [chain, chainFrom_append]
  rfl

@[simp] theorem length_chainFrom (start : List β) (previous : Option δ) (entries : List ε) :
    (S.chainFrom start previous entries).length = entries.length := by
  induction entries generalizing previous with
  | nil => rfl
  | cons x xs ih => simp [chainFrom, ih]

@[simp] theorem length_chain (start : List β) (entries : List ε) :
    (S.chain start entries).length = entries.length :=
  S.length_chainFrom start none entries

theorem getLast?_chain (start : List β) (entries : List ε) :
    (S.chain start entries).getLast? = S.tip start entries := by
  induction entries using List.reverseRecOn with
  | nil => rfl
  | append_singleton entries entry _ => simp [chain_concat]

theorem tip_eq_none {start : List β} {entries : List ε} :
    S.tip start entries = none ↔ entries = [] := by
  induction entries using List.reverseRecOn with
  | nil => simp
  | append_singleton entries entry _ => simp

/-- The digest at a place commits to the log up to and including it. -/
theorem getElem?_chain (start : List β) (entries : List ε) {i : Nat}
    (hi : i < entries.length) :
    (S.chain start entries)[i]? = S.tip start (entries.take (i + 1)) := by
  induction entries using List.reverseRecOn with
  | nil => simp at hi
  | append_singleton entries entry ih =>
      rw [chain_concat]
      by_cases hlt : i < entries.length
      · rw [List.getElem?_append_left (by simpa using hlt), ih hlt,
          List.take_append_of_le_length (by omega)]
      · have hlast : i = entries.length := by
          simp only [List.length_append, List.length_singleton] at hi
          omega
        subst hlast
        rw [List.getElem?_append_right (by simp), length_chain, Nat.sub_self,
          List.take_of_length_le (by simp), tip_concat]
        rfl

/-- The tip of a nonempty log is the digest of one of its messages. -/
theorem exists_message_of_tip {start : List β} {entries : List ε} {digest : δ}
    (h : S.tip start entries = some digest) :
    ∃ previous entry, S.message start previous entry ∈ S.messages start entries ∧
      S.hash (S.message start previous entry) = digest := by
  induction entries using List.reverseRecOn with
  | nil => simp at h
  | append_singleton entries entry _ =>
      rw [tip_concat, Option.some.injEq] at h
      exact ⟨S.tip start entries, entry, by simp [messages_concat], h⟩

/-- The messages of two logs can be taken apart and told apart. -/
structure Separated (start start' : List β) : Prop where
  step : ∀ d d' entry entry', S.bytes d ++ S.encode entry = S.bytes d' ++ S.encode entry' →
    d = d' ∧ entry = entry'
  first : ∀ entry entry', start ++ S.encode entry = start' ++ S.encode entry' →
    start = start' ∧ entry = entry'
  first_ne_step : ∀ d entry entry', start ++ S.encode entry ≠ S.bytes d ++ S.encode entry'
  step_ne_first : ∀ d entry entry', S.bytes d ++ S.encode entry ≠ start' ++ S.encode entry'

theorem message_inj {start start' : List β} (hsep : S.Separated start start')
    {p q : Option δ} {x y : ε} (h : S.message start p x = S.message start' q y) :
    p = q ∧ x = y ∧ (p = none → start = start') := by
  cases p with
  | none =>
      cases q with
      | none =>
          obtain ⟨hstart, hxy⟩ := hsep.first x y h
          exact ⟨rfl, hxy, fun _ => hstart⟩
      | some d => exact absurd h (hsep.first_ne_step d x y)
  | some d =>
      cases q with
      | none => exact absurd h (hsep.step_ne_first d x y)
      | some d' =>
          obtain ⟨hd, hxy⟩ := hsep.step d d' x y h
          exact ⟨by rw [hd], hxy, by simp⟩

/-- Two nonempty logs with one tip are equal, or two of their messages collide. -/
theorem tip_binding {start start' : List β} (hsep : S.Separated start start')
    {xs ys : List ε} (hxs : xs ≠ []) (hys : ys ≠ [])
    (h : S.tip start xs = S.tip start' ys) :
    (start = start' ∧ xs = ys) ∨
      Collision S.hash (S.messages start xs) (S.messages start' ys) := by
  induction xs using List.reverseRecOn generalizing ys with
  | nil => exact absurd rfl hxs
  | append_singleton xs x ih =>
      rcases List.eq_nil_or_concat' ys with rfl | ⟨ys', y, rfl⟩
      · exact absurd rfl hys
      rw [tip_concat, tip_concat, Option.some.injEq] at h
      rw [messages_concat, messages_concat]
      rcases eq_or_collision (List.mem_append_right (S.messages start xs) (List.mem_singleton_self _))
        (List.mem_append_right (S.messages start' ys') (List.mem_singleton_self _)) h
        with hmessage | hcollision
      · obtain ⟨htip, hxy, hfirst⟩ := S.message_inj hsep hmessage
        by_cases hnil : xs = []
        · subst hnil
          have hys' : ys' = [] := S.tip_eq_none.mp htip.symm
          subst hys' hxy
          exact Or.inl ⟨hfirst rfl, rfl⟩
        · have hys' : ys' ≠ [] := by
            rintro rfl
            exact hnil (S.tip_eq_none.mp htip)
          rcases ih hnil hys' htip with ⟨hstart, hlogs⟩ | hcollision
          · exact Or.inl ⟨hstart, by rw [hlogs, hxy]⟩
          · exact Or.inr (hcollision.mono (by simp) (by simp))
      · exact Or.inr hcollision

end ChainScheme

end Pmbah.Library
