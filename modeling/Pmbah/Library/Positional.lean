import Mathlib.Data.List.Basic
import Mathlib.Data.List.Induction
import Mathlib.Data.Nat.Digits.Defs
import Mathlib.Tactic.Ring

/-!
# Positional notation

The value of digits that are read from the most significant one.
-/

namespace Pmbah.Library

def positional (base : Nat) (digits : List Nat) : Nat :=
  digits.foldl (fun value digit => value * base + digit) 0

namespace Positional

variable {base : Nat}

theorem eq_ofDigits (digits : List Nat) :
    positional base digits = Nat.ofDigits base digits.reverse := by
  induction digits using List.reverseRecOn with
  | nil => rfl
  | append_singleton digits digit ih =>
      rw [positional, List.foldl_append, List.foldl_cons, List.foldl_nil, List.reverse_concat, Nat.ofDigits_cons, ← ih, positional]
      ring

theorem append (first last : List Nat) :
    positional base (first ++ last) =
      positional base first * base ^ last.length + positional base last := by
  rw [eq_ofDigits, eq_ofDigits, eq_ofDigits, List.reverse_append, Nat.ofDigits_append,
    List.length_reverse]
  ring

theorem lt_pow (hbase : 1 < base) {digits : List Nat} (h : ∀ digit ∈ digits, digit < base) :
    positional base digits < base ^ digits.length := by
  rw [eq_ofDigits, ← List.length_reverse]
  exact Nat.ofDigits_lt_base_pow_length hbase fun digit hdigit =>
    h digit (List.mem_reverse.1 hdigit)

/-- As many digits of the same value are the same digits. -/
theorem injective (hbase : 1 < base) {digits others : List Nat}
    (hlength : digits.length = others.length) (hdigits : ∀ digit ∈ digits, digit < base)
    (hothers : ∀ digit ∈ others, digit < base)
    (h : positional base digits = positional base others) : digits = others := by
  rw [eq_ofDigits, eq_ofDigits] at h
  apply List.reverse_injective
  apply Nat.ofDigits_inj_of_len_eq hbase _ _ _ h
  · rw [List.length_reverse, List.length_reverse, hlength]
  · exact fun digit hdigit => hdigits digit (List.mem_reverse.1 hdigit)
  · exact fun digit hdigit => hothers digit (List.mem_reverse.1 hdigit)

/-- Zeros before the digits of a number leave its value. -/
theorem digits (zeros value : Nat) :
    positional base (List.replicate zeros 0 ++ (Nat.digits base value).reverse) = value := by
  rw [eq_ofDigits, List.reverse_append, List.reverse_reverse, List.reverse_replicate,
    Nat.ofDigits_append_replicate_zero, Nat.ofDigits_digits]

end Positional

end Pmbah.Library
