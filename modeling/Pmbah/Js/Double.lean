import Pmbah.Js.Value
import Pmbah.Library.Binary64

/-!
# Integers in double precision

A number of the language is a double.  Integers of up to 53 bits are exact, and what an
operation makes of larger ones is rounded.
-/

namespace Pmbah.Js

open Library

/-- The integer is a finite double. -/
def isDouble (z : Int) : Bool :=
  Binary64.roundNat z.natAbs == z.natAbs && decide (z.natAbs < 2 ^ 1024)

/-- `a + b`, of integers that are not negative. -/
def addDouble (a b : Nat) : Nat := Binary64.roundNat (a + b)

/-- `a - b`, where it is not negative. -/
def subDouble (a b : Nat) : Nat := Binary64.roundNat (a - b)

theorem roundNat_of_safe {n : Nat} (h : n ≤ maxSafeInteger) : Binary64.roundNat n = n := by
  apply Binary64.roundNat_eq
  unfold maxSafeInteger at h
  omega

theorem isDouble_of_safe {z : Int} (h : z.natAbs ≤ maxSafeInteger) : isDouble z = true := by
  have hsmall : z.natAbs < 2 ^ 53 := by
    unfold maxSafeInteger at h
    omega
  have hfinite := Nat.lt_of_lt_of_le hsmall (Nat.pow_le_pow_right Nat.two_pos
    (by decide : 53 ≤ 1024))
  rw [isDouble, roundNat_of_safe h, beq_self_eq_true, Bool.true_and, decide_eq_true hfinite]

theorem addDouble_eq {a b : Nat} (h : a + b ≤ maxSafeInteger) : addDouble a b = a + b :=
  roundNat_of_safe h

theorem subDouble_eq {a b : Nat} (h : a ≤ maxSafeInteger) : subDouble a b = a - b :=
  roundNat_of_safe (Nat.le_trans (Nat.sub_le a b) h)

end Pmbah.Js
