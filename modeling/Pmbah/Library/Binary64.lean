import Mathlib.Data.Int.Log
import Mathlib.Algebra.Order.Floor.Ring
import Mathlib.Data.Rat.Floor
import Mathlib.Tactic.Linarith
import Mathlib.Tactic.NormNum
import Mathlib.Tactic.Positivity
import Mathlib.Tactic.Ring
import Mathlib.Tactic.FieldSimp

/-!
# Rounding to double precision

Exact arithmetic on rationals, and the rounding that follows each operation.  Only
normal positive numbers are meant: neither the exponent's bounds nor the signs of zero
are modelled.
-/

namespace Pmbah.Library

namespace Binary64

/-- The nearest integer, the even one at a tie. -/
def roundEven (q : ℚ) : ℤ :=
  if q - ⌊q⌋ < 1 / 2 ∨ q - ⌊q⌋ = 1 / 2 ∧ ⌊q⌋ % 2 = 0 then ⌊q⌋ else ⌊q⌋ + 1

/-- The distance of neighbours among the doubles of a magnitude. -/
def ulp (q : ℚ) : ℚ := 2 ^ (Int.log 2 q - 52)

/-- The double nearest to a number. -/
def round (q : ℚ) : ℚ := roundEven (q / ulp q) * ulp q

theorem abs_roundEven_sub_le (q : ℚ) : |(roundEven q : ℚ) - q| ≤ 1 / 2 := by
  have hbelow := Int.floor_le q
  have habove := Int.lt_floor_add_one q
  rw [roundEven]
  split
  · rename_i hdown
    have hhalf : q - ⌊q⌋ ≤ 1 / 2 := hdown.elim le_of_lt fun h => le_of_eq h.1
    rw [abs_le]
    constructor <;> linarith
  · rename_i hup
    have hhalf : 1 / 2 ≤ q - ⌊q⌋ := not_lt.1 fun h => hup (.inl h)
    rw [abs_le]
    push_cast
    constructor <;> linarith

theorem roundEven_eq {q : ℚ} {z : ℤ} (h : |(z : ℚ) - q| < 1 / 2) : roundEven q = z := by
  have hround := abs_roundEven_sub_le q
  have hclose : |(roundEven q : ℚ) - z| < 1 := by
    calc |(roundEven q : ℚ) - z| = |((roundEven q : ℚ) - q) - (z - q)| := by congr 1; ring
      _ ≤ |(roundEven q : ℚ) - q| + |(z : ℚ) - q| := abs_sub _ _
      _ < 1 := by linarith
  have hint : |roundEven q - z| < 1 := by exact_mod_cast hclose
  rw [abs_lt] at hint
  omega

theorem ulp_pos (q : ℚ) : 0 < ulp q := by
  rw [ulp]
  exact zpow_pos (by norm_num) _

theorem ulp_mul (q : ℚ) : ulp q * 2 ^ 52 = 2 ^ Int.log 2 q := by
  rw [ulp, zpow_sub₀ (by norm_num : (2 : ℚ) ≠ 0)]
  norm_num

/-- A number has between 52 and 53 bits in units of its last place. -/
theorem ulp_le {q : ℚ} (h : 0 < q) : ulp q * 2 ^ 52 ≤ q := by
  rw [ulp_mul]
  exact_mod_cast Int.zpow_log_le_self (by norm_num : 1 < 2) h

theorem lt_ulp (q : ℚ) : q < ulp q * 2 ^ 53 := by
  have h : q < 2 ^ (Int.log 2 q + 1) := by
    exact_mod_cast Int.lt_zpow_succ_log_self (by norm_num : 1 < 2) q
  rw [zpow_add₀ (by norm_num : (2 : ℚ) ≠ 0), ← ulp_mul] at h
  linarith

/-- Rounding moves a number by half a unit of its last place at most. -/
theorem abs_round_sub_le (q : ℚ) : |round q - q| ≤ ulp q / 2 := by
  have hpos := ulp_pos q
  have hscale : round q - q = (roundEven (q / ulp q) - q / ulp q) * ulp q := by
    rw [round, sub_mul, div_mul_cancel₀ _ hpos.ne']
  rw [hscale, abs_mul, abs_of_pos hpos]
  have hround := mul_le_mul_of_nonneg_right (abs_roundEven_sub_le (q / ulp q)) hpos.le
  linarith

/-- A double within less than half a unit is the nearest one. -/
theorem round_eq_of_near {q : ℚ} {z : ℤ} (h : |z * ulp q - q| < ulp q / 2) :
    round q = z * ulp q := by
  have hpos := ulp_pos q
  rw [round, roundEven_eq (z := z)]
  have hscale : (z : ℚ) - q / ulp q = (z * ulp q - q) / ulp q := by
    field_simp
  rw [hscale, abs_div, abs_of_pos hpos, div_lt_iff₀ hpos]
  linarith

/-- Integers of up to 53 bits are doubles. -/
theorem exists_mul_ulp {q : ℚ} (hlog : Int.log 2 q ≤ 52) (m : ℤ) :
    ∃ z : ℤ, (m : ℚ) = z * ulp q := by
  obtain ⟨k, hk⟩ := Int.eq_ofNat_of_zero_le (sub_nonneg.2 hlog)
  refine ⟨m * 2 ^ k, ?_⟩
  have hexponent : Int.log 2 q - 52 = -(k : ℤ) := by omega
  rw [ulp, hexponent, zpow_neg, zpow_natCast]
  push_cast
  field_simp

theorem log_le_of_lt {q : ℚ} (hpos : 0 < q) (h : q < 2 ^ 53) : Int.log 2 q ≤ 52 := by
  have hpow : (2 : ℚ) ^ Int.log 2 q ≤ q := by
    exact_mod_cast Int.zpow_log_le_self (by norm_num : 1 < 2) hpos
  have hless : (2 : ℚ) ^ Int.log 2 q < 2 ^ (53 : ℤ) := lt_of_le_of_lt hpow (by exact_mod_cast h)
  have hlog := (zpow_lt_zpow_iff_right₀ (by norm_num : (1 : ℚ) < 2)).1 hless
  omega

/-- An integer within less than half a unit is what a number is rounded to. -/
theorem round_eq_intCast {q : ℚ} {m : ℤ} (hpos : 0 < q) (hlt : q < 2 ^ 53)
    (h : |(m : ℚ) - q| < ulp q / 2) : round q = m := by
  obtain ⟨z, hz⟩ := exists_mul_ulp (log_le_of_lt hpos hlt) m
  rw [hz] at h ⊢
  exact round_eq_of_near h

/-! ## Integers -/

/-- The double nearest to a natural number. -/
def roundNat (n : ℕ) : ℕ := ⌊round n⌋₊

/-- A natural number of up to 53 bits is a double. -/
theorem roundNat_eq {n : ℕ} (h : n < 2 ^ 53) : roundNat n = n := by
  rw [roundNat]
  rcases Nat.eq_zero_or_pos n with rfl | hpos
  · have hzero : round ((0 : ℕ) : ℚ) = 0 := by
      rw [round, Nat.cast_zero, zero_div, roundEven_eq (z := 0) (by norm_num), Int.cast_zero,
        zero_mul]
    rw [hzero, Nat.floor_zero]
  · have hpos' : (0 : ℚ) < n := by exact_mod_cast hpos
    have hunit := ulp_pos (n : ℚ)
    have hround : round (n : ℚ) = ((n : ℤ) : ℚ) := by
      apply round_eq_intCast hpos' (by exact_mod_cast h)
      rw [Int.cast_natCast, sub_self, abs_zero]
      linarith
    rw [hround, Int.cast_natCast, Nat.floor_natCast]

/-! ## Percentages -/

/-- A share that is taken as a rounded percentage, and the product rounded again, rounds
up to what the exact share rounds up to.  The percentage must be off by less than half
of what a last place can be. -/
theorem ceil_round_mul {n c : ℕ} {p : ℚ} (hn : 0 < n) (hsize : n ≤ 2 ^ 31) (hc : 0 < c)
    (hle : c ≤ 100) (hp : |(c / 100 : ℚ) - p| ≤ p / 2 ^ 54) :
    ⌈round (n * p)⌉ = ((n * c + 99) / 100 : ℕ) := by
  have hn' : (0 : ℚ) < n := by exact_mod_cast hn
  have hc' : (0 : ℚ) < c := by exact_mod_cast hc
  have hle' : (c : ℚ) ≤ 100 := by exact_mod_cast hle
  have hsize' : (n : ℚ) ≤ 2 ^ 31 := by exact_mod_cast hsize
  obtain ⟨hbelow, habove⟩ := abs_le.1 hp
  have hppos : 0 < p := by
    by_contra hneg
    linarith
  have hptwo : p < 2 := by linarith
  have hx : 0 < n * p := mul_pos hn' hppos
  have hxlt : n * p < 2 ^ 32 := by nlinarith
  -- what the rounded percentage is off by, over the whole product
  have hproduct : |(n * c / 100 : ℚ) - n * p| ≤ n * p / 2 ^ 54 := by
    have hscale : (n * c / 100 : ℚ) - n * p = n * (c / 100 - p) := by ring
    rw [hscale, abs_mul, abs_of_pos hn', mul_div_assoc]
    exact mul_le_mul_of_nonneg_left hp hn'.le
  have hsplit := Nat.div_add_mod (n * c) 100
  generalize hwhole : n * c / 100 = m at hsplit
  by_cases hexact : n * c % 100 = 0
  · have hquotient : (n * c + 99) / 100 = m := by omega
    have hcast : (n * c / 100 : ℚ) = ((m : ℤ) : ℚ) := by
      have h : ((100 * m : ℕ) : ℚ) = ((n * c : ℕ) : ℚ) := by
        rw [hexact, add_zero] at hsplit
        rw [hsplit]
      push_cast at h ⊢
      linarith
    rw [hcast] at hproduct
    have hunit := lt_ulp (n * p)
    have hnear : |((m : ℤ) : ℚ) - n * p| < ulp (n * p) / 2 := by
      apply lt_of_le_of_lt hproduct
      linarith
    rw [round_eq_intCast hx (by linarith) hnear, Int.ceil_intCast, hquotient]
  · have hround := abs_round_sub_le (n * p)
    have hunit := ulp_le hx
    have hquotient : (n * c + 99) / 100 = m + 1 := by omega
    -- the product lies a hundredth away from both integers around it
    have hlow : (m : ℚ) + 1 / 100 ≤ n * c / 100 := by
      have h : ((100 * m + 1 : ℕ) : ℚ) ≤ ((n * c : ℕ) : ℚ) := by
        exact_mod_cast (by omega : 100 * m + 1 ≤ n * c)
      push_cast at h
      linarith
    have hhigh : (n * c / 100 : ℚ) + 1 / 100 ≤ m + 1 := by
      have h : ((n * c + 1 : ℕ) : ℚ) ≤ ((100 * m + 100 : ℕ) : ℚ) := by
        exact_mod_cast (by omega : n * c + 1 ≤ 100 * m + 100)
      push_cast at h
      linarith
    obtain ⟨hr1, hr2⟩ := abs_le.1 hround
    obtain ⟨hp1, hp2⟩ := abs_le.1 hproduct
    rw [hquotient, Int.ceil_eq_iff]
    push_cast
    constructor <;> linarith

end Binary64

end Pmbah.Library
