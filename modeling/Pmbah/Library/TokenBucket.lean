import Mathlib.Algebra.Order.Field.Basic
import Mathlib.Tactic.Linarith
import Mathlib.Tactic.Ring

/-!
# Token buckets

A bucket fills at a rate up to its burst.  It keeps the tokens that it had when it was last
looked at, and what is in it at a later time is computed from them.
-/

namespace Pmbah.Library

structure TokenBucket (K : Type) where
  tokens : K
  updatedAt : K
  deriving DecidableEq

namespace TokenBucket

variable {K : Type} [Field K] [LinearOrder K] {rate burst now later : K}
  {bucket other : TokenBucket K}

/-- What is in the bucket at a time. -/
def level (rate burst : K) (bucket : TokenBucket K) (now : K) : K :=
  min burst (bucket.tokens + (now - bucket.updatedAt) * rate)

/-- Two buckets that nothing from now on tells apart. -/
def Agrees (rate burst now : K) (bucket other : TokenBucket K) : Prop :=
  ∀ later, now ≤ later → level rate burst bucket later = level rate burst other later

theorem Agrees.refl (bucket : TokenBucket K) : Agrees rate burst now bucket bucket :=
  fun _ _ => rfl

theorem Agrees.symm (h : Agrees rate burst now bucket other) :
    Agrees rate burst now other bucket := fun later hlater => (h later hlater).symm

theorem Agrees.trans {third : TokenBucket K} (h : Agrees rate burst now bucket other)
    (h' : Agrees rate burst now other third) : Agrees rate burst now bucket third :=
  fun later hlater => (h later hlater).trans (h' later hlater)

theorem Agrees.mono (h : Agrees rate burst now bucket other) (hlater : now ≤ later) :
    Agrees rate burst later bucket other :=
  fun last hlast => h last (hlater.trans hlast)

theorem level_le : level rate burst bucket now ≤ burst := min_le_left _ _

/-- What is in a bucket right after it was looked at. -/
theorem level_updated (hburst : bucket.tokens ≤ burst) (hnow : bucket.updatedAt = now) :
    level rate burst bucket now = bucket.tokens := by
  rw [level, hnow, sub_self, zero_mul, add_zero, min_eq_right hburst]

variable [IsStrictOrderedRing K]

theorem level_nonneg (hrate : 0 ≤ rate) (hburst : 0 ≤ burst) (htokens : 0 ≤ bucket.tokens)
    (hnow : bucket.updatedAt ≤ now) : 0 ≤ level rate burst bucket now := by
  have hgrown : 0 ≤ (now - bucket.updatedAt) * rate := mul_nonneg (sub_nonneg.2 hnow) hrate
  exact le_min hburst (add_nonneg htokens hgrown)

/-- A bucket fills no faster than its rate. -/
theorem level_le_add (hrate : 0 ≤ rate) (hlater : now ≤ later) :
    level rate burst bucket later ≤ level rate burst bucket now + rate * (later - now) := by
  have hgrown : 0 ≤ rate * (later - now) := mul_nonneg hrate (sub_nonneg.2 hlater)
  have hsplit : bucket.tokens + (later - bucket.updatedAt) * rate =
      bucket.tokens + (now - bucket.updatedAt) * rate + rate * (later - now) := by ring
  rw [level, level, hsplit]
  rcases min_cases burst (bucket.tokens + (now - bucket.updatedAt) * rate) with
    ⟨hmin, -⟩ | ⟨hmin, -⟩
  · rw [hmin]
    exact (min_le_left _ _).trans (le_add_of_nonneg_right hgrown)
  · rw [hmin]
    exact min_le_right _ _

/-- A full bucket stays full. -/
theorem level_of_full (hrate : 0 ≤ rate)
    (hfull : burst ≤ bucket.tokens + (now - bucket.updatedAt) * rate) (hlater : now ≤ later) :
    level rate burst bucket later = burst := by
  have hgrown : 0 ≤ rate * (later - now) := mul_nonneg hrate (sub_nonneg.2 hlater)
  have hsplit : bucket.tokens + (later - bucket.updatedAt) * rate =
      bucket.tokens + (now - bucket.updatedAt) * rate + rate * (later - now) := by ring
  rw [level, hsplit]
  exact min_eq_left (by linarith)

/-- Full buckets are alike. -/
theorem agrees_of_full (hrate : 0 ≤ rate)
    (hfull : burst ≤ bucket.tokens + (now - bucket.updatedAt) * rate)
    (hother : burst ≤ other.tokens + (now - other.updatedAt) * rate) :
    Agrees rate burst now bucket other := by
  intro later hlater
  rw [level_of_full hrate hfull hlater, level_of_full hrate hother hlater]

/-! ## Windows of time -/

/-- Tokens spent at the times of a list, with an allowance left over. -/
structure Metered (rate burst clock allowance : K) (times : List K) : Prop where
  past : ∀ time ∈ times, time ≤ clock
  since : ∀ start, start ≤ clock →
    (times.countP (start ≤ ·) : K) + allowance ≤ burst + rate * (clock - start)
  window : ∀ start stop, start ≤ stop →
    (times.countP (fun time => start ≤ time ∧ time ≤ stop) : K) ≤ burst + rate * (stop - start)

variable {clock allowance : K} {times : List K}

theorem Metered.nil (hrate : 0 ≤ rate) (hburst : 0 ≤ burst) (hallowance : allowance ≤ burst) :
    Metered rate burst clock allowance [] := by
  refine ⟨fun _ htime => (List.not_mem_nil htime).elim, fun start hstart => ?_,
    fun start stop hstop => ?_⟩
  · have hgrown : 0 ≤ rate * (clock - start) := mul_nonneg hrate (sub_nonneg.2 hstart)
    rw [List.countP_nil, Nat.cast_zero]
    linarith
  · have hgrown : 0 ≤ rate * (stop - start) := mul_nonneg hrate (sub_nonneg.2 hstop)
    rw [List.countP_nil, Nat.cast_zero]
    linarith

/-- As time passes the allowance grows at most at the rate. -/
theorem Metered.wait {left : K} (h : Metered rate burst clock allowance times) (hrate : 0 ≤ rate)
    (hlater : clock ≤ later) (hleft : left ≤ allowance + rate * (later - clock))
    (hburst : left ≤ burst) : Metered rate burst later left times := by
  refine ⟨fun time htime => (h.past time htime).trans hlater, fun start hstart => ?_, h.window⟩
  rcases le_or_gt start clock with hbefore | hafter
  · have hsince := h.since start hbefore
    have hsplit : rate * (later - start) = rate * (clock - start) + rate * (later - clock) := by
      ring
    linarith
  · have hnone : times.countP (start ≤ ·) = 0 := by
      rw [List.countP_eq_zero]
      intro time htime
      have hpast := h.past time htime
      simpa using hpast.trans_lt hafter
    have hgrown : 0 ≤ rate * (later - start) := mul_nonneg hrate (sub_nonneg.2 hstart)
    rw [hnone, Nat.cast_zero]
    linarith

/-- A token is spent. -/
theorem Metered.spend (h : Metered rate burst clock allowance times) (hrate : 0 ≤ rate)
    (hone : 1 ≤ allowance) : Metered rate burst clock (allowance - 1) (times ++ [clock]) := by
  refine ⟨fun time htime => ?_, fun start hstart => ?_, fun start stop hstop => ?_⟩
  · rcases List.mem_append.1 htime with htime | htime
    · exact h.past time htime
    · rw [List.mem_singleton.1 htime]
  · have hsince := h.since start hstart
    rw [List.countP_append, List.countP_singleton, if_pos (decide_eq_true hstart), Nat.cast_add,
      Nat.cast_one]
    linarith
  · rw [List.countP_append, List.countP_singleton]
    by_cases hwithin : start ≤ clock ∧ clock ≤ stop
    · have hsince := h.since start hwithin.1
      have hfewer : times.countP (fun time => start ≤ time ∧ time ≤ stop) ≤
          times.countP (start ≤ ·) := by
        apply List.countP_mono_left
        intro time _ htime
        exact decide_eq_true (of_decide_eq_true htime).1
      have hcast : (times.countP (fun time => start ≤ time ∧ time ≤ stop) : K) ≤
          (times.countP (start ≤ ·) : K) := Nat.cast_le.2 hfewer
      have hgrown : 0 ≤ rate * (stop - clock) := mul_nonneg hrate (sub_nonneg.2 hwithin.2)
      have hsplit : rate * (stop - start) = rate * (clock - start) + rate * (stop - clock) := by
        ring
      rw [if_pos (decide_eq_true hwithin), Nat.cast_add, Nat.cast_one]
      linarith
    · rw [if_neg (by simpa using hwithin), Nat.add_zero]
      exact h.window start stop hstop

end TokenBucket

end Pmbah.Library
