import Pmbah.Admission.Tracking
import Pmbah.Library.Transition

/-!
# Decisions on clients

As long as there has been room, a client that is forgotten is decided on as if it had been
remembered.  The buckets then bound how much it can write in any window of time.
-/

namespace Pmbah.Admission

open Js Library

variable {limits : ClientLimits} {client other : JsString} {now later : ℚ}
  {state remembered : ClientState} {bucket : Bucket} {perMinute burst : Nat}

/-! ## One bucket -/

/-- What `take` finds in the bucket. -/
def available (perMinute burst : Nat) (bucket : Bucket) (now : ℚ) : ℚ :=
  bucket.level ((perMinute : ℚ) / 60000) burst now

theorem refilled_eq (bucket : Bucket) (perMinute : Nat) (now : ℚ) :
    refilled bucket perMinute now =
      bucket.tokens + (now - bucket.updatedAt) * ((perMinute : ℚ) / 60000) := by
  rw [refilled, mul_div_assoc]

theorem rate_nonneg (perMinute : Nat) : (0 : ℚ) ≤ (perMinute : ℚ) / 60000 :=
  div_nonneg (Nat.cast_nonneg _) (by norm_num)

/-- What is taken depends on what is available alone. -/
theorem take_eq (bucket : Bucket) (perMinute burst : Nat) (now : ℚ) :
    take bucket perMinute burst now =
      if 1 ≤ available perMinute burst bucket now then
        (⟨available perMinute burst bucket now - 1, now⟩, .ok)
      else (⟨available perMinute burst bucket now, now⟩,
        .refused (max 1 ⌈(1 - available perMinute burst bucket now) * 60 / perMinute⌉)) := by
  rw [take, refilled_eq]
  rfl

/-- The tokens of a bucket that was last looked at before now. -/
structure Filled (burst : Nat) (now : ℚ) (bucket : Bucket) : Prop where
  nonneg : 0 ≤ bucket.tokens
  le_burst : bucket.tokens ≤ burst
  past : bucket.updatedAt ≤ now

theorem Filled.mono (h : Filled burst now bucket) (hlater : now ≤ later) :
    Filled burst later bucket := ⟨h.nonneg, h.le_burst, h.past.trans hlater⟩

theorem Filled.available_nonneg (h : Filled burst now bucket) :
    0 ≤ available perMinute burst bucket now :=
  TokenBucket.level_nonneg (rate_nonneg perMinute) (Nat.cast_nonneg _) h.nonneg h.past

theorem filled_take (h : Filled burst now bucket) :
    Filled burst now (take bucket perMinute burst now).1 := by
  have hle : available perMinute burst bucket now ≤ burst := TokenBucket.level_le
  have hnonneg : 0 ≤ available perMinute burst bucket now := h.available_nonneg
  rw [take_eq]
  split
  · rename_i hone
    refine ⟨?_, ?_, le_refl _⟩
    · show 0 ≤ available perMinute burst bucket now - 1
      linarith
    · show available perMinute burst bucket now - 1 ≤ burst
      linarith
  · exact ⟨hnonneg, hle, le_refl _⟩

/-- What is left after a take. -/
theorem available_take (bucket : Bucket) (perMinute burst : Nat) (now : ℚ) :
    available perMinute burst (take bucket perMinute burst now).1 now =
      available perMinute burst bucket now -
        if (take bucket perMinute burst now).2 = .ok then 1 else 0 := by
  have hle : available perMinute burst bucket now ≤ burst := TokenBucket.level_le
  rw [take_eq]
  by_cases hone : 1 ≤ available perMinute burst bucket now
  · rw [if_pos hone, if_pos rfl]
    apply TokenBucket.level_updated _ rfl
    show available perMinute burst bucket now - 1 ≤ burst
    linarith
  · rw [if_neg hone, if_neg (by simp), sub_zero]
    exact TokenBucket.level_updated hle rfl

theorem one_le_of_taken (bucket : Bucket) (perMinute burst : Nat) (now : ℚ)
    (h : (take bucket perMinute burst now).2 = .ok) :
    1 ≤ available perMinute burst bucket now := by
  rw [take_eq] at h
  split at h
  · assumption
  · cases h

/-! ## One client -/

/-- Two states that nothing from now on tells apart. -/
structure Alike (limits : ClientLimits) (now : ℚ) (state remembered : ClientState) : Prop where
  inFlight : state.inFlight = remembered.inFlight
  writes : TokenBucket.Agrees ((limits.writesPerMinute : ℚ) / 60000) limits.writeBurst now
    state.writes remembered.writes
  newSessions : TokenBucket.Agrees ((limits.newSessionsPerMinute : ℚ) / 60000)
    limits.newSessionBurst now state.newSessions remembered.newSessions

theorem Alike.refl (limits : ClientLimits) (now : ℚ) (state : ClientState) :
    Alike limits now state state := ⟨rfl, .refl _, .refl _⟩

theorem Alike.symm (h : Alike limits now state remembered) :
    Alike limits now remembered state := ⟨h.inFlight.symm, h.writes.symm, h.newSessions.symm⟩

theorem Alike.trans {last : ClientState} (h : Alike limits now state remembered)
    (h' : Alike limits now remembered last) : Alike limits now state last :=
  ⟨h.inFlight.trans h'.inFlight, h.writes.trans h'.writes, h.newSessions.trans h'.newSessions⟩

theorem Alike.mono (h : Alike limits now state remembered) (hlater : now ≤ later) :
    Alike limits later state remembered :=
  ⟨h.inFlight, h.writes.mono hlater, h.newSessions.mono hlater⟩

/-- Taking from buckets that agree. -/
theorem take_agrees {found : Bucket}
    (h : TokenBucket.Agrees ((perMinute : ℚ) / 60000) burst now bucket found)
    (hlater : now ≤ later) :
    take bucket perMinute burst later = take found perMinute burst later := by
  have hsame : available perMinute burst bucket later = available perMinute burst found later :=
    h later hlater
  rw [take_eq, take_eq, hsame]

theorem enter_alike (h : Alike limits now state remembered) (hlater : now ≤ later)
    (write : Bool) :
    (state.enter limits write later).2 = (remembered.enter limits write later).2 ∧
      Alike limits later (state.enter limits write later).1
        (remembered.enter limits write later).1 := by
  have hkept := h.mono hlater
  have htake := take_agrees h.writes hlater
  rw [ClientState.enter, ClientState.enter, h.inFlight]
  split
  · exact ⟨rfl, hkept⟩
  · split
    · rw [htake]
      generalize take remembered.writes limits.writesPerMinute limits.writeBurst later = taken
      obtain ⟨writes, decision⟩ := taken
      cases decision with
      | ok => exact ⟨rfl, rfl, .refl _, hkept.newSessions⟩
      | refused seconds => exact ⟨rfl, rfl, .refl _, hkept.newSessions⟩
    · exact ⟨rfl, rfl, hkept.writes, hkept.newSessions⟩

theorem takeNewSession_alike (h : Alike limits now state remembered) (hlater : now ≤ later) :
    (state.takeNewSession limits later).2 = (remembered.takeNewSession limits later).2 ∧
      Alike limits later (state.takeNewSession limits later).1
        (remembered.takeNewSession limits later).1 := by
  have hkept := h.mono hlater
  rw [ClientState.takeNewSession, ClientState.takeNewSession, take_agrees h.newSessions hlater]
  exact ⟨rfl, h.inFlight, hkept.writes, .refl _⟩

theorem leave_alike (h : Alike limits now state remembered) :
    Alike limits now state.leave remembered.leave := by
  rw [ClientState.leave, ClientState.leave, h.inFlight]
  split
  · exact ⟨rfl, h.writes, h.newSessions⟩
  · exact h

/-- A client without requests and with full buckets is like a new one. -/
theorem alike_fresh {since : ℚ} (h : state.idle limits now = true) (hsince : since ≤ now) :
    Alike limits now state (.fresh limits since) := by
  rw [ClientState.idle, Bool.and_eq_true, Bool.and_eq_true] at h
  obtain ⟨⟨hinFlight, hwrites⟩, hnewSessions⟩ := h
  have hfresh : ∀ burst perMinute : Nat, (burst : ℚ) ≤
      (burst : ℚ) + (now - since) * ((perMinute : ℚ) / 60000) := fun burst perMinute =>
    le_add_of_nonneg_right (mul_nonneg (sub_nonneg.2 hsince) (rate_nonneg perMinute))
  refine ⟨of_decide_eq_true hinFlight, ?_, ?_⟩
  · apply TokenBucket.agrees_of_full (rate_nonneg _) _ (hfresh _ _)
    rw [← refilled_eq]
    exact of_decide_eq_true hwrites
  · apply TokenBucket.agrees_of_full (rate_nonneg _) _ (hfresh _ _)
    rw [← refilled_eq]
    exact of_decide_eq_true hnewSessions

theorem idle_fresh (limits : ClientLimits) (hsince : now ≤ later) :
    (ClientState.fresh limits now).idle limits later = true := by
  have hfull : ∀ burst perMinute : Nat, full ⟨burst, now⟩ perMinute burst later = true := by
    intro burst perMinute
    apply decide_eq_true
    rw [refilled_eq]
    exact le_add_of_nonneg_right (mul_nonneg (sub_nonneg.2 hsince) (rate_nonneg perMinute))
  rw [ClientState.idle, Bool.and_eq_true, Bool.and_eq_true]
  exact ⟨⟨rfl, hfull _ _⟩, hfull _ _⟩

/-- What a state keeps. -/
structure Valid (limits : ClientLimits) (now : ℚ) (state : ClientState) : Prop where
  inFlight : state.inFlight ≤ limits.maxInFlightPerClient
  writes : Filled limits.writeBurst now state.writes
  newSessions : Filled limits.newSessionBurst now state.newSessions

theorem Valid.mono (h : Valid limits now state) (hlater : now ≤ later) :
    Valid limits later state :=
  ⟨h.inFlight, h.writes.mono hlater, h.newSessions.mono hlater⟩

theorem valid_fresh (limits : ClientLimits) (now : ℚ) : Valid limits now (.fresh limits now) :=
  ⟨Nat.zero_le _, ⟨Nat.cast_nonneg _, le_refl _, le_refl _⟩,
    ⟨Nat.cast_nonneg _, le_refl _, le_refl _⟩⟩

/-- How many requests a decision admits. -/
def Decision.count : Decision → Nat
  | .ok => 1
  | .refused _ => 0

theorem enter_spec (h : Valid limits now state) (write : Bool) :
    Valid limits now (state.enter limits write now).1 ∧
      (state.enter limits write now).1.inFlight =
        state.inFlight + (state.enter limits write now).2.count := by
  have hwrites : Filled limits.writeBurst now
      (take state.writes limits.writesPerMinute limits.writeBurst now).1 := filled_take h.writes
  rw [ClientState.enter]
  split
  · exact ⟨h, rfl⟩
  · rename_i hroom
    have hinFlight : state.inFlight + 1 ≤ limits.maxInFlightPerClient := by omega
    split
    · generalize take state.writes limits.writesPerMinute limits.writeBurst now = taken at hwrites
      obtain ⟨writes, decision⟩ := taken
      cases decision with
      | ok => exact ⟨⟨hinFlight, hwrites, h.newSessions⟩, rfl⟩
      | refused seconds => exact ⟨⟨h.inFlight, hwrites, h.newSessions⟩, rfl⟩
    · exact ⟨⟨hinFlight, h.writes, h.newSessions⟩, rfl⟩

/-- A write that is admitted takes a token, and nothing else does. -/
theorem enter_available (limits : ClientLimits) (state : ClientState) (write : Bool) (now : ℚ) :
    (write = true ∧ (state.enter limits write now).2 = .ok ∧
      1 ≤ available limits.writesPerMinute limits.writeBurst state.writes now ∧
      available limits.writesPerMinute limits.writeBurst
          (state.enter limits write now).1.writes now =
        available limits.writesPerMinute limits.writeBurst state.writes now - 1) ∨
    (¬(write = true ∧ (state.enter limits write now).2 = .ok) ∧
      available limits.writesPerMinute limits.writeBurst
          (state.enter limits write now).1.writes now =
        available limits.writesPerMinute limits.writeBurst state.writes now) := by
  have hleft := available_take state.writes limits.writesPerMinute limits.writeBurst now
  have htaken := one_le_of_taken state.writes limits.writesPerMinute limits.writeBurst now
  rw [ClientState.enter]
  split
  · refine Or.inr ⟨fun h => ?_, rfl⟩
    cases h.2
  · split
    · rename_i hwrite
      generalize take state.writes limits.writesPerMinute limits.writeBurst now = taken
        at hleft htaken
      obtain ⟨writes, decision⟩ := taken
      cases decision with
      | ok => exact Or.inl ⟨hwrite, rfl, htaken rfl, hleft⟩
      | refused seconds =>
          refine Or.inr ⟨fun h => ?_, by simpa using hleft⟩
          cases h.2
    · rename_i hread
      exact Or.inr ⟨fun h => hread h.1, rfl⟩

theorem takeNewSession_spec (h : Valid limits now state) :
    Valid limits now (state.takeNewSession limits now).1 ∧
      (state.takeNewSession limits now).1.inFlight = state.inFlight :=
  ⟨⟨h.inFlight, h.writes, filled_take h.newSessions⟩, rfl⟩

theorem leave_spec (h : Valid limits now state) :
    Valid limits now state.leave ∧ state.leave.inFlight = state.inFlight - 1 := by
  rw [ClientState.leave]
  split
  · exact ⟨⟨(Nat.sub_le _ _).trans h.inFlight, h.writes, h.newSessions⟩, rfl⟩
  · exact ⟨h, by omega⟩

theorem writes_leave (state : ClientState) : state.leave.writes = state.writes := by
  rw [ClientState.leave]
  split
  · rfl
  · rfl

end Pmbah.Admission
