import Pmbah.Admission.Interleaving

/-!
# Runs of requests

The requests in flight are those that were admitted and have not left.  While there is
room, decisions do not depend on what was forgotten, and writes are bounded in any window.
-/

namespace Pmbah.Admission

open Js Library

variable {limits : ClientLimits} {admission : ClientAdmission} {client other : JsString}
  {clock now later : ℚ} {decide : ClientState → ClientState × Decision}
  {clients : OrderedMap JsString ClientState} {outstanding : JsString → Nat}
  {remembering : Remembering} {ledger next : Ledger} {action : Action}

/-! ## Requests that are outstanding -/

/-- A visit that admits as many requests as `gain` says. -/
theorem visit_accounts (client : JsString) (gain : Decision → Nat)
    (h : Accounts limits now outstanding admission.clients) (hlater : now ≤ later)
    (hdecide : ∀ state, Valid limits later state → Valid limits later (decide state).1 ∧
      (decide state).1.inFlight = state.inFlight + gain (decide state).2) :
    Accounts limits later
        (Function.update outstanding client
          (outstanding client + gain (admission.visit limits client now decide).2))
        (admission.visit limits client now decide).1.clients ∧
      ((admission.visit limits client now decide).1.trackedClients ≤ admission.trackedClients ∨
        (admission.visit limits client now decide).1.trackedClients ≤ limits.maxTrackedClients +
          busy (Function.update outstanding client
            (outstanding client + gain (admission.visit limits client now decide).2))
          (admission.visit limits client now decide).1.clients) := by
  obtain ⟨kept, hlost, -, hlength, hdecision, hvisited⟩ :=
    visit_spec limits admission client now decide
  have hkept := h.lost hlost
  obtain ⟨hinFlight, hvalid⟩ := hkept.current client
  obtain ⟨hnext, hgain⟩ := hdecide _ (hvalid.mono hlater)
  have hcount : (decide (current limits kept client now)).1.inFlight =
      outstanding client + gain (admission.visit limits client now decide).2 := by
    rw [hgain, hinFlight, hdecision]
  constructor
  · have hset := (hkept.mono hlater).set hnext hvisited.get?
    rwa [hcount] at hset
  · rw [ClientAdmission.trackedClients, ← length_keys]
    exact (hvisited.bound hkept _).imp_left fun hsame => hsame.trans hlength

theorem leave_accounts (h : Accounts limits now outstanding admission.clients)
    (client : JsString) :
    Accounts limits now (Function.update outstanding client (outstanding client - 1))
        (admission.leave client).clients ∧
      (admission.leave client).trackedClients = admission.trackedClients := by
  rw [ClientAdmission.leave]
  cases hget : admission.clients.get? client with
  | none =>
      refine ⟨?_, rfl⟩
      have hzero : outstanding client - 1 = outstanding client := by
        rw [h.unknown client hget]
      rw [hzero, Function.update_eq_self]
      exact h
  | some state =>
      obtain ⟨hinFlight, hvalid⟩ := h.known client state hget
      obtain ⟨hleft, hcount⟩ := leave_spec hvalid
      constructor
      · rw [← hinFlight, ← hcount]
        exact h.set hleft fun other => OrderedMap.get?_set _ _ _ _
      · show (admission.clients.set client state.leave).entries.length = _
        rw [← length_keys, OrderedMap.keys_set_of_present _ hget, length_keys]
        rfl

/-- A step accounts for its requests.  Where it adds a client there is room, or nobody is idle. -/
theorem after_accounts
    (h : Accounts limits ledger.clock ledger.outstanding ledger.admission.clients)
    (horder : ledger.InOrder action) :
    Accounts limits (ledger.after limits action).clock
        (ledger.after limits action).outstanding (ledger.after limits action).admission.clients ∧
      ((ledger.after limits action).admission.trackedClients ≤ ledger.admission.trackedClients ∨
        (ledger.after limits action).admission.trackedClients ≤
          limits.maxTrackedClients + (ledger.after limits action).busy) := by
  cases action with
  | enter client write now later =>
      obtain ⟨hnow, hlater⟩ := horder
      exact visit_accounts client Decision.count (h.mono hnow) hlater fun state hvalid =>
        enter_spec hvalid write
  | leave client =>
      obtain ⟨haccounts, htracked⟩ := leave_accounts h client
      exact ⟨haccounts, Or.inl (Nat.le_of_eq htracked)⟩
  | takeNewSession client now later =>
      obtain ⟨hnow, hlater⟩ := horder
      have hvisit := visit_accounts client (fun _ => 0) (h.mono hnow) hlater
        fun state hvalid => takeNewSession_spec hvalid
      simp only [Nat.add_zero, Function.update_eq_self] at hvisit
      exact hvisit

/-- What holds after every step, whatever the order of the requests. -/
structure Balanced (limits : ClientLimits) (ledger : Ledger) : Prop where
  accounts : Accounts limits ledger.clock ledger.outstanding ledger.admission.clients
  busy_le : ledger.busy ≤ ledger.peak
  tracked_le : ledger.admission.trackedClients ≤ limits.maxTrackedClients + ledger.peak

theorem balanced_create (limits : ClientLimits) (now : ℚ) :
    Balanced limits (.create now) where
  accounts := by
    constructor
    · intro client state hstate
      cases hstate
    · intro client _
      rfl
  busy_le := Nat.le_refl _
  tracked_le := Nat.zero_le _

theorem balanced_step (h : Balanced limits ledger) (horder : ledger.InOrder action) :
    Balanced limits (ledger.after limits action).marked := by
  obtain ⟨haccounts, hbound⟩ := after_accounts h.accounts horder
  have hpeak : (ledger.after limits action).peak = ledger.peak := by
    cases action <;> rfl
  refine ⟨haccounts, Nat.le_max_right _ _, ?_⟩
  show (ledger.after limits action).admission.trackedClients ≤
    limits.maxTrackedClients + max (ledger.after limits action).peak
      (ledger.after limits action).busy
  have htracked := h.tracked_le
  omega

theorem balanced_run {condition : Ledger → Action → Prop}
    (horder : ∀ ledger action, condition ledger action → ledger.InOrder action)
    (run : Run (Ledger.step limits) condition (.create now) ledger) : Balanced limits ledger := by
  refine run.invariant (I := Balanced limits) ?_ (balanced_create limits now)
  intro state action next hstate hcondition hnext
  cases hnext
  exact balanced_step hstate (horder _ _ hcondition)

/-! ## Forgetting while there is room -/

/-- The clients are like those of the version that never forgets. -/
def Remembers (limits : ClientLimits) (now : ℚ) (clients : OrderedMap JsString ClientState)
    (remembering : Remembering) : Prop :=
  ∀ client, Alike limits now (current limits clients client now)
    (remembering.remembered limits client now)

/-- What a client could still write. -/
def allowance (limits : ClientLimits) (now : ℚ) (clients : OrderedMap JsString ClientState)
    (client : JsString) : ℚ :=
  available limits.writesPerMinute limits.writeBurst (current limits clients client now).writes now

/-- A visit while there is room, of the client and of every other one. -/
theorem visit_current (client : JsString) (decide : ClientState → ClientState × Decision)
    (hroom : admission.trackedClients < limits.maxTrackedClients)
    (hnow : clock ≤ now) (hlater : now ≤ later) :
    ∃ found, Alike limits now found (current limits admission.clients client clock) ∧
      (admission.visit limits client now decide).2 = (decide found).2 ∧
      current limits (admission.visit limits client now decide).1.clients client later =
        (decide found).1 ∧
      ∀ other, other ≠ client → Alike limits later
        (current limits (admission.visit limits client now decide).1.clients other later)
        (current limits admission.clients other clock) := by
  obtain ⟨kept, -, hlost, -, hdecision, hvisited⟩ :=
    visit_spec limits admission client now decide
  have hkept := (hlost hroom).alike hnow
  refine ⟨_, hkept client, hdecision, ?_, fun other hother => ?_⟩
  · rw [current, hvisited.get?, if_pos rfl]
    rfl
  · have hsame : current limits (admission.visit limits client now decide).1.clients other later =
        current limits kept other later := by
      rw [current, hvisited.get?, if_neg hother, current]
    rw [hsame]
    exact (alike_getD _ hlater).trans ((hkept other).mono hlater)

theorem recall_visit_self (remembering : Remembering) (client : JsString) (now later : ℚ)
    (decide : ClientState → ClientState × Decision) :
    (remembering.visit limits client now decide).1.remembered limits client later =
      (decide (remembering.remembered limits client now)).1 := by
  rw [Remembering.remembered, Remembering.visit]
  simp only [Function.update_self]
  rfl

theorem recall_visit_ne (remembering : Remembering) (hother : other ≠ client) (now later : ℚ)
    (decide : ClientState → ClientState × Decision) :
    (remembering.visit limits client now decide).1.remembered limits other later =
      remembering.remembered limits other later := by
  rw [Remembering.remembered, Remembering.visit]
  simp only [Function.update_of_ne hother]
  rfl

/-- A visit decides as if nobody had been forgotten. -/
theorem visit_remembers (client : JsString) (decide : ClientState → ClientState × Decision)
    (h : Remembers limits clock admission.clients remembering)
    (hroom : admission.trackedClients < limits.maxTrackedClients)
    (hnow : clock ≤ now) (hlater : now ≤ later)
    (hdecide : ∀ state remembered, Alike limits now state remembered →
      (decide state).2 = (decide remembered).2 ∧
        Alike limits later (decide state).1 (decide remembered).1) :
    (admission.visit limits client now decide).2 =
        (remembering.visit limits client now decide).2 ∧
      Remembers limits later (admission.visit limits client now decide).1.clients
        (remembering.visit limits client now decide).1 := by
  have hrecall : ∀ other, ∀ time, clock ≤ time →
      Alike limits time (current limits admission.clients other clock)
        (remembering.remembered limits other time) := fun other time htime =>
    ((h other).mono htime).trans (alike_getD (remembering other) htime).symm
  obtain ⟨found, hfound, hdecision, hself, hothers⟩ :=
    visit_current client decide hroom hnow hlater
  obtain ⟨hsame, halike⟩ := hdecide _ _ (hfound.trans (hrecall client now hnow))
  refine ⟨hdecision.trans hsame, fun other => ?_⟩
  by_cases hother : other = client
  · subst hother
    rw [hself, recall_visit_self]
    exact halike
  · rw [recall_visit_ne remembering hother]
    exact (hothers other hother).trans (hrecall other later (hnow.trans hlater))

theorem current_leave (admission : ClientAdmission) (client other : JsString) (now : ℚ) :
    current limits (admission.leave client).clients other now =
      if other = client then (current limits admission.clients client now).leave
      else current limits admission.clients other now := by
  rw [ClientAdmission.leave]
  cases hget : admission.clients.get? client with
  | none =>
      show current limits admission.clients other now = _
      split
      · rename_i hother
        rw [hother, current, hget]
        rfl
      · rfl
  | some state =>
      rw [current, current, hget]
      show ((admission.clients.set client state.leave).get? other).getD _ = _
      rw [OrderedMap.get?_set]
      split
      · rfl
      · rfl

theorem remembered_leave (remembering : Remembering) (client other : JsString) (now : ℚ) :
    (remembering.leave client).remembered limits other now =
      if other = client then (remembering.remembered limits client now).leave
      else remembering.remembered limits other now := by
  rw [Remembering.remembered, Remembering.leave]
  split
  · rename_i hother
    rw [hother, Function.update_self, Remembering.remembered]
    cases remembering client with
    | none => rfl
    | some state => rfl
  · rename_i hother
    rw [Function.update_of_ne hother, Remembering.remembered]

theorem leave_remembers (h : Remembers limits clock admission.clients remembering)
    (client : JsString) :
    Remembers limits clock (admission.leave client).clients (remembering.leave client) := by
  intro other
  rw [current_leave, remembered_leave]
  split
  · exact leave_alike (h client)
  · exact h other

/-- A step keeps the clients like those that were never forgotten. -/
theorem after_remembers
    (h : Remembers limits ledger.clock ledger.admission.clients ledger.remembering)
    (hroomy : ledger.Roomy limits action) :
    ledger.decision limits action = ledger.rememberedDecision limits action ∧
      Remembers limits (ledger.after limits action).clock
        (ledger.after limits action).admission.clients
        (ledger.after limits action).remembering := by
  obtain ⟨horder, hroom⟩ := hroomy
  cases action with
  | enter client write now later =>
      obtain ⟨hnow, hlater⟩ := horder
      obtain ⟨hdecision, hnext⟩ := visit_remembers client
        (fun state => state.enter limits write later) h hroom hnow hlater
        fun state remembered halike => enter_alike halike hlater write
      exact ⟨congrArg some hdecision, hnext⟩
  | leave client => exact ⟨rfl, leave_remembers h client⟩
  | takeNewSession client now later =>
      obtain ⟨hnow, hlater⟩ := horder
      obtain ⟨hdecision, hnext⟩ := visit_remembers client
        (fun state => state.takeNewSession limits later) h hroom hnow hlater
        fun state remembered halike => takeNewSession_alike halike hlater
      exact ⟨congrArg some hdecision, hnext⟩

/-! ## Writes in a window -/

/-- The times at which a client's writes were admitted. -/
def Ledger.writesOf (ledger : Ledger) (client : JsString) : List ℚ :=
  (ledger.admittedWrites.filter fun entry => entry.1 = client).map Prod.snd

/-- The bucket of a client meters its writes. -/
def MetersWrites (limits : ClientLimits) (ledger : Ledger) : Prop :=
  ∀ client, TokenBucket.Metered ((limits.writesPerMinute : ℚ) / 60000) limits.writeBurst
    ledger.clock (allowance limits ledger.clock ledger.admission.clients client)
    (ledger.writesOf client)

theorem available_le_add (bucket : Bucket) (perMinute burst : Nat) (hlater : now ≤ later) :
    available perMinute burst bucket later ≤
      available perMinute burst bucket now + (perMinute : ℚ) / 60000 * (later - now) :=
  TokenBucket.level_le_add (rate_nonneg perMinute) hlater

/-- A visit meters the writes of every client, if its decision meters those of its own. -/
theorem visit_meters {times after : JsString → List ℚ} (client : JsString)
    (decide : ClientState → ClientState × Decision)
    (h : ∀ other, TokenBucket.Metered ((limits.writesPerMinute : ℚ) / 60000) limits.writeBurst
      clock (allowance limits clock admission.clients other) (times other))
    (hroom : admission.trackedClients < limits.maxTrackedClients)
    (hnow : clock ≤ now) (hlater : now ≤ later)
    (hothers : ∀ other, other ≠ client → after other = times other)
    (hdecide : ∀ found, (admission.visit limits client now decide).2 = (decide found).2 →
      TokenBucket.Metered ((limits.writesPerMinute : ℚ) / 60000) limits.writeBurst later
        (available limits.writesPerMinute limits.writeBurst found.writes later) (times client) →
      TokenBucket.Metered ((limits.writesPerMinute : ℚ) / 60000) limits.writeBurst later
        (available limits.writesPerMinute limits.writeBurst (decide found).1.writes later)
        (after client)) :
    ∀ other, TokenBucket.Metered ((limits.writesPerMinute : ℚ) / 60000) limits.writeBurst later
      (allowance limits later (admission.visit limits client now decide).1.clients other)
      (after other) := by
  obtain ⟨found, hfound, hdecision, hself, hkept⟩ :=
    visit_current client decide hroom hnow hlater
  -- A state that is like the one before has filled up since.
  have hwait : ∀ other state, Alike limits later state
      (current limits admission.clients other clock) →
      TokenBucket.Metered ((limits.writesPerMinute : ℚ) / 60000) limits.writeBurst later
        (available limits.writesPerMinute limits.writeBurst state.writes later)
        (times other) := by
    intro other state halike
    have hlevel : available limits.writesPerMinute limits.writeBurst state.writes later =
        available limits.writesPerMinute limits.writeBurst
          (current limits admission.clients other clock).writes later :=
      halike.writes later (le_refl later)
    rw [hlevel]
    exact (h other).wait (rate_nonneg _) (hnow.trans hlater)
      (available_le_add _ _ _ (hnow.trans hlater)) TokenBucket.level_le
  intro other
  rw [allowance]
  by_cases hother : other = client
  · subst hother
    rw [hself]
    exact hdecide found hdecision (hwait other found (hfound.mono hlater))
  · rw [hothers other hother]
    exact hwait other _ (hkept other hother)

theorem writesOf_append (writes : List (JsString × ℚ)) (client other : JsString) (time : ℚ) :
    ((writes ++ [(client, time)]).filter fun entry => entry.1 = other).map Prod.snd =
      (writes.filter fun entry => entry.1 = other).map Prod.snd ++
        if other = client then [time] else [] := by
  rw [List.filter_append, List.map_append, List.filter_singleton]
  by_cases hother : other = client
  · rw [if_pos hother, decide_eq_true hother.symm]
    rfl
  · rw [if_neg hother, decide_eq_false (Ne.symm hother)]
    rfl

/-- The writes of the client, and of the others, after one that was decided on. -/
theorem writesOf_enter (limits : ClientLimits) (ledger : Ledger) (client other : JsString)
    (write : Bool) (now later : ℚ) :
    (ledger.after limits (.enter client write now later)).writesOf other =
      ledger.writesOf other ++
        if other = client ∧ write = true ∧
          (ledger.admission.enter limits client write now later).2 = .ok then [later] else [] := by
  rw [Ledger.writesOf, Ledger.after]
  simp only [Bool.and_eq_true, decide_eq_true_eq]
  split
  · rename_i hadmitted
    rw [writesOf_append]
    by_cases hother : other = client
    · rw [if_pos hother, if_pos ⟨hother, hadmitted⟩]
      rfl
    · rw [if_neg hother, if_neg fun h => hother h.1]
      rfl
  · rename_i hrefused
    rw [if_neg fun h => hrefused h.2, List.append_nil]
    rfl

theorem after_meters (h : MetersWrites limits ledger) (hroomy : ledger.Roomy limits action) :
    MetersWrites limits (ledger.after limits action) := by
  obtain ⟨horder, hroom⟩ := hroomy
  cases action with
  | enter client write now later =>
      obtain ⟨hnow, hlater⟩ := horder
      apply visit_meters client (fun state => state.enter limits write later) h hroom hnow hlater
      · intro other hother
        rw [writesOf_enter, if_neg fun h => hother h.1, List.append_nil]
      · intro found hdecision hmetered
        have hdecided : (ledger.admission.enter limits client write now later).2 =
            (found.enter limits write later).2 := hdecision
        rw [writesOf_enter, hdecided]
        rcases enter_available limits found write later with
          ⟨hwrite, hok, hone, hleft⟩ | ⟨hnot, hleft⟩
        · rw [if_pos ⟨rfl, hwrite, hok⟩, hleft]
          exact hmetered.spend (rate_nonneg _) hone
        · rw [if_neg fun h => hnot h.2, List.append_nil, hleft]
          exact hmetered
  | leave client =>
      intro other
      have hsame : (current limits (ledger.admission.leave client).clients other
          ledger.clock).writes =
          (current limits ledger.admission.clients other ledger.clock).writes := by
        rw [current_leave]
        split
        · rename_i hother
          rw [writes_leave, hother]
        · rfl
      have hmetered := h other
      rw [allowance, ← hsame] at hmetered
      exact hmetered
  | takeNewSession client now later =>
      obtain ⟨hnow, hlater⟩ := horder
      exact visit_meters client (fun state => state.takeNewSession limits later) h hroom hnow
        hlater (fun _ _ => rfl) fun found _ hmetered => hmetered

/-- What holds while there has been room. -/
structure Remembered (limits : ClientLimits) (ledger : Ledger) : Prop where
  remembers : Remembers limits ledger.clock ledger.admission.clients ledger.remembering
  meters : MetersWrites limits ledger

theorem remembered_create (limits : ClientLimits) (now : ℚ) :
    Remembered limits (.create now) where
  remembers := fun _ => .refl limits now _
  meters := fun _ => .nil (rate_nonneg _) (Nat.cast_nonneg _) TokenBucket.level_le

theorem remembered_run {now : ℚ}
    (run : Run (Ledger.step limits) (Ledger.Roomy limits) (.create now) ledger) :
    Remembered limits ledger := by
  refine run.invariant (I := Remembered limits) ?_ (remembered_create limits now)
  intro state action next hstate hroomy hnext
  cases hnext
  exact ⟨(after_remembers hstate.remembers hroomy).2, after_meters hstate.meters hroomy⟩

/-! ## Admission -/

/-- The requests in flight are the outstanding ones, within the limits. -/
structure InFlightExact (limits : ClientLimits) (ledger : Ledger) : Prop where
  known : ∀ client state, ledger.admission.clients.get? client = some state →
    state.inFlight = ledger.outstanding client
  unknown : ∀ client, ledger.admission.clients.get? client = none →
    ledger.outstanding client = 0
  limit : ∀ client, ledger.outstanding client ≤ limits.maxInFlightPerClient

/-- The tokens stay between nothing and the burst. -/
def TokensBounded (limits : ClientLimits) (ledger : Ledger) : Prop :=
  ∀ client state, ledger.admission.clients.get? client = some state →
    (0 ≤ state.writes.tokens ∧ state.writes.tokens ≤ limits.writeBurst) ∧
      0 ≤ state.newSessions.tokens ∧ state.newSessions.tokens ≤ limits.newSessionBurst

/-- Every request is decided on as if no client had been forgotten. -/
def DecidesExactly (limits : ClientLimits) (ledger : Ledger) : Prop :=
  ∀ action, ledger.Roomy limits action →
    ledger.decision limits action = ledger.rememberedDecision limits action

/-- In any window a client is admitted no more writes than its bucket gives. -/
def WritesBounded (limits : ClientLimits) (ledger : Ledger) : Prop :=
  ∀ client start stop, start ≤ stop →
    ((ledger.writesOf client).countP (fun time => start ≤ time ∧ time ≤ stop) : ℚ) ≤
      limits.writeBurst + (limits.writesPerMinute : ℚ) / 60000 * (stop - start)

theorem inFlightExact_of_accounts
    (h : Accounts limits ledger.clock ledger.outstanding ledger.admission.clients) :
    InFlightExact limits ledger where
  known := fun client state hstate => (h.known client state hstate).1
  unknown := h.unknown
  limit := by
    intro client
    obtain ⟨hinFlight, hvalid⟩ := h.current client
    rw [← hinFlight]
    exact hvalid.inFlight

theorem tokensBounded_of_accounts
    (h : Accounts limits ledger.clock ledger.outstanding ledger.admission.clients) :
    TokensBounded limits ledger := by
  intro client state hstate
  obtain ⟨-, hvalid⟩ := h.known client state hstate
  exact ⟨⟨hvalid.writes.nonneg, hvalid.writes.le_burst⟩, hvalid.newSessions.nonneg,
    hvalid.newSessions.le_burst⟩

/-- Admission is exact in every order of requests.  The clients that are tracked are bounded
by those that were busy at once, and no request adds a client beyond those busy then. -/
theorem admission_exact (limits : ClientLimits) (start : ℚ) (ledger : Ledger)
    (run : Run (Ledger.step limits) Ledger.InOrder (.create start) ledger) :
    InFlightExact limits ledger ∧ TokensBounded limits ledger ∧
      ledger.admission.trackedClients ≤ limits.maxTrackedClients + ledger.peak ∧
      (∀ action, ledger.InOrder action →
        (ledger.after limits action).admission.trackedClients ≤
            ledger.admission.trackedClients ∨
          (ledger.after limits action).admission.trackedClients ≤
            limits.maxTrackedClients + (ledger.after limits action).busy) ∧
      (Run (Ledger.step limits) (Ledger.Roomy limits) (.create start) ledger →
        DecidesExactly limits ledger ∧ WritesBounded limits ledger) := by
  have hbalanced := balanced_run (fun _ _ h => h) run
  refine ⟨inFlightExact_of_accounts hbalanced.accounts,
    tokensBounded_of_accounts hbalanced.accounts, hbalanced.tracked_le,
    fun action horder => (after_accounts hbalanced.accounts horder).2, fun hroomy => ?_⟩
  have hremembered := remembered_run hroomy
  exact ⟨fun action haction => (after_remembers hremembered.remembers haction).1,
    fun client first last hwindow => (hremembered.meters client).window first last hwindow⟩

/-- Two requests at once, and room for some clients. -/
def exampleLimits (maxTrackedClients : Nat) (tracked_pos : 0 < maxTrackedClients) :
    ClientLimits where
  maxInFlightPerClient := 2
  writesPerMinute := 60
  writeBurst := 2
  newSessionsPerMinute := 6
  newSessionBurst := 1
  maxTrackedClients := maxTrackedClients
  inFlight_pos := by decide
  writes_pos := by decide
  writeBurst_pos := by decide
  newSessions_pos := by decide
  newSessionBurst_pos := by decide
  tracked_pos := tracked_pos

/-- A client writes and leaves, and is forgotten when the next one comes a minute later. -/
theorem admission_exact_forgotten : ∃ ledger : Ledger,
    ledger.admission.clients.get? (js "a") = none ∧ ledger.writesOf (js "a") = [1] ∧
      InFlightExact (exampleLimits 4 (by decide)) ledger ∧
      DecidesExactly (exampleLimits 4 (by decide)) ledger ∧
      WritesBounded (exampleLimits 4 (by decide)) ledger := by
  have hrun : (runAll (Ledger.step (exampleLimits 4 (by decide)))
      (Ledger.Roomy (exampleLimits 4 (by decide))) (.create 0)
      [.enter (js "a") true 0 1, .leave (js "a"), .enter (js "b") false 60000 60001]).any
      (fun ledger => decide (ledger.admission.clients.get? (js "a") = none) &&
        decide (ledger.writesOf (js "a") = [1])) = true := by
    decide +kernel
  obtain ⟨ledger, hlast, hforgotten⟩ := (Option.any_eq_true _ _).1 hrun
  rw [Bool.and_eq_true, decide_eq_true_iff, decide_eq_true_iff] at hforgotten
  have hroomy := Run.of_runAll hlast
  obtain ⟨hinFlight, -, -, -, hdecides⟩ := admission_exact (exampleLimits 4 (by decide)) 0 ledger
    (hroomy.mono fun _ _ h => h.1)
  exact ⟨ledger, hforgotten.1, hforgotten.2, hinFlight, hdecides hroomy⟩

/-- Clients that have left are tracked until the next one comes. -/
theorem tracked_exceeds_busy : ∃ ledger : Ledger,
    Run (Ledger.step (exampleLimits 1 (by decide))) Ledger.InOrder (.create 0) ledger ∧
      (exampleLimits 1 (by decide)).maxTrackedClients + ledger.busy <
        ledger.admission.trackedClients := by
  have hrun : (runAll (Ledger.step (exampleLimits 1 (by decide))) Ledger.InOrder (.create 0)
      [.enter (js "a") false 0 0, .enter (js "b") false 0 0, .leave (js "a"),
        .leave (js "b")]).any (fun ledger =>
          decide (1 + ledger.busy < ledger.admission.trackedClients)) = true := by
    decide +kernel
  obtain ⟨ledger, hlast, hmore⟩ := (Option.any_eq_true _ _).1 hrun
  exact ⟨ledger, Run.of_runAll hlast, of_decide_eq_true hmore⟩

end Pmbah.Admission
