import Mathlib.Logic.Function.Basic
import Pmbah.Admission.Decisions

/-!
# Visits

Entering and starting a session look a client up, decide on its state and write it back.
-/

namespace Pmbah.Admission

open Js Library

variable {limits : ClientLimits} {admission : ClientAdmission} {client other : JsString}
  {clock now later : ℚ} {state : ClientState} {decide : ClientState → ClientState × Decision}
  {clients kept : OrderedMap JsString ClientState} {outstanding : JsString → Nat}

/-- The state that a decision on a client starts from. -/
def current (limits : ClientLimits) (clients : OrderedMap JsString ClientState)
    (client : JsString) (now : ℚ) : ClientState :=
  (clients.get? client).getD (.fresh limits now)

def ClientAdmission.visit (limits : ClientLimits) (admission : ClientAdmission)
    (client : JsString) (now : ℚ) (decide : ClientState → ClientState × Decision) :
    ClientAdmission × Decision :=
  let (admission, state) := admission.stateOf limits client now
  let (state, decision) := decide state
  (admission.put client state, decision)

/-- What a visit leaves of the clients that were kept. -/
structure Visited (limits : ClientLimits) (client : JsString) (now : ℚ)
    (decide : ClientState → ClientState × Decision)
    (kept next : OrderedMap JsString ClientState) : Prop where
  get? : ∀ other, next.get? other =
    if other = client then some (decide (current limits kept client now)).1
    else kept.get? other
  keys : next.keys = kept.keys ∨ (next.keys = kept.keys ++ [client] ∧
    kept.get? client = none ∧ (kept.keys.length < limits.maxTrackedClients ∨
      ∀ entry ∈ kept.entries, 0 < entry.2.inFlight))

theorem length_keys (clients : OrderedMap JsString ClientState) :
    clients.keys.length = clients.entries.length := List.length_map _

theorem visit_spec (limits : ClientLimits) (admission : ClientAdmission) (client : JsString)
    (now : ℚ) (decide : ClientState → ClientState × Decision) : ∃ kept,
      Lost (fun state => state.inFlight = 0) admission.clients kept ∧
      (admission.trackedClients < limits.maxTrackedClients →
        Lost (fun state => state.idle limits now = true) admission.clients kept) ∧
      kept.keys.length ≤ admission.trackedClients ∧
      (admission.visit limits client now decide).2 =
        (decide (current limits kept client now)).2 ∧
      Visited limits client now decide kept
        (admission.visit limits client now decide).1.clients := by
  obtain ⟨kept, hlost, hcalm, hlength, hlooked⟩ := stateOf_spec limits admission client now
  rw [← length_keys] at hlength
  refine ⟨kept, hlost, hcalm, hlength, ?_⟩
  rw [ClientAdmission.visit]
  generalize admission.stateOf limits client now = looked at hlooked
  obtain ⟨after, state⟩ := looked
  simp only [ClientAdmission.put] at hlooked ⊢
  generalize after.clients = clients at hlooked
  cases hlooked with
  | known hstate =>
      have hcurrent : current limits kept client now = state := by rw [current, hstate]; rfl
      rw [hcurrent]
      refine ⟨rfl, fun other => ?_, Or.inl (OrderedMap.keys_set_of_present _ hstate)⟩
      rw [hcurrent, OrderedMap.get?_set]
  | added hnone hroom =>
      have hcurrent : current limits kept client now = .fresh limits now := by
        rw [current, hnone]; rfl
      rw [hcurrent]
      refine ⟨rfl, fun other => ?_, Or.inr ⟨?_, hnone, ?_⟩⟩
      · rw [hcurrent, OrderedMap.get?_set, OrderedMap.get?_set]
        by_cases hother : other = client
        · rw [if_pos hother, if_pos hother]
        · rw [if_neg hother, if_neg hother, if_neg hother]
      · rw [OrderedMap.keys_set_of_present _ (OrderedMap.get?_set_self _ _ _),
          OrderedMap.keys_set_of_absent _ hnone]
      · rw [length_keys]
        exact hroom

/-! ## Requests in flight -/

/-- The clients account for the requests that are outstanding. -/
structure Accounts (limits : ClientLimits) (now : ℚ) (outstanding : JsString → Nat)
    (clients : OrderedMap JsString ClientState) : Prop where
  known : ∀ client state, clients.get? client = some state →
    state.inFlight = outstanding client ∧ Valid limits now state
  unknown : ∀ client, clients.get? client = none → outstanding client = 0

theorem Accounts.mono (h : Accounts limits now outstanding clients) (hlater : now ≤ later) :
    Accounts limits later outstanding clients :=
  ⟨fun client state hstate =>
    ⟨(h.known client state hstate).1, (h.known client state hstate).2.mono hlater⟩, h.unknown⟩

theorem Accounts.lost (h : Accounts limits now outstanding clients)
    (hlost : Lost (fun state => state.inFlight = 0) clients kept) :
    Accounts limits now outstanding kept := by
  refine ⟨fun client state hstate => h.known client state (hlost.get? hstate),
    fun client hnone => ?_⟩
  rcases hlost client with hsame | ⟨-, state, hstate, hidle⟩
  · exact h.unknown client (hsame.symm.trans hnone)
  · rw [← (h.known client state hstate).1, hidle]

/-- The state of a client, whether it is known or not. -/
theorem Accounts.current (h : Accounts limits now outstanding clients) (client : JsString) :
    (current limits clients client now).inFlight = outstanding client ∧
      Valid limits now (current limits clients client now) := by
  rw [Admission.current]
  cases hget : clients.get? client with
  | none => exact ⟨(h.unknown client hget).symm, valid_fresh limits now⟩
  | some state => exact h.known client state hget

theorem Accounts.set (h : Accounts limits now outstanding clients) (hvalid : Valid limits now state)
    (hget : ∀ other, kept.get? other =
      if other = client then some state else clients.get? other) :
    Accounts limits now (Function.update outstanding client state.inFlight) kept := by
  constructor
  · intro other found hfound
    rw [hget] at hfound
    by_cases hother : other = client
    · subst hother
      rw [if_pos rfl] at hfound
      cases hfound
      rw [Function.update_self]
      exact ⟨rfl, hvalid⟩
    · rw [if_neg hother] at hfound
      rw [Function.update_of_ne hother]
      exact h.known other found hfound
  · intro other hnone
    rw [hget] at hnone
    by_cases hother : other = client
    · rw [if_pos hother] at hnone
      cases hnone
    · rw [if_neg hother] at hnone
      rw [Function.update_of_ne hother]
      exact h.unknown other hnone

/-- How many clients have requests in flight. -/
def busy (outstanding : JsString → Nat) (clients : OrderedMap JsString ClientState) : Nat :=
  clients.keys.countP fun client => 0 < outstanding client

/-- Where nobody is idle, every client is busy. -/
theorem busy_eq_length (h : Accounts limits now outstanding clients)
    (hbusy : ∀ entry ∈ clients.entries, 0 < entry.2.inFlight) :
    busy outstanding clients = clients.keys.length := by
  rw [busy, List.countP_eq_length]
  intro client hclient
  obtain ⟨state, hstate⟩ := OrderedMap.mem_keys_iff.1 hclient
  have hentry := hbusy (client, state) (OrderedMap.mem_entries_iff.2 hstate)
  rw [(h.known client state hstate).1] at hentry
  exact decide_eq_true hentry

/-- A visit that adds a client leaves room, or nobody was idle. -/
theorem Visited.bound {next : OrderedMap JsString ClientState}
    (h : Visited limits client now decide kept next) (hkept : Accounts limits now outstanding kept)
    (count : Nat) :
    next.keys.length ≤ kept.keys.length ∨ next.keys.length ≤
      limits.maxTrackedClients + busy (Function.update outstanding client count) next := by
  have hpos := limits.tracked_pos
  rcases h.keys with hsame | ⟨hadded, hnone, hroom⟩
  · exact Or.inl (by rw [hsame])
  · refine Or.inr ?_
    have hlength : next.keys.length = kept.keys.length + 1 := by
      rw [hadded, List.length_append, List.length_singleton]
    rcases hroom with hroom | hbusy
    · omega
    · have hothers : busy outstanding kept ≤
          busy (Function.update outstanding client count) next := by
        rw [busy, busy, hadded, List.countP_append]
        apply Nat.le_add_right_of_le
        apply Nat.le_of_eq
        apply List.countP_congr
        intro other hother
        have hne : other ≠ client := by
          rintro rfl
          obtain ⟨state, hstate⟩ := OrderedMap.mem_keys_iff.1 hother
          rw [hnone] at hstate
          cases hstate
        rw [Function.update_of_ne hne]
      rw [busy_eq_length hkept hbusy] at hothers
      omega

/-! ## Forgetting -/

/-- A client that was not known is new at any time. -/
theorem alike_getD (found : Option ClientState) (hnow : clock ≤ now) :
    Alike limits now (found.getD (.fresh limits now)) (found.getD (.fresh limits clock)) := by
  cases found with
  | none => exact alike_fresh (idle_fresh limits (le_refl now)) hnow
  | some state => exact .refl limits now state

/-- A client that a sweep forgets is like it was. -/
theorem Lost.alike (hlost : Lost (fun state => state.idle limits now = true) clients kept)
    (hnow : clock ≤ now) (client : JsString) :
    Alike limits now (current limits kept client now) (current limits clients client clock) := by
  rw [current, current]
  rcases hlost client with hsame | ⟨hgone, state, hstate, hidle⟩
  · rw [hsame]
    exact alike_getD _ hnow
  · rw [hgone, hstate]
    exact (alike_fresh hidle (le_refl now)).symm

end Pmbah.Admission
