import Pmbah.Admission.ClientAdmission

/-!
# What is forgotten

Sweeping forgets clients that nothing tells from new ones.  Making room forgets clients
without requests, and only where there is no room.
-/

namespace Pmbah.Admission

open Js Library

variable {limits : ClientLimits} {admission : ClientAdmission} {client other : JsString}
  {now later : ℚ} {state : ClientState}

/-! ## Clients that are lost -/

/-- Some clients are no longer there, each for a reason. -/
def Lost (reason : ClientState → Prop) (clients kept : OrderedMap JsString ClientState) : Prop :=
  ∀ client, kept.get? client = clients.get? client ∨
    (kept.get? client = none ∧ ∃ state, clients.get? client = some state ∧ reason state)

theorem Lost.refl (reason : ClientState → Prop) (clients : OrderedMap JsString ClientState) :
    Lost reason clients clients := fun _ => Or.inl rfl

theorem Lost.mono {reason weaker : ClientState → Prop}
    {clients kept : OrderedMap JsString ClientState} (h : Lost reason clients kept)
    (hweaker : ∀ state, reason state → weaker state) : Lost weaker clients kept := by
  intro client
  rcases h client with hsame | ⟨hnone, state, hstate, hreason⟩
  · exact Or.inl hsame
  · exact Or.inr ⟨hnone, state, hstate, hweaker state hreason⟩

theorem Lost.trans {reason : ClientState → Prop}
    {clients kept last : OrderedMap JsString ClientState} (h : Lost reason clients kept)
    (h' : Lost reason kept last) : Lost reason clients last := by
  intro client
  rcases h' client with hsame | ⟨hnone, state, hstate, hreason⟩
  · rcases h client with hbefore | ⟨hnone, hlost⟩
    · exact Or.inl (hsame.trans hbefore)
    · exact Or.inr ⟨hsame.trans hnone, hlost⟩
  · rcases h client with hbefore | ⟨hgone, -⟩
    · exact Or.inr ⟨hnone, state, hbefore.symm.trans hstate, hreason⟩
    · rw [hgone] at hstate
      cases hstate

theorem Lost.get? {reason : ClientState → Prop} {clients kept : OrderedMap JsString ClientState}
    (h : Lost reason clients kept) {state : ClientState} (hstate : kept.get? client = some state) :
    clients.get? client = some state := by
  rcases h client with hsame | ⟨hnone, -⟩
  · rw [← hsame]
    exact hstate
  · rw [hnone] at hstate
    cases hstate

theorem lost_delete {reason : ClientState → Prop} {clients : OrderedMap JsString ClientState}
    (hstate : clients.get? client = some state) (hreason : reason state) :
    Lost reason clients (clients.delete client) := by
  intro other
  rw [OrderedMap.get?_delete]
  split
  · rename_i hother
    exact Or.inr ⟨rfl, state, hother ▸ hstate, hreason⟩
  · exact Or.inl rfl

theorem length_delete_le (clients : OrderedMap JsString ClientState) (client : JsString) :
    (clients.delete client).entries.length ≤ clients.entries.length := List.length_filter_le _ _

/-- The clients of the list are those of the map, or have been deleted from it. -/
def Lists (clients : OrderedMap JsString ClientState) (rest : List (JsString × ClientState)) :
    Prop :=
  ∀ entry ∈ rest, clients.get? entry.1 = some entry.2

theorem lists_entries (clients : OrderedMap JsString ClientState) :
    Lists clients clients.entries := fun _ hentry => OrderedMap.mem_entries_iff.1 hentry

/-- A key stands in the list once. -/
theorem Lists.delete {clients : OrderedMap JsString ClientState}
    {rest : List (JsString × ClientState)} (h : Lists clients ((client, state) :: rest))
    (hnodup : (((client, state) :: rest).map Prod.fst).Nodup) :
    Lists (clients.delete client) rest := by
  intro entry hentry
  have hne : entry.1 ≠ client := by
    rintro rfl
    exact (List.nodup_cons.1 hnodup).1 (List.mem_map.2 ⟨entry, hentry, rfl⟩)
  rw [OrderedMap.get?_delete_ne _ hne]
  exact h entry (List.mem_cons_of_mem _ hentry)

theorem forget_spec (forgets : ClientState → Bool) (rest : List (JsString × ClientState))
    (clients : OrderedMap JsString ClientState) (hlists : Lists clients rest)
    (hnodup : (rest.map Prod.fst).Nodup) :
    Lost (fun state => forgets state = true) clients
        (ClientAdmission.forget forgets clients rest) ∧
      (ClientAdmission.forget forgets clients rest).entries.length ≤ clients.entries.length := by
  induction rest generalizing clients with
  | nil => exact ⟨.refl _ _, Nat.le_refl _⟩
  | cons entry rest ih =>
      obtain ⟨client, state⟩ := entry
      have hrest := (List.nodup_cons.1 hnodup).2
      rw [ClientAdmission.forget]
      split
      · obtain ⟨hlost, hlength⟩ := ih _ (hlists.delete hnodup) hrest
        have hdelete : Lost (fun state => forgets state = true) clients
            (clients.delete client) := lost_delete (hlists _ List.mem_cons_self) ‹_›
        exact ⟨hdelete.trans hlost, hlength.trans (length_delete_le clients client)⟩
      · exact ih clients (fun entry hentry => hlists entry (List.mem_cons_of_mem _ hentry)) hrest

theorem makeRoom_spec (limit : Nat) (rest : List (JsString × ClientState))
    (clients : OrderedMap JsString ClientState) (hlists : Lists clients rest)
    (hnodup : (rest.map Prod.fst).Nodup) :
    Lost (fun state => state.inFlight = 0) clients
        (ClientAdmission.makeRoom limit clients rest) ∧
      (ClientAdmission.makeRoom limit clients rest).entries.length ≤ clients.entries.length ∧
      ((ClientAdmission.makeRoom limit clients rest).entries.length < limit ∨
        ∀ entry ∈ rest, ((ClientAdmission.makeRoom limit clients rest).get? entry.1).isSome →
          0 < entry.2.inFlight) := by
  induction rest generalizing clients with
  | nil => exact ⟨.refl _ _, Nat.le_refl _, Or.inr fun _ hentry => by cases hentry⟩
  | cons entry rest ih =>
      obtain ⟨client, state⟩ := entry
      have hrest := (List.nodup_cons.1 hnodup).2
      rw [ClientAdmission.makeRoom]
      split
      · exact ⟨.refl _ _, Nat.le_refl _, Or.inl ‹_›⟩
      · split
        · rename_i hidle
          obtain ⟨hlost, hlength, hroom⟩ := ih _ (hlists.delete hnodup) hrest
          have hdelete : Lost (fun state => state.inFlight = 0) clients
              (clients.delete client) := lost_delete (hlists _ List.mem_cons_self) hidle
          refine ⟨hdelete.trans hlost, hlength.trans (length_delete_le clients client),
            hroom.imp_right fun hbusy entry hentry hkept => ?_⟩
          rcases List.mem_cons.1 hentry with rfl | hentry
          · obtain ⟨found, hfound⟩ := Option.isSome_iff_exists.1 hkept
            have hgone := hlost.get? hfound
            rw [OrderedMap.get?_delete_self] at hgone
            cases hgone
          · exact hbusy entry hentry hkept
        · rename_i hbusyHead
          obtain ⟨hlost, hlength, hroom⟩ := ih clients
            (fun entry hentry => hlists entry (List.mem_cons_of_mem _ hentry)) hrest
          refine ⟨hlost, hlength, hroom.imp_right fun hbusy entry hentry hkept => ?_⟩
          rcases List.mem_cons.1 hentry with rfl | hentry
          · exact Nat.pos_of_ne_zero hbusyHead
          · exact hbusy entry hentry hkept

theorem makeRoom_of_lt {limit : Nat} {clients : OrderedMap JsString ClientState}
    (h : clients.entries.length < limit) (rest : List (JsString × ClientState)) :
    ClientAdmission.makeRoom limit clients rest = clients := by
  cases rest with
  | nil => rfl
  | cons entry rest => rw [ClientAdmission.makeRoom, if_pos h]

theorem sweep_spec (limits : ClientLimits) (admission : ClientAdmission) (now : ℚ) :
    Lost (fun state => state.idle limits now = true) admission.clients
        (admission.sweep limits now).clients ∧
      (admission.sweep limits now).trackedClients ≤ admission.trackedClients :=
  forget_spec _ _ _ (lists_entries _) admission.clients.nodup

/-! ## The state of a client -/

/-- The state is there, or the client is new and there is room, or nobody is idle. -/
inductive Looked (limits : ClientLimits) (client : JsString) (now : ℚ)
    (kept : OrderedMap JsString ClientState) :
    OrderedMap JsString ClientState → ClientState → Prop where
  | known {state : ClientState} (hstate : kept.get? client = some state) :
      Looked limits client now kept kept state
  | added (hnone : kept.get? client = none)
      (hroom : kept.entries.length < limits.maxTrackedClients ∨
        ∀ entry ∈ kept.entries, 0 < entry.2.inFlight) :
      Looked limits client now kept (kept.set client (.fresh limits now)) (.fresh limits now)

theorem inFlight_of_idle (h : state.idle limits now = true) : state.inFlight = 0 := by
  rw [ClientState.idle, Bool.and_assoc, Bool.and_eq_true] at h
  exact of_decide_eq_true h.1

/-- A sweep that happens only at times. -/
theorem sweep_if_spec (limits : ClientLimits) (admission : ClientAdmission) (now : ℚ)
    (condition : Prop) [Decidable condition] :
    Lost (fun state => state.idle limits now = true) admission.clients
        (if condition then admission.sweep limits now else admission).clients ∧
      (if condition then admission.sweep limits now else admission).trackedClients ≤
        admission.trackedClients := by
  split
  · exact sweep_spec limits admission now
  · exact ⟨.refl _ _, Nat.le_refl _⟩

theorem stateOf_spec (limits : ClientLimits) (admission : ClientAdmission) (client : JsString)
    (now : ℚ) : ∃ kept,
      Lost (fun state => state.inFlight = 0) admission.clients kept ∧
      (admission.trackedClients < limits.maxTrackedClients →
        Lost (fun state => state.idle limits now = true) admission.clients kept) ∧
      kept.entries.length ≤ admission.trackedClients ∧
      Looked limits client now kept (admission.stateOf limits client now).1.clients
        (admission.stateOf limits client now).2 := by
  obtain ⟨hlost, hlength⟩ :=
    sweep_if_spec limits admission now (sweepIntervalMs ≤ now - admission.lastSweep)
  rw [ClientAdmission.stateOf]
  simp only
  generalize (if sweepIntervalMs ≤ now - admission.lastSweep then admission.sweep limits now
    else admission) = swept at hlost hlength
  have hidle : Lost (fun state => state.inFlight = 0) admission.clients swept.clients :=
    hlost.mono fun state => inFlight_of_idle
  split
  · rename_i existing hexisting
    exact ⟨swept.clients, hidle, fun _ => hlost, hlength, .known hexisting⟩
  · rename_i hnone
    obtain ⟨hlater, hshorter⟩ :=
      sweep_if_spec limits swept now (limits.maxTrackedClients ≤ swept.trackedClients)
    have hcalm : admission.trackedClients < limits.maxTrackedClients →
        (if limits.maxTrackedClients ≤ swept.trackedClients then swept.sweep limits now
          else swept) = swept := fun hroom => if_neg (by omega)
    generalize (if limits.maxTrackedClients ≤ swept.trackedClients then swept.sweep limits now
      else swept) = roomy at hlater hshorter hcalm
    obtain ⟨hmade, hfewer, hroom⟩ := makeRoom_spec limits.maxTrackedClients
      roomy.clients.entries roomy.clients (lists_entries _) roomy.clients.nodup
    have hkept : Lost (fun state => state.inFlight = 0) swept.clients
        (ClientAdmission.makeRoom limits.maxTrackedClients roomy.clients
          roomy.clients.entries) :=
      (hlater.mono fun state => inFlight_of_idle).trans hmade
    refine ⟨_, hidle.trans hkept, fun hcount => ?_, ?_, .added ?_ ?_⟩
    · obtain rfl := hcalm hcount
      rw [makeRoom_of_lt (hlength.trans_lt hcount)]
      exact hlost
    · exact hfewer.trans (hshorter.trans hlength)
    · rcases hkept client with hsame | ⟨hgone, -⟩
      · exact hsame.trans hnone
      · exact hgone
    · refine hroom.imp_right fun hbusy entry hentry => ?_
      have hget := OrderedMap.mem_entries_iff.1 hentry
      exact hbusy entry (OrderedMap.mem_entries_iff.2 (hmade.get? hget))
        (Option.isSome_iff_exists.2 ⟨entry.2, hget⟩)

end Pmbah.Admission
