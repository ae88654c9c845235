import Pmbah.Admission.Visits

/-!
# Interleaved requests

Any number of clients send requests, each of which leaves once it was admitted.  Beside the
admission runs one that never forgets a client.
-/

namespace Pmbah.Admission

open Js Library

/-! ## The version that never forgets -/

abbrev Remembering : Type := JsString → Option ClientState

namespace Remembering

def remembered (limits : ClientLimits) (remembering : Remembering) (client : JsString) (now : ℚ) :
    ClientState :=
  (remembering client).getD (.fresh limits now)

def visit (limits : ClientLimits) (remembering : Remembering) (client : JsString) (now : ℚ)
    (decide : ClientState → ClientState × Decision) : Remembering × Decision :=
  let (state, decision) := decide (remembering.remembered limits client now)
  (Function.update remembering client (some state), decision)

def enter (limits : ClientLimits) (remembering : Remembering) (client : JsString) (write : Bool)
    (now later : ℚ) : Remembering × Decision :=
  remembering.visit limits client now fun state => state.enter limits write later

def takeNewSession (limits : ClientLimits) (remembering : Remembering) (client : JsString)
    (now later : ℚ) : Remembering × Decision :=
  remembering.visit limits client now fun state => state.takeNewSession limits later

def leave (remembering : Remembering) (client : JsString) : Remembering :=
  Function.update remembering client ((remembering client).map ClientState.leave)

end Remembering

/-! ## The requests -/

/-- The admission, the version that never forgets, and what has happened so far. -/
structure Ledger where
  admission : ClientAdmission
  remembering : Remembering
  /-- Admitted requests that have not left. -/
  outstanding : JsString → Nat
  /-- The writes that were admitted, with the times of their decisions. -/
  admittedWrites : List (JsString × ℚ)
  clock : ℚ
  /-- The most clients that had requests in flight at once. -/
  peak : Nat

inductive Action where
  | enter (client : JsString) (write : Bool) (now later : ℚ)
  | leave (client : JsString)
  | takeNewSession (client : JsString) (now later : ℚ)

namespace Ledger

def create (now : ℚ) : Ledger where
  admission := .create now
  remembering := fun _ => none
  outstanding := fun _ => 0
  admittedWrites := []
  clock := now
  peak := 0

def busy (ledger : Ledger) : Nat := Admission.busy ledger.outstanding ledger.admission.clients

/-- The peak is brought up to date. -/
def marked (ledger : Ledger) : Ledger := { ledger with peak := max ledger.peak ledger.busy }

def after (limits : ClientLimits) (ledger : Ledger) : Action → Ledger
  | .enter client write now later =>
      let (admission, decision) := ledger.admission.enter limits client write now later
      { ledger with
        admission
        remembering := (ledger.remembering.enter limits client write now later).1
        outstanding := Function.update ledger.outstanding client
          (ledger.outstanding client + decision.count)
        admittedWrites :=
          if write && decision = .ok then ledger.admittedWrites ++ [(client, later)]
          else ledger.admittedWrites
        clock := later }
  | .leave client =>
      { ledger with
        admission := ledger.admission.leave client
        remembering := ledger.remembering.leave client
        outstanding := Function.update ledger.outstanding client
          (ledger.outstanding client - 1) }
  | .takeNewSession client now later =>
      { ledger with
        admission := (ledger.admission.takeNewSession limits client now later).1
        remembering := (ledger.remembering.takeNewSession limits client now later).1
        clock := later }

def step (limits : ClientLimits) (ledger : Ledger) (action : Action) : Option Ledger :=
  some (ledger.after limits action).marked

/-- What the admission decides. -/
def decision (limits : ClientLimits) (ledger : Ledger) : Action → Option Decision
  | .enter client write now later =>
      some (ledger.admission.enter limits client write now later).2
  | .leave _ => none
  | .takeNewSession client now later =>
      some (ledger.admission.takeNewSession limits client now later).2

/-- What the version that never forgets decides. -/
def rememberedDecision (limits : ClientLimits) (ledger : Ledger) : Action → Option Decision
  | .enter client write now later =>
      some (ledger.remembering.enter limits client write now later).2
  | .leave _ => none
  | .takeNewSession client now later =>
      some (ledger.remembering.takeNewSession limits client now later).2

/-- The clock does not go back, and a request leaves once. -/
def InOrder (ledger : Ledger) : Action → Prop
  | .enter _ _ now later => ledger.clock ≤ now ∧ now ≤ later
  | .leave client => 0 < ledger.outstanding client
  | .takeNewSession _ now later => ledger.clock ≤ now ∧ now ≤ later

/-- There is room for one more client. -/
def Roomy (limits : ClientLimits) (ledger : Ledger) (action : Action) : Prop :=
  ledger.InOrder action ∧ ledger.admission.trackedClients < limits.maxTrackedClients

instance (ledger : Ledger) : (action : Action) → Decidable (ledger.InOrder action)
  | .enter _ _ now later => inferInstanceAs (Decidable (ledger.clock ≤ now ∧ now ≤ later))
  | .leave client => inferInstanceAs (Decidable (0 < ledger.outstanding client))
  | .takeNewSession _ now later =>
      inferInstanceAs (Decidable (ledger.clock ≤ now ∧ now ≤ later))

instance (limits : ClientLimits) (ledger : Ledger) (action : Action) :
    Decidable (ledger.Roomy limits action) :=
  inferInstanceAs (Decidable (_ ∧ _))

end Ledger

end Pmbah.Admission
