import Mathlib.Algebra.Order.Floor.Ring
import Mathlib.Data.Rat.Floor
import Pmbah.Library.OrderedMap
import Pmbah.Library.TokenBucket
import Pmbah.Platform

/-!
# Admission of clients

How many requests a client has in flight, and how many writes and new sessions it has
started lately.  Clients that cannot be told from new ones are forgotten.
-/

namespace Pmbah.Admission

open Js Library

/-- The limits that the constructor lets pass. -/
structure ClientLimits where
  maxInFlightPerClient : Nat
  writesPerMinute : Nat
  writeBurst : Nat
  newSessionsPerMinute : Nat
  newSessionBurst : Nat
  maxTrackedClients : Nat
  inFlight_pos : 0 < maxInFlightPerClient
  writes_pos : 0 < writesPerMinute
  writeBurst_pos : 0 < writeBurst
  newSessions_pos : 0 < newSessionsPerMinute
  newSessionBurst_pos : 0 < newSessionBurst
  tracked_pos : 0 < maxTrackedClients

def sweepIntervalMs : ℚ := 60000

inductive Decision where
  | ok
  | refused (retryAfterSeconds : Int)
  deriving DecidableEq

abbrev Bucket : Type := TokenBucket ℚ

structure ClientState where
  inFlight : Nat
  writes : Bucket
  newSessions : Bucket
  deriving DecidableEq

structure ClientAdmission where
  clients : OrderedMap JsString ClientState
  lastSweep : ℚ

/-- The constructor. -/
def ClientAdmission.create (now : ℚ) : ClientAdmission := ⟨∅, now⟩

/-- The state of a client that is not known. -/
def ClientState.fresh (limits : ClientLimits) (now : ℚ) : ClientState :=
  ⟨0, ⟨limits.writeBurst, now⟩, ⟨limits.newSessionBurst, now⟩⟩

def refilled (bucket : Bucket) (perMinute : Nat) (now : ℚ) : ℚ :=
  bucket.tokens + (now - bucket.updatedAt) * perMinute / 60000

def take (bucket : Bucket) (perMinute burst : Nat) (now : ℚ) : Bucket × Decision :=
  let tokens := min (burst : ℚ) (refilled bucket perMinute now)
  if 1 ≤ tokens then (⟨tokens - 1, now⟩, .ok)
  else (⟨tokens, now⟩, .refused (max 1 ⌈(1 - tokens) * 60 / perMinute⌉))

def full (bucket : Bucket) (perMinute burst : Nat) (now : ℚ) : Bool :=
  (burst : ℚ) ≤ refilled bucket perMinute now

namespace ClientState

/-- What `#sweep` forgets. -/
def idle (limits : ClientLimits) (now : ℚ) (state : ClientState) : Bool :=
  state.inFlight = 0 && full state.writes limits.writesPerMinute limits.writeBurst now &&
    full state.newSessions limits.newSessionsPerMinute limits.newSessionBurst now

def enter (limits : ClientLimits) (state : ClientState) (write : Bool) (now : ℚ) :
    ClientState × Decision :=
  if limits.maxInFlightPerClient ≤ state.inFlight then (state, .refused 1)
  else if write then
    match take state.writes limits.writesPerMinute limits.writeBurst now with
    | (writes, .refused seconds) => ({ state with writes }, .refused seconds)
    | (writes, .ok) => ({ state with writes, inFlight := state.inFlight + 1 }, .ok)
  else ({ state with inFlight := state.inFlight + 1 }, .ok)

def leave (state : ClientState) : ClientState :=
  if 0 < state.inFlight then { state with inFlight := state.inFlight - 1 } else state

def takeNewSession (limits : ClientLimits) (state : ClientState) (now : ℚ) :
    ClientState × Decision :=
  let (newSessions, decision) :=
    take state.newSessions limits.newSessionsPerMinute limits.newSessionBurst now
  ({ state with newSessions }, decision)

end ClientState

namespace ClientAdmission

def trackedClients (admission : ClientAdmission) : Nat := admission.clients.entries.length

/-- Deletes the clients of a list that are to be forgotten. -/
def forget (forgets : ClientState → Bool) :
    OrderedMap JsString ClientState → List (JsString × ClientState) →
      OrderedMap JsString ClientState
  | clients, [] => clients
  | clients, (key, state) :: rest =>
      forget forgets (if forgets state then clients.delete key else clients) rest

def sweep (limits : ClientLimits) (admission : ClientAdmission) (now : ℚ) : ClientAdmission where
  clients := forget (ClientState.idle limits now) admission.clients admission.clients.entries
  lastSweep := now

/-- Deletes the oldest clients without requests, until there is room. -/
def makeRoom (limit : Nat) : OrderedMap JsString ClientState → List (JsString × ClientState) →
    OrderedMap JsString ClientState
  | clients, [] => clients
  | clients, (key, state) :: rest =>
      if clients.entries.length < limit then clients
      else makeRoom limit (if state.inFlight = 0 then clients.delete key else clients) rest

/-- `#state`. -/
def stateOf (limits : ClientLimits) (admission : ClientAdmission) (client : JsString) (now : ℚ) :
    ClientAdmission × ClientState :=
  let admission :=
    if sweepIntervalMs ≤ now - admission.lastSweep then admission.sweep limits now else admission
  match admission.clients.get? client with
  | some existing => (admission, existing)
  | none =>
      let admission :=
        if limits.maxTrackedClients ≤ admission.trackedClients then admission.sweep limits now
        else admission
      let clients := makeRoom limits.maxTrackedClients admission.clients admission.clients.entries
      let state := ClientState.fresh limits now
      ({ admission with clients := clients.set client state }, state)

/-- The state object of a client, written in place. -/
def put (admission : ClientAdmission) (client : JsString) (state : ClientState) :
    ClientAdmission :=
  { admission with clients := admission.clients.set client state }

/-- The clock is read for the state, and again for the bucket. -/
def enter (limits : ClientLimits) (admission : ClientAdmission) (client : JsString)
    (write : Bool) (now later : ℚ) : ClientAdmission × Decision :=
  let (admission, state) := admission.stateOf limits client now
  let (state, decision) := state.enter limits write later
  (admission.put client state, decision)

def leave (admission : ClientAdmission) (client : JsString) : ClientAdmission :=
  match admission.clients.get? client with
  | some state => admission.put client state.leave
  | none => admission

def takeNewSession (limits : ClientLimits) (admission : ClientAdmission) (client : JsString)
    (now later : ℚ) : ClientAdmission × Decision :=
  let (admission, state) := admission.stateOf limits client now
  let (state, decision) := state.takeNewSession limits later
  (admission.put client state, decision)

end ClientAdmission

end Pmbah.Admission
