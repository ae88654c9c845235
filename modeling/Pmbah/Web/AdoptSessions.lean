import Mathlib.Data.Rat.Defs
import Mathlib.Logic.Relation
import Pmbah.Platform

/-!
# Drafts for the sessions of the writing page

`adoptSessions` puts every session of the writing page into one draft.  A row is known by
its place in the list of rows, where the source keeps the object itself.
-/

namespace Pmbah.Web

open Js

structure TextTag where
  sessionId : JsString
  eventCount : Nat
  chainTip : Option B3Hash

structure DraftRow where
  draftId : JsString
  name : Option JsString
  text : JsString
  textTag : Option TextTag
  sessionIds : List JsString
  createdMs : ℚ
  updatedMs : ℚ

/-- What `adoptSessions` reads of a session. -/
structure SessionSummary where
  sessionId : JsString
  baseWallMs : ℚ
  lastEditWallMs : ℚ
  surface : Option JsString
  parentRecord : Option B3Hash
  uploadedRecordHash : Option B3Hash
  deriving DecidableEq

/-- The sessions of the writing page. -/
def writeSessionsOf (sessions : List SessionSummary) : List SessionSummary :=
  sessions.filter fun entry => entry.surface = some (js "web-draft")

section

variable (writeSessions : List SessionSummary)

/-- The later of two sessions under one key replaces the earlier one. -/
def byId (id : JsString) : Option SessionSummary :=
  writeSessions.reverse.find? (·.sessionId = id)

def byRecordHash (hash : B3Hash) : Option SessionSummary :=
  writeSessions.reverse.find? (·.uploadedRecordHash = some hash)

/-- The session that an entry continues. -/
def parentOf (entry : SessionSummary) : Option SessionSummary :=
  entry.parentRecord.bind (byRecordHash writeSessions)

end

/-- The row that lists a session, the last one if there are several. -/
def ownerOf (rows : List DraftRow) (id : JsString) : Option Nat :=
  (rows.zipIdx.reverse.find? fun entry => entry.1.sessionIds.contains id).map Prod.snd

structure Adoption where
  rows : List DraftRow
  owner : JsString → Option Nat
  changed : List Nat
  generated : Nat

section

variable (writeSessions : List SessionSummary) (owner : JsString → Option Nat)

/-- The loop of `chainRoot`; `none` when the steps do not suffice. -/
def chainRootFrom : Nat → List JsString → SessionSummary → Option SessionSummary
  | 0, _, _ => none
  | steps + 1, seen, current =>
      if current.parentRecord.isNone || seen.contains current.sessionId then some current
      else match parentOf writeSessions current with
        | none => some current
        | some parent =>
            if (owner parent.sessionId).isSome then some current
            else chainRootFrom steps (current.sessionId :: seen) parent

def chainRoot (entry : SessionSummary) : Option SessionSummary :=
  chainRootFrom writeSessions owner writeSessions.length [] entry

/-- An entry after those it continues, up to a session that has a row; `none` when the
steps do not suffice. -/
def lineageFrom : Nat → SessionSummary → Option (List SessionSummary)
  | 0, _ => none
  | steps + 1, current =>
      if (owner current.sessionId).isSome then some []
      else match parentOf writeSessions current with
        | none => some [current]
        | some parent => (lineageFrom steps parent).map (· ++ [current])

end

def addMember (row : DraftRow) (member : SessionSummary) : DraftRow :=
  { row with
    sessionIds := row.sessionIds ++ [member.sessionId]
    updatedMs := max row.updatedMs member.lastEditWallMs }

/-- The members of a lineage are put into a row. -/
def joinRow (adoption : Adoption) (place : Nat) (lineage : List SessionSummary) : Adoption :=
  { adoption with
    rows := adoption.rows.modify place fun row => lineage.foldl addMember row
    owner := fun id =>
      if lineage.any (·.sessionId = id) then some place else adoption.owner id
    changed :=
      if adoption.changed.contains place then adoption.changed else adoption.changed ++ [place] }

def newRow (uuid : Nat → JsString) (generated : Nat) (root : SessionSummary) : DraftRow where
  draftId := uuid generated
  name := none
  text := []
  textTag := none
  sessionIds := []
  createdMs := root.baseWallMs
  updatedMs := root.lastEditWallMs

/-- One turn of the loop over the sessions; `none` when it does not end. -/
def adoptOne (writeSessions : List SessionSummary) (uuid : Nat → JsString) (adoption : Adoption)
    (entry : SessionSummary) : Option Adoption :=
  if (adoption.owner entry.sessionId).isSome then some adoption
  else do
    let lineage ← lineageFrom writeSessions adoption.owner writeSessions.length entry
    match (parentOf writeSessions entry).bind fun parent => adoption.owner parent.sessionId with
    | some place => some (joinRow adoption place lineage)
    | none =>
        let root ← chainRoot writeSessions adoption.owner entry
        let place := if root ≠ entry then adoption.owner root.sessionId else none
        match place with
        | some place => some (joinRow adoption place lineage)
        | none =>
            some (joinRow
              { adoption with
                rows := adoption.rows ++ [newRow uuid adoption.generated root]
                generated := adoption.generated + 1 }
              adoption.rows.length lineage)

def adoptAll (writeSessions : List SessionSummary) (uuid : Nat → JsString) :
    Adoption → List SessionSummary → Option Adoption
  | adoption, [] => some adoption
  | adoption, entry :: entries =>
      (adoptOne writeSessions uuid adoption entry).bind fun next =>
        adoptAll writeSessions uuid next entries

/-- `a.base_wall_ms - b.base_wall_ms || a.last_edit_wall_ms - b.last_edit_wall_ms` is not
positive. -/
def visitedFirst (a b : SessionSummary) : Bool :=
  decide (a.baseWallMs < b.baseWallMs) ||
    decide (a.baseWallMs = b.baseWallMs) && decide (a.lastEditWallMs ≤ b.lastEditWallMs)

def visitOrder (writeSessions : List SessionSummary) : List SessionSummary :=
  writeSessions.mergeSort visitedFirst

def baseOf (writeSessions : List SessionSummary) (id : JsString) : ℚ :=
  ((byId writeSessions id).map SessionSummary.baseWallMs).getD 0

def sortRow (writeSessions : List SessionSummary) (row : DraftRow) : DraftRow :=
  { row with
    sessionIds := row.sessionIds.mergeSort fun a b =>
      decide (baseOf writeSessions a ≤ baseOf writeSessions b) }

/-- Drafts that must be written so that every session of the writing page belongs to one
draft; `none` when the loop over continuations does not end. -/
def adoptSessions (drafts : List DraftRow) (sessions : List SessionSummary)
    (uuid : Nat → JsString) : Option (List DraftRow) :=
  let writeSessions := writeSessionsOf sessions
  (adoptAll writeSessions uuid ⟨drafts, ownerOf drafts, [], 0⟩ (visitOrder writeSessions)).map
    fun adoption => adoption.changed.filterMap fun place =>
      adoption.rows[place]?.map (sortRow writeSessions)

/-- The drafts after the adopted rows have been written, each under its id. -/
def merged (drafts adopted : List DraftRow) : List DraftRow :=
  drafts.map (fun draft => (adopted.find? (·.draftId = draft.draftId)).getD draft) ++
    adopted.filter fun row => !(drafts.any (·.draftId = row.draftId))

end Pmbah.Web
