import Pmbah.Library.OrderedMap
import Pmbah.Library.RowTable
import Pmbah.Producer.Timeline

/-!
# The event journal

The storage behind a journal-backed registry: the metadata of the sessions and
the rows of their events.  A commit is one transaction over both.
-/

namespace Pmbah.Producer

open Js Format Library

structure JournalAppend where
  sessionId : JsString
  events : List BufferMutation
  deriving DecidableEq

structure JournalCommit where
  sessions : List SessionRecord
  appends : List JournalAppend
  deleted : List JsString
  clearEvents : List JsString

/-- Each key of a commit is named once. -/
structure JournalCommit.Distinct (batch : JournalCommit) : Prop where
  appends : (batch.appends.map JournalAppend.sessionId).Nodup
  sessions : (batch.sessions.map SessionRecord.sessionId).Nodup

/-- The two object stores; the rows of a session stand in the order of their keys. -/
structure JournalStore where
  sessions : OrderedMap JsString SessionRecord
  rows : OrderedMap JsString (List BufferMutation)

namespace JournalStore

def empty : JournalStore := ⟨∅, ∅⟩

def session (store : JournalStore) (sessionId : JsString) : Option SessionRecord :=
  store.sessions.get? sessionId

/-- The stored events of a session. -/
def events (store : JournalStore) (sessionId : JsString) : List BufferMutation :=
  (store.rows.get? sessionId).getD []

def readEvents (store : JournalStore) (sessionId : JsString) (start limit : Nat) :
    List BufferMutation :=
  ((store.events sessionId).filter fun event =>
    start ≤ event.seq && event.seq ≤ start + limit - 1).take limit

/-- `getAll` lists the sessions by their keys. -/
def read (store : JournalStore) : List SessionRecord :=
  store.sessions.values.mergeSort fun left right => left.sessionId ≤ right.sessionId

def deleteRows (store : JournalStore) (ids : List JsString) : JournalStore :=
  { store with rows := store.rows.deleteAll ids }

def deleteSessions (store : JournalStore) (ids : List JsString) : JournalStore :=
  { store with sessions := store.sessions.deleteAll ids }

/-- `add` fails on a key that is present, and with it the transaction. -/
def append (store : JournalStore) (append : JournalAppend) : Option JournalStore :=
  if 4096 < append.events.length then none
  else
    (RowTable.addAll BufferMutation.seq (store.events append.sessionId) append.events).map
      fun rows => { store with rows := store.rows.set append.sessionId rows }

/-- Metadata must not contain history. -/
def putSession (store : JournalStore) (session : SessionRecord) : Option JournalStore :=
  if !session.journaled || !session.events.isEmpty then none
  else some { store with sessions := store.sessions.set session.sessionId session }

def commit (store : JournalStore) (batch : JournalCommit) : Option JournalStore :=
  let cleared := (store.deleteRows (batch.deleted ++ batch.clearEvents)).deleteSessions
    batch.deleted
  (batch.appends.foldlM append cleared).bind (batch.sessions.foldlM putSession)

/-! ## What a commit leaves -/

variable {store after : JournalStore} {batch : JournalCommit} {id : JsString}

/-- The rows a commit has left of a session before it appends. -/
def rowsKept (store : JournalStore) (batch : JournalCommit) (id : JsString) :
    List BufferMutation :=
  if id ∈ batch.deleted ++ batch.clearEvents then [] else store.events id

theorem append_eq_some {change : JournalAppend} (h : store.append change = some after) :
    after.sessions = store.sessions ∧
      RowTable.addAll BufferMutation.seq (store.events change.sessionId) change.events =
        some (after.events change.sessionId) ∧
      ∀ other, other ≠ change.sessionId → after.events other = store.events other := by
  unfold append at h
  split at h
  · cases h
  · obtain ⟨rows, hrows, rfl⟩ := Option.map_eq_some_iff.1 h
    refine ⟨rfl, ?_, ?_⟩
    · rw [hrows, events, OrderedMap.get?_set_self]
      rfl
    · intro other hother
      rw [events, OrderedMap.get?_set_ne _ _ hother]
      rfl

theorem appendAll_eq_some {changes : List JournalAppend}
    (h : changes.foldlM append store = some after)
    (hnodup : (changes.map JournalAppend.sessionId).Nodup) :
    after.sessions = store.sessions ∧
      (∀ change ∈ changes,
        RowTable.addAll BufferMutation.seq (store.events change.sessionId) change.events =
          some (after.events change.sessionId)) ∧
      ∀ other ∉ changes.map JournalAppend.sessionId, after.events other = store.events other := by
  induction changes generalizing store with
  | nil =>
      rw [List.foldlM_nil] at h
      cases h
      exact ⟨rfl, by simp, fun _ _ => rfl⟩
  | cons change changes ih =>
      rw [List.foldlM_cons] at h
      obtain ⟨next, hnext, hrest⟩ := Option.bind_eq_some_iff.1 h
      rw [List.map_cons, List.nodup_cons] at hnodup
      obtain ⟨hsessions, hrows, hother⟩ := append_eq_some hnext
      obtain ⟨ihsessions, ihrows, ihother⟩ := ih hrest hnodup.2
      refine ⟨ihsessions.trans hsessions, ?_, ?_⟩
      · intro entry hentry
        by_cases heq : entry.sessionId = change.sessionId
        · rcases List.mem_cons.1 hentry with rfl | hentry
          · rw [hrows, ihother _ hnodup.1]
          · exact absurd (List.mem_map.2 ⟨entry, hentry, heq⟩) hnodup.1
        · rcases List.mem_cons.1 hentry with rfl | hentry
          · exact absurd rfl heq
          · rw [← hother _ heq]
            exact ihrows entry hentry
      · intro other hout
        rw [List.map_cons, List.mem_cons, not_or] at hout
        rw [ihother other hout.2, hother other hout.1]

theorem putSession_eq_some {session : SessionRecord}
    (h : store.putSession session = some after) :
    after = { store with sessions := store.sessions.set session.sessionId session } := by
  unfold putSession at h
  split at h
  · cases h
  · exact (Option.some.inj h).symm

theorem putSessions_eq_some {sessions : List SessionRecord}
    (h : sessions.foldlM putSession store = some after)
    (hnodup : (sessions.map SessionRecord.sessionId).Nodup) :
    after.rows = store.rows ∧
      (∀ session ∈ sessions, after.session session.sessionId = some session) ∧
      ∀ other ∉ sessions.map SessionRecord.sessionId,
        after.session other = store.session other := by
  induction sessions generalizing store with
  | nil =>
      rw [List.foldlM_nil] at h
      cases h
      exact ⟨rfl, by simp, fun _ _ => rfl⟩
  | cons session sessions ih =>
      rw [List.foldlM_cons] at h
      obtain ⟨next, hnext, hrest⟩ := Option.bind_eq_some_iff.1 h
      rw [List.map_cons, List.nodup_cons] at hnodup
      have hput := putSession_eq_some hnext
      subst hput
      obtain ⟨ihrows, ihput, ihother⟩ := ih hrest hnodup.2
      refine ⟨ihrows, ?_, ?_⟩
      · intro entry hentry
        rcases List.mem_cons.1 hentry with rfl | hentry
        · rw [ihother _ hnodup.1, JournalStore.session, OrderedMap.get?_set_self]
        · exact ihput entry hentry
      · intro other hout
        rw [List.map_cons, List.mem_cons, not_or] at hout
        rw [ihother other hout.2, JournalStore.session, OrderedMap.get?_set_ne _ _ hout.1]
        rfl

/-- How the storage differs after a commit. -/
structure Committed (store : JournalStore) (batch : JournalCommit) (after : JournalStore) :
    Prop where
  appended : ∀ change ∈ batch.appends,
    RowTable.addAll BufferMutation.seq (store.rowsKept batch change.sessionId) change.events =
      some (after.events change.sessionId)
  kept : ∀ id ∉ batch.appends.map JournalAppend.sessionId,
    after.events id = store.rowsKept batch id
  put : ∀ session ∈ batch.sessions, after.session session.sessionId = some session
  untouched : ∀ id ∉ batch.sessions.map SessionRecord.sessionId,
    after.session id = if id ∈ batch.deleted then none else store.session id

theorem commit_eq_some (h : store.commit batch = some after) (hdistinct : batch.Distinct) :
    store.Committed batch after := by
  unfold commit at h
  simp only at h
  obtain ⟨appended, happended, hput⟩ := Option.bind_eq_some_iff.1 h
  have hcleared : ∀ id, ((store.deleteRows (batch.deleted ++ batch.clearEvents)).deleteSessions
      batch.deleted).events id = store.rowsKept batch id := by
    intro id
    rw [rowsKept, events, deleteSessions, deleteRows]
    simp only
    rw [OrderedMap.get?_deleteAll]
    split
    · rfl
    · rfl
  obtain ⟨hsessions, happends, hkept⟩ := appendAll_eq_some happended hdistinct.appends
  obtain ⟨hrows, hsession, huntouched⟩ := putSessions_eq_some hput hdistinct.sessions
  have hevents : ∀ id, after.events id = appended.events id := by
    intro id
    rw [events, hrows, events]
  refine ⟨?_, ?_, hsession, ?_⟩
  · intro change hchange
    rw [← hcleared, hevents]
    exact happends change hchange
  · intro id hid
    rw [hevents, hkept id hid, hcleared]
  · intro id hid
    rw [huntouched id hid, session, hsessions]
    refine (store.sessions.get?_deleteAll batch.deleted id).trans ?_
    by_cases hdeleted : id ∈ batch.deleted
    · rw [if_pos hdeleted, if_pos hdeleted]
    · rw [if_neg hdeleted, if_neg hdeleted]
      rfl

end JournalStore

end Pmbah.Producer
