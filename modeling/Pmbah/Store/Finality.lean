import Pmbah.Store.RecordStore
import Pmbah.Store.StoreInvariant

/-!
# Finality of observed sessions

A session is final once a record is published for it: its checkpoints and its
record hash stay, and the checkpoints are tips of the record's chain.  Both paths
of publication, and every order of the calls, keep this.
-/

namespace Pmbah.Store

open Js Format Library

variable {A : Type}

/-- An upload binds to a session whose checkpoints are tips of its chain. -/
theorem observationView_ok {clock : Clock} {state : UploadState A}
    {session : Option ObservedSession} {tipAt : Nat → Option B3Hash}
    {observation : RecordObservation}
    (h : observationView clock state session tipAt = .ok observation) :
    observation.observedSessionId = none ∨
      ∃ observed, session = some observed ∧
        (∀ recordHash ∈ observed.finalizedRecordHash, recordHash = state.manifest.recordHash) ∧
        ∀ chain : List B3Hash, (∀ index, tipAt index = chain[index]?) →
          state.nextSeq = chain.length → Ascending observed.checkpoints →
            Reports chain observed.observedSessionId observed.checkpoints observation := by
  simp only [observationView] at h
  split at h
  · cases h
    exact Or.inl rfl
  · cases h
    exact Or.inl rfl
  split at h
  · cases h
  rename_i observed
  split at h
  · cases h
  split at h
  · cases h
  rename_i hfree
  split at h
  · cases h
  rename_i hmatch
  simp only [Except.ok.injEq] at h
  subst h
  right
  refine ⟨observed, rfl, ?_, ?_⟩
  · intro recordHash hhash
    rw [Option.mem_def.1 hhash] at hfree
    simpa using hfree
  · intro chain htips hcount hascending
    simp only [Bool.or_eq_true, List.isEmpty_iff, List.any_eq_true, beq_iff_eq,
      decide_eq_true_eq, not_or, not_exists, not_and] at hmatch
    refine ⟨rfl, sortCommitments_eq clock hascending, hmatch.1, ?_, ?_⟩
    · intro checkpoint hmem
      obtain ⟨hpos, htip⟩ := hmatch.2 checkpoint hmem
      rw [ne_eq, not_not, htips] at htip
      exact ⟨Nat.pos_of_ne_zero hpos, htip⟩
    · rw [← hcount]
      rfl

namespace RecordStore

/-- The chain of a stored record, over its events as they are kept. -/
def recordChain (P : Platform) (store : RecordStore A) (record : StoredRecord) :
    Except JsError (List B3Hash) :=
  computeEventHashChain P (store.recordEvents record) record.manifest.sessionId
    record.manifest.formatVersion

/-- The session that a record is published for. -/
def boundSession (record : StoredRecord) : Option JsString :=
  given record.observation.observedSessionId

/-- What ties a published record to its session. -/
def Binds (P : Platform) (store : RecordStore A) (record : StoredRecord) (id : JsString)
    (session : ObservedSession) : Prop :=
  session.finalizedRecordHash = some record.manifest.recordHash ∧
    ∃ chain, store.recordChain P record = .ok chain ∧
      Reports chain id session.checkpoints record.observation

structure Sound (P : Platform) (store : RecordStore A) : Prop where
  chunked : store.chunked.Sound P
  byHash : ∀ recordHash record, store.byHash.get? recordHash = some record →
    record.manifest.recordHash = recordHash ∧ record.eventStorage = .inline
  named : ∀ id session, store.observedSessions.get? id = some session →
    session.observedSessionId = id
  ascending : ∀ id session, store.observedSessions.get? id = some session →
    Ascending session.checkpoints
  bound : ∀ record id, store.Published record → boundSession record = some id →
    ∃ session, store.observedSessions.get? id = some session ∧ store.Binds P record id session
  final : ∀ id session recordHash, store.observedSessions.get? id = some session →
    session.finalizedRecordHash = some recordHash →
      ∃ record, store.Published record ∧ record.manifest.recordHash = recordHash ∧
        boundSession record = some id ∧ session.observationState = some record.observation.state

theorem sound_empty (P : Platform) : Sound P (empty : RecordStore A) where
  chunked := ChunkedStore.sound_empty P
  byHash := by simp [empty]
  named := by simp [empty]
  ascending := by simp [empty]
  bound := by simp [empty, Published, ChunkedStore.empty]
  final := by simp [empty]

/-! ## Steps that publish nothing -/

/-- A final session stays as it is, and a session that becomes final was final. -/
structure SameFinal (sessions next : OrderedMap JsString ObservedSession) : Prop where
  kept : ∀ id session recordHash, sessions.get? id = some session →
    session.finalizedRecordHash = some recordHash → next.get? id = some session
  back : ∀ id session recordHash, next.get? id = some session →
    session.finalizedRecordHash = some recordHash → sessions.get? id = some session

theorem SameFinal.refl (sessions : OrderedMap JsString ObservedSession) :
    SameFinal sessions sessions where
  kept _ _ _ h _ := h
  back _ _ _ h _ := h

/-- What stays of every published record. -/
structure KeepsRecords (store next : RecordStore A) : Prop where
  published : ∀ record, store.Published record → next.Published record
  events : ∀ record, store.Published record →
    next.recordEvents record = store.recordEvents record

theorem KeepsRecords.recordChain {P : Platform} {store next : RecordStore A}
    (h : KeepsRecords store next) {record : StoredRecord} (hrecord : store.Published record) :
    next.recordChain P record = store.recordChain P record := by
  rw [RecordStore.recordChain, RecordStore.recordChain, h.events record hrecord]

/-- Where the chunks of completed records stay, so do all published records. -/
theorem keepsRecords_of_chunked {P : Platform} {store next : RecordStore A}
    (hstore : store.Sound P) (hnext : next.chunked.Sound P)
    (hkeeps : ChunkedStore.Keeps store.chunked next.chunked)
    (hbyHash : ∀ recordHash record, store.byHash.get? recordHash = some record →
      next.byHash.get? recordHash = some record) : KeepsRecords store next where
  published record hrecord := by
    rcases hrecord with ⟨recordHash, hget⟩ | ⟨recordHash, hget⟩
    · exact Or.inl ⟨recordHash, hbyHash recordHash record hget⟩
    · exact Or.inr ⟨recordHash, hkeeps.completed recordHash record hget⟩
  events record hrecord := by
    rcases hrecord with ⟨recordHash, hget⟩ | ⟨recordHash, hget⟩
    · rw [recordEvents, recordEvents, (hstore.byHash recordHash record hget).2]
    · rw [recordEvents, recordEvents, (hstore.chunked.completed recordHash record hget).2.1,
        hkeeps.recordChunks_eq hstore.chunked hnext hget]

theorem Sound.quiet {P : Platform} {store next : RecordStore A} (h : store.Sound P)
    (hchunked : next.chunked.Sound P) (hkeeps : KeepsRecords store next)
    (hbyHash : next.byHash = store.byHash)
    (hcompleted : next.chunked.completed = store.chunked.completed)
    (hsessions : SameFinal store.observedSessions next.observedSessions)
    (hnamed : ∀ id session, next.observedSessions.get? id = some session →
      session.observedSessionId = id)
    (hascending : ∀ id session, next.observedSessions.get? id = some session →
      Ascending session.checkpoints) : next.Sound P where
  chunked := hchunked
  byHash := by
    rw [hbyHash]
    exact h.byHash
  named := hnamed
  ascending := hascending
  bound record id hrecord hid := by
    have hbefore : store.Published record := by
      rw [Published, hbyHash, hcompleted] at hrecord
      exact hrecord
    obtain ⟨session, hsession, hfinal, chain, hchain, hreports⟩ := h.bound record id hbefore hid
    refine ⟨session, hsessions.kept id session _ hsession hfinal, hfinal, chain, ?_, hreports⟩
    rw [hkeeps.recordChain hbefore, hchain]
  final id session recordHash hsession hfinal := by
    obtain ⟨record, hrecord, hrest⟩ :=
      h.final id session recordHash (hsessions.back id session recordHash hsession hfinal) hfinal
    exact ⟨record, hkeeps.published record hrecord, hrest⟩

/-! ## Checkpoints -/

/-- What a call of `appendObservedCheckpoint` does to the sessions. -/
theorem appendObservedCheckpoint_cases (clock : Clock)
    {sessions : OrderedMap JsString ObservedSession}
    (hascending : ∀ id session, sessions.get? id = some session → Ascending session.checkpoints)
    (input : AppendObservedCheckpointInput) (now checkpointId : JsString) :
    (∀ id, (appendObservedCheckpoint clock sessions input now checkpointId).1.get? id =
      sessions.get? id) ∨
    ∃ session checkpoint, (sessions.get? input.observedSessionId = some session ∨
        sessions.get? input.observedSessionId = none ∧ session.checkpoints = [] ∧
          session.observedSessionId = input.observedSessionId) ∧
      session.finalizedRecordHash = none ∧
      (∀ earlier ∈ session.checkpoints, earlier.eventCount < checkpoint.eventCount) ∧
      (appendObservedCheckpoint clock sessions input now checkpointId).1 =
        sessions.set input.observedSessionId
          { session with checkpoints := session.checkpoints ++ [checkpoint] } := by
  simp only [appendObservedCheckpoint]
  split
  · exact Or.inl fun _ => rfl
  rename_i session created hsession
  have hcases : session.finalizedRecordHash = none ∧
      (sessions.get? input.observedSessionId = some session ∨
        sessions.get? input.observedSessionId = none ∧ session.checkpoints = [] ∧
          session.observedSessionId = input.observedSessionId) := by
    unfold sessionForCheckpoint at hsession
    split at hsession
    · rename_i habsent
      split at hsession
      · cases hsession
      · simp only [Except.ok.injEq, Prod.mk.injEq] at hsession
        obtain ⟨rfl, -⟩ := hsession
        exact ⟨rfl, Or.inr ⟨habsent, rfl, rfl⟩⟩
    · rename_i found hfound
      split at hsession
      · cases hsession
      split at hsession
      · cases hsession
      · rename_i hopen
        simp only [Except.ok.injEq, Prod.mk.injEq] at hsession
        obtain ⟨rfl, -⟩ := hsession
        exact ⟨by simpa using hopen, Or.inl hfound⟩
  have hsorted : Ascending session.checkpoints := by
    rcases hcases.2 with hfound | ⟨-, hempty, -⟩
    · exact hascending _ session hfound
    · rw [hempty]
      exact .nil
  have hunchanged : sessions.get? input.observedSessionId = some session → ∀ id,
      (sessions.set input.observedSessionId session).get? id = sessions.get? id := by
    intro hfound id
    rw [OrderedMap.get?_set]
    split
    · rename_i hid
      rw [hid, hfound]
    · rfl
  split
  · rename_i error herror
    left
    rcases hcases.2 with hfound | ⟨-, hempty, -⟩
    · exact hunchanged hfound
    · obtain ⟨next, checkpoint, hok⟩ := appendToSession_fresh clock hempty input
        (input.observedAt.getD now) checkpointId
      rw [hok] at herror
      cases herror
  · rename_i next checkpoint checkpointCreated hok
    obtain ⟨-, -, ⟨-, rfl, hmem⟩ | ⟨-, hlt, rfl⟩⟩ := appendToSession_ok hsorted hok
    · left
      rcases hcases.2 with hfound | ⟨-, hempty, -⟩
      · exact hunchanged hfound
      · rw [hempty] at hmem
        cases hmem
    · exact Or.inr ⟨session, checkpoint, hcases.2, hcases.1, hlt, rfl⟩

/-! ## Publications -/

/-- What a publication does to the sessions. -/
inductive BindsSession (P : Platform) (store next : RecordStore A) (record : StoredRecord) : Prop where
  | none (free : boundSession record = .none)
      (same : next.observedSessions = store.observedSessions)
  | some {id : JsString} {session session' : ObservedSession} {chain : List B3Hash}
      (binds : boundSession record = .some id)
      (found : store.observedSessions.get? id = .some session)
      (free : ∀ recordHash ∈ session.finalizedRecordHash,
        recordHash = record.manifest.recordHash)
      (sessions : next.observedSessions = store.observedSessions.set id session')
      (named : session'.observedSessionId = session.observedSessionId)
      (checkpoints : session'.checkpoints = session.checkpoints)
      (finalized : session'.finalizedRecordHash = .some record.manifest.recordHash)
      (state : session'.observationState = .some record.observation.state)
      (recordChain : next.recordChain P record = .ok chain)
      (reports : Reports chain id session.checkpoints record.observation)

theorem Sound.publishes {P : Platform} {store next : RecordStore A} (h : store.Sound P)
    (hchunked : next.chunked.Sound P) (hkeeps : KeepsRecords store next)
    (hbyHash : ∀ recordHash record, next.byHash.get? recordHash = some record →
      record.manifest.recordHash = recordHash ∧ record.eventStorage = .inline)
    {record : StoredRecord} (hnew : next.Published record)
    (honly : ∀ other, next.Published other → store.Published other ∨ other = record)
    (hbinds : BindsSession P store next record) : next.Sound P := by
  refine ⟨hchunked, hbyHash, ?_, ?_, ?_, ?_⟩
  · intro id session hsession
    cases hbinds with
    | none _ same =>
        rw [same] at hsession
        exact h.named id session hsession
    | some binds found _ sessions named =>
        rw [sessions, OrderedMap.get?_set] at hsession
        split at hsession
        · rename_i hid
          simp only [Option.some.injEq] at hsession
          subst hsession
          rw [hid, named]
          exact h.named _ _ found
        · exact h.named id session hsession
  · intro id session hsession
    cases hbinds with
    | none _ same =>
        rw [same] at hsession
        exact h.ascending id session hsession
    | some binds found _ sessions _ checkpoints =>
        rw [sessions, OrderedMap.get?_set] at hsession
        split at hsession
        · simp only [Option.some.injEq] at hsession
          subst hsession
          rw [checkpoints]
          exact h.ascending _ _ found
        · exact h.ascending id session hsession
  · intro other id hother hid
    rcases honly other hother with hbefore | rfl
    · obtain ⟨session, hsession, hfinal, chain, hchain, hreports⟩ := h.bound other id hbefore hid
      rw [← hkeeps.recordChain hbefore] at hchain
      cases hbinds with
      | none _ same =>
          rw [same]
          exact ⟨session, hsession, hfinal, chain, hchain, hreports⟩
      | @some bound old session' _ binds found free sessions named checkpoints finalized =>
          rw [sessions, OrderedMap.get?_set]
          by_cases hsame : id = bound
          · subst hsame
            rw [if_pos rfl]
            rw [found, Option.some.injEq] at hsession
            subst hsession
            refine ⟨session', rfl, ?_, chain, hchain, by rw [checkpoints]; exact hreports⟩
            rw [finalized, free _ hfinal]
          · rw [if_neg hsame]
            exact ⟨session, hsession, hfinal, chain, hchain, hreports⟩
    · cases hbinds with
      | none free =>
          rw [free] at hid
          cases hid
      | @some bound old session' chain binds found free sessions named checkpoints finalized state
          recordChain reports =>
          rw [binds, Option.some.injEq] at hid
          subst hid
          rw [sessions, OrderedMap.get?_set_self]
          exact ⟨session', rfl, finalized, chain, recordChain, by rw [checkpoints]; exact reports⟩
  · intro id session recordHash hsession hfinal
    have hold : store.observedSessions.get? id = some session → ∃ record, next.Published record ∧
        record.manifest.recordHash = recordHash ∧ boundSession record = some id ∧
          session.observationState = some record.observation.state := by
      intro hget
      obtain ⟨other, hother, hrest⟩ := h.final id session recordHash hget hfinal
      exact ⟨other, hkeeps.published other hother, hrest⟩
    cases hbinds with
    | none _ same =>
        rw [same] at hsession
        exact hold hsession
    | @some bound old session' _ binds found free sessions named checkpoints finalized state =>
        rw [sessions, OrderedMap.get?_set] at hsession
        split at hsession
        · rename_i hid
          simp only [Option.some.injEq] at hsession
          subst hsession
          rw [finalized, Option.some.injEq] at hfinal
          exact ⟨record, hnew, hfinal, by rw [hid]; exact binds, state⟩
        · exact hold hsession

/-! ## Steps -/

/-- What one step does to the sessions. -/
inductive SessionMove (sessions next : OrderedMap JsString ObservedSession) : Prop where
  | same (unchanged : ∀ id, next.get? id = sessions.get? id)
  | checkpoint {id : JsString} {session : ObservedSession} {checkpoint : ObservationCommitment}
      (found : sessions.get? id = some session ∨
        sessions.get? id = none ∧ session.checkpoints = [] ∧ session.observedSessionId = id)
      (free : session.finalizedRecordHash = none)
      (greater : ∀ earlier ∈ session.checkpoints, earlier.eventCount < checkpoint.eventCount)
      (sessions : next = sessions.set id
        { session with checkpoints := session.checkpoints ++ [checkpoint] })
  | final {id : JsString} {session session' : ObservedSession} {recordHash : B3Hash}
      (found : sessions.get? id = some session)
      (free : ∀ other ∈ session.finalizedRecordHash, other = recordHash)
      (checkpoints : session'.checkpoints = session.checkpoints)
      (finalized : session'.finalizedRecordHash = some recordHash)
      (sessions : next = sessions.set id session')

theorem BindsSession.move {P : Platform} {store next : RecordStore A} {record : StoredRecord}
    (h : BindsSession P store next record) :
    SessionMove store.observedSessions next.observedSessions := by
  cases h with
  | none _ same => exact .same fun id => by rw [same]
  | some binds found free sessions named checkpoints finalized =>
      exact .final found free checkpoints finalized sessions

/-- The steps that try to publish a record. -/
def Action.Publishes : Action → Prop
  | .saveRecord _ _ => True
  | .resume => True
  | _ => False

theorem saveRecord_spec {P : Platform} (clock : Clock) {store : RecordStore A}
    (h : store.Sound P) (input : SaveRecordInput) (now : JsString) :
    (store.saveRecord P clock input now).1 = store ∨
      ((∃ result, (store.saveRecord P clock input now).2 = .ok result) ∧
        ∃ record, (store.saveRecord P clock input now).1.Sound P ∧
          BindsSession P store (store.saveRecord P clock input now).1 record) := by
  simp only [saveRecord]
  split
  · exact Or.inl rfl
  rename_i hnone
  split
  · split <;> exact Or.inl rfl
  rename_i hfresh
  split
  · exact Or.inl rfl
  split
  · exact Or.inl rfl
  rename_i sessions observation hbind
  right
  refine ⟨⟨_, rfl⟩, ?_⟩
  let record : StoredRecord :=
    { manifest := input.record.manifest
      events := input.record.events
      eventStorage := .inline
      shortSignature := input.shortSignature
      stats := input.stats
      signals := input.signals.getD []
      observation := observation.getD notRequestedObservation
      createdAt := input.createdAt.getD now }
  let next : RecordStore A := { store with
    byHash := store.byHash.set input.record.manifest.recordHash record
    byShortSignature :=
      store.byShortSignature.set input.shortSignature input.record.manifest.recordHash
    observedSessions := sessions }
  have hkept : ∀ recordHash other, store.byHash.get? recordHash = some other →
      next.byHash.get? recordHash = some other := by
    intro recordHash other hother
    show (store.byHash.set _ record).get? recordHash = some other
    rw [OrderedMap.get?_set_ne]
    · exact hother
    · rintro rfl
      rw [hfresh] at hother
      cases hother
  have hkeeps : KeepsRecords store next :=
    keepsRecords_of_chunked h h.chunked (ChunkedStore.Keeps.refl _) hkept
  have hbinds : BindsSession P store next record := by
    unfold bindRecord at hbind
    split at hbind
    · rename_i hunbound
      simp only [Except.ok.injEq, Prod.mk.injEq] at hbind
      obtain ⟨rfl, rfl⟩ := hbind
      refine BindsSession.none ?_ rfl
      show given (input.observation.getD notRequestedObservation).observedSessionId = none
      cases hobservation : input.observation with
      | none => rfl
      | some given => simpa [hobservation] using hunbound
    · rename_i id hid
      split at hbind
      · cases hbind
      rename_i session hsession
      split at hbind
      · cases hbind
      rename_i hfree
      split at hbind
      · cases hbind
      rename_i found hfound
      simp only [Except.ok.injEq, Prod.mk.injEq] at hbind
      obtain ⟨rfl, rfl⟩ := hbind
      obtain ⟨chain, hchain, hreports⟩ :=
        validateRecordObservation_ok (h.ascending id session hsession) hfound
      rw [h.named id session hsession] at hreports
      refine BindsSession.some ?_ hsession ?_ rfl rfl rfl rfl rfl hchain hreports
      · show given found.observedSessionId = some id
        rw [hreports.session]
        exact given_eq_some.2 ⟨rfl, (given_eq_some.1 hid).2⟩
      · intro recordHash hhash
        rw [Option.mem_def.1 hhash] at hfree
        simpa using hfree
  refine ⟨record, h.publishes h.chunked hkeeps ?_ (Or.inl ⟨_, OrderedMap.get?_set_self _ _ _⟩) ?_
    hbinds, hbinds⟩
  · intro recordHash other hother
    rw [OrderedMap.get?_set] at hother
    split at hother
    · rename_i hhash
      simp only [Option.some.injEq] at hother
      subst hother
      exact ⟨hhash.symm, rfl⟩
    · exact h.byHash recordHash other hother
  · rintro other (⟨recordHash, hother⟩ | hother)
    · simp only [OrderedMap.get?_set] at hother
      split at hother
      · simp only [Option.some.injEq] at hother
        exact Or.inr hother.symm
      · exact Or.inl (Or.inl ⟨recordHash, hother⟩)
    · exact Or.inl (Or.inr hother)

theorem finalizeSession_unbound {sessions : OrderedMap JsString ObservedSession}
    (observed : Option ObservedSession) (recordHash : B3Hash) {observation : RecordObservation}
    (h : given observation.observedSessionId = none) :
    ChunkedStore.finalizeSession sessions observed recordHash observation = sessions := by
  unfold ChunkedStore.finalizeSession
  rw [h]
  cases observed <;> rfl

theorem finalizeSession_bound {sessions : OrderedMap JsString ObservedSession}
    (session : ObservedSession) (recordHash : B3Hash) {observation : RecordObservation}
    {id : JsString} (h : given observation.observedSessionId = some id) :
    ChunkedStore.finalizeSession sessions (some session) recordHash observation =
      sessions.set session.observedSessionId { session with
        finalizedRecordHash := some recordHash
        observationState := some observation.state } := by
  unfold ChunkedStore.finalizeSession
  rw [h]

/-- A step that publishes nothing and leaves the sessions alone. -/
theorem Sound.unpublished {P : Platform} {store next : RecordStore A} (h : store.Sound P)
    (hchunked : next.chunked.Sound P) (hkeeps : ChunkedStore.Keeps store.chunked next.chunked)
    (hcompleted : next.chunked.completed = store.chunked.completed)
    (hbyHash : next.byHash = store.byHash)
    (hsessions : next.observedSessions = store.observedSessions) : next.Sound P := by
  refine h.quiet hchunked ?_ hbyHash hcompleted ?_ ?_ ?_
  · refine keepsRecords_of_chunked h hchunked hkeeps ?_
    rw [hbyHash]
    exact fun _ _ hget => hget
  · rw [hsessions]
    exact SameFinal.refl _
  · rw [hsessions]
    exact h.named
  · rw [hsessions]
    exact h.ascending

/-- A step that changes the chunked store alone and publishes nothing. -/
theorem Sound.withChunked {P : Platform} {store : RecordStore A} (h : store.Sound P)
    {chunked : ChunkedStore A} (hchunked : chunked.Sound P)
    (hkeeps : ChunkedStore.Keeps store.chunked chunked)
    (hcompleted : chunked.completed = store.chunked.completed) :
    ({ store with chunked } : RecordStore A).Sound P :=
  h.unpublished hchunked hkeeps hcompleted rfl rfl

/-- The chain of a record that has just been published from its chunks. -/
theorem recordChain_of_publish {P : Platform} {store next : RecordStore A}
    (record : StoredRecord) (state' : UploadState A)
    (hstore : store.Sound P) (hnext : next.chunked.Sound P) {object : Nat}
    {state : UploadState A} (hcurrent : store.chunked.Current object state)
    {chunks : OrderedMap Nat Chunk}
    (hchunks : store.chunked.chunks.get? state.uploadId = some chunks)
    (hnextChunks : next.chunked.chunks = store.chunked.chunks)
    (hobject : next.chunked.objects[object]? = some state')
    (howner : state'.publishedOwner = true) (hid : state'.uploadId = state.uploadId)
    (hstorage : record.eventStorage = .chunks)
    (hmanifest : state.manifest = record.manifest) (hmanifest' : state'.manifest = record.manifest)
    {tip : B3Hash} (htip : state.chainTip = some tip) :
    ∃ events, Holds P state chunks.entries events ∧ next.recordChain P record =
      .ok (eventChain P state.manifest.sessionId state.manifest.formatVersion events) := by
  obtain ⟨events, hholds⟩ := hstore.chunked.holds object state chunks hcurrent hchunks
  have hne : events ≠ [] := by
    rintro rfl
    have hnone := hholds.tip
    rw [htip] at hnone
    cases hnone
  obtain ⟨version, sessionId, count, duration, hreads⟩ :=
    manifestReads_of_valid (hstore.chunked.valid state hcurrent.mem)
  have huuid : isUuid state.manifest.sessionId = true := by
    rw [RecordManifest.sessionId, hreads.textAt_sessionId]
    exact hreads.uuid
  refine ⟨events, hholds, ?_⟩
  have hkept : next.chunked.recordChunks record = chunks.entries := by
    rw [hnext.recordChunks_eq hobject howner hmanifest', hnextChunks, hid, hchunks]
    rfl
  rw [recordChain, recordEvents, hstorage]
  simp only
  rw [hkept, ← hmanifest]
  exact hholds.computeEventHashChain_eq huuid hne

/-- The session that an upload is published for, if it is for one. -/
theorem bindsSession_of_publish {P : Platform} {clock : Clock} {store next : RecordStore A}
    (h : store.Sound P) {state : UploadState A} {chunks : OrderedMap Nat Chunk}
    {events : List BufferMutation} (hholds : Holds P state chunks.entries events)
    {record : StoredRecord} (hmanifest : record.manifest = state.manifest)
    (hchain : next.recordChain P record =
      .ok (eventChain P state.manifest.sessionId state.manifest.formatVersion events))
    (hobservation : observationView clock state
      (ChunkedStore.observedSession store.observedSessions state) (tipAt chunks.entries) =
        .ok record.observation)
    (hsessions : next.observedSessions = ChunkedStore.finalizeSession store.observedSessions
      (ChunkedStore.observedSession store.observedSessions state) state.manifest.recordHash
        record.observation) : BindsSession P store next record := by
  have hunbound (hgiven : given record.observation.observedSessionId = none) :
      BindsSession P store next record :=
    .none hgiven (by rw [hsessions, finalizeSession_unbound _ _ hgiven])
  rcases observationView_ok hobservation with hnone | ⟨observed, hobserved, hfree, hreports⟩
  · exact hunbound (by rw [hnone]; rfl)
  obtain ⟨id, hget⟩ : ∃ id, store.observedSessions.get? id = some observed := by
    unfold ChunkedStore.observedSession at hobserved
    split at hobserved
    · exact ⟨_, hobserved⟩
    · cases hobserved
  have hname := h.named id observed hget
  have hcount : state.nextSeq = (eventChain P state.manifest.sessionId
      state.manifest.formatVersion events).length := by
    rw [hholds.count, eventChain, ChainScheme.length_chain]
  have hreported := hreports _ hholds.tipAt_eq hcount (h.ascending id observed hget)
  rw [hname] at hreported
  by_cases hempty : id = []
  · exact hunbound (by rw [hreported.session, hempty]; rfl)
  have hgiven : given record.observation.observedSessionId = some id := by
    rw [hreported.session]
    exact given_eq_some.2 ⟨rfl, hempty⟩
  have hset : next.observedSessions = store.observedSessions.set id { observed with
      finalizedRecordHash := some state.manifest.recordHash
      observationState := some record.observation.state } := by
    rw [hsessions, hobserved, finalizeSession_bound observed _ hgiven, hname]
  rw [← hmanifest] at hfree hset
  exact .some hgiven hget hfree hset rfl rfl rfl rfl hchain hreported

/-- The upload of the oldest `finalize` is published. -/
theorem publish_spec {P : Platform} {clock : Clock} {options : ChunkedOptions A}
    {store next : RecordStore A} (h : store.Sound P) {task : Finalizing}
    {awaiting : List Finalizing} {state : UploadState A}
    (hawaiting : store.chunked.awaiting = task :: awaiting)
    (hobject : store.chunked.objects[task.object]? = some state)
    (hnew : store.chunked.completed.get? state.manifest.recordHash = none)
    {delays : OrderedMap Nat Nat} (hdelays : store.chunked.delays.get? task.uploadId = some delays)
    {data : Json × List Json} (hdata : derive P options state delays.entries = .ok data)
    {observation : RecordObservation}
    (hobservation : observationView clock state
      (ChunkedStore.observedSession store.observedSessions state)
      (tipAt ((store.chunked.chunks.get? task.uploadId).getD ∅).entries) = .ok observation)
    (hchunked : next.chunked =
      (store.chunked.resumed awaiting).publish task state data observation)
    (hsessions : next.observedSessions = ChunkedStore.finalizeSession store.observedSessions
      (ChunkedStore.observedSession store.observedSessions state) state.manifest.recordHash
        observation)
    (hbyHash : next.byHash = store.byHash) :
    next.Sound P ∧ SessionMove store.observedSessions next.observedSessions := by
  have upload := h.chunked.publishing hawaiting hobject hnew hdelays hdata
  have hsound : next.chunked.Sound P := by
    rw [hchunked]
    exact upload.sound h.chunked
  have hkeeps : ChunkedStore.Keeps store.chunked next.chunked := by
    rw [hchunked]
    exact upload.keeps h.chunked
  obtain ⟨-, tip, htip, -⟩ := ChunkedStore.derive_ok hdata
  obtain ⟨chunks, hchunks⟩ := upload.kept
  let record : StoredRecord :=
    { manifest := state.manifest, events := [], eventStorage := .chunks,
      shortSignature := task.shortSignature, stats := data.1, signals := data.2, observation,
      createdAt := state.manifest.ingestedServerT.getD [] }
  have hcompleted : next.chunked.completed =
      store.chunked.completed.set state.manifest.recordHash record := by
    rw [hchunked]
    rfl
  have hobject' : next.chunked.objects[task.object]? = some (ChunkedStore.published state) := by
    rw [hchunked]
    exact upload.object_self
  obtain ⟨events, hholds, hchain⟩ := recordChain_of_publish record (ChunkedStore.published state)
    h hsound upload.current hchunks (by rw [hchunked]; rfl) hobject' rfl rfl rfl rfl rfl htip
  rw [← upload.named, hchunks, Option.getD_some] at hobservation
  have hbinds : BindsSession P store next record :=
    bindsSession_of_publish h hholds rfl hchain hobservation hsessions
  have hkeepsRecords : KeepsRecords store next :=
    keepsRecords_of_chunked h hsound hkeeps (by rw [hbyHash]; exact fun _ _ hget => hget)
  refine ⟨h.publishes hsound hkeepsRecords (by rw [hbyHash]; exact h.byHash) ?_ ?_ hbinds,
    hbinds.move⟩
  · exact Or.inr ⟨_, by rw [hcompleted]; exact OrderedMap.get?_set_self _ _ _⟩
  · rintro other (⟨recordHash, hother⟩ | ⟨recordHash, hother⟩)
    · rw [hbyHash] at hother
      exact Or.inl (Or.inl ⟨recordHash, hother⟩)
    · rw [hcompleted, OrderedMap.get?_set] at hother
      split at hother
      · simp only [Option.some.injEq] at hother
        exact Or.inr hother.symm
      · exact Or.inl (Or.inr ⟨recordHash, hother⟩)

/-- A record that is found has the hash of the upload. -/
theorem existing_recordHash {P : Platform} {chunked : ChunkedStore A} (h : chunked.Sound P)
    {task : Finalizing} {state : UploadState A} {existing : StoredRecord}
    (hanswer : ∀ record ∈ task.found, record.manifest.recordHash = state.manifest.recordHash)
    (hexisting : task.found.or (chunked.findCompleted state.manifest.recordHash) = some existing) :
    existing.manifest.recordHash = state.manifest.recordHash := by
  rcases Option.or_eq_some_iff.1 hexisting with hfound | ⟨-, hget⟩
  · exact hanswer existing hfound
  · exact (h.completed _ existing hget).1

/-- The end of a `finalize`: a publication, or nothing new. -/
theorem finishFinalize_spec {P : Platform} (clock : Clock) (options : ChunkedOptions A)
    (next : RecordStore A) {store : RecordStore A} (h : store.Sound P) {task : Finalizing}
    {awaiting : List Finalizing} (hawaiting : store.chunked.awaiting = task :: awaiting)
    {result : Except StoreError Finalized}
    (hfinish : (store.chunked.resumed awaiting).finishFinalize P clock options
      store.observedSessions task = ((next.chunked, next.observedSessions), result))
    (hbyHash : next.byHash = store.byHash) :
    next.Sound P ∧
      (next.observedSessions = store.observedSessions ∨
        (∃ finalized, result = .ok finalized) ∧
          SessionMove store.observedSessions next.observedSessions) := by
  obtain ⟨state, hobject, -, hanswer⟩ := h.chunked.waiting task (by simp [hawaiting])
  have hrefused {error : StoreError}
      (hfinish : ((store.chunked.resumed awaiting, store.observedSessions), .error error) =
        ((next.chunked, next.observedSessions), result)) :
      next.Sound P ∧
        (next.observedSessions = store.observedSessions ∨
          (∃ finalized, result = .ok finalized) ∧
            SessionMove store.observedSessions next.observedSessions) := by
    simp only [Prod.mk.injEq] at hfinish
    obtain ⟨⟨hchunked, hsessions⟩, -⟩ := hfinish
    refine ⟨h.unpublished ?_ ?_ ?_ hbyHash hsessions.symm, Or.inl hsessions.symm⟩
    · rw [← hchunked]
      exact h.chunked.resumed hawaiting
    · rw [← hchunked]
      exact ChunkedStore.Keeps.resumed _ _
    · rw [← hchunked]
      rfl
  simp only [ChunkedStore.finishFinalize,
    show (store.chunked.resumed awaiting).objects = store.chunked.objects from rfl, hobject]
    at hfinish
  split at hfinish
  · rename_i existing hexisting
    simp only [Prod.mk.injEq] at hfinish
    obtain ⟨⟨hchunked, hsessions⟩, -⟩ := hfinish
    obtain ⟨hsound, hkeeps⟩ := ChunkedStore.finishExisting_sound h.chunked hawaiting hobject
      (existing_recordHash h.chunked hanswer hexisting)
    rw [hchunked] at hsound hkeeps
    refine ⟨h.unpublished hsound hkeeps ?_ hbyHash hsessions.symm, Or.inl hsessions.symm⟩
    rw [← hchunked]
    rfl
  rename_i habsent
  have hnew : store.chunked.completed.get? state.manifest.recordHash = none :=
    (Option.or_eq_none_iff.1 habsent).2
  split at hfinish
  · exact hrefused hfinish
  rename_i delays hdelays
  split at hfinish
  · exact hrefused hfinish
  rename_i data hdata
  split at hfinish
  · exact hrefused hfinish
  rename_i observation hobservation
  simp only [Prod.mk.injEq] at hfinish
  obtain ⟨⟨hchunked, hsessions⟩, hresult⟩ := hfinish
  obtain ⟨hsound, hmove⟩ := publish_spec h hawaiting hobject hnew hdelays hdata hobservation
    hchunked.symm hsessions.symm hbyHash
  exact ⟨hsound, Or.inr ⟨⟨_, hresult.symm⟩, hmove⟩⟩

/-- Sessions that are looked up as before. -/
theorem Sound.sameSessions {P : Platform} {store : RecordStore A} (h : store.Sound P)
    {observedSessions : OrderedMap JsString ObservedSession}
    (hsame : ∀ id, observedSessions.get? id = store.observedSessions.get? id) :
    ({ store with observedSessions } : RecordStore A).Sound P := by
  refine h.quiet h.chunked ?_ rfl rfl ⟨?_, ?_⟩ ?_ ?_
  · exact keepsRecords_of_chunked h h.chunked (ChunkedStore.Keeps.refl _) fun _ _ hget => hget
  · intro id session _ hget _
    rw [hsame]
    exact hget
  · intro id session _ hget _
    rw [hsame] at hget
    exact hget
  · intro id session hget
    rw [hsame] at hget
    exact h.named id session hget
  · intro id session hget
    rw [hsame] at hget
    exact h.ascending id session hget

/-- A session that is not final takes a later checkpoint. -/
theorem Sound.checkpointed {P : Platform} {store : RecordStore A} (h : store.Sound P)
    {sessionId : JsString} {session : ObservedSession} {checkpoint : ObservationCommitment}
    (hfound : store.observedSessions.get? sessionId = some session ∨
      store.observedSessions.get? sessionId = none ∧ session.checkpoints = [] ∧
        session.observedSessionId = sessionId)
    (hfree : session.finalizedRecordHash = none)
    (hgreater : ∀ earlier ∈ session.checkpoints, earlier.eventCount < checkpoint.eventCount) :
    ({ store with
      observedSessions := store.observedSessions.set sessionId
        { session with checkpoints := session.checkpoints ++ [checkpoint] } } :
      RecordStore A).Sound P := by
  have hother : ∀ {id : JsString} {found : ObservedSession} {recordHash : B3Hash},
      store.observedSessions.get? id = some found →
        found.finalizedRecordHash = some recordHash → id ≠ sessionId := by
    rintro id found recordHash hget hfinal rfl
    rcases hfound with hsession | ⟨hnone, -⟩
    · rw [hsession, Option.some.injEq] at hget
      subst hget
      rw [hfree] at hfinal
      cases hfinal
    · rw [hnone] at hget
      cases hget
  refine h.quiet h.chunked ?_ rfl rfl ⟨?_, ?_⟩ ?_ ?_
  · exact keepsRecords_of_chunked h h.chunked (ChunkedStore.Keeps.refl _) fun _ _ hget => hget
  · intro id found recordHash hget hfinal
    rw [OrderedMap.get?_set_ne _ _ (hother hget hfinal)]
    exact hget
  · intro id found recordHash hget hfinal
    rw [OrderedMap.get?_set] at hget
    split at hget
    · simp only [Option.some.injEq] at hget
      subst hget
      rw [hfree] at hfinal
      cases hfinal
    · exact hget
  · intro id found hget
    rw [OrderedMap.get?_set] at hget
    split at hget
    · rename_i hid
      simp only [Option.some.injEq] at hget
      subst hget
      rcases hfound with hsession | ⟨-, -, hname⟩
      · rw [hid]
        exact h.named _ session hsession
      · rw [hid]
        exact hname
    · exact h.named id found hget
  · intro id found hget
    rw [OrderedMap.get?_set] at hget
    split at hget
    · simp only [Option.some.injEq] at hget
      subst hget
      refine ascending_concat.2 ⟨?_, hgreater⟩
      rcases hfound with hsession | ⟨-, hempty, -⟩
      · exact h.ascending _ session hsession
      · rw [hempty]
        exact .nil
    · exact h.ascending id found hget

/-- A lookup by hash finds a record of that hash. -/
theorem Sound.findByRecordHash {P : Platform} {store : RecordStore A} (h : store.Sound P)
    (recordHash : B3Hash) :
    ∀ record ∈ store.findByRecordHash recordHash, record.manifest.recordHash = recordHash := by
  intro record hrecord
  rcases Option.or_eq_some_iff.1 hrecord with hinline | ⟨-, hcompleted⟩
  · exact (h.byHash recordHash record hinline).1
  · exact (h.chunked.completed recordHash record hcompleted).1

/-- What one call keeps, what it does to the sessions, and what a refused
publication leaves of them. -/
theorem perform_spec {P : Platform} {clock : Clock} {options : ChunkedOptions A}
    {store next : RecordStore A} (h : store.Sound P) {action : Action}
    {result : Except StoreError (Response A)}
    (hperform : store.perform P clock options action = some (next, result)) :
    next.Sound P ∧ SessionMove store.observedSessions next.observedSessions ∧
      (action.Publishes → (∃ error, result = .error error) →
        next.observedSessions = store.observedSessions) := by
  have hunchanged : SessionMove store.observedSessions store.observedSessions :=
    .same fun _ => rfl
  cases action with
  | appendObservedCheckpoint input now checkpointId =>
      simp only [perform, Option.some.injEq, Prod.mk.injEq] at hperform
      obtain ⟨rfl, -⟩ := hperform
      rcases appendObservedCheckpoint_cases clock h.ascending input now checkpointId with
        hsame | ⟨session, checkpoint, hfound, hfree, hgreater, hset⟩
      · exact ⟨h.sameSessions hsame, .same hsame, fun hpublishes => hpublishes.elim⟩
      · refine ⟨?_, .checkpoint hfound hfree hgreater hset, fun hpublishes => hpublishes.elim⟩
        rw [hset]
        exact h.checkpointed hfound hfree hgreater
  | getObservedSessionForBinding input =>
      simp only [perform, Option.some.injEq, Prod.mk.injEq] at hperform
      obtain ⟨rfl, -⟩ := hperform
      exact ⟨h, hunchanged, fun hpublishes => hpublishes.elim⟩
  | saveRecord input now =>
      simp only [perform, Option.some.injEq, Prod.mk.injEq] at hperform
      obtain ⟨rfl, rfl⟩ := hperform
      rcases saveRecord_spec clock h input now with hsame | ⟨⟨saved, hsaved⟩, record, hsound, hbinds⟩
      · rw [hsame]
        exact ⟨h, hunchanged, fun _ _ => rfl⟩
      · refine ⟨hsound, hbinds.move, ?_⟩
        rintro - ⟨error, herror⟩
        rw [hsaved] at herror
        cases herror
  | begin uploadId manifest observation starting =>
      simp only [perform, Option.some.injEq, Prod.mk.injEq] at hperform
      obtain ⟨rfl, -⟩ := hperform
      obtain ⟨hsound, hkeeps, hcompleted⟩ :=
        ChunkedStore.begin_sound options h.chunked uploadId manifest observation starting
      exact ⟨h.withChunked hsound hkeeps hcompleted, hunchanged, fun hpublishes => hpublishes.elim⟩
  | append uploadId offset events =>
      simp only [perform, Option.some.injEq, Prod.mk.injEq] at hperform
      obtain ⟨rfl, -⟩ := hperform
      obtain ⟨hsound, hkeeps, hcompleted⟩ :=
        ChunkedStore.append_sound options h.chunked uploadId offset events
      exact ⟨h.withChunked hsound hkeeps hcompleted, hunchanged, fun hpublishes => hpublishes.elim⟩
  | finalize uploadId shortSignature =>
      simp only [perform, Option.some.injEq, Prod.mk.injEq] at hperform
      obtain ⟨rfl, -⟩ := hperform
      obtain ⟨hsound, hkeeps, hcompleted⟩ :=
        ChunkedStore.finalize_sound h.chunked h.findByRecordHash uploadId shortSignature
      exact ⟨h.withChunked hsound hkeeps hcompleted, hunchanged, fun hpublishes => hpublishes.elim⟩
  | resume =>
      simp only [perform] at hperform
      split at hperform
      · cases hperform
      · rename_i task awaiting hawaiting
        rcases hfinish : ({ store.chunked with awaiting } : ChunkedStore A).finishFinalize P clock
          options store.observedSessions task with ⟨⟨chunked, observedSessions⟩, finished⟩
        rw [hfinish] at hperform
        simp only [Option.some.injEq, Prod.mk.injEq] at hperform
        obtain ⟨rfl, rfl⟩ := hperform
        obtain ⟨hsound, hsame | ⟨⟨finalized, rfl⟩, hmove⟩⟩ :=
          finishFinalize_spec clock options { store with chunked, observedSessions } h
            hawaiting hfinish rfl
        · exact ⟨hsound, .same fun id => congrArg (fun sessions => sessions.get? id) hsame,
            fun _ _ => hsame⟩
        · refine ⟨hsound, hmove, ?_⟩
          rintro - ⟨error, herror⟩
          cases herror

/-! ## Every run -/

/-- The checkpoints of a session, none before it is created. -/
def checkpointsOf (store : RecordStore A) (id : JsString) : List ObservationCommitment :=
  ((store.observedSessions.get? id).map ObservedSession.checkpoints).getD []

/-- A run of calls in any order. -/
def Reaches (P : Platform) (clock : Clock) (options : ChunkedOptions A)
    (store later : RecordStore A) : Prop :=
  Run (step P clock options) (fun _ _ => True) store later

/-- What a record published for a session says of it. -/
structure Settles (P : Platform) (store : RecordStore A) (session : ObservedSession)
    (record : StoredRecord) : Prop where
  recordHash : session.finalizedRecordHash = some record.manifest.recordHash
  commitments : record.observation.commitments = session.checkpoints
  tips : ∃ chain, store.recordChain P record = .ok chain ∧
    ∀ checkpoint ∈ session.checkpoints, 0 < checkpoint.eventCount ∧
      chain[checkpoint.eventCount - 1]? = some checkpoint.chainTip
  observed : record.observation.state = .observed ↔
    lastEventCount session.checkpoints = (store.recordEvents record).length
  bound : record.observation.state = .observed ∨ record.observation.state = .partly

/-- What holds of the sessions of a store and of every call that may come next. -/
structure SessionFinality (P : Platform) (clock : Clock) (options : ChunkedOptions A)
    (store : RecordStore A) : Prop where
  distinct : ∀ id, ((store.checkpointsOf id).map ObservationCommitment.eventCount).Nodup
  greater : ∀ action next id, store.step P clock options action = some next →
    next.checkpointsOf id = store.checkpointsOf id ∨
      ∃ checkpoint, next.checkpointsOf id = store.checkpointsOf id ++ [checkpoint] ∧
        ∀ earlier ∈ store.checkpointsOf id, earlier.eventCount < checkpoint.eventCount
  published : ∀ record id, store.Published record → boundSession record = some id →
    ∃ session, store.observedSessions.get? id = some session ∧ store.Settles P session record
  finalized : ∀ id session recordHash, store.observedSessions.get? id = some session →
    session.finalizedRecordHash = some recordHash →
      ∃ record, store.Published record ∧ boundSession record = some id ∧
        record.manifest.recordHash = recordHash ∧
        session.observationState = some record.observation.state
  frozen : ∀ id session recordHash later, store.observedSessions.get? id = some session →
    session.finalizedRecordHash = some recordHash → Reaches P clock options store later →
      ∃ session', later.observedSessions.get? id = some session' ∧
        session'.finalizedRecordHash = some recordHash ∧
        session'.checkpoints = session.checkpoints
  refused : ∀ action next error, action.Publishes →
    store.perform P clock options action = some (next, .error error) →
      next.observedSessions = store.observedSessions

theorem Binds.settles {P : Platform} {store : RecordStore A} {record : StoredRecord}
    {id : JsString} {session : ObservedSession} (h : store.Binds P record id session) :
    store.Settles P session record := by
  obtain ⟨hfinal, chain, hchain, hreports⟩ := h
  have hlength := length_computeEventHashChain hchain
  refine ⟨hfinal, hreports.commitments, ⟨chain, hchain, hreports.anchored⟩, ?_, ?_⟩
  · rw [hreports.observed_iff, hlength]
  · rw [hreports.state]
    by_cases hlast : lastEventCount session.checkpoints = chain.length <;> simp [hlast]

theorem SessionMove.greater {store next : RecordStore A}
    (h : SessionMove store.observedSessions next.observedSessions) (id : JsString) :
    next.checkpointsOf id = store.checkpointsOf id ∨
      ∃ checkpoint, next.checkpointsOf id = store.checkpointsOf id ++ [checkpoint] ∧
        ∀ earlier ∈ store.checkpointsOf id, earlier.eventCount < checkpoint.eventCount := by
  cases h with
  | same unchanged =>
      left
      rw [checkpointsOf, checkpointsOf, unchanged]
  | @checkpoint place session added found free greater sessions =>
      have hbefore : store.checkpointsOf place = session.checkpoints := by
        rw [checkpointsOf]
        rcases found with hfound | ⟨hnone, hempty, -⟩
        · rw [hfound]
          rfl
        · rw [hnone, hempty]
          rfl
      by_cases hid : id = place
      · subst hid
        right
        refine ⟨added, ?_, by rw [hbefore]; exact greater⟩
        rw [hbefore, checkpointsOf, sessions, OrderedMap.get?_set_self]
        rfl
      · left
        rw [checkpointsOf, checkpointsOf, sessions, OrderedMap.get?_set_ne _ _ hid]
  | @final place session session' recordHash found free checkpoints finalized sessions =>
      left
      rw [checkpointsOf, checkpointsOf, sessions, OrderedMap.get?_set]
      split
      · rename_i hid
        rw [hid, found, Option.map_some, Option.map_some, checkpoints]
      · rfl

/-- A session that is final stays so through one step. -/
theorem SessionMove.frozen {sessions next : OrderedMap JsString ObservedSession}
    (h : SessionMove sessions next) {id : JsString} {session : ObservedSession}
    {recordHash : B3Hash} (hget : sessions.get? id = some session)
    (hfinal : session.finalizedRecordHash = some recordHash) :
    ∃ session', next.get? id = some session' ∧
      session'.finalizedRecordHash = some recordHash ∧
      session'.checkpoints = session.checkpoints := by
  cases h with
  | same unchanged => exact ⟨session, by rw [unchanged, hget], hfinal, rfl⟩
  | @checkpoint place old added found free greater sessions =>
      have hid : id ≠ place := by
        rintro rfl
        rcases found with hfound | ⟨hnone, -⟩
        · rw [hget, Option.some.injEq] at hfound
          subst hfound
          rw [free] at hfinal
          cases hfinal
        · rw [hnone] at hget
          cases hget
      exact ⟨session, by rw [sessions, OrderedMap.get?_set_ne _ _ hid, hget], hfinal, rfl⟩
  | @final place old session' otherHash found free checkpoints finalized sessions =>
      rw [sessions, OrderedMap.get?_set]
      split
      · rename_i hid
        rw [hid, found, Option.some.injEq] at hget
        subst hget
        exact ⟨session', rfl, by rw [finalized, free recordHash hfinal], checkpoints⟩
      · exact ⟨session, hget, hfinal, rfl⟩

theorem sound_run {P : Platform} {clock : Clock} {options : ChunkedOptions A}
    {store later : RecordStore A} (h : store.Sound P) (run : Reaches P clock options store later) :
    later.Sound P := by
  refine Run.invariant ?_ run h
  intro store action next hsound _ htaken
  obtain ⟨⟨reached, result⟩, hperform, rfl⟩ := Option.map_eq_some_iff.1 htaken
  exact (perform_spec hsound hperform).1

/-- What is final in a store is final in every later one. -/
theorem frozen_run {P : Platform} {clock : Clock} {options : ChunkedOptions A}
    {store later : RecordStore A} (h : store.Sound P) (run : Reaches P clock options store later)
    {id : JsString} {session : ObservedSession} {recordHash : B3Hash}
    (hget : store.observedSessions.get? id = some session)
    (hfinal : session.finalizedRecordHash = some recordHash) :
    ∃ session', later.observedSessions.get? id = some session' ∧
      session'.finalizedRecordHash = some recordHash ∧
      session'.checkpoints = session.checkpoints := by
  induction run with
  | refl => exact ⟨session, hget, hfinal, rfl⟩
  | step run _ taken ih =>
      obtain ⟨session', hget', hfinal', hcheckpoints⟩ := ih
      obtain ⟨⟨reached, result⟩, hperform, rfl⟩ := Option.map_eq_some_iff.1 taken
      obtain ⟨-, hmove, -⟩ := perform_spec (sound_run h run) hperform
      obtain ⟨session'', hnext, hsame, hkept⟩ := hmove.frozen hget' hfinal'
      exact ⟨session'', hnext, hsame, hkept.trans hcheckpoints⟩

/-- Every order of calls leaves the sessions final as they should be. -/
theorem sessionFinality_run {P : Platform} {clock : Clock} {options : ChunkedOptions A}
    {store : RecordStore A} (run : Reaches P clock options .empty store) :
    SessionFinality P clock options store := by
  have hsound := sound_run (sound_empty P) run
  refine ⟨?_, ?_, ?_, ?_, ?_, ?_⟩
  · intro id
    rw [checkpointsOf]
    cases hget : store.observedSessions.get? id with
    | none => exact .nil
    | some session => exact (hsound.ascending id session hget).nodup
  · intro action next id htaken
    obtain ⟨⟨reached, result⟩, hperform, rfl⟩ := Option.map_eq_some_iff.1 htaken
    exact SessionMove.greater (perform_spec hsound hperform).2.1 id
  · intro record id hrecord hid
    obtain ⟨session, hget, hbinds⟩ := hsound.bound record id hrecord hid
    exact ⟨session, hget, hbinds.settles⟩
  · intro id session recordHash hget hfinal
    obtain ⟨record, hrecord, hhash, hid, hstate⟩ := hsound.final id session recordHash hget hfinal
    exact ⟨record, hrecord, hid, hhash, hstate⟩
  · intro id session recordHash later hget hfinal hlater
    exact frozen_run hsound hlater hget hfinal
  · intro action next error hpublishes hperform
    exact (perform_spec hsound hperform).2.2 hpublishes ⟨error, rfl⟩

/-! ## A run -/

/-- An analysis that counts nothing. -/
def exampleOptions : ChunkedOptions Unit where
  maxUploadEvents := 1000
  maxUploadBytes := 1000000
  byteLength events := events.length
  createAnalysisAccumulator _ := ()
  appendAnalysisEvent _ _ := ()
  observedLength _ := none
  finalizeAnalysis _ _ _ := .ok (.obj [], [])

def exampleClock : Clock where
  localeCompare left right := left.length - right.length
  parse _ := 0

def exampleHash : B3Hash := ⟨List.replicate 32 0, B3Hash.zeros_length⟩

def exampleSessionId : JsString := js "00000000-0000-4000-8000-000000000001"

def exampleManifest : RecordManifest where
  json := .obj [(js "format_version", .str (js "0.2")), (js "session_id", .str exampleSessionId),
    (js "record_hash", .str exampleHash.text), (js "event_count", Json.ofNat 1)]
  wellFormed := by decide
  recordHash := exampleHash
  recorded := rfl

def exampleEvent : BufferMutation where
  seq := 0
  t := 5
  op := .insert
  pos := some 0
  delLen := some 0
  insLen := some 1
  source := .typing

/-- One event, at the time `t`. -/
def uploadEvent (t : Nat) : BufferMutation := { exampleEvent with t }

def uploadJson (recordHash : B3Hash) : Json :=
  .obj [(js "format_version", .str (js "0.2")), (js "record_hash", .str recordHash.text),
    (js "session_id", .str exampleSessionId),
    (js "producer", .obj [(js "id", .str (js "p")), (js "version", .str (js "1")),
      (js "capabilities", .arr [])]),
    (js "event_count", Json.ofNat 1), (js "duration_ms", Json.ofNat 100),
    (js "attestations", .arr []), (js "ingested_server_t", .null)]

/-- The hash of a record of one event. -/
def uploadHash (t : Nat) : B3Hash :=
  let tip := (eventScheme Platform.standard).advance
    (chainStart exampleSessionId .v0_2) none (uploadEvent t)
  match sealManifest Platform.standard (uploadJson exampleHash) tip with
  | .ok recordHash => recordHash
  | .error _ => exampleHash

def uploadManifest (t : Nat) : RecordManifest where
  json := uploadJson (uploadHash t)
  wellFormed := rfl
  recordHash := uploadHash t
  recorded := rfl

/-- A checkpoint after the first event. -/
def exampleCheckpoint (t : Nat) (observed : String) : Action :=
  .appendObservedCheckpoint
    { observedSessionId := js observed, observedTokenHash := none,
      newObservedTokenHash := js "token", eventCount := 1
      chainTip := (eventScheme Platform.standard).advance (chainStart exampleSessionId .v0_2) none
        (uploadEvent t)
      observedAt := none } (js "now") (js "checkpoint")

/-- The record of the first event is posted for one session, and uploaded for another, whose
`finalize` waits while a checkpoint is refused and another record is begun. -/
def exampleCalls : List Action :=
  let uploadId := js "00000000-0000-4000-8000-000000000001"
  [exampleCheckpoint 5 "observed",
    .saveRecord
      { record := ⟨exampleManifest, [exampleEvent.toJson]⟩, shortSignature := js "short",
        stats := .obj [], signals := none,
        observation := some (observationFromCheckpoints exampleClock (js "observed") .observed []),
        createdAt := none } (js "now"),
    exampleCheckpoint 2 "uploaded",
    .begin uploadId (uploadManifest 2) (some (.bound (js "uploaded") (js "token"))) none,
    .append uploadId 0 [(uploadEvent 2).toJson], .finalize uploadId (js "chunked"),
    exampleCheckpoint 6 "observed",
    .begin (js "00000000-0000-4000-8000-000000000002") (uploadManifest 6) none none, .resume]

/-- The session is final with this record, and has been observed to its end. -/
def observedTo (store : RecordStore Unit) (id : JsString) (recordHash : B3Hash) : Bool :=
  (store.observedSessions.get? id).any fun session =>
    decide (session.finalizedRecordHash = some recordHash) &&
      decide (session.observationState = some .observed)

theorem sessionFinality_observed : ∃ store,
    observedTo store (js "observed") exampleHash = true ∧
      observedTo store (js "uploaded") (uploadHash 2) = true ∧
      SessionFinality Platform.standard exampleClock exampleOptions store := by
  have hrun : (runAll (step Platform.standard exampleClock exampleOptions) (fun _ _ => True)
      .empty exampleCalls).any (fun store => observedTo store (js "observed") exampleHash &&
        observedTo store (js "uploaded") (uploadHash 2)) = true := by
    decide +kernel
  obtain ⟨store, hstore, hsessions⟩ := (Option.any_eq_true _ _).1 hrun
  rw [Bool.and_eq_true] at hsessions
  exact ⟨store, hsessions.1, hsessions.2, sessionFinality_run (Run.of_runAll hstore)⟩

end RecordStore

end Pmbah.Store
