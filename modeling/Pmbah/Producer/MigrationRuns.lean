import Pmbah.Producer.LegacyMigration

/-!
# Runs of the migration

An attempt may end after any of its transactions.  What it leaves behind is cleared
by the next one, and the marker is set over complete imports only.
-/

namespace Pmbah.Producer

open Js Format Library

variable {P : Platform} {session : LegacySession} {metadata : SessionRecord}
  {legacy rest : List LegacySession} {store after : JournalStore}

/-! ## The checks -/

def LegacySession.id (session : LegacySession) : JsString := session.record.sessionId

theorem checkLegacy_ok {ids : List JsString} (h : checkLegacy legacy ids = .ok ()) :
    (∀ session ∈ legacy, session.metadataValid = true) ∧
      (legacy.map LegacySession.id).Nodup ∧ ∀ session ∈ legacy, session.id ∉ ids := by
  induction legacy generalizing ids with
  | nil => exact ⟨by simp, .nil, by simp⟩
  | cons session rest ih =>
      rw [checkLegacy] at h
      split at h
      · cases h
      · rename_i hvalid
        split at h
        · cases h
        · rename_i hout
          obtain ⟨hvalids, hnodup, hfresh⟩ := ih h
          rw [List.contains_iff_mem] at hout
          refine ⟨?_, ?_, ?_⟩
          · intro other hother
            rcases List.mem_cons.1 hother with rfl | hother
            · simpa using hvalid
            · exact hvalids other hother
          · rw [List.map_cons, List.nodup_cons]
            refine ⟨?_, hnodup⟩
            intro hmem
            obtain ⟨other, hother, heq⟩ := List.mem_map.1 hmem
            apply hfresh other hother
            rw [heq, LegacySession.id]
            exact List.mem_append_right _ (List.mem_singleton.2 rfl)
          · intro other hother
            rcases List.mem_cons.1 hother with rfl | hother
            · exact hout
            · exact fun hmem => hfresh other hother (List.mem_append_left _ hmem)

/-- The checks of the snapshot pass, and those of each of its sessions. -/
structure Importable (P : Platform) (legacy : List LegacySession) : Prop where
  checked : checkLegacy legacy [] = .ok ()
  prepared : ∀ session ∈ legacy, ∃ metadata, session.prepare P = .ok metadata

theorem Importable.uuid (h : Importable P legacy) (hmem : session ∈ legacy) :
    isUuid session.id = true := by
  have hvalid := (checkLegacy_ok h.checked).1 session hmem
  simp only [LegacySession.metadataValid, Bool.and_eq_true] at hvalid
  exact hvalid.1.1.1.1

/-- What the chain of valid events comes to, over values that carry them. -/
theorem foldlM_advanceTip {record : SessionRecord} (huuid : isUuid record.sessionId = true)
    {values : List Json} {events : List BufferMutation} (hreads : ReadsAsLog values events)
    {index : Nat} {t : Int} (hvalid : ValidFrom index t events) {previous : Option B3Hash}
    (hprevious : previous = none ↔ index = 0) :
    values.foldlM (LegacySession.advanceTip P record) previous =
      .ok ((eventScheme P).tipFrom (chainStart record.sessionId record.formatVersion)
        previous events) := by
  induction hreads generalizing index t previous with
  | nil => rfl
  | @cons value event values events hvalue _ ih =>
      obtain ⟨hevent, hseq, -, hrest⟩ := hvalid
      have hadvance : advanceEventHash P previous value record.sessionId record.formatVersion =
          .ok ((eventScheme P).advance (chainStart record.sessionId record.formatVersion)
            previous event) :=
        advanceEventHash_ok.2 ⟨huuid, event, hevent, hvalue, by rw [hprevious, hseq], rfl⟩
      rw [List.foldlM_cons, LegacySession.advanceTip, hadvance]
      exact ih hrest (by simp)

/-- The chain that was computed is the one of the events. -/
theorem foldlM_advanceTip_ok {record : SessionRecord} {values : List Json}
    {events : List BufferMutation} (hreads : ReadsAsLog values events)
    {previous tip : Option B3Hash}
    (h : values.foldlM (LegacySession.advanceTip P record) previous = .ok tip) :
    tip = (eventScheme P).tipFrom (chainStart record.sessionId record.formatVersion)
      previous events := by
  induction hreads generalizing previous with
  | nil =>
      cases h
      rfl
  | @cons value event values events hvalue _ ih =>
      rw [List.foldlM_cons, bind_eq_ok] at h
      obtain ⟨next, hnext, hrest⟩ := h
      unfold LegacySession.advanceTip at hnext
      cases hadvance : advanceEventHash P previous value record.sessionId
          record.formatVersion with
      | error thrown =>
          rw [hadvance] at hnext
          cases hnext
      | ok advanced =>
          rw [hadvance] at hnext
          cases hnext
          obtain ⟨-, other, -, hother, -, rfl⟩ := advanceEventHash_ok.1 hadvance
          have heq : other = event :=
            (readEvent_of_readsAs hother).symm.trans (readEvent_of_readsAs hvalue)
          rw [heq] at hrest
          exact ih hrest

/-- What the metadata says of the events. -/
structure LegacySession.Prepared (P : Platform) (session : LegacySession)
    (metadata : SessionRecord) : Prop where
  reads : ReadsAsLog session.events session.rows
  valid : ValidLog session.rows
  metadata_eq : metadata = { session.record with
    events := []
    journaled := true
    eventCount := some session.rows.length
    lastEventT := some ((session.rows.getLast?.map BufferMutation.t).getD 0)
    lastEventChainTip := eventTip P session.id session.record.formatVersion session.rows }

theorem LegacySession.length_rows (session : LegacySession) :
    session.rows.length = session.events.length := List.length_map _

theorem LegacySession.prepare_ok (h : session.prepare P = .ok metadata) :
    session.Prepared P metadata := by
  unfold LegacySession.prepare at h
  split at h
  · cases h
  · cases h
  · rename_i hvalidated
    split at h
    · cases h
    · rename_i tip htip
      split at h
      · cases h
      · cases h
        obtain ⟨events, hreads, hvalid⟩ := validateEventLog_eq_nil.1 hvalidated
        have hrows : session.rows = events := hreads.map_readEvent
        rw [← hrows] at hreads hvalid
        refine ⟨hreads, hvalid, ?_⟩
        rw [foldlM_advanceTip_ok hreads htip, LegacySession.length_rows]
        rfl

variable {state next : Migration}

namespace LegacySession.Prepared

theorem sessionId (h : session.Prepared P metadata) : metadata.sessionId = session.id := by
  rw [h.metadata_eq]
  rfl

theorem tip (h : session.Prepared P metadata) : metadata.lastEventChainTip =
    eventTip P session.id session.record.formatVersion session.rows := by
  rw [h.metadata_eq]

theorem numbered (h : session.Prepared P metadata) :
    RowTable.Numbered BufferMutation.seq session.rows := h.valid.seq_eq

end LegacySession.Prepared

/-- A page of complete rows. -/
theorem readEvents_eq {id : JsString} {log : List BufferMutation}
    (hnumbered : RowTable.Numbered BufferMutation.seq log) (hrows : store.events id = log)
    (start : Nat) :
    store.readEvents id start Migration.importPage = (log.drop start).take Migration.importPage := by
  have hcongr : log.filter (fun event => decide (start ≤ event.seq) &&
      decide (event.seq ≤ start + Migration.importPage - 1)) = log.filter (fun event =>
        decide (start ≤ event.seq) && decide (event.seq < start + Migration.importPage)) := by
    apply List.filter_congr
    intro event _
    congr 1
    rw [decide_eq_decide, Migration.importPage]
    omega
  rw [JournalStore.readEvents, hrows, hcongr, hnumbered.filter_range, List.drop_take,
    Nat.add_sub_cancel_left, List.take_take, Nat.min_self]

/-! ## Transactions -/

/-- The session is stored as the snapshot has it. -/
structure LegacySession.Imported (P : Platform) (session : LegacySession)
    (store : JournalStore) : Prop where
  stored : ∃ metadata, session.prepare P = .ok metadata ∧
    store.session session.id = some metadata
  kept : store.events session.id = session.rows

theorem commit_clear (store : JournalStore) (id : JsString) :
    ∃ after, store.commit ⟨[], [], [id], []⟩ = some after ∧ after.events id = [] ∧
      after.session id = none ∧ ∀ other, other ≠ id →
        after.events other = store.events other ∧ after.session other = store.session other := by
  obtain ⟨after, hafter⟩ : ∃ after, store.commit ⟨[], [], [id], []⟩ = some after := ⟨_, rfl⟩
  have hspec := JournalStore.commit_eq_some hafter ⟨.nil, .nil⟩
  refine ⟨after, hafter, ?_, ?_, ?_⟩
  · rw [hspec.kept id (by simp), JournalStore.rowsKept, if_pos (by simp)]
  · rw [hspec.untouched id (by simp), if_pos (by simp)]
  · intro other hother
    rw [hspec.kept other (by simp), JournalStore.rowsKept, if_neg (by simp [hother]),
      hspec.untouched other (by simp), if_neg (by simp [hother])]
    exact ⟨rfl, rfl⟩

theorem commit_page {id : JsString} {log : List BufferMutation}
    (hnumbered : RowTable.Numbered BufferMutation.seq log) {start : Nat}
    (hrows : store.events id = log.take start) :
    ∃ after, store.commit
        ⟨[], [⟨id, (log.drop start).take Migration.importPage⟩], [], []⟩ = some after ∧
      after.events id = log.take (start + Migration.importPage) ∧
      after.session id = store.session id ∧ ∀ other, other ≠ id →
        after.events other = store.events other ∧ after.session other = store.session other := by
  have hadd : RowTable.addAll BufferMutation.seq (store.events id)
      ((log.drop start).take Migration.importPage) =
        some (log.take (start + Migration.importPage)) := by
    rw [hrows, List.take_add]
    apply RowTable.addAll_append
    rw [← List.take_add]
    intro i row hrow
    rw [List.getElem?_take] at hrow
    split at hrow
    · exact hnumbered i row hrow
    · cases hrow
  have hlength : ¬ 4096 < ((log.drop start).take Migration.importPage).length := by
    rw [List.length_take, Migration.importPage]
    omega
  obtain ⟨after, hafter⟩ : ∃ after, store.commit
      ⟨[], [⟨id, (log.drop start).take Migration.importPage⟩], [], []⟩ = some after := by
    refine ⟨{ store with rows := store.rows.set id (log.take (start + Migration.importPage)) }, ?_⟩
    show (Option.bind (List.foldlM JournalStore.append store _) _) = _
    rw [List.foldlM_cons, JournalStore.append, if_neg hlength, hadd]
    rfl
  have hspec := JournalStore.commit_eq_some hafter ⟨by simp, .nil⟩
  refine ⟨after, hafter, ?_, ?_, ?_⟩
  · have happended := hspec.appended _ (List.mem_singleton.2 rfl)
    rw [JournalStore.rowsKept, if_neg (by simp), hadd] at happended
    exact (Option.some.inj happended).symm
  · rw [hspec.untouched id (by simp), if_neg (by simp)]
  · intro other hother
    rw [hspec.kept other (by simpa using hother), JournalStore.rowsKept, if_neg (by simp),
      hspec.untouched other (by simp), if_neg (by simp)]
    exact ⟨rfl, rfl⟩

theorem commit_metadata (store : JournalStore) (hmetadata : session.Prepared P metadata) :
    ∃ after, store.commit ⟨[metadata], [], [], []⟩ = some after ∧
      after.session session.id = some metadata ∧ (∀ id, after.events id = store.events id) ∧
      ∀ other, other ≠ session.id → after.session other = store.session other := by
  obtain ⟨after, hafter⟩ : ∃ after, store.commit ⟨[metadata], [], [], []⟩ = some after := by
    refine ⟨{ store with sessions := store.sessions.set metadata.sessionId metadata }, ?_⟩
    show ((store.putSession metadata).bind fun next => some next) = _
    rw [JournalStore.putSession, if_neg]
    · rfl
    · rw [hmetadata.metadata_eq]
      simp
  have hspec := JournalStore.commit_eq_some hafter ⟨.nil, by simp⟩
  refine ⟨after, hafter, ?_, ?_, ?_⟩
  · have hput := hspec.put metadata (List.mem_singleton.2 rfl)
    rwa [hmetadata.sessionId] at hput
  · intro id
    rw [hspec.kept id (by simp), JournalStore.rowsKept, if_neg (by simp)]
  · intro other hother
    rw [hspec.untouched other (by simpa [hmetadata.sessionId] using hother), if_neg (by simp)]

/-- The two stores agree on a session. -/
def SameSession (store after : JournalStore) (id : JsString) : Prop :=
  after.events id = store.events id ∧ after.session id = store.session id

theorem LegacySession.Imported.congr (h : session.Imported P store)
    (hsame : SameSession store after session.id) : session.Imported P after := by
  obtain ⟨metadata, hprepare, hstored⟩ := h.stored
  exact ⟨⟨metadata, hprepare, hsame.2.trans hstored⟩, hsame.1.trans h.kept⟩

/-! ## The invariant of an import -/

namespace Migration

/-- How far the import of a session has got. -/
def StageHolds (P : Platform) (session : LegacySession) (store : JournalStore) :
    ImportStage → Prop
  | .clearing => True
  | .appending start =>
      store.events session.id = session.rows.take start ∧ store.session session.id = none
  | .verifying start verifiedTip =>
      store.events session.id = session.rows ∧ store.session session.id = none ∧
        verifiedTip = eventTip P session.id session.record.formatVersion
          (session.rows.take start)
  | .putting => store.events session.id = session.rows ∧ store.session session.id = none

def AttemptHolds (P : Platform) (legacy : List LegacySession) (store : JournalStore) :
    MigrationAttempt → Prop
  | .resting => True
  | .failed _ => True
  | .importing session metadata stage rest =>
      checkLegacy legacy [] = .ok () ∧ session.prepare P = .ok metadata ∧
        StageHolds P session store stage ∧
        ∃ done, legacy = done ++ session :: rest ∧
          ∀ earlier ∈ done, earlier.Imported P store
  | .marking => checkLegacy legacy [] = .ok () ∧ ∀ session ∈ legacy, session.Imported P store
  | .removing => False

/-- Metadata of a session is not found without its rows, unless it was there before. -/
def Whole (P : Platform) (first store : JournalStore) (session : LegacySession) : Prop :=
  SameSession first store session.id ∨ store.session session.id = none ∨
    session.Imported P store

/-- What holds until the marker is set. -/
structure Pending (P : Platform) (first : JournalStore) (legacy : List LegacySession)
    (state : Migration) : Prop where
  source : state.legacy = legacy
  others : ∀ id ∉ legacy.map LegacySession.id, SameSession first state.store id
  whole : ∀ session ∈ legacy, Whole P first state.store session
  attempt : AttemptHolds P legacy state.store state.attempt

variable {first : JournalStore} {done : List LegacySession}

theorem attemptHolds_importNext (hchecked : checkLegacy legacy [] = .ok ())
    (hlegacy : legacy = done ++ rest) (hdone : ∀ earlier ∈ done, earlier.Imported P store) :
    AttemptHolds P legacy store (importNext P rest) := by
  cases rest with
  | nil =>
      rw [List.append_nil] at hlegacy
      exact ⟨hchecked, hlegacy ▸ hdone⟩
  | cons session rest =>
      rw [importNext]
      split
      · trivial
      · rename_i metadata hprepare
        exact ⟨hchecked, hprepare, trivial, done, hlegacy, hdone⟩

theorem attemptHolds_verifyFrom {start : Nat} {verifiedTip : Option B3Hash}
    (hchecked : checkLegacy legacy [] = .ok ()) (hprepare : session.prepare P = .ok metadata)
    (hlegacy : legacy = done ++ session :: rest)
    (hdone : ∀ earlier ∈ done, earlier.Imported P store)
    (hstage : StageHolds P session store (.verifying start verifiedTip)) :
    AttemptHolds P legacy store (verifyFrom session metadata rest start verifiedTip) := by
  rw [verifyFrom]
  split
  · exact ⟨hchecked, hprepare, hstage, done, hlegacy, hdone⟩
  · split
    · trivial
    · exact ⟨hchecked, hprepare, ⟨hstage.1, hstage.2.1⟩, done, hlegacy, hdone⟩

theorem attemptHolds_appendFrom {start : Nat}
    (hchecked : checkLegacy legacy [] = .ok ()) (hprepare : session.prepare P = .ok metadata)
    (hlegacy : legacy = done ++ session :: rest)
    (hdone : ∀ earlier ∈ done, earlier.Imported P store)
    (hstage : StageHolds P session store (.appending start)) :
    AttemptHolds P legacy store (appendFrom session metadata rest start) := by
  rw [appendFrom]
  split
  · exact ⟨hchecked, hprepare, hstage, done, hlegacy, hdone⟩
  · rename_i hend
    apply attemptHolds_verifyFrom hchecked hprepare hlegacy hdone
    refine ⟨?_, hstage.2, by rw [List.take_zero]; rfl⟩
    rw [hstage.1, List.take_of_length_le]
    rw [session.length_rows]
    omega

/-- The sessions imported before are not the one at work. -/
theorem id_ne_of_checked (hchecked : checkLegacy legacy [] = .ok ())
    (hlegacy : legacy = done ++ session :: rest) :
    ∀ earlier ∈ done, earlier.id ≠ session.id := by
  intro earlier hearlier heq
  have hnodup := (checkLegacy_ok hchecked).2.1
  rw [hlegacy, List.map_append, List.map_cons] at hnodup
  exact List.disjoint_of_nodup_append hnodup (List.mem_map_of_mem hearlier)
    (heq ▸ List.mem_cons_self)

/-- A transaction that concerns the session at work alone. -/
theorem Pending.transacted (h : Pending P first legacy state)
    (hchecked : checkLegacy legacy [] = .ok ()) (hlegacy : legacy = done ++ session :: rest)
    (hother : ∀ other, other ≠ session.id → SameSession state.store after other)
    (hwhole : Whole P first after session) {attempt : MigrationAttempt}
    (hattempt : AttemptHolds P legacy after attempt) :
    Pending P first legacy { state with store := after, attempt } where
  source := h.source
  others id hid := by
    have hne : id ≠ session.id := by
      rintro rfl
      exact hid (List.mem_map_of_mem (hlegacy ▸ by simp))
    exact ⟨(hother id hne).1.trans (h.others id hid).1, (hother id hne).2.trans (h.others id hid).2⟩
  whole other hmem := by
    by_cases heq : other.id = session.id
    · have hsame : other = session :=
        List.inj_on_of_nodup_map (checkLegacy_ok hchecked).2.1 hmem (hlegacy ▸ by simp) heq
      rw [hsame]
      exact hwhole
    · have hkept := hother other.id heq
      rcases h.whole other hmem with hsame | hnone | himported
      · exact Or.inl ⟨hkept.1.trans hsame.1, hkept.2.trans hsame.2⟩
      · exact Or.inr (Or.inl (hkept.2.trans hnone))
      · exact Or.inr (Or.inr (himported.congr hkept))
  attempt := hattempt

/-- The tip after a page. -/
theorem tip_page (session : LegacySession) (start : Nat) :
    (eventScheme P).tipFrom (chainStart session.record.sessionId session.record.formatVersion)
        (eventTip P session.id session.record.formatVersion (session.rows.take start))
        ((session.rows.drop start).take importPage) =
      eventTip P session.id session.record.formatVersion
        (session.rows.take (start + importPage)) := by
  rw [List.take_add]
  exact (ChainScheme.tipFrom_append _ _ _ _ _).symm

theorem attemptHolds_verifyPage {start : Nat} {verifiedTip : Option B3Hash}
    (hchecked : checkLegacy legacy [] = .ok ()) (hprepare : session.prepare P = .ok metadata)
    (hlegacy : legacy = done ++ session :: rest)
    (hdone : ∀ earlier ∈ done, earlier.Imported P store)
    (hstage : StageHolds P session store (.verifying start verifiedTip)) :
    AttemptHolds P legacy store (verifyPage P session metadata rest start verifiedTip
      (store.readEvents session.record.sessionId start importPage)) := by
  have hpage : store.readEvents session.record.sessionId start importPage =
      (session.rows.drop start).take importPage :=
    readEvents_eq (LegacySession.prepare_ok hprepare).numbered hstage.1 start
  rw [hpage, verifyPage]
  split
  · trivial
  · split
    · trivial
    · rename_i tip htip
      apply attemptHolds_verifyFrom hchecked hprepare hlegacy hdone
      refine ⟨hstage.1, hstage.2.1, ?_⟩
      rw [foldlM_advanceTip_ok (readsAsLog_toJson _) htip, hstage.2.2, tip_page]

/-- An advance within the import keeps what holds, and only the last one sets the marker. -/
theorem Pending.advance (h : Pending P first legacy state)
    (hnext : state.advance P = some next) :
    (next.migrated = state.migrated ∧ Pending P first legacy next) ∨
      (next = { state with migrated := true, attempt := .removing } ∧
        checkLegacy legacy [] = .ok () ∧ ∀ session ∈ legacy, session.Imported P state.store) := by
  have hattempt := h.attempt
  unfold Migration.advance at hnext
  split at hnext
  · cases hnext
  · cases hnext
  · -- The rows that an earlier attempt left are deleted.
    rename_i session metadata rest heq
    rw [heq] at hattempt
    obtain ⟨hchecked, hprepare, -, done, hlegacy, hdone⟩ := hattempt
    obtain ⟨after, hafter, hevents, hsession, hother⟩ := commit_clear state.store session.id
    cases hnext
    rw [transact, show state.store.commit ⟨[], [], [session.record.sessionId], []⟩ = some after
      from hafter]
    refine Or.inl ⟨rfl, h.transacted hchecked hlegacy hother (Or.inr (Or.inl hsession)) ?_⟩
    apply attemptHolds_appendFrom hchecked hprepare hlegacy
    · intro earlier hearlier
      exact (hdone earlier hearlier).congr
        (hother _ (id_ne_of_checked hchecked hlegacy earlier hearlier))
    · exact ⟨by rw [hevents, List.take_zero], hsession⟩
  · rename_i session metadata start rest heq
    rw [heq] at hattempt
    obtain ⟨hchecked, hprepare, hstage, done, hlegacy, hdone⟩ := hattempt
    obtain ⟨after, hafter, hevents, hsession, hother⟩ :=
      commit_page (LegacySession.prepare_ok hprepare).numbered hstage.1
    have hnone := hsession.trans hstage.2
    cases hnext
    rw [transact, show state.store.commit ⟨[], [⟨session.record.sessionId,
      (session.rows.drop start).take importPage⟩], [], []⟩ = some after from hafter]
    refine Or.inl ⟨rfl, h.transacted hchecked hlegacy hother (Or.inr (Or.inl hnone)) ?_⟩
    apply attemptHolds_appendFrom hchecked hprepare hlegacy
    · intro earlier hearlier
      exact (hdone earlier hearlier).congr
        (hother _ (id_ne_of_checked hchecked hlegacy earlier hearlier))
    · exact ⟨hevents, hnone⟩
  · rename_i session metadata start verifiedTip rest heq
    rw [heq] at hattempt
    obtain ⟨hchecked, hprepare, hstage, done, hlegacy, hdone⟩ := hattempt
    cases hnext
    exact Or.inl ⟨rfl, h.source, h.others, h.whole,
      attemptHolds_verifyPage hchecked hprepare hlegacy hdone hstage⟩
  · rename_i session metadata rest heq
    rw [heq] at hattempt
    obtain ⟨hchecked, hprepare, hstage, done, hlegacy, hdone⟩ := hattempt
    obtain ⟨after, hafter, hsession, hevents, hother⟩ :=
      commit_metadata state.store (LegacySession.prepare_ok hprepare)
    have himported : session.Imported P after :=
      ⟨⟨metadata, hprepare, hsession⟩, (hevents _).trans hstage.1⟩
    cases hnext
    rw [transact, hafter]
    refine Or.inl ⟨rfl, h.transacted hchecked hlegacy
      (fun other hne => ⟨hevents other, hother other hne⟩) (Or.inr (Or.inr himported)) ?_⟩
    refine attemptHolds_importNext hchecked (hlegacy.trans (List.append_cons _ _ _)) ?_
    · intro earlier hearlier
      rcases List.mem_append.1 hearlier with hearlier | hlast
      · have hne := id_ne_of_checked hchecked hlegacy earlier hearlier
        exact (hdone earlier hearlier).congr ⟨hevents _, hother _ hne⟩
      · rw [List.mem_singleton.1 hlast]
        exact himported
  · rename_i heq
    rw [heq] at hattempt
    cases hnext
    exact Or.inr ⟨rfl, hattempt⟩
  · rename_i heq
    rw [heq] at hattempt
    exact hattempt.elim

theorem pending_start (P : Platform) (store : JournalStore) (legacy : List LegacySession) :
    Pending P store legacy (start store legacy) :=
  ⟨rfl, fun _ _ => ⟨rfl, rfl⟩, fun _ _ => Or.inl ⟨rfl, rfl⟩, trivial⟩

theorem Pending.between (h : Pending P first legacy state) {attempt : MigrationAttempt}
    (hattempt : AttemptHolds P legacy state.store attempt) :
    Pending P first legacy { state with attempt } :=
  ⟨h.source, h.others, h.whole, hattempt⟩

/-- What holds in every state: with the marker set no import is in progress. -/
structure Sound (P : Platform) (first : JournalStore) (legacy : List LegacySession)
    (state : Migration) : Prop where
  pending : state.migrated = false → Pending P first legacy state
  ended : state.migrated = true → state.attempt = .resting ∨ state.attempt = .removing ∨
    ∃ thrown, state.attempt = .failed thrown
  importable : state.migrated = true → Importable P legacy

theorem Pending.read (h : Pending P first legacy state) (hunmarked : state.migrated = false)
    (hnext : state.step P .read = some next) :
    next.migrated = false ∧ Pending P first legacy next := by
  have hnone : ∀ earlier ∈ ([] : List LegacySession), earlier.Imported P state.store := by simp
  have hmarked : ¬ state.migrated = true := by simp [hunmarked]
  rw [Migration.step] at hnext
  cases hchecked : checkLegacy state.legacy [] with
  | error thrown =>
      simp only [if_neg hmarked, hchecked] at hnext
      split at hnext
      · cases hnext
        exact ⟨hunmarked, h.between trivial⟩
      · cases hnext
        exact ⟨hunmarked, h.between trivial⟩
      · cases hnext
  | ok checked =>
      have hbegun : AttemptHolds P legacy state.store (importNext P state.legacy) := by
        rw [h.source] at hchecked ⊢
        exact attemptHolds_importNext hchecked rfl hnone
      simp only [if_neg hmarked, hchecked] at hnext
      split at hnext
      · cases hnext
        exact ⟨hunmarked, h.between hbegun⟩
      · cases hnext
        exact ⟨hunmarked, h.between hbegun⟩
      · cases hnext

theorem Sound.step (h : Sound P first legacy state) {action : Action}
    (hnext : state.step P action = some next) : Sound P first legacy next := by
  cases hmarked : state.migrated with
  | false =>
      have hpending := h.pending hmarked
      have hkept : next.migrated = false → Pending P first legacy next →
          Sound P first legacy next := fun hunmarked hholds =>
        ⟨fun _ => hholds, fun hset => Bool.noConfusion (hunmarked.symm.trans hset),
          fun hset => Bool.noConfusion (hunmarked.symm.trans hset)⟩
      cases action with
      | read =>
          obtain ⟨hunmarked, hholds⟩ := hpending.read hmarked hnext
          exact hkept hunmarked hholds
      | advance =>
          rcases hpending.advance hnext with ⟨hsame, hholds⟩ | ⟨rfl, hchecked, himported⟩
          · exact hkept (hsame.trans hmarked) hholds
          · refine ⟨fun hset => Bool.noConfusion hset, fun _ => Or.inr (Or.inl rfl),
              fun _ => ⟨hchecked, ?_⟩⟩
            intro session hmem
            obtain ⟨metadata, hprepare, -⟩ := (himported session hmem).stored
            exact ⟨metadata, hprepare⟩
      | fail thrown =>
          rw [Migration.step] at hnext
          split at hnext
          · cases hnext
            exact hkept hmarked (hpending.between trivial)
          · cases hnext
            exact hkept hmarked (hpending.between trivial)
      | crash =>
          cases hnext
          exact hkept hmarked (hpending.between trivial)
      | commit batch =>
          rw [Migration.step] at hnext
          split at hnext
          · rw [if_neg (by simp [hmarked])] at hnext
            cases hnext
          · cases hnext
  | true =>
      have himportable := h.importable hmarked
      have hkept : next.migrated = true → (next.attempt = .resting ∨ next.attempt = .removing ∨
          ∃ thrown, next.attempt = .failed thrown) → Sound P first legacy next :=
        fun hset hended => ⟨fun hunmarked => Bool.noConfusion (hunmarked.symm.trans hset),
          fun _ => hended, fun _ => himportable⟩
      cases action with
      | read =>
          rw [Migration.step] at hnext
          split at hnext
          · rw [if_pos hmarked] at hnext
            cases hnext
            exact hkept hmarked (Or.inl rfl)
          · rw [if_pos hmarked] at hnext
            cases hnext
            exact hkept hmarked (Or.inl rfl)
          · cases hnext
      | advance =>
          rw [Migration.step, Migration.advance] at hnext
          rcases h.ended hmarked with heq | heq | ⟨thrown, heq⟩
          · rw [heq] at hnext
            cases hnext
          · rw [heq] at hnext
            cases hnext
            exact hkept hmarked (Or.inl rfl)
          · rw [heq] at hnext
            cases hnext
      | fail thrown =>
          rw [Migration.step] at hnext
          split at hnext
          · cases hnext
            exact hkept hmarked (Or.inl rfl)
          · cases hnext
            exact hkept hmarked (Or.inr (Or.inr ⟨thrown, rfl⟩))
      | crash =>
          cases hnext
          exact hkept hmarked (Or.inl rfl)
      | commit batch =>
          rw [Migration.step] at hnext
          split at hnext
          · rename_i heq
            rw [if_pos hmarked] at hnext
            cases hnext
            exact hkept hmarked (Or.inl heq)
          · cases hnext

theorem sound_run (hrun : Run (step P) (fun _ _ => True) (start first legacy) state) :
    Sound P first legacy state := by
  refine hrun.invariant (fun _ _ _ h _ hnext => h.step hnext) ?_
  exact ⟨fun _ => pending_start P first legacy, fun hset => Bool.noConfusion hset,
    fun hset => Bool.noConfusion hset⟩

/-- The journal holds the whole snapshot, and what else it held before. -/
structure Migrated (P : Platform) (first : JournalStore) (legacy : List LegacySession)
    (after : JournalStore) : Prop where
  sessions : ∀ session ∈ legacy, ∃ events, ReadsAsLog session.events events ∧
    ValidLog events ∧ after.events session.id = events ∧
    after.session session.id = some { session.record with
      events := []
      journaled := true
      eventCount := some events.length
      lastEventT := some ((events.getLast?.map BufferMutation.t).getD 0)
      lastEventChainTip := eventTip P session.id session.record.formatVersion events }
  others : ∀ id ∉ legacy.map LegacySession.id, SameSession first after id

theorem Pending.migrated (h : Pending P first legacy state)
    (himported : ∀ session ∈ legacy, session.Imported P state.store) :
    Migrated P first legacy state.store where
  sessions session hmem := by
    obtain ⟨metadata, hprepare, hstored⟩ := (himported session hmem).stored
    have hprepared := LegacySession.prepare_ok hprepare
    refine ⟨session.rows, hprepared.reads, hprepared.valid, (himported session hmem).kept, ?_⟩
    rw [hstored, hprepared.metadata_eq]
  others := h.others

/-! ## Completion -/

/-- How many operations are left of the import of a session, and one more. -/
def stagesLeft (session : LegacySession) : ImportStage → Nat
  | .clearing => 2 * session.events.length + 4
  | .appending start => session.events.length + 3 + (session.events.length - start)
  | .verifying start _ => 2 + (session.events.length - start)
  | .putting => 1

def remaining : MigrationAttempt → Nat
  | .importing session _ stage rest =>
      stagesLeft session stage +
        (rest.map fun session => 2 * session.events.length + 5).sum + 1
  | .marking => 1
  | _ => 0

def underWay : MigrationAttempt → Bool
  | .importing .. => true
  | .marking => true
  | _ => false

theorem importNext_goes_on (himportable : ∀ session ∈ rest, ∃ metadata,
    session.prepare P = .ok metadata) :
    underWay (importNext P rest) = true ∧ remaining (importNext P rest) ≤
      (rest.map fun session => 2 * session.events.length + 5).sum + 1 := by
  cases rest with
  | nil => exact ⟨rfl, Nat.le_refl _⟩
  | cons session rest =>
      obtain ⟨metadata, hprepare⟩ := himportable session List.mem_cons_self
      rw [importNext, hprepare]
      refine ⟨rfl, ?_⟩
      simp only [remaining, stagesLeft, List.map_cons, List.sum_cons]
      omega

theorem verifyFrom_goes_on {start : Nat} {verifiedTip : Option B3Hash}
    (htip : session.events.length ≤ start → verifiedTip = metadata.lastEventChainTip) :
    underWay (verifyFrom session metadata rest start verifiedTip) = true ∧
      remaining (verifyFrom session metadata rest start verifiedTip) ≤
        1 + (min 1 (session.events.length - start) + (session.events.length - start)) +
          (rest.map fun session => 2 * session.events.length + 5).sum + 1 := by
  rw [verifyFrom]
  split
  · refine ⟨rfl, ?_⟩
    simp only [remaining, stagesLeft]
    omega
  · rename_i hend
    rw [if_neg (by simp [htip (by omega)])]
    refine ⟨rfl, ?_⟩
    simp only [remaining, stagesLeft]
    omega

theorem appendFrom_goes_on {start : Nat}
    (htip : session.events.length ≤ 0 → none = metadata.lastEventChainTip) :
    underWay (appendFrom session metadata rest start) = true ∧
      remaining (appendFrom session metadata rest start) ≤
        session.events.length + 2 +
          (min 1 (session.events.length - start) + (session.events.length - start)) +
          (rest.map fun session => 2 * session.events.length + 5).sum + 1 := by
  rw [appendFrom]
  split
  · refine ⟨rfl, ?_⟩
    simp only [remaining, stagesLeft]
    omega
  · obtain ⟨hunder, hle⟩ := @verifyFrom_goes_on session metadata rest 0 none htip
    refine ⟨hunder, hle.trans ?_⟩
    omega

/-- The page of a complete import passes its check. -/
theorem verifyPage_goes_on {start : Nat} {verifiedTip : Option B3Hash}
    (huuid : isUuid session.id = true) (hprepared : session.Prepared P metadata)
    (hstage : StageHolds P session store (.verifying start verifiedTip)) :
    verifyPage P session metadata rest start verifiedTip
        (store.readEvents session.record.sessionId start importPage) =
      verifyFrom session metadata rest (start + importPage)
        (eventTip P session.id session.record.formatVersion
          (session.rows.take (start + importPage))) := by
  have hpage : store.readEvents session.record.sessionId start importPage =
      (session.rows.drop start).take importPage :=
    readEvents_eq hprepared.numbered hstage.1 start
  have hlength : ((session.rows.drop start).take importPage).length =
      min importPage (session.events.length - start) := by
    rw [List.length_take, List.length_drop, session.length_rows]
  have hvalid : ValidFrom start (-1) ((session.rows.drop start).take importPage) := by
    obtain ⟨hevents, hseq, htimes, hsorted⟩ :=
      validFrom_iff.1 (validLog_iff_validFrom.1 hprepared.valid)
    have hsub : ((session.rows.drop start).take importPage).Sublist session.rows :=
      (List.take_sublist _ _).trans (List.drop_sublist _ _)
    refine validFrom_iff.2 ⟨fun event hevent => hevents event (hsub.subset hevent), ?_,
      fun event hevent => htimes event (hsub.subset hevent), hsorted.sublist hsub⟩
    intro i event hi
    rw [List.getElem?_take] at hi
    split at hi
    · rw [List.getElem?_drop] at hi
      have := hseq (start + i) event hi
      omega
    · cases hi
  have hfold : (((session.rows.drop start).take importPage).map BufferMutation.toJson).foldlM
      (LegacySession.advanceTip P session.record) verifiedTip = .ok ((eventScheme P).tipFrom
        (chainStart session.record.sessionId session.record.formatVersion) verifiedTip
        ((session.rows.drop start).take importPage)) := by
    by_cases hstart : start ≤ session.rows.length
    · refine foldlM_advanceTip huuid (readsAsLog_toJson _) hvalid ?_
      rw [hstage.2.2, eventTip, ChainScheme.tip_eq_none, List.take_eq_nil_iff]
      constructor
      · rintro (hzero | hnil)
        · exact hzero
        · rw [hnil] at hstart
          exact Nat.le_zero.1 hstart
      · exact Or.inl
    · rw [List.drop_of_length_le (by omega)]
      rfl
  rw [hpage, verifyPage, if_neg (by simp [hlength]), hfold, hstage.2.2]
  exact congrArg (verifyFrom session metadata rest (start + importPage)) (tip_page session start)

/-- An import that is under way goes on, whatever earlier attempts have left. -/
theorem Pending.progress (h : Pending P first legacy state) (himportable : Importable P legacy)
    (hunder : underWay state.attempt = true) :
    ∃ next, state.advance P = some next ∧ remaining next.attempt < remaining state.attempt ∧
      (underWay next.attempt = true ∨ next.migrated = true ∧ next.attempt = .removing) := by
  have hattempt := h.attempt
  obtain ⟨current, migrated, source, attempt⟩ := state
  cases attempt with
  | resting => cases hunder
  | failed thrown => cases hunder
  | removing => cases hunder
  | marking => exact ⟨_, rfl, Nat.lt_succ_self 0, Or.inr ⟨rfl, rfl⟩⟩
  | importing session metadata stage rest =>
      obtain ⟨-, hprepare, hstage, done, hlegacy, -⟩ := hattempt
      have hprepared := LegacySession.prepare_ok hprepare
      have hmem : session ∈ legacy := hlegacy ▸ by simp
      have htip : ∀ count, session.events.length ≤ count →
          eventTip P session.id session.record.formatVersion (session.rows.take count) =
            metadata.lastEventChainTip := by
        intro count hcount
        rw [hprepared.tip, List.take_of_length_le]
        rwa [session.length_rows]
      have hnil : session.events.length ≤ 0 → none = metadata.lastEventChainTip := htip 0
      cases stage with
      | clearing =>
          obtain ⟨after, hafter, -⟩ := commit_clear current session.id
          obtain ⟨hgoes, hle⟩ := @appendFrom_goes_on session metadata rest 0 hnil
          refine ⟨_, rfl, ?_, Or.inl ?_⟩
          · rw [transact, show current.commit ⟨[], [], [session.record.sessionId], []⟩ =
              some after from hafter]
            refine Nat.lt_of_le_of_lt hle ?_
            simp only [remaining, stagesLeft]
            omega
          · rw [transact, show current.commit ⟨[], [], [session.record.sessionId], []⟩ =
              some after from hafter]
            exact hgoes
      | appending start =>
          obtain ⟨after, hafter, -⟩ := commit_page hprepared.numbered hstage.1
          obtain ⟨hgoes, hle⟩ :=
            @appendFrom_goes_on session metadata rest (start + importPage) hnil
          refine ⟨_, rfl, ?_, Or.inl ?_⟩
          · rw [transact, show current.commit ⟨[], [⟨session.record.sessionId,
              (session.rows.drop start).take importPage⟩], [], []⟩ = some after from hafter]
            refine Nat.lt_of_le_of_lt hle ?_
            simp only [remaining, stagesLeft, importPage]
            omega
          · rw [transact, show current.commit ⟨[], [⟨session.record.sessionId,
              (session.rows.drop start).take importPage⟩], [], []⟩ = some after from hafter]
            exact hgoes
      | verifying start verifiedTip =>
          have hpage := @verifyPage_goes_on P session metadata rest current start verifiedTip
            (himportable.uuid hmem) hprepared hstage
          obtain ⟨hgoes, hle⟩ := @verifyFrom_goes_on session metadata rest (start + importPage)
            _ (htip (start + importPage))
          refine ⟨_, rfl, ?_, Or.inl ?_⟩
          · rw [hpage]
            refine Nat.lt_of_le_of_lt hle ?_
            simp only [remaining, stagesLeft, importPage]
            omega
          · rw [hpage]
            exact hgoes
      | putting =>
          obtain ⟨after, hafter, -⟩ := commit_metadata current hprepared
          obtain ⟨hgoes, hle⟩ := @importNext_goes_on P rest fun session hsession =>
            himportable.prepared session (hlegacy ▸ by simp [hsession])
          refine ⟨_, rfl, ?_, Or.inl ?_⟩
          · rw [transact, hafter]
            refine Nat.lt_of_le_of_lt hle ?_
            simp only [remaining, stagesLeft]
            omega
          · rw [transact, hafter]
            exact hgoes

/-- Without a failure or a crash, an import that is under way ends with the marker set. -/
theorem Sound.completes (h : Sound P first legacy state) (himportable : Importable P legacy)
    (hunmarked : state.migrated = false) (hunder : underWay state.attempt = true) :
    ∃ after, Run (Migration.step P) (fun _ action => action = .advance) state after ∧
      after.migrated = true ∧ after.attempt = .removing := by
  induction hleft : remaining state.attempt using Nat.strong_induction_on generalizing state with
  | _ left ih =>
      obtain ⟨next, hnext, hless, hgoes⟩ :=
        (h.pending hunmarked).progress himportable hunder
      have hstep : state.step P .advance = some next := hnext
      have hrun : Run (Migration.step P) (fun _ action => action = .advance) state next :=
        .single rfl hstep
      rcases hgoes with hunder' | ⟨hmarked, hattempt⟩
      · cases hmarked : next.migrated with
        | true =>
            have hended := (h.step hstep).ended hmarked
            rcases hended with heq | heq | ⟨thrown, heq⟩
            · rw [heq] at hunder'
              cases hunder'
            · exact ⟨next, hrun, hmarked, heq⟩
            · rw [heq] at hunder'
              cases hunder'
        | false =>
            obtain ⟨after, hafter, hend⟩ := ih (remaining next.attempt) (hleft ▸ hless)
              (h.step hstep) hmarked hunder' rfl
            exact ⟨after, hrun.trans hafter, hend⟩
      · exact ⟨next, hrun, hmarked, hattempt⟩

/-- Once the marker is set, what `read` does on its own leaves the journal alone. -/
theorem Sound.step_migrated (h : Sound P first legacy state) (hmarked : state.migrated = true)
    {action : Action} (hnext : state.step P action = some next) :
    next.migrated = true ∧ ((∀ batch, action ≠ .commit batch) → next.store = state.store) := by
  cases action with
  | read =>
      rw [Migration.step] at hnext
      split at hnext
      · rw [if_pos hmarked] at hnext
        cases hnext
        exact ⟨hmarked, fun _ => rfl⟩
      · rw [if_pos hmarked] at hnext
        cases hnext
        exact ⟨hmarked, fun _ => rfl⟩
      · cases hnext
  | advance =>
      rw [Migration.step, Migration.advance] at hnext
      rcases h.ended hmarked with heq | heq | ⟨thrown, heq⟩
      · rw [heq] at hnext
        cases hnext
      · rw [heq] at hnext
        cases hnext
        exact ⟨hmarked, fun _ => rfl⟩
      · rw [heq] at hnext
        cases hnext
  | fail thrown =>
      rw [Migration.step] at hnext
      split at hnext
      · cases hnext
        exact ⟨hmarked, fun _ => rfl⟩
      · cases hnext
        exact ⟨hmarked, fun _ => rfl⟩
  | crash =>
      cases hnext
      exact ⟨hmarked, fun _ => rfl⟩
  | commit batch =>
      rw [Migration.step] at hnext
      split at hnext
      · rw [if_pos hmarked] at hnext
        cases hnext
        exact ⟨hmarked, fun hne => absurd rfl (hne batch)⟩
      · cases hnext

/-- The step that sets the marker stores nothing. -/
theorem Sound.marks (h : Sound P first legacy state) (hunmarked : state.migrated = false)
    {action : Action} (hnext : state.step P action = some next) (hmarked : next.migrated = true) :
    Migrated P first legacy next.store := by
  have hpending := h.pending hunmarked
  cases action with
  | read =>
      obtain ⟨hunset, -⟩ := hpending.read hunmarked hnext
      rw [hunset] at hmarked
      cases hmarked
  | advance =>
      rcases hpending.advance hnext with ⟨hsame, -⟩ | ⟨rfl, -, himported⟩
      · rw [hsame, hunmarked] at hmarked
        cases hmarked
      · exact hpending.migrated himported
  | fail thrown =>
      rw [Migration.step] at hnext
      split at hnext
      · cases hnext
        exact Bool.noConfusion (hunmarked.symm.trans hmarked)
      · cases hnext
        exact Bool.noConfusion (hunmarked.symm.trans hmarked)
  | crash =>
      cases hnext
      exact Bool.noConfusion (hunmarked.symm.trans hmarked)
  | commit batch =>
      rw [Migration.step] at hnext
      split at hnext
      · rw [if_neg (by simp [hunmarked])] at hnext
        cases hnext
      · cases hnext

/-- Over any failures and crashes: until the marker is set the snapshot stays, sessions of
others are left alone and no metadata is found without its rows; the marker is set over
complete imports; and after it nothing is imported again. -/
theorem migration_safe (P : Platform) (first : JournalStore) (legacy : List LegacySession)
    (state : Migration) (hrun : Run (step P) (fun _ _ => True) (start first legacy) state) :
    (state.migrated = false → state.legacy = legacy ∧
      (∀ id ∉ legacy.map LegacySession.id, SameSession first state.store id) ∧
      ∀ session ∈ legacy, Whole P first state.store session) ∧
    (∀ action next, state.step P action = some next → state.migrated = false →
      next.migrated = true → Migrated P first legacy next.store) ∧
    ∀ action next, state.step P action = some next → state.migrated = true →
      next.migrated = true ∧ ((∀ batch, action ≠ .commit batch) → next.store = state.store) := by
  have hsound := sound_run hrun
  refine ⟨?_, ?_, ?_⟩
  · intro hunmarked
    have hpending := hsound.pending hunmarked
    exact ⟨hpending.source, hpending.others, hpending.whole⟩
  · exact fun action next hnext hunmarked => hsound.marks hunmarked hnext
  · exact fun action next hnext hmarked => hsound.step_migrated hmarked hnext

/-! ## Starting again -/

theorem Migrated.same (h : Migrated P first legacy store) (h' : Migrated P first legacy after)
    (id : JsString) : SameSession store after id := by
  by_cases hid : id ∈ legacy.map LegacySession.id
  · obtain ⟨session, hmem, rfl⟩ := List.mem_map.1 hid
    obtain ⟨events, hreads, -, hevents, hsession⟩ := h.sessions session hmem
    obtain ⟨events', hreads', -, hevents', hsession'⟩ := h'.sessions session hmem
    have heq : events' = events := hreads'.map_readEvent.symm.trans hreads.map_readEvent
    subst heq
    exact ⟨hevents'.trans hevents.symm, hsession'.trans hsession.symm⟩
  · have hsame := h.others id hid
    have hsame' := h'.others id hid
    exact ⟨hsame'.1.trans hsame.1.symm, hsame'.2.trans hsame.2.symm⟩

/-- Before the registry commits anything, the marker stands for the imported snapshot. -/
theorem Sound.run_migrated {last : Migration} (h : Sound P first legacy state)
    (hunmarked : state.migrated = false)
    (hrun : Run (Migration.step P) (fun _ action => action = .read ∨ action = .advance)
      state last) :
    Sound P first legacy last ∧
      (last.migrated = true → Migrated P first legacy last.store) := by
  refine hrun.invariant (I := fun state => Sound P first legacy state ∧
    (state.migrated = true → Migrated P first legacy state.store)) ?_
    ⟨h, fun hmarked => Bool.noConfusion (hunmarked.symm.trans hmarked)⟩
  rintro state action next ⟨hsound, hholds⟩ hown hnext
  refine ⟨hsound.step hnext, fun hmarked => ?_⟩
  cases hbefore : state.migrated with
  | false => exact hsound.marks hbefore hnext hmarked
  | true =>
      have hkept := (hsound.step_migrated hbefore hnext).2 (by
        rintro batch rfl
        rcases hown with heq | heq
        · cases heq
        · cases heq)
      rw [hkept]
      exact hholds hbefore

theorem read_begins (hstopped : state.attempt = .resting ∨ ∃ thrown, state.attempt = .failed thrown)
    (hunmarked : state.migrated = false) (hchecked : checkLegacy state.legacy [] = .ok ()) :
    state.step P .read = some { state with attempt := importNext P state.legacy } := by
  rw [step]
  rcases hstopped with heq | ⟨thrown, heq⟩
  · rw [heq]
    simp [hunmarked, hchecked]
  · rw [heq]
    simp [hunmarked, hchecked]

/-- A session of the snapshot with one event. -/
def legacySession : LegacySession where
  record :=
    { objectId := 0
      pendingObservationGap := false
      sessionId := js "00000000-0000-4000-8000-000000000001"
      formatVersion := .v0_2
      baseWallMs := 1700000000000
      lastEditWallMs := 1700000000005
      origin := ⟨js "https://example.test", js "/", 0, 0⟩
      descriptor := ⟨.textarea, js "textarea", none, none, none, none, js "form/textarea", 0⟩
      identityCertainty := .fresh
      producer := ⟨js "browser", js "1.0.0", []⟩
      captureSurface := js "extension"
      events := []
      eventCount := some 1
      lastEventT := none
      journaled := false
      uploadId := none
      lastEventChainTip := none
      state := .active
      uploadedResponse := none
      continuationAnchor := false
      lastFailureReason := none
      signedTextBinding := none
      signedDurationMs := none
      parentRecord := none
      observation := emptyObservation false }
  events := [BufferMutation.toJson ⟨0, 5, .insert, some 0, some 0, some 1, .typing⟩]

/-- The process ends after the rows of the session are stored. -/
def interrupted : List Action := [.read, .advance, .advance, .crash]

theorem importable_legacySession : Importable Platform.standard [legacySession] := by
  have hprepared : (legacySession.prepare Platform.standard).isOk = true := by decide +kernel
  refine ⟨by decide +kernel, ?_⟩
  intro session hmem
  rw [List.mem_singleton.1 hmem]
  cases hprepare : legacySession.prepare Platform.standard with
  | error thrown =>
      rw [hprepare] at hprepared
      cases hprepared
  | ok metadata => exact ⟨metadata, rfl⟩

/-- No attempt is under way. -/
def rests (attempt : MigrationAttempt) : Bool :=
  match attempt with
  | .resting => true
  | _ => false

/-- The rows are stored, the metadata is not, and the snapshot is there. -/
theorem interrupted_reached : ∃ state, Run (step Platform.standard) (fun _ _ => True)
    (start JournalStore.empty [legacySession]) state ∧ state.migrated = false ∧
      state.attempt = .resting ∧ state.store.events legacySession.id = legacySession.rows := by
  have hrun : (runAll (step Platform.standard) (fun _ _ => True)
      (start JournalStore.empty [legacySession]) interrupted).any (fun state =>
        !state.migrated && rests state.attempt &&
          decide (state.store.events legacySession.id = legacySession.rows)) = true := by
    decide +kernel
  obtain ⟨state, hstate, hholds⟩ := (Option.any_eq_true _ _).1 hrun
  rw [Bool.and_eq_true, Bool.and_eq_true, decide_eq_true_eq, Bool.not_eq_true'] at hholds
  refine ⟨state, Run.of_runAll hstate, hholds.1.1, ?_, hholds.2⟩
  have hresting := hholds.1.2
  cases hattempt : state.attempt with
  | resting => rfl
  | _ =>
      rw [hattempt] at hresting
      cases hresting

theorem migration_safe_interrupted : ∃ state : Migration,
    state.store.events legacySession.id = legacySession.rows ∧
      Whole Platform.standard JournalStore.empty state.store legacySession ∧
      state.legacy = [legacySession] := by
  obtain ⟨state, hrun, hunmarked, -, hrows⟩ := interrupted_reached
  obtain ⟨hsource, -, hwhole⟩ :=
    (migration_safe Platform.standard JournalStore.empty [legacySession] state hrun).1 hunmarked
  exact ⟨state, hrows, hwhole legacySession (List.mem_singleton.2 rfl), hsource⟩

/-- Whatever failures and crashes came before, the next undisturbed attempt ends with the
marker set and the snapshot removed, and leaves what an attempt that was never
interrupted leaves.  A snapshot that does not pass its checks is never migrated. -/
theorem migration_restarts (P : Platform) (first : JournalStore) (legacy : List LegacySession)
    (state : Migration) (hrun : Run (step P) (fun _ _ => True) (start first legacy) state)
    (hunmarked : state.migrated = false)
    (hstopped : state.attempt = .resting ∨ ∃ thrown, state.attempt = .failed thrown) :
    (Importable P legacy → ∃ begun after, state.step P .read = some begun ∧
      Run (step P) (fun _ action => action = .advance) begun after ∧
      after.migrated = true ∧ after.attempt = .resting ∧ after.legacy = [] ∧
      ∀ whole, Run (step P) (fun _ action => action = .read ∨ action = .advance)
          (start first legacy) whole → whole.migrated = true →
        ∀ id, SameSession whole.store after.store id) ∧
    (¬ Importable P legacy → ∀ later, Run (step P) (fun _ _ => True) state later →
      later.migrated = false) := by
  have hsound := sound_run hrun
  constructor
  · intro himportable
    have hpending := hsound.pending hunmarked
    have hsource := hpending.source
    have hbegun := read_begins (P := P) hstopped hunmarked (hsource.symm ▸ himportable.checked)
    have hunder : underWay (importNext P state.legacy) = true := by
      rw [hsource]
      exact (importNext_goes_on himportable.prepared).1
    obtain ⟨marked, hmarkedRun, hmarked, hremoving⟩ :=
      (hsound.step hbegun).completes himportable hunmarked hunder
    have hlast : marked.step P .advance = some { marked with
        legacy := [], attempt := .resting } := by
      rw [step, Migration.advance, hremoving]
    refine ⟨_, _, hbegun, hmarkedRun.step rfl hlast, hmarked, rfl, rfl, ?_⟩
    intro whole hwhole hwholeMarked id
    have hown : Run (step P) (fun _ action => action = .read ∨ action = .advance) state marked := by
      apply Run.trans
      · exact Run.single (Or.inl rfl) hbegun
      · exact hmarkedRun.mono fun _ _ heq => Or.inr heq
    have hafter := (hsound.run_migrated hunmarked hown).2 hmarked
    have hstart : Sound P first legacy (start first legacy) := sound_run (.refl _)
    have hfirst := hstart.run_migrated rfl hwhole
    exact (hfirst.2 hwholeMarked).same hafter id
  · intro hnot later hlater
    have hend := sound_run (hrun.trans hlater)
    cases hmarked : later.migrated with
    | false => rfl
    | true => exact absurd (hend.importable hmarked) hnot

theorem migration_restarts_interrupted : ∃ state begun after : Migration,
    state.store.events legacySession.id = legacySession.rows ∧
      state.step Platform.standard .read = some begun ∧
      Run (step Platform.standard) (fun _ action => action = .advance) begun after ∧
      after.migrated = true ∧ after.legacy = [] := by
  obtain ⟨state, hrun, hunmarked, hresting, hrows⟩ := interrupted_reached
  obtain ⟨begun, after, hread, hafter, hmarked, -, hremoved, -⟩ :=
    (migration_restarts Platform.standard JournalStore.empty [legacySession] state hrun hunmarked
      (Or.inl hresting)).1 importable_legacySession
  exact ⟨state, begun, after, hrows, hread, hafter, hmarked, hremoved⟩

end Migration

end Pmbah.Producer
