import Pmbah.Producer.FrozenSessions

/-!
# Signing again

A retry signs the record that has been signed before.  That holds over crashes as
well, once the signed session has been saved.
-/

namespace Pmbah.Producer

open Js Format Library

variable {P : Platform} {options : RegistryOptions} {id uuid : JsString}
  {record frozen later : SessionRecord} {textBinding : Option Json} {now : Int}
  {manifest : Json}

/-! ## A retry of one record -/

theorem signRecord_of {hash : B3Hash} {createdClientT : JsString}
    (h : SignedAs P options record textBinding now manifest hash createdClientT)
    (uuid : JsString) :
    signRecord P options record textBinding now uuid =
      .ok (freeze options record (signedVersion options record)
        (signedBinding record textBinding) (signedDuration options record now) uuid,
        manifest) := by
  have hverified := h.verified
  rw [h.manifest_eq] at hverified
  unfold signRecord
  rw [if_neg h.count]
  simp only [h.hashed, h.created, hverified]
  rw [h.manifest_eq]
  rfl

theorem sealed_freeze (options : RegistryOptions) (record : SessionRecord)
    (version : FormatVersion) (textBinding : Option Json) (duration : Int) (uuid : JsString) :
    Sealed options (freeze options record version textBinding duration uuid) := by
  refine ⟨by simp [freeze], rfl, ?_⟩
  intro hjournal
  simp [freeze, hjournal]

/-- What a retry signs is what has been signed. -/
theorem SignedAs.again {hash : B3Hash} {createdClientT : JsString}
    (h : SignedAs P options record textBinding now manifest hash createdClientT)
    (hsame : SameSigned (freeze options record (signedVersion options record)
      (signedBinding record textBinding) (signedDuration options record now) uuid) later)
    (hfailed : later.state = .failedUpload) (textBinding' : Option Json) (now' : Int) :
    SignedAs P options later textBinding' now' manifest hash createdClientT := by
  have hversion : signedVersion options later = signedVersion options record := by
    have hkept : signedVersion options later = later.formatVersion := by
      rw [signedVersion, hfailed, if_neg]
      simp
    rw [hkept]
    exact hsame.formatVersion
  have hbinding : signedBinding later textBinding' = signedBinding record textBinding :=
    (if_pos hfailed).trans hsame.textBinding
  have hduration : signedDuration options later now' = signedDuration options record now := by
    rw [signedDuration, if_pos hfailed, hsame.durationMs]
    rfl
  have hcount : sessionEventCount later = sessionEventCount record := by
    unfold sessionEventCount
    rw [hsame.eventCount, hsame.events]
    rfl
  have hmanifest : signedManifest later (signedVersion options later) hash
      (signedBinding later textBinding') (signedDuration options later now') createdClientT =
      manifest := by
    rw [h.manifest_eq, hversion, hbinding, hduration]
    unfold signedManifest
    rw [hcount, hsame.sessionId, hsame.producer, hsame.parentRecord]
    rfl
  refine ⟨?_, ?_, ?_, hmanifest.symm, ?_⟩
  · rw [hcount]
    exact h.count
  · rw [hversion, hbinding, hduration, ← h.hashed]
    unfold signedHash
    rw [hsame.parentRecord, hsame.tip, hsame.events, hsame.sessionId]
    rfl
  · rw [hsame.baseWallMs]
    exact h.created
  · rw [← h.verified]
    unfold selfVerification
    rw [hsame.events]
    rfl

/-! ## What is saved -/

namespace JournalStore

variable {store after : JournalStore} {batch : JournalCommit}

theorem putSessions_session {sessions : List SessionRecord}
    (h : sessions.foldlM putSession store = some after) (hget : after.session id = some record) :
    store.session id = some record ∨ record ∈ sessions ∧ record.sessionId = id := by
  induction sessions generalizing store with
  | nil =>
      cases h
      exact Or.inl hget
  | cons first sessions ih =>
      rw [List.foldlM_cons] at h
      obtain ⟨next, hnext, hrest⟩ := Option.bind_eq_some_iff.1 h
      rcases ih hrest with hstored | ⟨hmem, hid⟩
      · rw [putSession_eq_some hnext, session, OrderedMap.get?_set] at hstored
        split at hstored
        · rename_i heq
          cases hstored
          exact Or.inr ⟨List.mem_cons_self, heq.symm⟩
        · exact Or.inl hstored
      · exact Or.inr ⟨List.mem_cons_of_mem _ hmem, hid⟩

theorem appendAll_sessions {changes : List JournalAppend}
    (h : changes.foldlM append store = some after) : after.sessions = store.sessions := by
  induction changes generalizing store with
  | nil =>
      cases h
      rfl
  | cons change changes ih =>
      rw [List.foldlM_cons] at h
      obtain ⟨next, hnext, hrest⟩ := Option.bind_eq_some_iff.1 h
      exact (ih hrest).trans (append_eq_some hnext).1

/-- A commit stores nothing but the sessions of its batch. -/
theorem commit_session (h : store.commit batch = some after)
    (hget : after.session id = some record) :
    store.session id = some record ∨ record ∈ batch.sessions ∧ record.sessionId = id := by
  obtain ⟨appended, happended, hput⟩ := Option.bind_eq_some_iff.1 h
  refine (putSessions_session hput hget).imp_left fun hstored => ?_
  rw [session, appendAll_sessions happended] at hstored
  change (store.sessions.deleteAll batch.deleted).get? id = some record at hstored
  rw [OrderedMap.get?_deleteAll] at hstored
  split at hstored
  · cases hstored
  · exact hstored

end JournalStore

namespace World

variable {world next : World}

/-- A record of the session that is stored, or on its way to the storage. -/
def Saves (world : World) (id : JsString) (record : SessionRecord) : Prop :=
  world.store.session id = some record ∨
    ∃ save, world.drain = .committing save ∧ record ∈ save.batch.sessions ∧
      record.sessionId = id

theorem startSave_store (world : World) : world.startSave.store = world.store := by
  unfold startSave
  simp only
  split
  · rfl
  · rfl

theorem persist_store (world : World) : world.persist.store = world.store := by
  unfold persist kick
  split
  · exact startSave_store world.wait
  · rfl

theorem saves_startSave (h : world.startSave.Saves id record) (hkeyed : Keyed world.registry) :
    world.Saves id record ∨ world.registry.get id = some record := by
  rcases h with hstored | ⟨save, hsave, hmem, hid⟩
  · rw [startSave_store] at hstored
    exact Or.inl (Or.inl hstored)
  · right
    unfold startSave at hsave
    simp only at hsave
    split at hsave
    · cases hsave
    · cases hsave
      obtain ⟨other, -, hget⟩ := mem_nextBatch_sessions.1 hmem
      rw [← hid, hkeyed other record hget]
      exact hget

theorem saves_persist (hkeyed : Keyed world.registry) (h : world.persist.Saves id record) :
    world.Saves id record ∨ world.registry.get id = some record := by
  unfold persist kick at h
  split at h
  · have hsaves := saves_startSave h hkeyed
    exact hsaves
  · exact Or.inl h

/-- What is on its way to the storage has been in the registry. -/
theorem saves_before {action : Action} (hkeyed : Keyed next.registry)
    (hnext : world.step P options action = some next) (h : next.Saves id record) :
    world.Saves id record ∨ next.registry.get id = some record := by
  have hpersisted : ∀ between : World, next = between.persist →
      between.store = world.store → between.drain = world.drain →
      world.Saves id record ∨ next.registry.get id = some record := by
    rintro between rfl hstore hdrain
    have hbetween : Keyed between.registry := by
      intro other kept hget
      apply hkeyed other kept
      rw [Registry.get, persist_sessions]
      exact hget
    rcases saves_persist hbetween h with hsaves | hlive
    · left
      unfold Saves at hsaves ⊢
      rwa [hstore, hdrain] at hsaves
    · right
      rw [Registry.get, persist_sessions]
      exact hlive
  have hended : (∀ save, next.drain ≠ .committing save) → next.store = world.store →
      world.Saves id record ∨ next.registry.get id = some record := by
    intro hdrain hstore
    left
    rcases h with hstored | ⟨save, hsave, -⟩
    · rw [hstore] at hstored
      exact Or.inl hstored
    · exact absurd hsave (hdrain save)
  have hmove : Move P options world action next := move_of_step hnext
  cases hmove with
  | call => exact Or.inl h
  | persist => exact hpersisted world rfl rfl rfl
  | settle => exact hpersisted _ rfl rfl rfl
  | detach => exact hpersisted _ rfl rfl rfl
  | restore => exact hpersisted _ rfl rfl rfl
  | finish => exact Or.inl h
  | @store save store hdrain hcommit =>
      left
      rcases h with hstored | ⟨other, hother, -⟩
      · refine (JournalStore.commit_session hcommit hstored).imp_right fun hbatch => ?_
        exact ⟨save, hdrain, hbatch⟩
      · cases hother
  | fail => exact hended (by intro _ h; cases h) rfl
  | unqueue => exact hended (by intro _ h; cases h) rfl
  | requeue => exact hended (by intro _ h; cases h) rfl
  | rest => exact hended (by intro _ h; cases h) rfl
  | restart =>
      have hrenewed : Keyed world.registry := by
        intro other kept hget
        apply hkeyed other kept
        rw [Registry.get, startSave_sessions]
        exact hget
      rcases saves_startSave h hrenewed with hsaves | hlive
      · exact Or.inl hsaves
      · right
        rw [Registry.get, startSave_sessions]
        exact hlive
  | observe => exact Or.inl h
  | answer => exact hpersisted _ rfl rfl rfl
  | crash => exact hended (by intro _ h; cases h) rfl

/-! ## What comes of a saved session -/

/-- What is saved of the session has led to what is held of it. -/
structure Leads (options : RegistryOptions) (id : JsString) (world : World) : Prop where
  sound : Process.Sound world.process
  keyed : ∀ key session, world.store.session key = some session → session.sessionId = key
  leads : ∀ saved held, world.Saves id saved → world.process.Holds id held →
    Stays options saved held

theorem stays_normaliseLoadedRecord (options : RegistryOptions) (objectId : Nat)
    (stored : SessionRecord) : Stays options stored (normaliseLoadedRecord objectId stored) := by
  have hsame : SameSigned stored (normaliseLoadedRecord objectId stored) :=
    ⟨rfl, rfl, rfl, rfl, rfl, rfl, rfl, rfl, rfl, rfl, rfl, rfl⟩
  cases hstate : stored.state with
  | active => exact .of_active hstate
  | signing => exact .of_same hsame (by simp [normaliseLoadedRecord, hstate]) (by simp [hstate])
  | uploading => exact .of_same hsame (by simp [normaliseLoadedRecord, hstate]) (by simp [hstate])
  | uploaded => exact .of_state hsame (by simp [normaliseLoadedRecord, hstate])
  | failedUpload => exact .of_state hsame (by simp [normaliseLoadedRecord, hstate])

/-- A new process holds what is stored. -/
theorem holds_boot {store : JournalStore} {nextId : Nat} {held : SessionRecord}
    (hkeyed : ∀ key session, store.session key = some session → session.sessionId = key)
    (h : (boot store nextId).process.Holds id held) :
    ∃ stored, store.session id = some stored ∧ Stays options stored held := by
  rcases h with hlive | ⟨⟨task, promise, pending, removed, htask, -⟩, -⟩
  · obtain ⟨stored, hstored, hid, objectId, rfl⟩ := get_load hlive
    obtain ⟨key, hkey⟩ := mem_read hstored
    rw [← hkeyed key stored hkey, hid] at hkey
    exact ⟨stored, hkey, stays_normaliseLoadedRecord options objectId stored⟩
  · cases htask

theorem leads_boot {store : JournalStore}
    (hkeyed : ∀ key session, store.session key = some session → session.sessionId = key)
    (nextId : Nat) : Leads options id (boot store nextId) where
  sound := Process.sound_boot store.read nextId
  keyed := hkeyed
  leads saved held hsaved hheld := by
    obtain ⟨stored, hstored, hstays⟩ := holds_boot hkeyed hheld
    rcases hsaved with hsame | ⟨save, hsave, -⟩
    · have hsame : store.session id = some saved := hsame
      rw [hstored] at hsame
      cases hsame
      exact hstays
    · cases hsave

theorem store_keyed {action : Action}
    (hkeyed : ∀ key session, world.store.session key = some session → session.sessionId = key)
    (hnext : world.step P options action = some next) :
    ∀ key session, next.store.session key = some session → session.sessionId = key := by
  intro key session hsession
  have hsame : next.store = world.store → session.sessionId = key := by
    intro hstore
    rw [hstore] at hsession
    exact hkeyed key session hsession
  have hmove : Move P options world action next := move_of_step hnext
  cases hmove with
  | @store save store _ hcommit =>
      rcases JournalStore.commit_session hcommit hsession with hstored | ⟨-, hid⟩
      · exact hkeyed key session hstored
      · exact hid
  | persist => exact hsame (persist_store world)
  | settle => exact hsame (persist_store _)
  | detach => exact hsame (persist_store _)
  | restore => exact hsame (persist_store _)
  | restart => exact hsame (startSave_store _)
  | answer => exact hsame (persist_store _)
  | _ => exact hsame rfl

theorem goesOn_of_saves (id : JsString) {process : Process} {action : Process.Action}
    (hsaves : action.saves = true) :
    Process.Fresh process action ∧ Process.GoesOn id action := by
  cases action with
  | persist => exact ⟨trivial, trivial⟩
  | queue => exact ⟨trivial, trivial⟩
  | settle => exact ⟨trivial, trivial⟩
  | _ => cases hsaves

theorem sound_of_step (hsound : Process.Sound world.process) {action : Action}
    (hfresh : world.Fresh action) (hnext : world.step P options action = some next) :
    Process.Sound next.process := by
  have hrun : Run P options Fresh world next := .step (.refl world) hfresh hnext
  apply Process.sound_run hsound
  exact follow_run (fun _ _ hsaves => (goesOn_of_saves [] hsaves).1)
    (fun _ _ acted h hacted => h acted hacted) hrun

/-- A step that is not a crash and draws another id leaves what has come of the session. -/
theorem remains_of_step (hsound : Process.Sound world.process) {action : Action}
    (hfresh : world.Fresh action) (hdrawn : ∀ acted ∈ action.process world, Process.GoesOn id acted)
    (hnext : world.step P options action = some next) :
    Process.Sound next.process ∧ Process.Remains options id world.process next.process := by
  apply Process.remains_run hsound
  have hrun : Run P options (fun world action => world.Fresh action ∧
      ∀ acted ∈ action.process world, Process.GoesOn id acted) world next :=
    .step (.refl world) ⟨hfresh, hdrawn⟩ hnext
  exact follow_run (fun _ _ hsaves => goesOn_of_saves id hsaves)
    (fun _ _ acted h hacted => ⟨h.1 acted hacted, h.2 acted hacted⟩) hrun

theorem goesOn_of_ne {action : Action} (hcrash : action ≠ .crash)
    (hdrawn : ∀ made clock uuid, action = .call made clock uuid → uuid ≠ id) :
    ∀ acted ∈ action.process world, Process.GoesOn id acted := by
  intro acted hacted
  cases action with
  | call made clock uuid =>
      cases hacted
      exact hdrawn made clock uuid rfl
  | crash => exact absurd rfl hcrash
  | persist => cases hacted
  | storeSettles => cases hacted
  | commitReturns => cases hacted
  | drainContinues => cases hacted
  | _ =>
      cases hacted
      trivial

theorem leads_step (h : Leads options id world) {action : Action} (hfresh : world.Fresh action)
    (hnext : world.step P options action = some next) : Leads options id next := by
  by_cases hcrash : action = .crash
  · subst hcrash
    cases hnext
    exact leads_boot h.keyed _
  have hkeyed := store_keyed h.keyed hnext
  by_cases hdrawn : ∀ made clock uuid, action = .call made clock uuid → uuid ≠ id
  · obtain ⟨hsound, hremains⟩ :=
      remains_of_step h.sound hfresh (goesOn_of_ne hcrash hdrawn) hnext
    refine ⟨hsound, hkeyed, ?_⟩
    intro saved held hsaved hheld
    obtain ⟨record, hrecord, hstays⟩ := hremains held hheld
    rcases saves_before hsound.tracked.keyed hnext hsaved with hbefore | hlive
    · exact (h.leads saved record hbefore hrecord).trans hstays
    · rcases hheld with hget | ⟨hdetached, hid⟩
      · rw [show next.process.registry.get id = some saved from hlive] at hget
        cases hget
        exact .refl options saved
      · have hnone := hsound.tracked.absent held hdetached
        rw [hid, show next.process.registry.get id = some saved from hlive] at hnone
        cases hnone
  · -- The session is a new one, and nothing of it is saved.
    push Not at hdrawn
    obtain ⟨made, clock, uuid, rfl, rfl⟩ := hdrawn
    refine ⟨sound_of_step h.sound hfresh hnext, hkeyed, ?_⟩
    intro saved held hsaved _
    exfalso
    simp only [step] at hnext
    split at hnext
    · cases hnext
    · rename_i hfree
      cases hnext
      apply hfree
      rcases hsaved with hstored | ⟨save, hsave, hmem, hid⟩
      · have hstored : world.store.session uuid = some saved := hstored
        exact Or.inr (Or.inl (by rw [hstored]; rfl))
      · have hsave : world.drain = .committing save := hsave
        refine Or.inr (Or.inr (Or.inr (Or.inr (Or.inl ⟨save, ?_, Or.inl ?_⟩))))
        · rw [hsave]
          rfl
        · exact List.mem_map.2 ⟨saved, hmem, hid⟩

/-! ## From the sign on -/

/-- No new session draws the id, and at a crash the session is stored as it was signed, or
not at all. -/
def Retains (options : RegistryOptions) (id : JsString) (world : World) : Action → Prop
  | .call _ _ uuid => uuid ≠ id
  | .crash => ∀ stored ∈ world.store.session id, Sealed options stored
  | _ => True

instance (options : RegistryOptions) (id : JsString) (world : World) :
    (action : Action) → Decidable (Retains options id world action)
  | .call _ _ uuid => inferInstanceAs (Decidable (uuid ≠ id))
  | .crash => inferInstanceAs (Decidable (∀ stored ∈ world.store.session id, Sealed options stored))
  | .persist | .discardPersisted .. | .resumeDiscard .. | .storeSettles .. | .commitReturns
  | .drainContinues | .answerCheckpoint .. | .resumeLoop .. | .flushObservation ..
  | .resumeFlush .. => inferInstanceAs (Decidable True)

/-- What is held of the session is as it was signed, and so is what is saved as sealed. -/
structure Signed (options : RegistryOptions) (id : JsString) (frozen : SessionRecord)
    (world : World) : Prop where
  held : ∀ held, world.process.Holds id held → Sealed options held ∧
    (held.state ≠ .uploaded → SameSigned frozen held)
  saved : ∀ saved, world.Saves id saved → Sealed options saved → saved.state ≠ .uploaded →
    SameSigned frozen saved

theorem signed_step (hleads : Leads options id world) (h : Signed options id frozen world)
    {action : Action} (hfresh : world.Fresh action) (hretains : world.Retains options id action)
    (hnext : world.step P options action = some next) : Signed options id frozen next := by
  by_cases hcrash : action = .crash
  · subst hcrash
    cases hnext
    refine ⟨?_, ?_⟩
    · intro held hheld
      obtain ⟨stored, hstored, hstays⟩ := holds_boot hleads.keyed hheld
      have hsealed : Sealed options stored := hretains stored hstored
      refine ⟨hstays.kept hsealed, fun hnot => ?_⟩
      have hstored' : stored.state ≠ .uploaded := fun hup => hnot (hstays.uploaded hup)
      exact (h.saved stored (Or.inl hstored) hsealed hstored').trans (hstays.signed hsealed hnot)
    · intro saved hsaved
      rcases hsaved with hstored | ⟨save, hsave, -⟩
      · exact h.saved saved (Or.inl hstored)
      · cases hsave
  have hdrawn : ∀ made clock uuid, action = .call made clock uuid → uuid ≠ id := by
    rintro made clock uuid rfl
    exact hretains
  obtain ⟨hsound, hremains⟩ :=
    remains_of_step hleads.sound hfresh (goesOn_of_ne hcrash hdrawn) hnext
  have hheld : ∀ held, next.process.Holds id held → Sealed options held ∧
      (held.state ≠ .uploaded → SameSigned frozen held) := by
    intro held hheld
    obtain ⟨record, hrecord, hstays⟩ := hremains held hheld
    obtain ⟨hsealed, hsame⟩ := h.held record hrecord
    refine ⟨hstays.kept hsealed, fun hnot => ?_⟩
    exact (hsame fun hup => hnot (hstays.uploaded hup)).trans (hstays.signed hsealed hnot)
  refine ⟨hheld, ?_⟩
  intro saved hsaved hsealed hnot
  rcases saves_before hsound.tracked.keyed hnext hsaved with hbefore | hlive
  · exact h.saved saved hbefore hsealed hnot
  · exact (hheld saved (Or.inl hlive)).2 hnot

theorem sign_events {registry next : Registry} {draft : SignedRecordDraft}
    (hget : registry.get id = some record)
    (h : sign P options registry id textBinding now uuid = (next, .ok draft)) :
    draft.events = if options.journal then [] else record.events := by
  unfold sign at h
  split at h
  · cases h
  · rename_i hrequired
    obtain ⟨-, hkept, -⟩ := requireInState_ok hrequired
    rw [hget] at hkept
    cases hkept
    split at h
    · cases h
    · cases h
      rfl

theorem signed_of_sign (hleads : Leads options id world) {clock : Nat → Int}
    {draft : SignedRecordDraft} {registry : Registry}
    (hsign : sign P options world.registry id textBinding (clock 0) uuid = (registry, .ok draft))
    (hnext : world.step P options (.call (.sign id textBinding) clock uuid) = some next) :
    ∃ record frozen hash createdClientT, world.registry.get id = some record ∧
      SignedAs P options record textBinding (clock 0) draft.manifest hash createdClientT ∧
      frozen = freeze options record (signedVersion options record)
        (signedBinding record textBinding) (signedDuration options record (clock 0)) uuid ∧
      draft.uploadId = frozen.uploadId ∧
      draft.events = (if options.journal then [] else record.events) ∧
      Signed options id frozen next := by
  obtain ⟨record, frozen, hget, hallowed, hsigned, hupload, hfrozen⟩ := sign_ok hsign
  obtain ⟨heq, hash, createdClientT, has⟩ := signRecord_ok hsigned
  refine ⟨record, frozen, hash, createdClientT, hget, has, heq, hupload,
    sign_events hget hsign, ?_⟩
  have hregistry : (sign P options world.registry id textBinding (clock 0) uuid).1 = registry := by
    rw [hsign]
  simp only [step, RegistryCall.run, hregistry] at hnext
  split at hnext
  · cases hnext
  cases hnext
  have hstays : Stays options record frozen := by
    have hkeeps : Guards options id world.registry registry := by
      rw [← hregistry]
      exact sign_guards world.registry id textBinding (clock 0) uuid
    obtain ⟨kept, hkept, hstays⟩ := hkeeps frozen hfrozen
    rw [hget] at hkept
    cases hkept
    exact hstays
  have hsigning : frozen.state ≠ .uploaded := by
    rw [heq]
    simp [freeze]
  refine ⟨?_, ?_⟩
  · intro held hheld
    rcases hheld with hlive | ⟨hdetached, hid⟩
    · rw [show registry.get id = some held from hlive] at hfrozen
      cases hfrozen
      exact ⟨heq ▸ sealed_freeze options record _ _ _ uuid, fun _ => .refl frozen⟩
    · have hnone := hleads.sound.tracked.absent held hdetached
      rw [hid, show world.process.registry.get id = some record from hget] at hnone
      cases hnone
  · intro saved hsaved hsealed _
    exact ((hleads.leads saved record hsaved (Or.inl hget)).trans hstays).signed hsealed
      hsigning |>.symm

theorem signed_run (hleads : Leads options id world) (h : Signed options id frozen world)
    (run : Run P options (fun world action => world.Fresh action ∧
      world.Retains options id action) world next) : Signed options id frozen next := by
  have hboth : Leads options id next ∧ Signed options id frozen next := by
    induction run with
    | refl => exact ⟨hleads, h⟩
    | step _ holds taken ih =>
        obtain ⟨hleads, hsigned⟩ := ih
        exact ⟨leads_step hleads holds.1 taken, signed_step hleads hsigned holds.1 holds.2 taken⟩
  exact hboth.2

theorem leads_run (hleads : Leads options id world) (run : Run P options Fresh world next) :
    Leads options id next := by
  induction run with
  | refl => exact hleads
  | step _ holds taken ih => exact leads_step ih holds taken

/-- A sealed session in `failed_upload` is signed as it has been signed. -/
theorem sign_again {registry : Registry} {hash : B3Hash} {createdClientT : JsString}
    {draft : SignedRecordDraft} {later : SessionRecord}
    (has : SignedAs P options record textBinding now draft.manifest hash createdClientT)
    (hevents : draft.events = if options.journal then [] else record.events)
    (hupload : draft.uploadId = frozen.uploadId)
    (heq : frozen = freeze options record (signedVersion options record)
      (signedBinding record textBinding) (signedDuration options record now) uuid)
    (hget : registry.get id = some later) (hsealed : Sealed options later)
    (hsame : SameSigned frozen later) (hfailed : later.state = .failedUpload)
    (textBinding' : Option Json) (now' : Int) (uuid' : JsString) :
    ∃ next, sign P options registry id textBinding' now' uuid' = (next, .ok draft) := by
  have hrequired : requireInState registry id [.active, .failedUpload] =
      (registry.touch id, .ok later) := by
    unfold requireInState
    rw [hget]
    simp only [hfailed]
    rfl
  have hagain : signRecord P options later textBinding' now' uuid' = .ok
      (freeze options later (signedVersion options later) (signedBinding later textBinding')
        (signedDuration options later now') uuid', draft.manifest) :=
    signRecord_of (has.again (heq ▸ hsame) hfailed textBinding' now') uuid'
  have hkept : SameSigned later (freeze options later (signedVersion options later)
      (signedBinding later textBinding') (signedDuration options later now') uuid') :=
    freeze_again hsealed hfailed textBinding' now' uuid'
  refine ⟨(registry.touch id).put id (freeze options later (signedVersion options later)
    (signedBinding later textBinding') (signedDuration options later now') uuid'), ?_⟩
  unfold sign
  rw [hrequired]
  simp only [hagain]
  have hsameEvents : (if options.journal then [] else later.events) = draft.events := by
    rw [hevents, hsame.events, heq]
    rfl
  rw [hkept.uploadId, hsame.uploadId, ← hupload, hsameEvents]

/-- Once a session has been signed, over crashes as well: nothing reopens it, every
retry that signs it again returns what was returned first, and after a failed upload a
retry does so. -/
theorem signing_repeats {store : JournalStore}
    (hkeyed : ∀ key session, store.session key = some session → session.sessionId = key)
    {nextId : Nat} {before after later : World} {clock : Nat → Int} {draft : SignedRecordDraft}
    (hbefore : Run P options Fresh (boot store nextId) before)
    (hfresh : before.Fresh (.call (.sign id textBinding) clock uuid))
    (hsign : (sign P options before.registry id textBinding (clock 0) uuid).2 = .ok draft)
    (hstep : before.step P options (.call (.sign id textBinding) clock uuid) = some after)
    (hlater : Run P options (fun world action => world.Fresh action ∧
      world.Retains options id action) after later) :
    ∀ record, later.registry.get id = some record →
      record.state ≠ .active ∧
      (∀ textBinding' now' uuid' next again,
        sign P options later.registry id textBinding' now' uuid' = (next, .ok again) →
        again = draft) ∧
      (record.state = .failedUpload → ∀ textBinding' now' uuid',
        ∃ next, sign P options later.registry id textBinding' now' uuid' = (next, .ok draft)) := by
  have hleads : Leads options id before := leads_run (leads_boot hkeyed nextId) hbefore
  obtain ⟨signed, frozen, hash, createdClientT, hget, has, heq, hupload, hevents, hsigned⟩ :=
    signed_of_sign hleads (Prod.ext rfl hsign) hstep
  intro record hrecord
  obtain ⟨hsealed, hsame⟩ :=
    (signed_run (leads_step hleads hfresh hstep) hsigned hlater).held record (Or.inl hrecord)
  have hretry : record.state = .failedUpload → ∀ textBinding' now' uuid', ∃ next,
      sign P options later.registry id textBinding' now' uuid' = (next, .ok draft) := by
    intro hfailed
    refine sign_again has hevents hupload heq hrecord hsealed (hsame ?_) hfailed
    rw [hfailed]
    decide
  refine ⟨hsealed.1, ?_, hretry⟩
  intro textBinding' now' uuid' next again hagain
  obtain ⟨found, -, hfound, hallowed, -⟩ := sign_ok hagain
  rw [hrecord] at hfound
  cases hfound
  obtain ⟨last, hlast⟩ := hretry (hallowed.resolve_left hsealed.1) textBinding' now' uuid'
  rw [hlast] at hagain
  cases hagain
  rfl

/-- The session is signed and saved, and the process ends before the upload. -/
theorem signing_repeats_crashed :
    ∃ before after later draft record,
      steps Platform.standard exampleOptions Fresh (boot JournalStore.empty 0)
        [startWriting, typeLetter] = some before ∧
      (sign Platform.standard exampleOptions before.registry exampleSession none
        1700000000000 spareUuid).2 = .ok draft ∧
      before.step Platform.standard exampleOptions signSession = some after ∧
      steps Platform.standard exampleOptions (fun world action => world.Fresh action ∧
        world.Retains exampleOptions exampleSession action) after
        ([.persist] ++ commitEnds true ++ [.crash]) = some later ∧
      later.registry.get exampleSession = some record ∧ record.state = .failedUpload ∧
      ∃ next, sign Platform.standard exampleOptions later.registry exampleSession (some .null)
        1800000000000 exampleSession = (next, .ok draft) := by
  have hrun : (steps Platform.standard exampleOptions Fresh (boot JournalStore.empty 0)
      [startWriting, typeLetter]).any (fun before =>
        before.Fresh signSession ∧
        (sign Platform.standard exampleOptions before.registry exampleSession none
          1700000000000 spareUuid).2.isOk = true ∧
        (before.step Platform.standard exampleOptions signSession).any fun after =>
          (steps Platform.standard exampleOptions (fun world action => world.Fresh action ∧
            world.Retains exampleOptions exampleSession action) after
            ([.persist] ++ commitEnds true ++ [.crash])).any fun later =>
              (later.registry.get exampleSession).any fun record =>
                record.state == .failedUpload) = true := by
    decide +kernel
  obtain ⟨before, hbefore, hcheck⟩ := (Option.any_eq_true _ _).1 hrun
  obtain ⟨hfresh, hok, hcheck⟩ := of_decide_eq_true hcheck
  obtain ⟨after, hafter, hcheck⟩ := (Option.any_eq_true _ _).1 hcheck
  obtain ⟨later, hlater, hcheck⟩ := (Option.any_eq_true _ _).1 hcheck
  obtain ⟨record, hrecord, hcheck⟩ := (Option.any_eq_true _ _).1 hcheck
  have hfailed : record.state = .failedUpload := beq_iff_eq.1 hcheck
  cases hsign : (sign Platform.standard exampleOptions before.registry exampleSession none
      1700000000000 spareUuid).2 with
  | error thrown =>
      rw [hsign] at hok
      cases hok
  | ok draft =>
      have hkeyed : ∀ key session, JournalStore.empty.session key = some session →
          session.sessionId = key := (durable_empty Platform.standard).keyed
      obtain ⟨-, -, hretry⟩ := signing_repeats hkeyed ((Run.refl _).steps hbefore) hfresh hsign
        hafter ((Run.refl _).steps hlater) record hrecord
      exact ⟨before, after, later, draft, record, hbefore, hsign, hafter, hlater, hrecord, hfailed,
        hretry hfailed _ _ _⟩

end World

end Pmbah.Producer
