import Pmbah.Store.ChunkedUpload

/-!
# What an upload holds

The chunks of an upload follow one another and their tips are the chain of its
events.  An object that has been replaced is incomplete, so only the current one
is ever published.
-/

namespace Pmbah.Store

open Js Format Library

variable {A : Type}

/-! ## Chunks -/

@[simp] theorem segments_nil {α : Type} (part : Chunk → List α) : segments part [] = [] := rfl

theorem segments_cons {α : Type} (part : Chunk → List α) (chunk : Nat × Chunk)
    (chunks : List (Nat × Chunk)) :
    segments part (chunk :: chunks) = (chunk.1, part chunk.2) :: segments part chunks := rfl

theorem segments_concat {α : Type} (part : Chunk → List α) (chunks : List (Nat × Chunk))
    (start : Nat) (chunk : Chunk) :
    segments part (chunks ++ [(start, chunk)]) = segments part chunks ++ [(start, part chunk)] := by
  simp [segments]

/-- The upload has accepted these events and keeps them in these chunks. -/
structure Holds (P : Platform) (state : UploadState A) (chunks : List (Nat × Chunk))
    (events : List BufferMutation) : Prop where
  tiled : Tiled 0 (segments Chunk.events chunks)
  sized : ∀ chunk ∈ chunks, chunk.2.tips.length = chunk.2.events.length ∧
    0 < chunk.2.events.length ∧ chunk.2.events.length ≤ maxEventChunk
  reads : ReadsAsLog (untile (segments Chunk.events chunks)) events
  validLog : ValidLog events
  chain : untile (segments Chunk.tips chunks) =
    eventChain P state.manifest.sessionId state.manifest.formatVersion events
  tip : state.chainTip = eventTip P state.manifest.sessionId state.manifest.formatVersion events
  count : state.nextSeq = events.length
  lastT : state.lastT = events.getLast?.map BufferMutation.t
  inTime : ∀ event ∈ events, event.t ≤ state.manifest.durationMs

theorem holds_nil (P : Platform) {state : UploadState A} (hseq : state.nextSeq = 0)
    (htip : state.chainTip = none) (hlast : state.lastT = none) : Holds P state [] [] where
  tiled := trivial
  sized := by simp
  reads := .nil
  validLog := ⟨by simp, by simp, .nil⟩
  chain := rfl
  tip := htip
  count := hseq
  lastT := hlast
  inTime := by simp

theorem tiled_congr {α β : Type} {f : Chunk → List α} {g : Chunk → List β}
    {chunks : List (Nat × Chunk)} (h : ∀ chunk ∈ chunks, (g chunk.2).length = (f chunk.2).length)
    {start : Nat} (htiled : Tiled start (segments f chunks)) : Tiled start (segments g chunks) := by
  induction chunks generalizing start with
  | nil => trivial
  | cons chunk chunks ih =>
      obtain ⟨rfl, hrest⟩ := htiled
      refine ⟨rfl, ?_⟩
      rw [h chunk (by simp)]
      exact ih (fun other hother => h other (by simp [hother])) hrest

theorem Holds.tipsTiled {P : Platform} {state : UploadState A} {chunks : List (Nat × Chunk)}
    {events : List BufferMutation} (h : Holds P state chunks events) :
    Tiled 0 (segments Chunk.tips chunks) :=
  tiled_congr (fun chunk hchunk => (h.sized chunk hchunk).1) h.tiled

theorem Holds.length_untile {P : Platform} {state : UploadState A} {chunks : List (Nat × Chunk)}
    {events : List BufferMutation} (h : Holds P state chunks events) :
    (untile (segments Chunk.events chunks)).length = events.length :=
  h.reads.length_eq

/-- The tip at an index of the upload is that of the chain. -/
theorem Holds.tipAt_eq {P : Platform} {state : UploadState A} {chunks : List (Nat × Chunk)}
    {events : List BufferMutation} (h : Holds P state chunks events) (index : Nat) :
    tipAt chunks index =
      (eventChain P state.manifest.sessionId state.manifest.formatVersion events)[index]? := by
  rw [tipAt, find?_covers h.tipsTiled (Nat.zero_le index), h.chain, Nat.sub_zero]

/-- The chain of what an upload holds, computed from its events. -/
theorem Holds.computeEventHashChain_eq {P : Platform} {state : UploadState A}
    {chunks : List (Nat × Chunk)} {events : List BufferMutation}
    (h : Holds P state chunks events) (huuid : isUuid state.manifest.sessionId = true)
    (hne : events ≠ []) :
    computeEventHashChain P (untile (segments Chunk.events chunks)) state.manifest.sessionId
      state.manifest.formatVersion =
        .ok (eventChain P state.manifest.sessionId state.manifest.formatVersion events) :=
  Format.computeEventHashChain_eq huuid h.reads h.validLog hne

/-! ## One chunk -/

/-- The part of a state that a chunk of events builds on. -/
structure Follows (P : Platform) (state : UploadState A) (events : List BufferMutation) : Prop where
  validLog : ValidLog events
  tip : state.chainTip = eventTip P state.manifest.sessionId state.manifest.formatVersion events
  count : state.nextSeq = events.length
  lastT : state.lastT = events.getLast?.map BufferMutation.t

/-- What appending a chunk never changes. -/
structure SameUpload (state next : UploadState A) : Prop where
  uploadId : next.uploadId = state.uploadId
  manifest : next.manifest = state.manifest
  finalizedRecordHash : next.finalizedRecordHash = state.finalizedRecordHash
  publishedOwner : next.publishedOwner = state.publishedOwner

theorem transitionEvent_ok {P : Platform} {options : ChunkedOptions A}
    {progress next : ChunkTransition A} {value : Json} {events : List BufferMutation}
    (h : transitionEvent P options progress value = .ok next)
    (hfollows : Follows P progress.state events) :
    ∃ event, ReadsAs value event ∧ event.t ≤ progress.state.manifest.durationMs ∧
      SameUpload progress.state next.state ∧ Follows P next.state (events ++ [event]) ∧
      next.chainTips = progress.chainTips ++
        [(eventScheme P).advance (chainStart progress.state.manifest.sessionId
          progress.state.manifest.formatVersion) (eventTip P progress.state.manifest.sessionId
          progress.state.manifest.formatVersion events) event] := by
  simp only [transitionEvent] at h
  split at h
  · cases h
  · rename_i errors hvalidate
    split at h
    · cases h
    · rename_i hnil
      split at h
      · cases h
      · rename_i hordered
        split at h
        · cases h
        · rename_i hearly
          split at h
          · cases h
          · rename_i tip hadvance
            split at h
            · cases h
            · simp only [Except.ok.injEq] at h
              subst h
              rw [Bool.not_eq_true, Bool.not_eq_false', List.isEmpty_iff] at hnil
              subst hnil
              obtain ⟨event, hvalid, hreads, hseq⟩ := validateEvent_eq_nil.1 hvalidate
              obtain ⟨-, event', -, hreads', -, rfl⟩ := advanceEventHash_ok.1 hadvance
              have hsame : event' = event := by
                rw [← readEvent_of_readsAs hreads', readEvent_of_readsAs hreads]
              subst hsame
              have ht : value.natAt (js "t") = event'.t := natAt_t_of_readsAs hreads
              rw [ht] at hordered hearly
              refine ⟨event', hreads, Nat.not_lt.1 hearly, ⟨rfl, rfl, rfl, rfl⟩,
                ⟨?_, ?_, ?_, ?_⟩, ?_⟩
              · rw [validLog_concat]
                refine ⟨hfollows.validLog, hvalid, ?_, ?_⟩
                · rw [hseq _ rfl, hfollows.count]
                · intro last hlast
                  rw [hfollows.lastT, Option.mem_def.1 hlast] at hordered
                  simpa using hordered
              · simp only [eventTip, ChainScheme.tip_concat, hfollows.tip]
              · simp [hfollows.count]
              · simp [ht]
              · rw [hfollows.tip]

theorem transitionEvents_ok {P : Platform} {options : ChunkedOptions A} {values : List Json}
    {progress next : ChunkTransition A} {events : List BufferMutation}
    (h : transitionEvents P options progress values = .ok next)
    (hfollows : Follows P progress.state events) :
    ∃ more, ReadsAsLog values more ∧
      (∀ event ∈ more, event.t ≤ progress.state.manifest.durationMs) ∧
      SameUpload progress.state next.state ∧ Follows P next.state (events ++ more) ∧
      next.chainTips = progress.chainTips ++
        (eventScheme P).chainFrom (chainStart progress.state.manifest.sessionId
          progress.state.manifest.formatVersion) (eventTip P progress.state.manifest.sessionId
          progress.state.manifest.formatVersion events) more := by
  induction values generalizing progress events with
  | nil =>
      simp only [transitionEvents, Except.ok.injEq] at h
      subst h
      exact ⟨[], .nil, by simp, ⟨rfl, rfl, rfl, rfl⟩, by simpa using hfollows,
        by simp [ChainScheme.chainFrom]⟩
  | cons value values ih =>
      unfold transitionEvents at h
      split at h
      · cases h
      · rename_i middle hmiddle
        obtain ⟨event, hreads, hearly, hsame, hnext, htips⟩ := transitionEvent_ok hmiddle hfollows
        obtain ⟨more, hmore, hlate, hsame', hlast, htips'⟩ := ih h hnext
        rw [hsame.manifest] at hlate htips'
        refine ⟨event :: more, .cons hreads hmore, ?_, ?_, by simpa using hlast, ?_⟩
        · intro other hother
          rcases List.mem_cons.1 hother with rfl | hother
          · exact hearly
          · exact hlate other hother
        · exact ⟨hsame'.uploadId.trans hsame.uploadId, hsame'.manifest.trans hsame.manifest,
            hsame'.finalizedRecordHash.trans hsame.finalizedRecordHash,
            hsame'.publishedOwner.trans hsame.publishedOwner⟩
        · simp only [htips', htips, eventTip, ChainScheme.tip_concat, List.append_assoc]
          rfl

/-- A chunk that is accepted continues what the upload holds. -/
theorem transition_ok {P : Platform} {options : ChunkedOptions A} {state : UploadState A}
    {values : List Json} {next : ChunkTransition A} {chunks : List (Nat × Chunk)}
    {events : List BufferMutation} (hvalues : 0 < values.length)
    (hlength : values.length ≤ maxEventChunk)
    (h : transition P options state values = .ok next) (hholds : Holds P state chunks events) :
    SameUpload state next.state ∧ next.state.nextSeq = state.nextSeq + values.length ∧
      ∃ events', Holds P next.state (chunks ++ [(state.nextSeq, ⟨values, next.chainTips⟩)])
        events' := by
  unfold transition at h
  simp only at h
  split at h
  · cases h
  · have hstart : Follows P
        { state with receivedBytes := state.receivedBytes + options.byteLength values } events :=
      ⟨hholds.validLog, hholds.tip, hholds.count, hholds.lastT⟩
    obtain ⟨more, hmore, hinTime, hsame, hfollows, htips⟩ := transitionEvents_ok h hstart
    have hsame' : SameUpload state next.state :=
      ⟨hsame.uploadId, hsame.manifest, hsame.finalizedRecordHash, hsame.publishedOwner⟩
    have hmoreLength : values.length = more.length := hmore.length_eq
    refine ⟨hsame', ?_, events ++ more, ?_, ?_, ?_, hfollows.validLog, ?_, hfollows.tip,
      hfollows.count, hfollows.lastT, ?_⟩
    · rw [hfollows.count, hholds.count, List.length_append, hmoreLength]
    · rw [segments_concat, tiled_append]
      refine ⟨hholds.tiled, ?_, trivial⟩
      rw [hholds.length_untile, hholds.count, Nat.zero_add]
    · intro chunk hchunk
      rcases List.mem_append.1 hchunk with hchunk | hchunk
      · exact hholds.sized chunk hchunk
      · rw [List.mem_singleton.1 hchunk]
        refine ⟨?_, hvalues, hlength⟩
        simp [htips, hmoreLength]
    · rw [segments_concat, untile_append]
      exact List.rel_append hholds.reads (by simpa [untile] using hmore)
    · rw [segments_concat, untile_append, hholds.chain, hsame'.manifest, eventChain, eventChain,
        ChainScheme.chain, ChainScheme.chain, ChainScheme.chainFrom_append]
      simp [untile, htips, eventTip, ChainScheme.tip]
    · intro event hevent
      rw [hsame'.manifest]
      rcases List.mem_append.1 hevent with hevent | hevent
      · exact hholds.inTime event hevent
      · exact hinTime event hevent

end Pmbah.Store
