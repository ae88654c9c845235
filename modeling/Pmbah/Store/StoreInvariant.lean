import Pmbah.Store.UploadInvariant

/-!
# The chunked store over its calls

Every object is the current one of its upload or incomplete for good.  Waiting
`finalize` calls resume in order, so one that holds a replaced object is
answered before the object that replaced it can be published.
-/

namespace Pmbah.Store.ChunkedStore

open Js Format Library

variable {A : Type}

/-- The object is the current one of its upload. -/
def Current (store : ChunkedStore A) (object : Nat) (state : UploadState A) : Prop :=
  store.objects[object]? = some state ∧ store.uploads.get? state.uploadId = some object

structure Sound (P : Platform) (store : ChunkedStore A) : Prop where
  named : ∀ id object, store.uploads.get? id = some object →
    ∃ state, store.objects[object]? = some state ∧ state.uploadId = id
  valid : ∀ state ∈ store.objects, validateManifest P state.manifest.json = []
  bounded : ∀ state ∈ store.objects, state.nextSeq ≤ state.manifest.eventCount
  replaced : ∀ (object : Nat) (state : UploadState A), store.objects[object]? = some state → store.Current object state ∨
    state.nextSeq < state.manifest.eventCount ∧ state.publishedOwner = false
  holds : ∀ object state chunks, store.Current object state →
    store.chunks.get? state.uploadId = some chunks →
      ∃ events, Holds P state chunks.entries events
  counted : ∀ id counts, store.delays.get? id = some counts →
    ∃ chunks, store.chunks.get? id = some chunks
  owner : ∀ state ∈ store.objects, state.publishedOwner = true →
    state.finalizedRecordHash = some state.manifest.recordHash ∧
      state.nextSeq = state.manifest.eventCount ∧
      (∃ record, store.completed.get? state.manifest.recordHash = some record) ∧
      ∃ chunks, store.chunks.get? state.uploadId = some chunks
  completed : ∀ recordHash record, store.completed.get? recordHash = some record →
    record.manifest.recordHash = recordHash ∧ record.eventStorage = .chunks ∧
      ∃ (object : Nat) (state : UploadState A), store.objects[object]? = some state ∧
        state.publishedOwner = true ∧ state.manifest = record.manifest
  single : ∀ (object object' : Nat) (state state' : UploadState A), store.objects[object]? = some state →
    store.objects[object']? = some state' → state.publishedOwner = true →
    state'.publishedOwner = true → state.manifest.recordHash = state'.manifest.recordHash →
      object = object'
  waiting : ∀ task ∈ store.awaiting, ∃ state : UploadState A, store.objects[task.object]? = some state ∧
    state.uploadId = task.uploadId ∧
      ∀ record ∈ task.found, record.manifest.recordHash = state.manifest.recordHash
  ordered : store.awaiting.Pairwise fun earlier later =>
    earlier.uploadId = later.uploadId → earlier.object ≤ later.object
  behind : ∀ task ∈ store.awaiting, ∀ object state, store.Current object state →
    state.uploadId = task.uploadId →
      task.object ≤ object ∧ (state.publishedOwner = true → task.object = object)

theorem sound_empty (P : Platform) : Sound P (empty : ChunkedStore A) where
  named := by simp [empty]
  valid := by simp [empty]
  bounded := by simp [empty]
  replaced := by simp [empty]
  holds := by simp [empty, Current]
  counted := by simp [empty]
  owner := by simp [empty]
  completed := by simp [empty]
  single := by simp [empty]
  waiting := by simp [empty]
  ordered := .nil
  behind := by simp [empty]

theorem Current.mem {store : ChunkedStore A} {object : Nat} {state : UploadState A}
    (h : store.Current object state) : state ∈ store.objects :=
  List.mem_of_getElem? h.1

theorem Sound.current_of_upload {P : Platform} {store : ChunkedStore A} (h : store.Sound P)
    {id : JsString} {object : Nat} {state : UploadState A}
    (hupload : store.upload? id = some (object, state)) :
    store.Current object state ∧ state.uploadId = id := by
  obtain ⟨named, huploads, hobject⟩ := Option.bind_eq_some_iff.1 hupload
  obtain ⟨found, hfound, hpair⟩ := Option.map_eq_some_iff.1 hobject
  simp only [Prod.mk.injEq] at hpair
  obtain ⟨rfl, rfl⟩ := hpair
  obtain ⟨other, hother, hid⟩ := h.named id named huploads
  rw [hfound, Option.some.injEq] at hother
  subst hother
  exact ⟨⟨hfound, by rw [hid]; exact huploads⟩, hid⟩

theorem Sound.absent_of_upload {P : Platform} {store : ChunkedStore A} (h : store.Sound P)
    {id : JsString} (hupload : store.upload? id = none) : store.uploads.get? id = none := by
  cases hget : store.uploads.get? id with
  | none => rfl
  | some object =>
      obtain ⟨state, hstate, -⟩ := h.named id object hget
      rw [upload?, hget, Option.bind_some, hstate] at hupload
      cases hupload

/-- An object that has been published is the current one. -/
theorem Sound.current_of_owner {P : Platform} {store : ChunkedStore A} (h : store.Sound P)
    {object : Nat} {state : UploadState A} (hobject : store.objects[object]? = some state)
    (howner : state.publishedOwner = true) : store.Current object state := by
  rcases h.replaced object state hobject with hcurrent | ⟨-, hfalse⟩
  · exact hcurrent
  · rw [hfalse] at howner
    cases howner

/-! ## The records of published uploads -/

/-- The upload behind a completed record is found. -/
theorem Sound.owner_eq {P : Platform} {store : ChunkedStore A} (h : store.Sound P)
    {record : StoredRecord} {object : Nat} {state : UploadState A}
    (hobject : store.objects[object]? = some state) (howner : state.publishedOwner = true)
    (hmanifest : state.manifest = record.manifest) : store.owner? record = some state := by
  obtain ⟨hfinal, hcount, -⟩ := h.owner state (List.mem_of_getElem? hobject) howner
  have hcurrent := h.current_of_owner hobject howner
  have hmem : state ∈ store.uploads.values.filterMap fun object => store.objects[object]? :=
    List.mem_filterMap.2 ⟨object, OrderedMap.mem_values_iff.2 ⟨_, hcurrent.2⟩, hobject⟩
  have hsome : (store.owner? record).isSome := by
    rw [owner?, List.find?_isSome]
    refine ⟨state, hmem, ?_⟩
    simp [howner, hfinal, hcount, hmanifest]
  obtain ⟨other, hother⟩ := Option.isSome_iff_exists.1 hsome
  have hprops := List.find?_some hother
  obtain ⟨place, -, hplace⟩ := List.mem_filterMap.1 (List.mem_of_find?_eq_some hother)
  simp only [Bool.and_eq_true, decide_eq_true_eq, beq_iff_eq] at hprops
  obtain ⟨⟨hotherOwner, hotherFinal⟩, -⟩ := hprops
  obtain ⟨hotherHash, -⟩ := h.owner other (List.mem_of_getElem? hplace) hotherOwner
  rw [hotherHash, Option.some.injEq] at hotherFinal
  have hsame := h.single place object other state hplace hobject hotherOwner howner
    (by rw [hotherFinal, hmanifest])
  subst hsame
  rw [hobject, Option.some.injEq] at hplace
  rw [hother, hplace]

theorem Sound.recordChunks_eq {P : Platform} {store : ChunkedStore A} (h : store.Sound P)
    {record : StoredRecord} {object : Nat} {state : UploadState A}
    (hobject : store.objects[object]? = some state) (howner : state.publishedOwner = true)
    (hmanifest : state.manifest = record.manifest) :
    store.recordChunks record =
      ((store.chunks.get? state.uploadId).getD ∅).entries := by
  rw [recordChunks, h.owner_eq hobject howner hmanifest, Option.bind_some]

/-- What stays of every published upload. -/
structure Keeps (store next : ChunkedStore A) : Prop where
  completed : ∀ recordHash record, store.completed.get? recordHash = some record →
    next.completed.get? recordHash = some record
  owner : ∀ (object : Nat) (state : UploadState A), store.objects[object]? = some state →
    state.publishedOwner = true → ∃ state' : UploadState A, next.objects[object]? = some state' ∧ state'.publishedOwner = true ∧
      state'.manifest = state.manifest ∧ state'.uploadId = state.uploadId ∧
      next.chunks.get? state.uploadId = store.chunks.get? state.uploadId

theorem Keeps.recordChunks_eq {P : Platform} {store next : ChunkedStore A}
    (h : Keeps store next) (hstore : store.Sound P) (hnext : next.Sound P)
    {recordHash : B3Hash} {record : StoredRecord}
    (hrecord : store.completed.get? recordHash = some record) :
    next.recordChunks record = store.recordChunks record := by
  obtain ⟨-, -, object, state, hobject, howner, hmanifest⟩ :=
    hstore.completed recordHash record hrecord
  obtain ⟨state', hobject', howner', hmanifest', hid, hchunks⟩ := h.owner object state hobject howner
  rw [hstore.recordChunks_eq hobject howner hmanifest,
    hnext.recordChunks_eq hobject' howner' (hmanifest'.trans hmanifest), hid, hchunks]

theorem Keeps.refl (store : ChunkedStore A) : Keeps store store where
  completed _ _ h := h
  owner _ state hobject howner := ⟨state, hobject, howner, rfl, rfl, rfl⟩

/-! ## Calls that change an object in place -/

/-- What a change in place leaves of an object. -/
structure Alike (state next : UploadState A) : Prop where
  uploadId : next.uploadId = state.uploadId
  manifest : next.manifest = state.manifest
  nextSeq : next.nextSeq = state.nextSeq
  chainTip : next.chainTip = state.chainTip
  lastT : next.lastT = state.lastT
  publishedOwner : next.publishedOwner = state.publishedOwner
  finalized : state.publishedOwner = true → next.finalizedRecordHash = state.finalizedRecordHash

theorem Alike.refl (state : UploadState A) : Alike state state :=
  ⟨rfl, rfl, rfl, rfl, rfl, rfl, fun _ => rfl⟩

theorem Alike.holds {P : Platform} {state next : UploadState A} (h : Alike state next)
    {chunks : List (Nat × Chunk)} {events : List BufferMutation}
    (hholds : Holds P state chunks events) : Holds P next chunks events where
  tiled := hholds.tiled
  sized := hholds.sized
  reads := hholds.reads
  validLog := hholds.validLog
  chain := by rw [h.manifest, hholds.chain]
  tip := by rw [h.manifest, h.chainTip, hholds.tip]
  count := by rw [h.nextSeq, hholds.count]
  lastT := by rw [h.lastT, hholds.lastT]
  inTime := by rw [h.manifest]; exact hholds.inTime

theorem alike_of_set {objects : List (UploadState A)} {object : Nat} {state next : UploadState A}
    (hobject : objects[object]? = some state) (halike : Alike state next) {place : Nat}
    {found : UploadState A} (h : (objects.set object next)[place]? = some found) :
    ∃ old, objects[place]? = some old ∧ Alike old found := by
  rw [List.getElem?_set] at h
  by_cases hplace : object = place
  · subst hplace
    rw [if_pos rfl] at h
    split at h
    · cases h
      exact ⟨state, hobject, halike⟩
    · cases h
  · rw [if_neg hplace] at h
    exact ⟨found, h, Alike.refl found⟩

theorem set_of_alike {objects : List (UploadState A)} {object : Nat} {state next : UploadState A}
    (hobject : objects[object]? = some state) (halike : Alike state next) {place : Nat}
    {old : UploadState A} (h : objects[place]? = some old) :
    ∃ found, (objects.set object next)[place]? = some found ∧ Alike old found := by
  rw [List.getElem?_set]
  by_cases hplace : object = place
  · subst hplace
    rw [hobject, Option.some.injEq] at h
    subst h
    have hlt : object < objects.length := (List.getElem?_eq_some_iff.1 hobject).1
    exact ⟨next, by rw [if_pos rfl, if_pos hlt], halike⟩
  · rw [if_neg hplace]
    exact ⟨old, h, Alike.refl old⟩

/-- A call that changes one object in place, and drops chunks and waiting calls at
most, keeps the store sound. -/
theorem Sound.revise {P : Platform} {store : ChunkedStore A} (h : store.Sound P)
    (next : ChunkedStore A) (state' : UploadState A) {object : Nat} {state : UploadState A}
    (hobject : store.objects[object]? = some state)
    (halike : Alike state state') (hobjects : next.objects = store.objects.set object state')
    (huploads : next.uploads = store.uploads) (hcompleted : next.completed = store.completed)
    (hchunks : ∀ id chunks, next.chunks.get? id = some chunks →
      store.chunks.get? id = some chunks)
    (howners : ∀ state ∈ store.objects, state.publishedOwner = true →
      next.chunks.get? state.uploadId = store.chunks.get? state.uploadId)
    (hdelays : ∀ id counts, next.delays.get? id = some counts →
      store.delays.get? id = some counts ∧ next.chunks.get? id = store.chunks.get? id)
    (hawaiting : next.awaiting.Sublist store.awaiting) :
    next.Sound P ∧ Keeps store next := by
  have hback : ∀ {place : Nat} {found : UploadState A}, next.objects[place]? = some found →
      ∃ old, store.objects[place]? = some old ∧ Alike old found := by
    intro place found hfound
    rw [hobjects] at hfound
    exact alike_of_set hobject halike hfound
  have hforth : ∀ {place : Nat} {old : UploadState A}, store.objects[place]? = some old →
      ∃ found, next.objects[place]? = some found ∧ Alike old found := by
    intro place old hold
    rw [hobjects]
    exact set_of_alike hobject halike hold
  have hmem : ∀ {found : UploadState A}, found ∈ next.objects → ∃ old ∈ store.objects, Alike old found := by
    intro found hfound
    obtain ⟨place, hplace⟩ := List.mem_iff_getElem?.1 hfound
    obtain ⟨old, hold, hsame⟩ := hback hplace
    exact ⟨old, List.mem_of_getElem? hold, hsame⟩
  have hcurrent : ∀ {place : Nat} {found : UploadState A}, next.Current place found →
      ∃ old, store.Current place old ∧ Alike old found := by
    intro place found hfound
    obtain ⟨old, hold, hsame⟩ := hback hfound.1
    refine ⟨old, ⟨hold, ?_⟩, hsame⟩
    rw [← hsame.uploadId, ← huploads]
    exact hfound.2
  refine ⟨⟨?_, ?_, ?_, ?_, ?_, ?_, ?_, ?_, ?_, ?_, ?_, ?_⟩, ⟨?_, ?_⟩⟩
  · intro id place hplace
    rw [huploads] at hplace
    obtain ⟨old, hold, hid⟩ := h.named id place hplace
    obtain ⟨found, hfound, hsame⟩ := hforth hold
    exact ⟨found, hfound, hsame.uploadId.trans hid⟩
  · intro found hfound
    obtain ⟨old, hold, hsame⟩ := hmem hfound
    rw [hsame.manifest]
    exact h.valid old hold
  · intro found hfound
    obtain ⟨old, hold, hsame⟩ := hmem hfound
    rw [hsame.manifest, hsame.nextSeq]
    exact h.bounded old hold
  · intro place found hfound
    obtain ⟨old, hold, hsame⟩ := hback hfound
    rw [hsame.manifest, hsame.nextSeq, hsame.publishedOwner]
    rcases h.replaced place old hold with hcur | hstale
    · left
      refine ⟨hfound, ?_⟩
      rw [hsame.uploadId, huploads]
      exact hcur.2
    · exact Or.inr hstale
  · intro place found chunks hfound hget
    obtain ⟨old, hold, hsame⟩ := hcurrent hfound
    rw [hsame.uploadId] at hget
    obtain ⟨events, hholds⟩ := h.holds place old chunks hold (hchunks _ _ hget)
    exact ⟨events, hsame.holds hholds⟩
  · intro id counts hcounts
    obtain ⟨hbefore, hsame⟩ := hdelays id counts hcounts
    rw [hsame]
    exact h.counted id counts hbefore
  · intro found hfound howner
    obtain ⟨old, hold, hsame⟩ := hmem hfound
    rw [hsame.publishedOwner] at howner
    obtain ⟨hfinal, hcount, hrecord, hheld⟩ := h.owner old hold howner
    rw [hsame.finalized howner, hsame.manifest, hsame.nextSeq, hsame.uploadId, hcompleted,
      howners old hold howner]
    exact ⟨hfinal, hcount, hrecord, hheld⟩
  · intro recordHash record hrecord
    rw [hcompleted] at hrecord
    obtain ⟨hhash, hstorage, place, old, hold, howner, hmanifest⟩ :=
      h.completed recordHash record hrecord
    obtain ⟨found, hfound, hsame⟩ := hforth hold
    exact ⟨hhash, hstorage, place, found, hfound, hsame.publishedOwner.trans howner,
      hsame.manifest.trans hmanifest⟩
  · intro place place' found found' hfound hfound' howner howner' hhash
    obtain ⟨old, hold, hsame⟩ := hback hfound
    obtain ⟨old', hold', hsame'⟩ := hback hfound'
    rw [hsame.publishedOwner] at howner
    rw [hsame'.publishedOwner] at howner'
    rw [hsame.manifest, hsame'.manifest] at hhash
    exact h.single place place' old old' hold hold' howner howner' hhash
  · intro task htask
    obtain ⟨old, hold, hid, hfound⟩ := h.waiting task (hawaiting.subset htask)
    obtain ⟨found, hnext, hsame⟩ := hforth hold
    refine ⟨found, hnext, hsame.uploadId.trans hid, ?_⟩
    rw [hsame.manifest]
    exact hfound
  · exact h.ordered.sublist hawaiting
  · intro task htask place found hfound hid
    obtain ⟨old, hold, hsame⟩ := hcurrent hfound
    rw [hsame.uploadId] at hid
    rw [hsame.publishedOwner]
    exact h.behind task (hawaiting.subset htask) place old hold hid
  · intro recordHash record hrecord
    rw [hcompleted]
    exact hrecord
  · intro place old hold howner
    obtain ⟨found, hfound, hsame⟩ := hforth hold
    exact ⟨found, hfound, hsame.publishedOwner.trans howner, hsame.manifest, hsame.uploadId,
      howners old (List.mem_of_getElem? hold) howner⟩

/-! ## Calls that add an object -/

/-- The store with a new object for an upload, which holds these chunks. -/
def extended (store : ChunkedStore A) (state : UploadState A) (chunks : OrderedMap Nat Chunk)
    (counts : OrderedMap Nat Nat) : ChunkedStore A :=
  { store with
    objects := store.objects ++ [state]
    uploads := store.uploads.set state.uploadId store.objects.length
    chunks := store.chunks.set state.uploadId chunks
    delays := store.delays.set state.uploadId counts }

theorem getElem?_extended {store : ChunkedStore A} {state : UploadState A}
    {chunks : OrderedMap Nat Chunk} {counts : OrderedMap Nat Nat} {object : Nat}
    {found : UploadState A}
    (h : (store.extended state chunks counts).objects[object]? = some found) :
    store.objects[object]? = some found ∨ object = store.objects.length ∧ found = state := by
  simp only [extended] at h
  rcases Nat.lt_or_ge object store.objects.length with hlt | hge
  · rw [List.getElem?_append_left hlt] at h
    exact Or.inl h
  · rw [List.getElem?_append_right hge] at h
    obtain ⟨hlt, hfound⟩ := List.getElem?_eq_some_iff.1 h
    simp only [List.length_singleton] at hlt
    refine Or.inr ⟨by omega, ?_⟩
    simpa [show object - store.objects.length = 0 by omega] using hfound.symm

theorem extended_getElem? {store : ChunkedStore A} (state : UploadState A)
    (chunks : OrderedMap Nat Chunk) (counts : OrderedMap Nat Nat) {object : Nat}
    {found : UploadState A} (h : store.objects[object]? = some found) :
    (store.extended state chunks counts).objects[object]? = some found := by
  simp only [extended]
  rw [List.getElem?_append_left (List.getElem?_eq_some_iff.1 h).1, h]

/-- A new object whose predecessor, if any, is incomplete keeps the store sound. -/
theorem Sound.extended {P : Platform} {store : ChunkedStore A} (h : store.Sound P)
    (state : UploadState A) (chunks : OrderedMap Nat Chunk) (events : List BufferMutation)
    (counts : OrderedMap Nat Nat) (hvalid : validateManifest P state.manifest.json = [])
    (hbounded : state.nextSeq ≤ state.manifest.eventCount) (howner : state.publishedOwner = false)
    (hholds : Holds P state chunks.entries events)
    (hreplaced : ∀ object old, store.Current object old → old.uploadId = state.uploadId →
      old.nextSeq < old.manifest.eventCount ∧ old.publishedOwner = false) :
    (store.extended state chunks counts).Sound P ∧
      Keeps store (store.extended state chunks counts) := by
  have hlast : (store.extended state chunks counts).objects[store.objects.length]? =
      some state := by
    simp [ChunkedStore.extended]
  have hother : ∀ {object : Nat} {old : UploadState A}, store.Current object old →
      old.publishedOwner = true → old.uploadId ≠ state.uploadId := by
    intro object old hold hpublished hid
    rw [(hreplaced object old hold hid).2] at hpublished
    cases hpublished
  have hcurrent : ∀ {object : Nat} {found : UploadState A},
      (store.extended state chunks counts).Current object found →
        (object = store.objects.length ∧ found = state) ∨
          (store.Current object found ∧ found.uploadId ≠ state.uploadId) := by
    rintro object found ⟨hfound, hplace⟩
    simp only [ChunkedStore.extended, OrderedMap.get?_set] at hplace
    rcases getElem?_extended hfound with hold | hnew
    · right
      by_cases hid : found.uploadId = state.uploadId
      · rw [if_pos hid, Option.some.injEq] at hplace
        subst hplace
        rw [List.getElem?_eq_none (Nat.le_refl _)] at hold
        cases hold
      · rw [if_neg hid] at hplace
        exact ⟨⟨hold, hplace⟩, hid⟩
    · exact Or.inl hnew
  have hchunks : ∀ {id : JsString}, id ≠ state.uploadId →
      (store.extended state chunks counts).chunks.get? id = store.chunks.get? id := by
    intro id hid
    exact store.chunks.get?_set_ne chunks hid
  refine ⟨⟨?_, ?_, ?_, ?_, ?_, ?_, ?_, ?_, ?_, ?_, ?_, ?_⟩, ⟨fun _ _ hrecord => hrecord, ?_⟩⟩
  · intro id object hobject
    simp only [ChunkedStore.extended, OrderedMap.get?_set] at hobject
    split at hobject
    · rename_i hid
      simp only [Option.some.injEq] at hobject
      subst hobject
      exact ⟨state, hlast, hid.symm⟩
    · obtain ⟨found, hfound, hid⟩ := h.named id object hobject
      exact ⟨found, extended_getElem? state chunks counts hfound, hid⟩
  · intro found hfound
    rcases List.mem_append.1 hfound with hfound | hfound
    · exact h.valid found hfound
    · rw [List.mem_singleton.1 hfound]
      exact hvalid
  · intro found hfound
    rcases List.mem_append.1 hfound with hfound | hfound
    · exact h.bounded found hfound
    · rw [List.mem_singleton.1 hfound]
      exact hbounded
  · intro object found hfound
    rcases getElem?_extended hfound with hold | ⟨rfl, rfl⟩
    · rcases h.replaced object found hold with hcur | hstale
      · by_cases hid : found.uploadId = state.uploadId
        · exact Or.inr (hreplaced object found hcur hid)
        · left
          refine ⟨hfound, ?_⟩
          rw [ChunkedStore.extended, OrderedMap.get?_set_ne _ _ hid]
          exact hcur.2
      · exact Or.inr hstale
    · left
      exact ⟨hfound, by simp [ChunkedStore.extended]⟩
  · intro object found held hfound hheld
    rcases hcurrent hfound with ⟨-, rfl⟩ | ⟨hold, hid⟩
    · simp only [ChunkedStore.extended, OrderedMap.get?_set_self, Option.some.injEq] at hheld
      subst hheld
      exact ⟨events, hholds⟩
    · rw [hchunks hid] at hheld
      exact h.holds object found held hold hheld
  · intro id found hfound
    by_cases hid : id = state.uploadId
    · subst hid
      exact ⟨chunks, by simp [ChunkedStore.extended]⟩
    · rw [hchunks hid]
      rw [ChunkedStore.extended, OrderedMap.get?_set_ne _ _ hid] at hfound
      exact h.counted id found hfound
  · intro found hfound hpublished
    rcases List.mem_append.1 hfound with hfound | hfound
    · obtain ⟨object, hobject⟩ := List.mem_iff_getElem?.1 hfound
      rw [hchunks (hother (h.current_of_owner hobject hpublished) hpublished)]
      exact h.owner found hfound hpublished
    · rw [List.mem_singleton.1 hfound, howner] at hpublished
      cases hpublished
  · intro recordHash record hrecord
    obtain ⟨hhash, hstorage, object, found, hfound, hrest⟩ :=
      h.completed recordHash record hrecord
    exact ⟨hhash, hstorage, object, found, extended_getElem? state chunks counts hfound, hrest⟩
  · intro object object' found found' hfound hfound' hpublished hpublished' hhash
    rcases getElem?_extended hfound with hold | ⟨-, rfl⟩
    · rcases getElem?_extended hfound' with hold' | ⟨-, rfl⟩
      · exact h.single object object' found found' hold hold' hpublished hpublished' hhash
      · rw [howner] at hpublished'
        cases hpublished'
    · rw [howner] at hpublished
      cases hpublished
  · intro task htask
    obtain ⟨found, hfound, hrest⟩ := h.waiting task htask
    exact ⟨found, extended_getElem? state chunks counts hfound, hrest⟩
  · exact h.ordered
  · intro task htask object found hfound hid
    rcases hcurrent hfound with ⟨rfl, rfl⟩ | ⟨hold, -⟩
    · obtain ⟨waiting, hwaiting, -⟩ := h.waiting task htask
      refine ⟨Nat.le_of_lt (List.getElem?_eq_some_iff.1 hwaiting).1, ?_⟩
      rw [howner]
      intro hfalse
      cases hfalse
    · exact h.behind task htask object found hold hid
  · intro object found hfound hpublished
    refine ⟨found, extended_getElem? state chunks counts hfound, hpublished, rfl, rfl, ?_⟩
    exact hchunks (hother (h.current_of_owner hfound hpublished) hpublished)

/-! ## The calls -/

theorem begin_sound {P : Platform} (options : ChunkedOptions A) {store : ChunkedStore A}
    (h : store.Sound P) (uploadId : JsString) (manifest : RecordManifest)
    (observation : Option UploadObservation) (starting : Option Nat) :
    (store.begin P options uploadId manifest observation starting).1.Sound P ∧
      Keeps store (store.begin P options uploadId manifest observation starting).1 ∧
      (store.begin P options uploadId manifest observation starting).1.completed =
        store.completed := by
  have hsame : store.Sound P ∧ Keeps store store ∧ store.completed = store.completed :=
    ⟨h, Keeps.refl store, rfl⟩
  unfold begin
  split
  · exact hsame
  split
  · exact hsame
  rename_i hvalid
  split
  · exact hsame
  split
  · exact hsame
  split
  · rename_i object existing hupload
    split
    · exact hsame
    split
    · exact hsame
    rename_i hopen
    obtain ⟨hcurrent, -⟩ := h.current_of_upload hupload
    obtain ⟨hsound, hkeeps⟩ := h.revise
      { store with objects := store.objects.set object { existing with observation } }
      { existing with observation } hcurrent.1 ⟨rfl, rfl, rfl, rfl, rfl, rfl, fun _ => rfl⟩
      rfl rfl rfl (fun _ _ hget => hget) (fun _ _ _ => rfl) (fun _ _ hget => ⟨hget, rfl⟩)
      (List.Sublist.refl _)
    exact ⟨hsound, hkeeps, rfl⟩
  · rename_i hupload
    have habsent := h.absent_of_upload hupload
    have hnil : validateManifest P manifest.json = [] := by simpa using hvalid
    obtain ⟨hsound, hkeeps⟩ := h.extended
      { uploadId, manifest, observation, nextSeq := 0, chainTip := none, lastT := none,
        receivedBytes := 0, observedLength := starting,
        analysisState := options.createAnalysisAccumulator starting,
        finalizedRecordHash := none, publishedOwner := false } ∅ [] ∅
      hnil (Nat.zero_le _) rfl
      (holds_nil P rfl rfl rfl)
      (by
        intro object old hold hid
        have hget := hold.2
        rw [hid, habsent] at hget
        cases hget)
    exact ⟨hsound, hkeeps, rfl⟩

theorem append_sound {P : Platform} (options : ChunkedOptions A) {store : ChunkedStore A}
    (h : store.Sound P) (id : JsString) (offset : Nat) (values : List Json) :
    (store.append P options id offset values).1.Sound P ∧
      Keeps store (store.append P options id offset values).1 ∧
      (store.append P options id offset values).1.completed = store.completed := by
  have hsame : store.Sound P ∧ Keeps store store ∧ store.completed = store.completed :=
    ⟨h, Keeps.refl store, rfl⟩
  unfold append
  split
  · exact hsame
  rename_i hsize
  split
  · exact hsame
  rename_i object state hupload
  split
  · exact hsame
  rename_i chunks hchunks
  split
  · split
    · exact hsame
    · exact hsame
    · split <;> exact hsame
  rename_i hprior
  split
  · exact hsame
  rename_i hassert
  split
  · exact hsame
  rename_i next hnext
  obtain ⟨hcurrent, hid⟩ := h.current_of_upload hupload
  subst hid
  obtain ⟨events, hholds⟩ := h.holds object state chunks hcurrent hchunks
  obtain ⟨hlike, hseq, events', hholds'⟩ :=
    transition_ok (by omega) (by omega) hnext hholds
  simp only [assertAppend] at hassert
  split at hassert
  · cases hassert
  rename_i hopen
  split at hassert
  · cases hassert
  rename_i hoffset
  split at hassert
  · cases hassert
  rename_i hcount
  rw [ne_eq, not_not] at hoffset
  subst hoffset
  have howner : state.publishedOwner = false := by
    by_contra hpublished
    rw [Bool.not_eq_false] at hpublished
    have hfinal := (h.owner state hcurrent.mem hpublished).1
    rw [hfinal] at hopen
    exact hopen rfl
  have hentries := OrderedMap.entries_set_of_absent ⟨values, next.chainTips⟩ hprior
  obtain ⟨hsound, hkeeps⟩ := h.extended next.state
    (chunks.set state.nextSeq ⟨values, next.chainTips⟩) events'
    (countDelays ((store.delays.get? state.uploadId).getD ∅) next.delays)
    (by rw [hlike.manifest]; exact h.valid state hcurrent.mem)
    (by rw [hlike.manifest, hseq]; omega) (by rw [hlike.publishedOwner, howner])
    (by rw [hentries]; exact hholds')
    (by
      intro place old hold hid
      have hplace := hold.2
      rw [hid, hlike.uploadId, hcurrent.2, Option.some.injEq] at hplace
      subst hplace
      have hstate := hold.1
      rw [hcurrent.1, Option.some.injEq] at hstate
      subst hstate
      exact ⟨by omega, howner⟩)
  simp only [ChunkedStore.extended, hlike.uploadId] at hsound hkeeps
  exact ⟨hsound, hkeeps, rfl⟩

/-- The lookup of a `finalize` answers with a record of the hash. -/
theorem finalize_sound {P : Platform} {store : ChunkedStore A} (h : store.Sound P)
    {lookup : B3Hash → Option StoredRecord}
    (hlookup : ∀ recordHash, ∀ record ∈ lookup recordHash,
      record.manifest.recordHash = recordHash) (id shortSignature : JsString) :
    (store.finalize lookup id shortSignature).1.Sound P ∧
      Keeps store (store.finalize lookup id shortSignature).1 ∧
      (store.finalize lookup id shortSignature).1.completed = store.completed := by
  unfold finalize
  split
  · exact ⟨h, Keeps.refl store, rfl⟩
  rename_i object state hupload
  obtain ⟨hcurrent, rfl⟩ := h.current_of_upload hupload
  refine ⟨{ h with waiting := ?_, ordered := ?_, behind := ?_ }, ⟨fun _ _ h => h, ?_⟩, rfl⟩
  · intro task htask
    rcases List.mem_append.1 htask with htask | htask
    · exact h.waiting task htask
    · rw [List.mem_singleton.1 htask]
      exact ⟨state, hcurrent.1, rfl, fun record hrecord => hlookup _ record hrecord⟩
  · rw [List.pairwise_append]
    refine ⟨h.ordered, by simp, ?_⟩
    intro earlier hearlier later hlater hid
    rw [List.mem_singleton.1 hlater] at hid ⊢
    exact (h.behind earlier hearlier object state hcurrent hid.symm).1
  · intro task htask place found hfound hid
    rcases List.mem_append.1 htask with htask | htask
    · exact h.behind task htask place found hfound hid
    · rw [List.mem_singleton.1 htask] at hid ⊢
      have hplace := hfound.2
      rw [hid, hcurrent.2, Option.some.injEq] at hplace
      exact ⟨Nat.le_of_eq hplace, fun _ => hplace⟩
  · intro place found hfound howner
    exact ⟨found, hfound, howner, rfl, rfl, rfl⟩

/-! ## The end of a `finalize` -/

/-- The store once the oldest waiting call has been taken up. -/
def resumed (store : ChunkedStore A) (awaiting : List Finalizing) : ChunkedStore A :=
  { store with awaiting }

theorem Sound.resumed {P : Platform} {store : ChunkedStore A} (h : store.Sound P)
    {task : Finalizing} {awaiting : List Finalizing} (hawaiting : store.awaiting = task :: awaiting) :
    (store.resumed awaiting).Sound P := by
  have hsub : awaiting ⊆ store.awaiting := by
    rw [hawaiting]
    exact List.subset_cons_self task awaiting
  refine { h with waiting := ?_, ordered := ?_, behind := ?_ }
  · exact fun other hother => h.waiting other (hsub hother)
  · have hordered := h.ordered
    rw [hawaiting] at hordered
    exact hordered.of_cons
  · exact fun other hother => h.behind other (hsub hother)

theorem Keeps.resumed (store : ChunkedStore A) (awaiting : List Finalizing) :
    Keeps store (store.resumed awaiting) where
  completed _ _ h := h
  owner _ state hobject howner := ⟨state, hobject, howner, rfl, rfl, rfl⟩

theorem finishExisting_sound {P : Platform} {store : ChunkedStore A} (h : store.Sound P)
    {task : Finalizing} {awaiting : List Finalizing} (hawaiting : store.awaiting = task :: awaiting)
    {state : UploadState A} (hobject : store.objects[task.object]? = some state)
    {existing : StoredRecord} (hhash : existing.manifest.recordHash = state.manifest.recordHash) :
    ((store.resumed awaiting).finishExisting task state existing).Sound P ∧
      Keeps store ((store.resumed awaiting).finishExisting task state existing) := by
  have hsub : awaiting.Sublist store.awaiting := by
    rw [hawaiting]
    exact List.sublist_cons_self task awaiting
  obtain ⟨other, hother, hid, -⟩ := h.waiting task (by simp [hawaiting])
  rw [hobject, Option.some.injEq] at hother
  subst hother
  -- Only an object that is not published drops the chunks of its upload.
  have howners : ∀ found ∈ store.objects, found.publishedOwner = true →
      ((store.resumed awaiting).finishExisting task state existing).chunks.get? found.uploadId =
        store.chunks.get? found.uploadId := by
    intro found hfound howner
    simp only [finishExisting, ChunkedStore.resumed]
    split
    · rfl
    · rename_i hopen
      apply OrderedMap.get?_delete_ne
      intro hsame
      obtain ⟨place, hplace⟩ := List.mem_iff_getElem?.1 hfound
      have hcurrent := h.current_of_owner hplace howner
      have hbehind := (h.behind task (by simp [hawaiting]) place found hcurrent hsame).2 howner
      rw [← hbehind, hobject, Option.some.injEq] at hplace
      subst hplace
      exact hopen howner
  refine h.revise _ { state with finalizedRecordHash := some existing.manifest.recordHash } hobject
    ⟨rfl, rfl, rfl, rfl, rfl, rfl, ?_⟩ rfl rfl rfl ?_ howners ?_ hsub
  · intro howner
    rw [hhash, (h.owner state (List.mem_of_getElem? hobject) howner).1]
  · intro id chunks hget
    simp only [finishExisting, ChunkedStore.resumed] at hget
    split at hget
    · exact hget
    · rw [OrderedMap.get?_delete] at hget
      split at hget
      · cases hget
      · exact hget
  · intro id counts hget
    simp only [finishExisting, ChunkedStore.resumed, OrderedMap.get?_delete] at hget ⊢
    split at hget
    · cases hget
    · rename_i hne
      refine ⟨hget, ?_⟩
      split
      · rfl
      · exact OrderedMap.get?_delete_ne _ hne

/-- An upload that a record can be derived from is complete. -/
theorem derive_ok {P : Platform} {options : ChunkedOptions A} {state : UploadState A}
    {delays : List (Nat × Nat)} {data : Json × List Json}
    (h : derive P options state delays = .ok data) :
    state.nextSeq = state.manifest.eventCount ∧ ∃ tip, state.chainTip = some tip ∧
      sealManifest P state.manifest.json tip = .ok state.manifest.recordHash := by
  simp only [derive] at h
  split at h
  · cases h
  rename_i tip htip
  split at htip
  · rename_i hcount
    split at h
    · cases h
    rename_i computed hseal
    split at h
    · cases h
    rename_i hsame
    rw [ne_eq, not_not] at hsame
    exact ⟨hcount, tip, htip, by rw [hseal, hsame]⟩
  · cases htip

/-- A complete upload, when the oldest `finalize` publishes it. -/
structure Publishing (store : ChunkedStore A) (task : Finalizing) (awaiting : List Finalizing)
    (state : UploadState A) : Prop where
  awaiting_eq : store.awaiting = task :: awaiting
  object : store.objects[task.object]? = some state
  new : store.completed.get? state.manifest.recordHash = none
  named : state.uploadId = task.uploadId
  complete : state.nextSeq = state.manifest.eventCount
  current : store.Current task.object state
  unpublished : state.publishedOwner = false
  kept : ∃ chunks, store.chunks.get? state.uploadId = some chunks

theorem Sound.publishing {P : Platform} {options : ChunkedOptions A} {store : ChunkedStore A}
    (h : store.Sound P) {task : Finalizing} {awaiting : List Finalizing}
    (hawaiting : store.awaiting = task :: awaiting) {state : UploadState A}
    (hobject : store.objects[task.object]? = some state)
    (hnew : store.completed.get? state.manifest.recordHash = none)
    {delays : OrderedMap Nat Nat} (hdelays : store.delays.get? task.uploadId = some delays)
    {data : Json × List Json} (hdata : derive P options state delays.entries = .ok data) :
    store.Publishing task awaiting state := by
  obtain ⟨other, hother, hid, -⟩ := h.waiting task (by simp [hawaiting])
  rw [hobject, Option.some.injEq] at hother
  subst hother
  obtain ⟨hcount, -⟩ := derive_ok hdata
  have hcurrent : store.Current task.object state := by
    rcases h.replaced task.object state hobject with hcurrent | ⟨hless, -⟩
    · exact hcurrent
    · omega
  refine ⟨hawaiting, hobject, hnew, hid, hcount, hcurrent, ?_, ?_⟩
  · by_contra howner
    rw [Bool.not_eq_false] at howner
    obtain ⟨record, hrecord⟩ := (h.owner state hcurrent.mem howner).2.2.1
    rw [hnew] at hrecord
    cases hrecord
  · obtain ⟨chunks, hchunks⟩ := h.counted task.uploadId delays hdelays
    exact ⟨chunks, by rw [hid]; exact hchunks⟩

/-- The upload once it is the record of its hash. -/
def published (state : UploadState A) : UploadState A :=
  { state with finalizedRecordHash := some state.manifest.recordHash, publishedOwner := true }

namespace Publishing

variable {P : Platform} {store : ChunkedStore A} {task : Finalizing} {awaiting : List Finalizing}
  {state found : UploadState A} {data : Json × List Json} {observation : RecordObservation}
  {place : Nat}

theorem object_self (u : store.Publishing task awaiting state) :
    ((store.resumed awaiting).publish task state data observation).objects[task.object]? =
      some (published state) := by
  show (store.objects.set task.object (published state))[task.object]? = some (published state)
  rw [List.getElem?_set_self (List.getElem?_eq_some_iff.1 u.object).1]

theorem object_other (hplace : place ≠ task.object) :
    ((store.resumed awaiting).publish task state data observation).objects[place]? =
      store.objects[place]? := by
  show (store.objects.set task.object (published state))[place]? = store.objects[place]?
  rw [List.getElem?_set_ne hplace.symm]

/-- Every object is the published one, or one that was there. -/
theorem object_cases (u : store.Publishing task awaiting state)
    (hfound : ((store.resumed awaiting).publish task state data observation).objects[place]? =
      some found) :
    place = task.object ∧ found = published state ∨
      place ≠ task.object ∧ store.objects[place]? = some found := by
  by_cases hsame : place = task.object
  · subst hsame
    rw [u.object_self, Option.some.injEq] at hfound
    exact .inl ⟨rfl, hfound.symm⟩
  · rw [object_other hsame] at hfound
    exact .inr ⟨hsame, hfound⟩

theorem mem_objects
    (hfound : found ∈ ((store.resumed awaiting).publish task state data observation).objects) :
    found = published state ∨ found ∈ store.objects :=
  (List.mem_or_eq_of_mem_set hfound).symm

theorem completed_kept (u : store.Publishing task awaiting state) {recordHash : B3Hash}
    {record : StoredRecord} (hrecord : store.completed.get? recordHash = some record) :
    ((store.resumed awaiting).publish task state data observation).completed.get? recordHash =
      some record := by
  show (store.completed.set state.manifest.recordHash _).get? recordHash = some record
  rw [OrderedMap.get?_set_ne]
  · exact hrecord
  · rintro rfl
    rw [u.new] at hrecord
    cases hrecord

/-- An upload that was published before has another hash, and is another object. -/
theorem different (u : store.Publishing task awaiting state) (h : store.Sound P)
    (hfound : store.objects[place]? = some found) (howner : found.publishedOwner = true) :
    found.manifest.recordHash ≠ state.manifest.recordHash ∧ place ≠ task.object := by
  refine ⟨?_, ?_⟩
  · intro hhash
    obtain ⟨record, hrecord⟩ := (h.owner found (List.mem_of_getElem? hfound) howner).2.2.1
    rw [hhash, u.new] at hrecord
    cases hrecord
  · rintro rfl
    rw [u.object, Option.some.injEq] at hfound
    subst hfound
    rw [u.unpublished] at howner
    cases howner

theorem mem_awaiting (u : store.Publishing task awaiting state) {other : Finalizing}
    (hother : other ∈ awaiting) : other ∈ store.awaiting := by
  rw [u.awaiting_eq]
  exact List.mem_cons_of_mem task hother

theorem named_next (u : store.Publishing task awaiting state) (h : store.Sound P) {id : JsString}
    (hplace : store.uploads.get? id = some place) : ∃ found,
      ((store.resumed awaiting).publish task state data observation).objects[place]? =
        some found ∧ found.uploadId = id := by
  obtain ⟨found, hfound, hname⟩ := h.named id place hplace
  by_cases hsame : place = task.object
  · subst hsame
    rw [u.object, Option.some.injEq] at hfound
    subst hfound
    exact ⟨published state, u.object_self, hname⟩
  · exact ⟨found, (object_other hsame).trans hfound, hname⟩

theorem replaced_next (u : store.Publishing task awaiting state) (h : store.Sound P)
    (hfound : ((store.resumed awaiting).publish task state data observation).objects[place]? =
      some found) :
    ((store.resumed awaiting).publish task state data observation).Current place found ∨
      found.nextSeq < found.manifest.eventCount ∧ found.publishedOwner = false := by
  rcases u.object_cases hfound with ⟨rfl, rfl⟩ | ⟨-, hold⟩
  · exact .inl ⟨hfound, u.current.2⟩
  · exact (h.replaced place found hold).imp_left fun hcurrent => ⟨hfound, hcurrent.2⟩

theorem holds_next (u : store.Publishing task awaiting state) (h : store.Sound P)
    {held : OrderedMap Nat Chunk}
    (hfound : ((store.resumed awaiting).publish task state data observation).Current place found)
    (hheld : store.chunks.get? found.uploadId = some held) :
    ∃ events, Holds P found held.entries events := by
  rcases u.object_cases hfound.1 with ⟨rfl, rfl⟩ | ⟨-, hold⟩
  · obtain ⟨events, hholds⟩ := h.holds task.object state held u.current hheld
    exact ⟨events, ⟨hholds.tiled, hholds.sized, hholds.reads, hholds.validLog, hholds.chain,
      hholds.tip, hholds.count, hholds.lastT, hholds.inTime⟩⟩
  · exact h.holds place found held ⟨hold, hfound.2⟩ hheld

theorem completed_next (u : store.Publishing task awaiting state) (h : store.Sound P)
    {recordHash : B3Hash} {record : StoredRecord}
    (hrecord : ((store.resumed awaiting).publish task state data observation).completed.get?
      recordHash = some record) :
    record.manifest.recordHash = recordHash ∧ record.eventStorage = .chunks ∧
      ∃ (object : Nat) (found : UploadState A),
        ((store.resumed awaiting).publish task state data observation).objects[object]? =
          some found ∧ found.publishedOwner = true ∧ found.manifest = record.manifest := by
  simp only [publish, OrderedMap.get?_set] at hrecord
  split at hrecord
  · rename_i hhash
    simp only [Option.some.injEq] at hrecord
    subst hrecord
    exact ⟨hhash.symm, rfl, task.object, published state, u.object_self, rfl, rfl⟩
  · obtain ⟨hhash, hstorage, place, found, hfound, howner, hmanifest⟩ :=
      h.completed recordHash record hrecord
    exact ⟨hhash, hstorage, place, found,
      (object_other (u.different h hfound howner).2).trans hfound, howner, hmanifest⟩

theorem single_next (u : store.Publishing task awaiting state) (h : store.Sound P) {place' : Nat}
    {found' : UploadState A}
    (hfound : ((store.resumed awaiting).publish task state data observation).objects[place]? =
      some found)
    (hfound' : ((store.resumed awaiting).publish task state data observation).objects[place']? =
      some found')
    (howner : found.publishedOwner = true) (howner' : found'.publishedOwner = true)
    (hhash : found.manifest.recordHash = found'.manifest.recordHash) : place = place' := by
  rcases u.object_cases hfound with ⟨rfl, rfl⟩ | ⟨-, hold⟩
  · rcases u.object_cases hfound' with ⟨rfl, rfl⟩ | ⟨-, hold'⟩
    · rfl
    · exact absurd hhash.symm (u.different h hold' howner').1
  · rcases u.object_cases hfound' with ⟨rfl, rfl⟩ | ⟨-, hold'⟩
    · exact absurd hhash (u.different h hold howner).1
    · exact h.single place place' found found' hold hold' howner howner' hhash

theorem waiting_next (u : store.Publishing task awaiting state) (h : store.Sound P)
    {other : Finalizing} (hother : other ∈ awaiting) : ∃ found : UploadState A,
      ((store.resumed awaiting).publish task state data observation).objects[other.object]? =
        some found ∧ found.uploadId = other.uploadId ∧
          ∀ record ∈ other.found, record.manifest.recordHash = found.manifest.recordHash := by
  obtain ⟨found, hfound, hname, hanswer⟩ := h.waiting other (u.mem_awaiting hother)
  by_cases hsame : other.object = task.object
  · rw [hsame, u.object, Option.some.injEq] at hfound
    subst hfound
    exact ⟨published state, by rw [hsame]; exact u.object_self, hname, hanswer⟩
  · exact ⟨found, (object_other hsame).trans hfound, hname, hanswer⟩

theorem behind_next (u : store.Publishing task awaiting state) (h : store.Sound P)
    {other : Finalizing} (hother : other ∈ awaiting)
    (hfound : ((store.resumed awaiting).publish task state data observation).Current place found)
    (hname : found.uploadId = other.uploadId) :
    other.object ≤ place ∧ (found.publishedOwner = true → other.object = place) := by
  rcases u.object_cases hfound.1 with ⟨rfl, rfl⟩ | ⟨-, hold⟩
  · have hle := (h.behind other (u.mem_awaiting hother) task.object state u.current hname).1
    -- The published object is the one that the oldest call holds.
    have hordered := h.ordered
    rw [u.awaiting_eq, List.pairwise_cons] at hordered
    have hge := hordered.1 other hother (u.named.symm.trans hname)
    exact ⟨hle, fun _ => Nat.le_antisymm hle hge⟩
  · exact h.behind other (u.mem_awaiting hother) place found ⟨hold, hfound.2⟩ hname

theorem sound (u : store.Publishing task awaiting state) (h : store.Sound P) :
    ((store.resumed awaiting).publish task state data observation).Sound P where
  named _ _ hplace := u.named_next h hplace
  valid found hfound := by
    rcases mem_objects hfound with rfl | hfound
    · exact h.valid state u.current.mem
    · exact h.valid found hfound
  bounded found hfound := by
    rcases mem_objects hfound with rfl | hfound
    · exact h.bounded state u.current.mem
    · exact h.bounded found hfound
  replaced _ _ hfound := u.replaced_next h hfound
  holds _ _ _ hfound hheld := u.holds_next h hfound hheld
  counted id counts hcounts := by
    simp only [publish, ChunkedStore.resumed, OrderedMap.get?_delete] at hcounts
    split at hcounts
    · cases hcounts
    · exact h.counted id counts hcounts
  owner found hfound howner := by
    rcases mem_objects hfound with rfl | hfound
    · exact ⟨rfl, u.complete, ⟨_, OrderedMap.get?_set_self _ _ _⟩, u.kept⟩
    · obtain ⟨hfinal, htotal, ⟨record, hrecord⟩, hheld⟩ := h.owner found hfound howner
      exact ⟨hfinal, htotal, ⟨record, u.completed_kept hrecord⟩, hheld⟩
  completed _ _ hrecord := u.completed_next h hrecord
  single _ _ _ _ hfound hfound' howner howner' hhash :=
    u.single_next h hfound hfound' howner howner' hhash
  waiting _ hother := u.waiting_next h hother
  ordered := by
    have hordered := h.ordered
    rw [u.awaiting_eq] at hordered
    exact hordered.of_cons
  behind _ hother _ _ hfound hname := u.behind_next h hother hfound hname

theorem keeps (u : store.Publishing task awaiting state) (h : store.Sound P) :
    Keeps store ((store.resumed awaiting).publish task state data observation) := by
  refine ⟨fun _ _ => u.completed_kept, ?_⟩
  intro place found hfound howner
  exact ⟨found, (object_other (u.different h hfound howner).2).trans hfound, howner, rfl, rfl, rfl⟩

end Publishing

end Pmbah.Store.ChunkedStore
