import Pmbah.Emacs.JournalResume
import Pmbah.Format.BindingWindows

/-!
# What the journal signs

A scan of a whole journal accepts exactly the valid logs.  The manifest that is
built from a scan is not checked against the events again, yet together with
them it is a record that verifies.
-/

namespace Pmbah.Emacs

open Js Format Library

variable {P : Platform} {sessionId : JsString} {version : FormatVersion}

/-! ## Whole journals -/

/-- The input of a scan of the whole journal without anchors. -/
def wholeScan (sessionId : JsString) (version : FormatVersion) (repairTail : Bool) :
    InspectInput :=
  { scanInput sessionId version none none none with repairTail }

theorem unanchored_wholeScan (repairTail : Bool) :
    Unanchored P (wholeScan sessionId version repairTail) :=
  ⟨rfl, rfl⟩

theorem checkRepair_wholeScan (repairTail : Bool) :
    checkRepair (wholeScan sessionId version repairTail) = .ok () := by
  cases repairTail <;> rfl

/-- The last element of the chain of a log, `null` when the log is empty. -/
def lastOfChain (P : Platform) (values : List Json) (sessionId : JsString)
    (version : FormatVersion) : Option B3Hash :=
  (computeEventHashChain P values sessionId version).toOption.bind List.getLast?

theorem lastOfChain_eq {values : List Json} {events : List BufferMutation}
    (hlog : ReadsAsLog values events) (hvalid : ValidLog events)
    (huuid : values = [] ∨ isUuid sessionId = true) :
    lastOfChain P values sessionId version = eventTip P sessionId version events := by
  unfold lastOfChain
  by_cases hnil : events = []
  · have hvalues : values = [] := by
      rw [hnil] at hlog
      exact List.forall₂_nil_right_iff.1 hlog
    rw [hnil, hvalues]
    rfl
  · have huuid : isUuid sessionId = true := by
      apply huuid.resolve_left
      rintro rfl
      exact hnil (List.forall₂_nil_left_iff.1 hlog)
    rw [computeEventHashChain_eq huuid hlog hvalid hnil]
    exact (eventScheme P).getLast?_chain _ events

/-- The time of the last event of a log. -/
def lastTimeOf (values : List Json) : Nat :=
  (values.getLast?.map fun event => event.natAt (js "t")).getD 0

theorem lastTimeOf_eq {values : List Json} {events : List BufferMutation}
    (hlog : ReadsAsLog values events) :
    lastTimeOf values = (events.getLast?.map BufferMutation.t).getD 0 := by
  have hmap : (values.map fun event => event.natAt (js "t")) = events.map BufferMutation.t := by
    induction hlog with
    | nil => rfl
    | cons hreads _ ih => rw [List.map_cons, List.map_cons, ih, natAt_t_of_readsAs hreads]
  rw [lastTimeOf, ← List.getLast?_map, hmap, List.getLast?_map]

theorem reading_lines (numbers : NumberSyntax P) (cuts : ReadCuts)
    {lines : List (List UInt8)} {values : List Json}
    (h : List.Forall₂ (LineReads numbers) lines values) :
    journalEvents numbers cuts (lineBytes lines) 0 none =
      ⟨lineItems lines values 0, .ok none⟩ := by
  rw [journalEvents_eq numbers cuts _ (Nat.zero_le _) (by
    intro stop hstop
    cases hstop)]
  have hread := readAll_lines numbers h [] 0
  rw [List.append_nil, readAll_nil, List.append_nil] at hread
  exact hread

theorem standsAt_lines {numbers : NumberSyntax P} {lines : List (List UInt8)}
    {values : List Json} (h : List.Forall₂ (LineReads numbers) lines values) {cursor : Cursor}
    (hadvanced : advanceAll P sessionId version (lineItems lines values 0) Cursor.start =
      .ok cursor) :
    StandsAt numbers sessionId version (lineBytes lines) cursor lines values [] :=
  ⟨⟨(List.append_nil _).symm, h⟩, hadvanced⟩

/-- A scan of complete lines goes over all of them. -/
theorem scan_lines_iff {numbers : NumberSyntax P} (cuts : ReadCuts) {lines : List (List UInt8)}
    {values : List Json} (h : List.Forall₂ (LineReads numbers) lines values)
    (repairTail : Bool) (cursor : Cursor) :
    (∃ result, scanJournal numbers cuts (lineBytes lines)
        (wholeScan sessionId version repairTail) = .ok result ∧ result.cursor = cursor) ↔
      advanceAll P sessionId version (lineItems lines values 0) Cursor.start = .ok cursor := by
  have hreading := reading_lines numbers cuts h
  constructor
  · rintro ⟨result, hscan, rfl⟩
    obtain ⟨anchors, count, -, hholds⟩ := scanJournal_ok hscan
    have hreached := reached_of_scan (reached_start numbers _) hscan
    obtain ⟨found, read, events, hprefix⟩ := hreached.prefixCursor
    have hlt := hprefix.eventCount_lt
    have hadvanced := hholds.advanced
    have hwhole : count = (lineItems lines values 0).length := by
      rcases hholds.whole with hwhole | hlimit
      · exact hwhole.1.trans (congrArg (fun read => read.items.length) hreading)
      · have hmax : (wholeScan sessionId version repairTail).maxCount = maxSafeInteger := rfl
        omega
    rw [hwhole] at hadvanced
    have hitems : (journalEvents numbers cuts (lineBytes lines) 0 none).items.take
        (lineItems lines values 0).length = lineItems lines values 0 := by
      rw [hreading, List.take_length]
    rw [← hitems]
    exact hadvanced
  · intro hadvanced
    have hreached := (standsAt_lines h hadvanced).reached
    obtain ⟨found, read, events, hprefix⟩ := hreached.prefixCursor
    have hloop := advanceUpTo_append [] Cursor.start_begun hadvanced
      (Nat.le_of_lt hprefix.eventCount_lt)
    rw [List.append_nil] at hloop
    have hcheck : checkCursor (wholeScan sessionId version repairTail) = .ok () := rfl
    have hrun : advanceUpTo P (wholeScan sessionId version repairTail).sessionId
        (wholeScan sessionId version repairTail).version
        (wholeScan sessionId version repairTail).maxCount (lineItems lines values 0)
        (wholeScan sessionId version repairTail).cursor =
          advanceUpTo P sessionId version maxSafeInteger [] cursor := hloop
    have hplain : plainScan P (wholeScan sessionId version repairTail)
        (journalEvents numbers cuts (lineBytes lines) 0 none) = .ok cursor := by
      simp only [plainScan, hcheck, hreading, hrun]
      rfl
    have hscan : (scanJournal numbers cuts (lineBytes lines)
        (wholeScan sessionId version repairTail)).map InspectResult.cursor = .ok cursor :=
      (scanJournal_plain (unanchored_wholeScan repairTail)
        (checkRepair_wholeScan repairTail)).trans hplain
    cases hresult : scanJournal numbers cuts (lineBytes lines)
        (wholeScan sessionId version repairTail) with
    | error thrown =>
        rw [hresult] at hscan
        cases hscan
    | ok result =>
        rw [hresult] at hscan
        exact ⟨result, rfl, Except.ok.inj hscan⟩

/-- The scan of complete lines accepts exactly the valid logs. -/
theorem scan_accepts {numbers : NumberSyntax P} (cuts : ReadCuts) {lines : List (List UInt8)}
    {values : List Json} (h : List.Forall₂ (LineReads numbers) lines values)
    (repairTail : Bool) (cursor : Cursor) :
    (∃ result, scanJournal numbers cuts (lineBytes lines)
        (wholeScan sessionId version repairTail) = .ok result ∧ result.cursor = cursor) ↔
      validateEventLog P values = .ok [] ∧ (values = [] ∨ isUuid sessionId = true) ∧
        cursor = ⟨values.length, lastOfChain P values sessionId version,
          (lineBytes lines).length, lastTimeOf values⟩ := by
  have hlength := h.length_eq
  have hnil : lineItems lines values 0 = [] ↔ values = [] := by
    rw [← List.length_eq_zero_iff, length_lineItems hlength, hlength, List.length_eq_zero_iff]
  rw [scan_lines_iff cuts h, advanceAll_ok Cursor.start_begun, lineItems_event hlength, hnil,
    validateEventLog_eq_nil]
  have hafter : ∀ events, ReadsAsLog values events → ValidLog events →
      (values = [] ∨ isUuid sessionId = true) →
      Cursor.start.after P sessionId version (lineItems lines values 0) events =
        ⟨values.length, lastOfChain P values sessionId version, (lineBytes lines).length,
          lastTimeOf values⟩ := by
    intro events hlog hvalid huuid
    rw [lastOfChain_eq hlog hvalid huuid, lastTimeOf_eq hlog, ← hlength,
      ← length_lineItems hlength 0, ← Nat.zero_add (lineBytes lines).length,
      ← lineItems_last hlength 0, ← Nat.zero_add (lineItems lines values 0).length]
    rfl
  constructor
  · rintro ⟨events, hlog, hvalid, huuid, rfl⟩
    have hvalid := validFrom_zero.1 hvalid
    exact ⟨⟨events, hlog, hvalid⟩, huuid, hafter events hlog hvalid huuid⟩
  · rintro ⟨⟨events, hlog, hvalid⟩, huuid, rfl⟩
    exact ⟨events, hlog, validFrom_zero.2 hvalid, huuid,
      (hafter events hlog hvalid huuid).symm⟩

/-! ## Manifests -/

structure ManifestInput extends InspectInput where
  finalText : Option Json
  durationMs : Option Json
  parentRecord : Option Json
  producer : Option Json
  createdClientT : Option Json

structure JournalManifest where
  manifest : Json
  byteLength : Nat
  chainTip : B3Hash

/-- The binding of a final text that has any canonical text. -/
def finalBinding (P : Platform) (U : UnicodeData) (input : ManifestInput) :
    Except JsError (Option Json) :=
  match Json.text? input.finalText with
  | none => .ok none
  | some text =>
      if (canonicalizeTextForBinding U text).isEmpty then .ok none
      else (createTextBinding P U text input.sessionId).map some

/-- The finish time, which is not before the last event. -/
def finishTime (input : ManifestInput) (cursor : Cursor) : Except JsError Json :=
  let duration := (present input.durationMs).getD (Json.ofNat cursor.lastTime)
  match safeNat duration with
  | none => .error (.error (js "finish time precedes the captured prefix"))
  | some finish =>
      if finish < cursor.lastTime then
        .error (.error (js "finish time precedes the captured prefix"))
      else .ok duration

def manifestFields (input : ManifestInput) (cursor : Cursor) (hash : B3Hash)
    (binding : Option Json) (duration : Json) : List (JsString × Option Json) :=
  [(js "format_version", some (.str input.version.text)),
    (js "record_hash", some (.str hash.text)),
    (js "session_id", some (.str input.sessionId)),
    (js "producer", input.producer),
    (js "text_binding", binding),
    (js "event_count", some (Json.ofNat cursor.eventCount)),
    (js "duration_ms", some duration),
    (js "created_client_t", input.createdClientT),
    (js "ingested_server_t", some .null),
    (js "parent_record", some (Json.orNull (present input.parentRecord))),
    (js "attestations", some (.arr []))]

/-- The manifest over what a scan has returned. -/
def manifestOf (P : Platform) (U : UnicodeData) (input : ManifestInput) (cursor : Cursor) :
    Except JsError JournalManifest :=
  match cursor.chainTip with
  | none => .error (.error (js "cannot sign an empty journal"))
  | some tip =>
      if cursor.eventCount = 0 then .error (.error (js "cannot sign an empty journal"))
      else do
        let binding ← finalBinding P U input
        if input.version = .v0_1 ∧ binding.isSome then
          .error (.error (js "format 0.1 does not support text binding"))
        else do
          let duration ← finishTime input cursor
          let parent := Json.orNull (present input.parentRecord)
          let hash ← sealRecordHash P tip input.version binding ⟨some duration, some parent⟩
          let manifest := Json.ofFields (manifestFields input cursor hash binding duration)
          let errors := validateManifest P manifest
          if errors.isEmpty then pure ⟨manifest, cursor.byteOffset, tip⟩
          else .error (.error (js "generated manifest is invalid: " ++
            joinWith (js "; ") errors))

def buildJournalManifest (numbers : NumberSyntax P) (U : UnicodeData) (cuts : ReadCuts)
    (file : List UInt8) (input : ManifestInput) : Except JsError JournalManifest × List UInt8 :=
  match inspectJournal numbers cuts file input.toInspectInput with
  | (.error thrown, after) => (.error thrown, after)
  | (.ok result, after) => (manifestOf P U input result.cursor, after)

/-- The events of the complete lines of a journal. -/
def journalValues (numbers : NumberSyntax P) (file : List UInt8) : List Json :=
  (readAll numbers file 0).items.map JournalItem.event

/-- What a manifest that has been built says. -/
theorem manifestOf_ok {U : UnicodeData} {input : ManifestInput} {cursor : Cursor}
    {built : JournalManifest} (h : manifestOf P U input cursor = .ok built) :
    ∃ tip binding duration hash finish,
      cursor.chainTip = some tip ∧ cursor.eventCount ≠ 0 ∧
      safeNat duration = some finish ∧ cursor.lastTime ≤ finish ∧
      sealRecordHash P tip input.version binding
        ⟨some duration, some (Json.orNull (present input.parentRecord))⟩ = .ok hash ∧
      built.manifest = Json.ofFields (manifestFields input cursor hash binding duration) ∧
      validateManifest P built.manifest = [] := by
  unfold manifestOf at h
  split at h
  · cases h
  · rename_i tip htip
    split at h
    · cases h
    · rename_i hcount
      rw [bind_eq_ok] at h
      obtain ⟨binding, -, h⟩ := h
      split at h
      · cases h
      · simp only [bind_eq_ok] at h
        obtain ⟨duration, hduration, hash, hseal, h⟩ := h
        split at h
        · rename_i herrors
          cases h
          unfold finishTime at hduration
          simp only at hduration
          split at hduration
          · cases hduration
          · rename_i finish hsafe
            split at hduration
            · cases hduration
            · rename_i hlate
              rw [Except.ok.injEq] at hduration
              rw [hduration] at hsafe
              exact ⟨tip, binding, duration, hash, finish, htip, hcount, hsafe,
                Nat.not_lt.1 hlate, hseal, rfl, List.isEmpty_iff.1 herrors⟩
        · cases h

theorem safeNat_eq {value : Json} {n : Nat} (h : safeNat value = some n) :
    value = Json.ofNat n := by
  unfold safeNat at h
  cases hint : (Json.number? (some value)).bind JsNumber.toInt? with
  | none =>
      rw [hint] at h
      cases h
  | some z =>
      rw [hint, Option.bind_some] at h
      split at h
      · rename_i hrange
        cases h
        have heq := eq_ofNat_of_toInt? hrange.1 hint
        exact Option.some.inj heq
      · cases h

/-- The fields of a manifest that has been built. -/
theorem field_manifest (input : ManifestInput) (cursor : Cursor) (hash : B3Hash)
    (binding : Option Json) (duration : Json) :
    let manifest := Json.ofFields (manifestFields input cursor hash binding duration)
    manifest.field (js "format_version") = some (.str input.version.text) ∧
      manifest.field (js "record_hash") = some (.str hash.text) ∧
      manifest.field (js "session_id") = some (.str input.sessionId) ∧
      manifest.field (js "text_binding") = binding ∧
      manifest.field (js "event_count") = some (Json.ofNat cursor.eventCount) ∧
      manifest.field (js "duration_ms") = some duration ∧
      manifest.field (js "parent_record") =
        some (Json.orNull (present input.parentRecord)) := by
  cases hproducer : input.producer <;> cases binding <;>
    cases hcreated : input.createdClientT <;>
    simp only [manifestFields, hproducer, hcreated] <;>
    exact ⟨rfl, rfl, rfl, rfl, rfl, rfl, rfl⟩

theorem journalValues_take {numbers : NumberSyntax P} {file : List UInt8}
    {lines : List (List UInt8)} {values : List Json} (hbytes : lineBytes lines <+: file)
    (h : List.Forall₂ (LineReads numbers) lines values) :
    (journalValues numbers file).take lines.length = values := by
  obtain ⟨rest, rfl⟩ := hbytes
  rw [journalValues, readAll_lines numbers h, List.map_append, lineItems_event h.length_eq]
  exact List.take_left' h.length_eq.symm

/-- A record with the manifest and the events up to its count verifies. -/
theorem built_verifies {numbers : NumberSyntax P} {U : UnicodeData} {cuts : ReadCuts}
    {file after : List UInt8} {input : ManifestInput} {built : JournalManifest}
    (hcursor : Reached numbers input.sessionId input.version file input.cursor)
    (h : buildJournalManifest numbers U cuts file input = (.ok built, after)) :
    ∃ result, verifyRecord P built.manifest ((journalValues numbers file).take
      (built.manifest.natAt (js "event_count"))) = .ok result ∧ result.valid = true := by
  unfold buildJournalManifest at h
  split at h
  · cases h
  · rename_i result after' hinspect
    rw [Prod.mk.injEq] at h
    have hscan : scanJournal numbers cuts file input.toInspectInput = .ok result := by
      rw [← inspectJournal_fst, hinspect]
    obtain ⟨lines, values, events, hprefix⟩ := (reached_of_scan hcursor hscan).prefixCursor
    obtain ⟨tip, binding, duration, hash, finish, htip, hcount, hsafe, hlate, hseal, hmanifest,
      hvalid⟩ := manifestOf_ok h.1
    obtain ⟨fversion, fhash, fsession, fbinding, fcount, fduration, fparent⟩ :=
      field_manifest input result.cursor hash binding duration
    rw [← hmanifest] at fversion fhash fsession fbinding fcount fduration fparent
    obtain ⟨version, sessionId, count, time, hreads⟩ := manifestReads_of_valid hvalid
    have hsession : sessionId = input.sessionId := by
      have hsame := hreads.hasSession.symm.trans fsession
      exact Json.str.inj (Option.some.inj hsame)
    have huuid : isUuid input.sessionId = true := hsession ▸ hreads.uuid
    have hversion : manifestVersion built.manifest = input.version := by
      rw [manifestVersion, Json.textAt, fversion]
      cases input.version <;> rfl
    have hduration := safeNat_eq hsafe
    have heq := hprefix.cursor_eq
    have hlines : result.cursor.eventCount = lines.length := by rw [heq]
    have htipEvents : eventTip P input.sessionId input.version events = some tip := by
      rw [← htip, heq]
    have hcountAt : built.manifest.natAt (js "event_count") = values.length := by
      rw [Json.natAt, fcount, ← hprefix.reads.length_eq, ← hlines]
      rfl
    have htake : (journalValues numbers file).take
        (built.manifest.natAt (js "event_count")) = values := by
      rw [hcountAt, ← hprefix.reads.length_eq]
      exact journalValues_take hprefix.bytes hprefix.reads
    have hholds : RecordHolds P built.manifest values hash := by
      refine ⟨hvalid, ⟨events, hprefix.log, hprefix.valid⟩, ?_, hcountAt, ?_, ?_, ?_⟩
      · rintro rfl
        rw [hlines, hprefix.reads.length_eq] at hcount
        exact hcount rfl
      · intro value hvalue
        have hlast : lastTimeOf values = value.natAt (js "t") := by
          rw [lastTimeOf, hvalue]
          rfl
        have htime : result.cursor.lastTime = lastTimeOf values := by
          rw [heq, lastTimeOf_eq hprefix.log]
        have hfinish : built.manifest.natAt (js "duration_ms") = finish := by
          rw [Json.natAt, fduration, hduration]
          rfl
        rw [hfinish, ← hlast, ← htime]
        exact hlate
      · have htext : built.manifest.textAt (js "session_id") = input.sessionId := by
          rw [Json.textAt, fsession]
          rfl
        have hfinal : manifestFinalization built.manifest =
            ⟨some duration, some (Json.orNull (present input.parentRecord))⟩ := by
          rw [manifestFinalization, fduration, fparent]
        rw [htext, hversion, fbinding, hfinal,
          computeRecordHash_eq huuid hprefix.log hprefix.valid htipEvents]
        exact hseal
      · rw [fhash]
        rfl
    rw [htake]
    obtain ⟨verified, hverified, hok, -⟩ := verifyRecord_valid.2 hholds
    exact ⟨verified, hverified, hok⟩

/-- A scan of lines that hold one value each accepts exactly the valid logs, for a session whose
id is a UUID unless the log is empty, and returns what the chain computation gives; and every
manifest built from a journal verifies together with its events. -/
theorem inspectJournal_accepts (numbers : NumberSyntax P) (U : UnicodeData) :
    (∀ (cuts : ReadCuts) (sessionId : JsString) (version : FormatVersion)
        (lines : List (List UInt8)) (values : List Json) (repairTail : Bool),
      List.Forall₂ (LineReads numbers) lines values →
      ((∃ result, (inspectJournal numbers cuts (lineBytes lines)
          (wholeScan sessionId version repairTail)).1 = .ok result) ↔
        validateEventLog P values = .ok [] ∧ (values = [] ∨ isUuid sessionId = true)) ∧
      ∀ result, (inspectJournal numbers cuts (lineBytes lines)
          (wholeScan sessionId version repairTail)).1 = .ok result →
        result.cursor = ⟨values.length, lastOfChain P values sessionId version,
          (lineBytes lines).length, lastTimeOf values⟩) ∧
    (∀ (cuts : ReadCuts) (file after : List UInt8) (input : ManifestInput)
        (built : JournalManifest),
      Reached numbers input.sessionId input.version file input.cursor →
      buildJournalManifest numbers U cuts file input = (.ok built, after) →
      ∃ result, verifyRecord P built.manifest ((journalValues numbers file).take
        (built.manifest.natAt (js "event_count"))) = .ok result ∧ result.valid = true) := by
  constructor
  · intro cuts sessionId version lines values repairTail h
    rw [inspectJournal_fst]
    refine ⟨⟨?_, ?_⟩, ?_⟩
    · rintro ⟨result, hscan⟩
      obtain ⟨hvalid, huuid, -⟩ :=
        (scan_accepts cuts h repairTail result.cursor).1 ⟨result, hscan, rfl⟩
      exact ⟨hvalid, huuid⟩
    · rintro ⟨hvalid, huuid⟩
      obtain ⟨result, hscan, -⟩ :=
        (scan_accepts cuts h repairTail _).2 ⟨hvalid, huuid, rfl⟩
      exact ⟨result, hscan⟩
    · intro result hscan
      exact ((scan_accepts cuts h repairTail result.cursor).1 ⟨result, hscan, rfl⟩).2.2
  · intro cuts file after input built hcursor h
    exact built_verifies hcursor h

theorem firstLines_read :
    List.Forall₂ (LineReads decimalSyntax) firstLines [firstInsert.toJson] :=
  .cons ((validEvent_toJson firstInsert_valid).lineReads decimalSyntax) .nil

theorem firstInsert_log : ValidLog [firstInsert] where
  valid event hevent := by
    rw [List.mem_singleton.1 hevent]
    exact firstInsert_valid
  seq_eq i event hi := by
    cases i with
    | zero =>
        cases hi
        rfl
    | succ i => cases hi
  sorted := List.pairwise_singleton _ _

theorem validateEventLog_firstInsert :
    validateEventLog decimalPlatform [firstInsert.toJson] = .ok [] :=
  validateEventLog_eq_nil.2 ⟨[firstInsert], readsAsLog_toJson [firstInsert], firstInsert_log⟩

/-- A session id that is no UUID stops the scan of a valid log. -/
theorem not_inspectJournal_unnamedSession :
    List.Forall₂ (LineReads decimalSyntax) firstLines [firstInsert.toJson] ∧
      validateEventLog decimalPlatform [firstInsert.toJson] = .ok [] ∧
      ¬ ∃ result, (inspectJournal decimalSyntax byteCuts (lineBytes firstLines)
        (wholeScan [] .v0_3 false)).1 = .ok result := by
  refine ⟨firstLines_read, validateEventLog_firstInsert, ?_⟩
  rw [inspectJournal_fst]
  rintro ⟨result, hscan⟩
  obtain ⟨-, huuid, -⟩ :=
    (scan_accepts byteCuts firstLines_read false result.cursor).1 ⟨result, hscan, rfl⟩
  exact absurd huuid (by decide)

def draftManifest : ManifestInput :=
  { wholeScan draftSession .v0_1 false with
    finalText := none
    durationMs := none
    parentRecord := none
    producer := some (.obj [(js "id", .str (js "emacs")), (js "version", .str (js "0.1.0")),
      (js "capabilities", .arr [])])
    createdClientT := none }

theorem inspectJournal_accepts_firstInsert :
    (∃ result, (inspectJournal decimalSyntax byteCuts (lineBytes firstLines)
      (wholeScan draftSession .v0_3 true)).1 = .ok result) ∧
    ∃ built, (buildJournalManifest decimalSyntax plainUnicode byteCuts (lineBytes firstLines)
        draftManifest).1 = .ok built ∧
      ∃ result, verifyRecord decimalPlatform built.manifest
        ((journalValues decimalSyntax (lineBytes firstLines)).take
          (built.manifest.natAt (js "event_count"))) = .ok result ∧ result.valid = true := by
  obtain ⟨hscan, hbuild⟩ := inspectJournal_accepts decimalSyntax plainUnicode
  refine ⟨?_, ?_⟩
  · exact (hscan byteCuts draftSession .v0_3 firstLines [firstInsert.toJson] true
      firstLines_read).1.2 ⟨validateEventLog_firstInsert, Or.inr (by decide)⟩
  · have hbuilt : (buildJournalManifest decimalSyntax plainUnicode byteCuts
        (lineBytes firstLines) draftManifest).1.isOk = true := by decide +kernel
    cases hresult : buildJournalManifest decimalSyntax plainUnicode byteCuts
        (lineBytes firstLines) draftManifest with
    | mk outcome after =>
        cases outcome with
        | error thrown =>
            rw [hresult] at hbuilt
            cases hbuilt
        | ok built =>
            exact ⟨built, rfl, hbuild byteCuts _ after draftManifest built
              (reached_start decimalSyntax _) hresult⟩

end Pmbah.Emacs
