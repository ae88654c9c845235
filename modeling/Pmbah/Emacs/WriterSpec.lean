import Mathlib.Data.List.Infix
import Pmbah.Emacs.SessionWriter

/-!
# What the worker leaves on disk

A crash keeps some first part of the writes.  The journal then ends somewhere in the
new lines, and the metadata is replaced only when it has all of them.
-/

namespace Pmbah.Emacs

open Js Format Library

namespace Disk

/-- What the journal holds, if there is one. -/
def bytes (disk : Disk) : List UInt8 := disk.journal.getD []

theorem applyAll_append (disk : Disk) (xs ys : List Write) :
    disk.applyAll (xs ++ ys) = (disk.applyAll xs).applyAll ys := by
  rw [applyAll, List.foldl_append]
  rfl

/-- Appends go to the end of an open journal. -/
theorem applyAll_appends (disk : Disk) {journal : List UInt8} (h : disk.journal = some journal)
    (bytes : List UInt8) :
    disk.applyAll (bytes.map .appendJournal) = { disk with journal := some (journal ++ bytes) } := by
  induction bytes generalizing disk journal with
  | nil =>
      rw [List.append_nil, ← h]
      rfl
  | cons byte bytes ih =>
      have hfirst : (disk.apply (.appendJournal byte)).journal = some (journal ++ [byte]) := by
        rw [apply, h]
        rfl
      rw [List.map_cons]
      show (disk.apply (.appendJournal byte)).applyAll (bytes.map .appendJournal) = _
      rw [ih _ hfirst, List.append_assoc]
      rfl

end Disk

/-- The disk after some of the writes for a plan: the journal has gained the front
of the new bytes, and the metadata is new only when it has gained all of them. -/
structure Written (plan : SessionPlan) (disk next : Disk) (added : List UInt8) : Prop where
  journal : next.bytes = disk.bytes ++ added
  first : added <+: plan.bytes.drop (disk.bytes.length - plan.expectedBytes)
  opened : next.journal = none → disk.journal = none
  state : next.state = disk.state ∨
    next.state = some plan.metadata ∧
      added = plan.bytes.drop (disk.bytes.length - plan.expectedBytes)

theorem Written.refl (plan : SessionPlan) (disk : Disk) : Written plan disk disk [] where
  journal := by rw [List.append_nil]
  first := List.nil_prefix
  opened := id
  state := Or.inl rfl

theorem openJournal_ok {disk : Disk} {plan : SessionPlan} {opening : List Write}
    (h : openJournal disk plan = .ok opening) :
    ∃ opened, disk.applyAll opening = opened ∧ opened.journal = some disk.bytes ∧
      opened.state = disk.state ∧
      (opening = [] ∧ opened = disk ∨ opening = [.createJournal] ∧ disk.journal = none) := by
  refine ⟨_, rfl, ?_⟩
  rw [openJournal] at h
  split at h
  · rename_i journal hjournal
    cases h
    refine ⟨?_, rfl, Or.inl ⟨rfl, rfl⟩⟩
    rw [Disk.bytes, hjournal]
    exact hjournal
  · rename_i hnone
    split at h
    · cases h
    · cases h
      refine ⟨?_, rfl, Or.inr ⟨rfl, hnone⟩⟩
      rw [Disk.bytes, hnone]
      rfl

/-- The first writes leave an open journal with the same bytes. -/
theorem written_opening {disk : Disk} {plan : SessionPlan} {opening : List Write}
    (h : openJournal disk plan = .ok opening) (count : Nat) :
    Written plan disk (disk.applyAll (opening.take count)) [] := by
  obtain ⟨opened, hopened, hjournal, hstate, ⟨rfl, -⟩ | ⟨rfl, hnone⟩⟩ := openJournal_ok h
  · rw [List.take_nil]
    exact .refl plan disk
  · cases count with
    | zero => exact .refl plan disk
    | succ count =>
        have hwhole : List.take (count + 1) [Write.createJournal] = [.createJournal] := by
          rw [List.take_succ_cons, List.take_nil]
        rw [hwhole, hopened]
        refine ⟨?_, List.nil_prefix, ?_, Or.inl hstate⟩
        · rw [Disk.bytes, hjournal, List.append_nil]
          rfl
        · intro habsent
          rw [hjournal] at habsent
          cases habsent

/-- The disk after any first part of the writes of a plan that passes its checks. -/
theorem written_take {disk : Disk} {plan : SessionPlan} {opening : List Write}
    (h : openJournal disk plan = .ok opening) (count : Nat) :
    ∃ added, Written plan disk
      (disk.applyAll ((opening ++ sessionWrites plan disk.bytes).take count)) added := by
  rw [List.take_append, Disk.applyAll_append]
  by_cases hopening : count < opening.length
  · rw [show count - opening.length = 0 by omega, List.take_zero]
    exact ⟨[], written_opening h count⟩
  · rw [List.take_of_length_le (by omega)]
    obtain ⟨opened, hopened, hjournal, hstate, -⟩ := openJournal_ok h
    rw [hopened, sessionWrites, List.take_append, Disk.applyAll_append, ← List.map_take,
      Disk.applyAll_appends opened hjournal, List.length_map]
    generalize hrest : plan.bytes.drop (disk.bytes.length - plan.expectedBytes) = rest
    generalize count - opening.length = first
    have hpartial : ∀ next : Disk, next.journal = some (disk.bytes ++ rest.take first) →
        next.state = disk.state → Written plan disk next (rest.take first) := by
      intro next hnext hsame
      refine ⟨by rw [Disk.bytes, hnext]; rfl, ?_, ?_, Or.inl hsame⟩
      · rw [hrest]
        exact List.take_prefix _ _
      · intro habsent
        rw [hnext] at habsent
        cases habsent
    by_cases hall : first < rest.length
    · refine ⟨rest.take first, hpartial _ ?_ ?_⟩
      · rw [show first - rest.length = 0 by omega, List.take_zero]
        rfl
      · rw [show first - rest.length = 0 by omega, List.take_zero]
        exact hstate
    · have hrestTaken : rest.take first = rest := List.take_of_length_le (by omega)
      match hlast : first - rest.length with
      | 0 => exact ⟨rest.take first, hpartial _ rfl hstate⟩
      | 1 => exact ⟨rest.take first, hpartial _ rfl hstate⟩
      | 2 => exact ⟨rest.take first, hpartial _ rfl hstate⟩
      | 3 => exact ⟨rest.take first, hpartial _ rfl hstate⟩
      | more + 4 =>
          have hfull : ∀ writes : List Write, writes.length = 4 →
              writes.take (more + 4) = writes := by
            intro writes hwrites
            exact List.take_of_length_le (by omega)
          rw [hrestTaken, hfull _ rfl]
          refine ⟨rest, rfl, ?_, ?_, Or.inr ⟨rfl, hrest.symm⟩⟩
          · rw [hrest]
          · intro habsent
            cases habsent

/-- All the writes of a plan that passes: the journal has every line, the metadata is new. -/
theorem written_all {disk : Disk} {plan : SessionPlan} {opening : List Write}
    (h : openJournal disk plan = .ok opening) :
    (disk.applyAll (opening ++ sessionWrites plan disk.bytes)).bytes =
        disk.bytes ++ plan.bytes.drop (disk.bytes.length - plan.expectedBytes) ∧
      (disk.applyAll (opening ++ sessionWrites plan disk.bytes)).journal ≠ none ∧
      (disk.applyAll (opening ++ sessionWrites plan disk.bytes)).state = some plan.metadata := by
  obtain ⟨opened, hopened, hjournal, -, -⟩ := openJournal_ok h
  rw [Disk.applyAll_append, hopened, sessionWrites, Disk.applyAll_append,
    Disk.applyAll_appends opened hjournal]
  exact ⟨rfl, nofun, rfl⟩

/-! ## Plans that are refused -/

/-- A journal whose end is no part of the batch. -/
def Disagrees (disk : Disk) (plan : SessionPlan) : Prop :=
  ¬ disk.bytes.drop plan.expectedBytes <+: plan.bytes

theorem persistPlan_disagrees {disk : Disk} {plan : SessionPlan} (h : Disagrees disk plan) :
    ∃ error, persistPlan disk plan = ([], .error error) := by
  rw [persistPlan]
  cases hopening : openJournal disk plan with
  | error error => exact ⟨error, rfl⟩
  | ok opening =>
      obtain ⟨opened, hopened, hjournal, hstate, ⟨rfl, -⟩ | ⟨rfl, hnone⟩⟩ := openJournal_ok hopening
      · cases hfiles : checkFiles disk plan (disk.journal.getD []) with
        | error thrown =>
            refine ⟨.thrown thrown, ?_⟩
            simp only [hfiles]
        | ok passed =>
            rw [checkFiles] at hfiles
            split at hfiles
            · cases hfiles
            split at hfiles
            · cases hfiles
            split at hfiles
            · cases hfiles
            simp only at hfiles
            split at hfiles
            · rename_i hsame
              refine absurd ?_ h
              rw [Disk.bytes, hsame]
              exact List.take_prefix _ _
            · cases hfiles
      · refine absurd ?_ h
        rw [Disk.bytes, hnone, Option.getD_none, List.drop_nil]
        exact List.nil_prefix

/-! ## A journal of lines -/

/-- The complete lines of these events. -/
def journalOf (events : List BufferMutation) : List UInt8 := events.flatMap eventLine

theorem journalOf_append (events more : List BufferMutation) :
    journalOf (events ++ more) = journalOf events ++ journalOf more :=
  List.flatMap_append

theorem journalOf_mono {events more : List BufferMutation} (h : events <+: more) :
    journalOf events <+: journalOf more := by
  obtain ⟨rest, rfl⟩ := h
  rw [journalOf_append]
  exact List.prefix_append _ _

theorem take_eq_append {events : List BufferMutation} {m n : Nat} (h : m ≤ n) :
    events.take n = events.take m ++ (events.take n).drop m := by
  calc events.take n = (events.take n).take m ++ (events.take n).drop m :=
        (List.take_append_drop m _).symm
    _ = events.take m ++ (events.take n).drop m := by
        rw [List.take_take, Nat.min_eq_left h]

/-- A line has exactly one newline, so the newlines count the events. -/
theorem count_newline_journalOf (events : List BufferMutation) :
    (journalOf events).count 10 = events.length := by
  induction events with
  | nil => rfl
  | cons event events ih =>
      have hcons : journalOf (event :: events) = eventLine event ++ journalOf events :=
        List.flatMap_cons
      rw [hcons, List.count_append, count_newline_eventLine, ih, List.length_cons, Nat.add_comm]

/-- The last line is complete. -/
theorem getLast?_journalOf {events : List BufferMutation} (h : events ≠ []) :
    (journalOf events).getLast? = some 10 := by
  obtain hnil | ⟨first, last, rfl⟩ := List.eq_nil_or_concat' events
  · exact absurd hnil h
  · have hlast : journalOf [last] = utf8ToBytes (jsonEncode last) ++ [10] := by
      rw [← eventLine_eq, journalOf, List.flatMap_singleton]
    rw [journalOf_append, hlast, ← List.append_assoc, List.getLast?_concat]

/-- More events have more bytes. -/
theorem length_journalOf_take_lt (events : List BufferMutation) {m n : Nat} (h : m < n)
    (hn : n ≤ events.length) :
    (journalOf (events.take m)).length < (journalOf (events.take n)).length := by
  have hcount := count_newline_journalOf (events.take n)
  have hrest := count_newline_journalOf ((events.take n).drop m)
  have hle := List.count_le_length (a := (10 : UInt8)) (l := journalOf ((events.take n).drop m))
  rw [take_eq_append (Nat.le_of_lt h), journalOf_append, List.length_append]
  simp only [List.length_drop, List.length_take] at hrest
  omega

theorem length_journalOf_take_le (events : List BufferMutation) {m n : Nat} (h : m ≤ n) :
    (journalOf (events.take m)).length ≤ (journalOf (events.take n)).length :=
  (journalOf_mono ((List.take_prefix_take_left h))).length_le

/-- The metadata names the first `count` events of a session, and the bytes of their lines. -/
structure StateFile.Names (file : StateFile) (sessionId : JsString)
    (events : List BufferMutation) (count : Nat) : Prop where
  small : file.byteLength ≤ maxStateBytes
  parsed : ∃ fields, file.parsed = some (.obj fields) ∧
    fields.lookup (js "session_id") = some (.str sessionId) ∧
    fields.lookup (js "event_count") = some (Json.ofNat count) ∧
    fields.lookup (js "journal_bytes") =
      some (Json.ofNat (journalOf (events.take count)).length)
  count_le : count ≤ events.length
  count_safe : count ≤ maxTimeFieldValue
  bytes_safe : (journalOf (events.take count)).length ≤ maxTimeFieldValue

/-- The journal has the first `count` events and stops within the first `last`; the
metadata names events that the journal has. -/
structure Disk.Holds (disk : Disk) (sessionId : JsString) (events : List BufferMutation)
    (count last : Nat) : Prop where
  durable : journalOf (events.take count) <+: disk.bytes
  within : disk.bytes <+: journalOf (events.take last)
  opened : disk.journal = none → count = 0
  named : ∀ file, disk.state = some file → ∃ named ≤ last,
    file.Names sessionId events named ∧ journalOf (events.take named) <+: disk.bytes

/-- The plan asks for the events from `count` up to `last`. -/
structure SessionPlan.Asks (plan : SessionPlan) (sessionId : JsString)
    (events : List BufferMutation) (count last : Nat) : Prop where
  session : plan.sessionId = sessionId
  expectedCount : plan.expectedCount = count
  expectedBytes : plan.expectedBytes = (journalOf (events.take count)).length
  lines : plan.lines = ((events.take last).drop count).map eventLine
  metadata : plan.metadata.Names sessionId events last
  count_le : count ≤ last

section

variable {plan : SessionPlan} {disk : Disk} {sessionId : JsString}
  {events : List BufferMutation} {count last : Nat}

namespace SessionPlan.Asks

theorem journalOf_last (h : plan.Asks sessionId events count last) :
    journalOf (events.take last) = journalOf (events.take count) ++ plan.bytes := by
  have hbytes : plan.bytes = journalOf ((events.take last).drop count) := by
    rw [bytes, h.lines, journalOf, List.flatMap_def]
  rw [hbytes, ← journalOf_append, ← take_eq_append h.count_le]

theorem finalCount_eq (h : plan.Asks sessionId events count last) : plan.finalCount = last := by
  have hle := h.metadata.count_le
  have hcount := h.count_le
  rw [finalCount, h.expectedCount, h.lines, List.length_map, List.length_drop, List.length_take]
  omega

theorem finalBytes_eq (h : plan.Asks sessionId events count last) :
    plan.finalBytes = (journalOf (events.take last)).length := by
  rw [finalBytes, h.expectedBytes, h.journalOf_last, List.length_append]

/-- Metadata that names events up to the last one is accepted. -/
theorem checkPersisted_ok (h : plan.Asks sessionId events count last) {file : StateFile}
    {named size : Nat} (hnames : file.Names sessionId events named) (hnamed : named ≤ last)
    (hsize : (journalOf (events.take named)).length ≤ size) :
    ∃ persisted, file.parsed = some persisted ∧ checkPersisted plan size persisted = .ok () := by
  obtain ⟨fields, hparsed, hsession, hcount, hbytes⟩ := hnames.parsed
  refine ⟨_, hparsed, ?_⟩
  have hcountAt : (Json.obj fields).natAt (js "event_count") = named := by
    rw [Json.natAt, Json.field, hcount]
    simp
  have hbytesAt : (Json.obj fields).natAt (js "journal_bytes") =
      (journalOf (events.take named)).length := by
    rw [Json.natAt, Json.field, hbytes]
    simp
  have hsafe : integer (some (Json.ofNat named)) = true :=
    isSafeElapsed_iff.2 ⟨_, hnames.count_safe, rfl⟩
  have hsafeBytes : integer (some (Json.ofNat (journalOf (events.take named)).length)) = true :=
    isSafeElapsed_iff.2 ⟨_, hnames.bytes_safe, rfl⟩
  have hlast : (journalOf (events.take named)).length ≤ (journalOf (events.take last)).length :=
    length_journalOf_take_le events hnamed
  have hmatch : named = count ↔ (journalOf (events.take named)).length = plan.expectedBytes := by
    rw [h.expectedBytes]
    refine ⟨fun hsame => by rw [hsame], fun hsame => ?_⟩
    have hle := h.metadata.count_le
    have hcountLe := h.count_le
    by_contra hne
    rcases Nat.lt_or_gt_of_ne hne with hlt | hlt
    · have hless := length_journalOf_take_lt events hlt (by omega)
      omega
    · have hless := length_journalOf_take_lt events hlt (by omega)
      omega
  simp only [checkPersisted, hcountAt, hbytesAt]
  rw [if_neg, h.expectedCount]
  · by_cases hahead : count < named
    · rw [if_pos (Or.inl hahead), if_neg]
      rw [not_or, not_not]
      refine ⟨by omega, ?_⟩
      rw [take_eq_append hahead.le, journalOf_append, List.length_append, h.expectedBytes,
        h.lines]
      congr 1
      rw [← List.map_take, List.map_map, journalOf, List.length_flatMap, List.take_drop,
        List.take_take, show min (count + (named - count)) last = named by omega]
      rfl
    · rw [if_neg]
      rw [not_or, h.expectedBytes]
      refine ⟨hahead, ?_⟩
      have hless := length_journalOf_take_le events (Nat.not_lt.1 hahead)
      omega
  · rw [h.finalCount_eq, h.finalBytes_eq, h.session, h.expectedCount]
    simp only [Json.field, hcount, hbytes, hsession, hsafe, hsafeBytes, Json.text?,
      Json.isPlainObject, Bool.not_true, Bool.false_eq_true, ne_eq, not_true_eq_false, false_or]
    omega

/-- What the files hold of the events agrees with the batch. -/
theorem checkFiles_ok (h : plan.Asks sessionId events count last)
    (hdisk : disk.Holds sessionId events count last) :
    checkFiles disk plan disk.bytes = .ok () := by
  have hdurable := hdisk.durable.length_le
  have hwithin := hdisk.within.length_le
  obtain ⟨tail, htail⟩ := hdisk.durable
  have hexisting : disk.bytes.drop plan.expectedBytes = tail := by
    rw [h.expectedBytes, ← htail, List.drop_left]
  have hbatch : tail <+: plan.bytes := by
    have hprefix := hdisk.within
    rw [← htail, h.journalOf_last] at hprefix
    exact (List.prefix_append_right_inj _).1 hprefix
  have hpersisted : ∃ persisted, readPersisted disk = .ok persisted ∧
      persisted.elim (.ok ()) (checkPersisted plan disk.bytes.length) = .ok () := by
    rw [readPersisted]
    cases hstate : disk.state with
    | none => exact ⟨none, rfl, rfl⟩
    | some file =>
        obtain ⟨named, hnamed, hnames, hhas⟩ := hdisk.named file hstate
        obtain ⟨persisted, hparsed, hcheck⟩ := h.checkPersisted_ok hnames hnamed hhas.length_le
        refine ⟨some persisted, ?_, hcheck⟩
        simp only [hparsed]
        rw [if_neg (Nat.not_lt.2 hnames.small)]
  obtain ⟨persisted, hread, hcheck⟩ := hpersisted
  rw [checkFiles, if_neg (by rw [h.expectedBytes, h.finalBytes_eq]; omega), hread]
  simp only [hcheck]
  rw [hexisting, if_pos (List.prefix_iff_eq_take.1 hbatch)]

theorem openJournal_ok_of_holds (h : plan.Asks sessionId events count last)
    (hdisk : disk.Holds sessionId events count last) : ∃ opening, openJournal disk plan = .ok opening := by
  rw [openJournal]
  cases hjournal : disk.journal with
  | some journal => exact ⟨[], rfl⟩
  | none =>
      have hzero := hdisk.opened hjournal
      refine ⟨[.createJournal], ?_⟩
      rw [h.expectedBytes, h.expectedCount, hzero]
      rfl

/-- The plan passes, and its writes complete the journal. -/
theorem persistPlan_ok (h : plan.Asks sessionId events count last)
    (hdisk : disk.Holds sessionId events count last) : ∃ opening,
    openJournal disk plan = .ok opening ∧
      persistPlan disk plan = (opening ++ sessionWrites plan disk.bytes,
        .ok { id := plan.id, eventCount := last,
              byteLength := (journalOf (events.take last)).length }) := by
  obtain ⟨opening, hopening⟩ := h.openJournal_ok_of_holds hdisk
  refine ⟨opening, hopening, ?_⟩
  have hfiles : checkFiles disk plan (disk.journal.getD []) = .ok () := h.checkFiles_ok hdisk
  rw [persistPlan, hopening]
  simp only [hfiles, h.finalCount_eq, h.finalBytes_eq]
  rfl

/-- What is left of the batch completes the journal. -/
theorem bytes_append_rest (h : plan.Asks sessionId events count last)
    (hdisk : disk.Holds sessionId events count last) :
    disk.bytes ++ plan.bytes.drop (disk.bytes.length - plan.expectedBytes) =
      journalOf (events.take last) := by
  obtain ⟨tail, htail⟩ := hdisk.durable
  have hprefix := hdisk.within
  rw [← htail, h.journalOf_last] at hprefix
  obtain ⟨rest, hrest⟩ := (List.prefix_append_right_inj _).1 hprefix
  rw [h.journalOf_last, h.expectedBytes, ← htail, List.length_append, Nat.add_sub_cancel_left,
    ← hrest, List.drop_left, List.append_assoc]

/-- After any first part of its writes the disk still holds what it held. -/
theorem holds_take (h : plan.Asks sessionId events count last)
    (hdisk : disk.Holds sessionId events count last) {opening : List Write}
    (hopening : openJournal disk plan = .ok opening) (first : Nat) :
    (disk.applyAll ((opening ++ sessionWrites plan disk.bytes).take first)).Holds
      sessionId events count last := by
  obtain ⟨added, hwritten⟩ := written_take hopening first
  have hwhole := h.bytes_append_rest hdisk
  generalize disk.applyAll ((opening ++ sessionWrites plan disk.bytes).take first) = next at hwritten
  have hgrows : disk.bytes <+: next.bytes := by
    rw [hwritten.journal]
    exact List.prefix_append _ _
  refine ⟨hdisk.durable.trans hgrows, ?_, fun habsent => hdisk.opened (hwritten.opened habsent), ?_⟩
  · rw [hwritten.journal, ← hwhole]
    exact (List.prefix_append_right_inj _).2 hwritten.first
  · intro file hfile
    rcases hwritten.state with hsame | ⟨hnew, hall⟩
    · rw [hsame] at hfile
      obtain ⟨named, hnamed, hnames, hhas⟩ := hdisk.named file hfile
      exact ⟨named, hnamed, hnames, hhas.trans hgrows⟩
    · rw [hnew] at hfile
      cases hfile
      refine ⟨last, Nat.le_refl _, h.metadata, ?_⟩
      rw [hwritten.journal, hall, hwhole]

/-- After all of its writes the disk holds the whole batch. -/
theorem holds_all (h : plan.Asks sessionId events count last)
    (hdisk : disk.Holds sessionId events count last) {opening : List Write}
    (hopening : openJournal disk plan = .ok opening) :
    (disk.applyAll (opening ++ sessionWrites plan disk.bytes)).bytes =
        journalOf (events.take last) ∧
      (disk.applyAll (opening ++ sessionWrites plan disk.bytes)).Holds
        sessionId events last last := by
  obtain ⟨hbytes, hjournal, hstate⟩ := written_all hopening
  rw [h.bytes_append_rest hdisk] at hbytes
  generalize disk.applyAll (opening ++ sessionWrites plan disk.bytes) = next at hbytes hjournal hstate
  have hcomplete : journalOf (events.take last) <+: next.bytes := by
    rw [hbytes]
  have hwithin : next.bytes <+: journalOf (events.take last) := by
    rw [hbytes]
  refine ⟨hbytes, hcomplete, hwithin, fun habsent => absurd habsent hjournal, ?_⟩
  intro file hfile
  rw [hstate] at hfile
  cases hfile
  exact ⟨last, Nat.le_refl _, h.metadata, hcomplete⟩

end SessionPlan.Asks

/-- Events captured later change nothing of what a disk holds. -/
theorem Disk.Holds.append (h : disk.Holds sessionId events count last)
    (hcount : count ≤ last) (hlast : last ≤ events.length) (more : List BufferMutation) :
    disk.Holds sessionId (events ++ more) count last where
  durable := by
    rw [List.take_append_of_le_length (by omega)]
    exact h.durable
  within := by
    rw [List.take_append_of_le_length hlast]
    exact h.within
  opened := h.opened
  named := by
    intro file hfile
    obtain ⟨named, hnamed, hnames, hhas⟩ := h.named file hfile
    have hle := hnames.count_le
    refine ⟨named, hnamed, ⟨hnames.small, ?_, ?_, hnames.count_safe, ?_⟩, ?_⟩
    · rw [List.take_append_of_le_length hle]
      exact hnames.parsed
    · rw [List.length_append]
      omega
    · rw [List.take_append_of_le_length hle]
      exact hnames.bytes_safe
    · rw [List.take_append_of_le_length hle]
      exact hhas

/-- A disk holds no less when more may be asked for. -/
theorem Disk.Holds.mono (h : disk.Holds sessionId events count last) {later : Nat}
    (hlater : last ≤ later) : disk.Holds sessionId events count later where
  durable := h.durable
  within := h.within.trans (journalOf_mono (List.take_prefix_take_left hlater))
  opened := h.opened
  named := by
    intro file hfile
    obtain ⟨named, hnamed, hnames, hhas⟩ := h.named file hfile
    exact ⟨named, Nat.le_trans hnamed hlater, hnames, hhas⟩

end

end Pmbah.Emacs
