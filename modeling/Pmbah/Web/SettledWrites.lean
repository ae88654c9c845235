import Pmbah.Web.CoalescingWriter

/-!
# What the promises of the writer tell

A promise that is resolved tells the truth on every run.  One that is rejected does so as
long as no write fails after a value that came with it, or later, has been written.
-/

namespace Pmbah.Web

open Library

variable {α : Type}

namespace DrainStage

def hasBegun : DrainStage α → Bool
  | .waiting => false
  | _ => true

def hasEnded : DrainStage α → Bool
  | .ended _ => true
  | _ => false

def isWriting : DrainStage α → Bool
  | .writing _ _ => true
  | _ => false

/-- The value that a write has been given and that is not written. -/
def held : DrainStage α → Option (Handover.Entry α)
  | .writing _ next => some next
  | .answered _ next false => some next
  | _ => none

/-- The promises that the call is going to settle. -/
def settling : DrainStage α → List Nat
  | .writing settling _ => settling
  | .answered settling _ _ => settling
  | _ => []

theorem open_of_held {stage : DrainStage α} {entry : Handover.Entry α}
    (h : stage.held = some entry) : stage.hasBegun = true ∧ stage.hasEnded = false := by
  cases stage with
  | writing => exact ⟨rfl, rfl⟩
  | answered => exact ⟨rfl, rfl⟩
  | waiting => cases h
  | ended => cases h

end DrainStage

namespace CoalescingWriter

variable {writer next : CoalescingWriter α} {call begun : Nat} {old : Drain α}
  {stage : DrainStage α}

/-! ## Calls in their order -/

/-- How many values had been scheduled when the call before this one began. -/
def beganBefore (writer : CoalescingWriter α) : Nat → Nat
  | 0 => 0
  | call + 1 => (writer.drains[call]?.map Drain.begun).getD 0

structure Ordered (writer : CoalescingWriter α) : Prop where
  chained : ∀ (earlier later : Nat) (before drain : Drain α), earlier < later →
    writer.drains[earlier]? = some before → writer.drains[later]? = some drain →
    drain.stage.hasBegun = true → before.stage.hasEnded = true
  begun : ∀ (call : Nat) (drain : Drain α), writer.drains[call]? = some drain →
    drain.begun ≤ writer.scheduled.length
  waiting : ∀ number ∈ writer.waiters, number < writer.scheduled.length ∧
    ∀ (call : Nat) (drain : Drain α), writer.drains[call]? = some drain →
      drain.stage.hasBegun = true → drain.begun ≤ number
  settling : ∀ (call : Nat) (drain : Drain α), writer.drains[call]? = some drain →
    ∀ number ∈ drain.stage.settling, number < writer.scheduled.length ∧
      writer.beganBefore call ≤ number

/-- All calls before this one have ended, and none after it has begun. -/
structure Running (writer : CoalescingWriter α) (call : Nat) : Prop where
  before : ∀ (earlier : Nat) (drain : Drain α), earlier < call →
    writer.drains[earlier]? = some drain → drain.stage.hasEnded = true
  after : ∀ (later : Nat) (drain : Drain α), call < later →
    writer.drains[later]? = some drain → drain.stage.hasBegun = false

theorem Ordered.running (h : Ordered writer) (hcall : writer.drains[call]? = some old)
    (hopen : old.stage.hasEnded = false)
    (hready : old.stage.hasBegun = true ∨ writer.ready call = true) : Running writer call where
  after later other hlater hother := by
    apply Bool.eq_false_iff.2
    intro hbegun
    have hended := h.chained call later old other hlater hcall hother hbegun
    rw [hopen] at hended
    cases hended
  before earlier other hearlier hother := by
    rcases hready with hbegun | hready
    · exact h.chained earlier call other old hearlier hother hcall hbegun
    · cases call with
      | zero => exact absurd hearlier (Nat.not_lt_zero _)
      | succ previous =>
          rw [ready] at hready
          split at hready
          · rename_i succeeded begun hprevious
            rcases Nat.lt_succ_iff_lt_or_eq.1 hearlier with hfurther | rfl
            · exact h.chained earlier previous other _ hfurther hother hprevious rfl
            · rw [hprevious] at hother
              cases hother
              rfl
          · cases hready

/-- Only the call that is under way holds a value. -/
theorem Running.eq_of_held (h : Running writer call) {other : Nat} {drain : Drain α}
    {entry : Handover.Entry α} (hother : writer.drains[other]? = some drain)
    (hheld : drain.stage.held = some entry) : other = call := by
  obtain ⟨hbegun, hopen⟩ := DrainStage.open_of_held hheld
  rcases Nat.lt_trichotomy other call with hless | heq | hgreater
  · have hended := h.before other drain hless hother
    rw [hopen] at hended
    cases hended
  · exact heq
  · have hwaiting := h.after other drain hgreater hother
    rw [hbegun] at hwaiting
    cases hwaiting

theorem getElem?_put (hcall : writer.drains[call]? = some old) (begun : Nat)
    (stage : DrainStage α) (other : Nat) :
    (writer.put call begun stage).drains[other]? =
      if other = call then some ⟨stage, begun⟩ else writer.drains[other]? := by
  have hlt := (List.getElem?_eq_some_iff.1 hcall).1
  show (writer.drains.set call ⟨stage, begun⟩)[other]? = _
  by_cases hother : other = call
  · subst hother
    rw [if_pos rfl, List.getElem?_set_self hlt]
  · rw [if_neg hother, List.getElem?_set_ne (Ne.symm hother)]

theorem beganBefore_put (hcall : writer.drains[call]? = some old) (begun : Nat)
    (stage : DrainStage α) {other : Nat} (hother : other ≤ call) :
    (writer.put call begun stage).beganBefore other = writer.beganBefore other := by
  cases other with
  | zero => rfl
  | succ previous =>
      have hne : previous ≠ call := by omega
      rw [beganBefore, beganBefore, getElem?_put hcall, if_neg hne]

/-- The call that is under way goes on. -/
theorem Ordered.put (h : Ordered writer) (hrunning : Running writer call)
    (hcall : writer.drains[call]? = some old)
    (hcount : begun ≤ writer.scheduled.length)
    (hbegun : ∀ number ∈ writer.waiters, begun ≤ number)
    (hsettling : ∀ number ∈ stage.settling, number < writer.scheduled.length ∧
      writer.beganBefore call ≤ number) : Ordered (writer.put call begun stage) where
  chained earlier later before drain hlt hearlier hlater hdrain := by
    rw [getElem?_put hcall] at hearlier hlater
    by_cases hafter : call < later
    · rw [if_neg (by omega)] at hlater
      rw [hrunning.after later drain hafter hlater] at hdrain
      cases hdrain
    · have hbefore : earlier < call := by omega
      rw [if_neg (by omega)] at hearlier
      exact hrunning.before earlier before hbefore hearlier
  begun other drain hother := by
    rw [getElem?_put hcall] at hother
    split at hother
    · cases hother
      exact hcount
    · exact h.begun other drain hother
  waiting number hnumber := by
    refine ⟨(h.waiting number hnumber).1, fun other drain hother hdrain => ?_⟩
    rw [getElem?_put hcall] at hother
    split at hother
    · cases hother
      exact hbegun number hnumber
    · exact (h.waiting number hnumber).2 other drain hother hdrain
  settling other drain hother number hnumber := by
    rw [getElem?_put hcall] at hother
    split at hother
    · rename_i hsame
      subst hsame
      cases hother
      rw [beganBefore_put hcall begun stage (Nat.le_refl _)]
      exact hsettling number hnumber
    · by_cases hafter : call < other
      · -- A call that has not begun has nothing to settle.
        have hwaiting := hrunning.after other drain hafter hother
        cases hstage : drain.stage with
        | waiting =>
            rw [hstage] at hnumber
            cases hnumber
        | _ =>
            rw [hstage] at hwaiting
            cases hwaiting
      · rw [beganBefore_put hcall begun stage (Nat.le_of_not_lt hafter)]
        exact h.settling other drain hother number hnumber

/-! ## The value that is handed over -/

def inHand (writer : CoalescingWriter α) : Option (Handover.Entry α) :=
  writer.drains.findSome? fun drain => drain.stage.held

/-- What the writer does with values. -/
def cell (writer : CoalescingWriter α) : Handover α where
  scheduled := writer.scheduled
  pending := writer.pending
  inHand := writer.inHand
  written := writer.written

theorem findSome?_eq {β γ : Type} {items : List β} {f : β → Option γ} {item : β}
    (hitem : items[call]? = some item)
    (honly : ∀ other found value, items[other]? = some found → f found = some value →
      other = call) : items.findSome? f = f item := by
  cases hfound : items.findSome? f with
  | none => exact (List.findSome?_eq_none_iff.1 hfound item (List.mem_of_getElem? hitem)).symm
  | some value =>
      obtain ⟨found, hmem, hvalue⟩ := List.exists_of_findSome?_eq_some hfound
      obtain ⟨other, hother⟩ := List.mem_iff_getElem?.1 hmem
      obtain rfl := honly other found value hother hvalue
      rw [hitem] at hother
      cases hother
      exact hvalue.symm

theorem Running.inHand (h : Running writer call) (hcall : writer.drains[call]? = some old) :
    writer.inHand = old.stage.held :=
  findSome?_eq hcall fun _ _ _ hother hheld => h.eq_of_held hother hheld

theorem Running.inHand_put (h : Running writer call) (hcall : writer.drains[call]? = some old)
    (begun : Nat) (stage : DrainStage α) : (writer.put call begun stage).inHand = stage.held := by
  have hnow : (writer.put call begun stage).drains[call]? = some ⟨stage, begun⟩ := by
    rw [getElem?_put hcall, if_pos rfl]
  apply findSome?_eq hnow
  intro other drain entry hother hheld
  rw [getElem?_put hcall] at hother
  split at hother
  · assumption
  · exact h.eq_of_held hother hheld

/-! ## Steps -/

/-- What a step does. -/
inductive Turn (writer : CoalescingWriter α) : Action α → CoalescingWriter α → Prop where
  | schedules (value : α) : Turn writer (.schedule value) (writer.schedule value)
  | drains (action : Action α) : Turn writer action { writer with timer := false }.drain
  | begins {call begun : Nat} (hcall : writer.drains[call]? = some ⟨.waiting, begun⟩)
      (hready : writer.ready call = true) :
      Turn writer (.begin call) ({ writer with waiters := [] }.takePending call
        writer.scheduled.length writer.waiters)
  | writes {call begun : Nat} {settling : List Nat} {entry : Handover.Entry α}
      (hcall : writer.drains[call]? = some ⟨.writing settling entry, begun⟩) :
      Turn writer (.answer call true)
        { writer.put call begun (.answered settling entry true) with
          written := writer.written ++ [entry] }
  | refuses {call begun : Nat} {settling : List Nat} {entry : Handover.Entry α}
      (hcall : writer.drains[call]? = some ⟨.writing settling entry, begun⟩) :
      Turn writer (.answer call false) (writer.put call begun (.answered settling entry false))
  | goesOn {call begun : Nat} {settling : List Nat} {entry : Handover.Entry α}
      (hcall : writer.drains[call]? = some ⟨.answered settling entry true, begun⟩) :
      Turn writer (.resume call) (writer.takePending call begun settling)
  | fails {call begun : Nat} {settling : List Nat} {entry : Handover.Entry α}
      (hcall : writer.drains[call]? = some ⟨.answered settling entry false, begun⟩) :
      Turn writer (.resume call)
        (({ writer with pending := writer.pending.or (some entry) }.settle settling
          false).put call begun (.ended false))

theorem step_turn {action : Action α} (h : writer.step action = some next) :
    Turn writer action next := by
  cases action with
  | schedule value =>
      cases h
      exact .schedules value
  | flush =>
      cases h
      exact .drains .flush
  | fire =>
      rw [step] at h
      split at h
      · cases h
        exact .drains .fire
      · cases h
  | begin call =>
      rw [step] at h
      split at h
      · split at h
        · cases h
          exact .begins ‹_› ‹_›
        · cases h
      · cases h
  | answer call succeeded =>
      rw [step] at h
      split at h
      · cases h
        cases succeeded with
        | true => exact .writes ‹_›
        | false => exact .refuses ‹_›
      · cases h
  | resume call =>
      rw [step] at h
      split at h
      · cases h
        exact .goesOn ‹_›
      · cases h
        exact .fails ‹_›
      · cases h

/-- What every run keeps. -/
structure Sound (writer : CoalescingWriter α) : Prop where
  ordered : Ordered writer
  cell : writer.cell.Sound
  resolved : ∀ number, (number, true) ∈ writer.settled →
    ∃ done ∈ writer.written, number ≤ done.number

theorem sound_empty : Sound (empty : CoalescingWriter α) where
  ordered := by
    refine ⟨fun _ _ _ _ _ h => ?_, fun _ _ h => ?_, fun _ h => ?_, fun _ _ h => ?_⟩
    · cases h
    · cases h
    · cases h
    · cases h
  cell := Handover.sound_empty
  resolved _ h := by cases h

/-- Promises are settled for values that have been written. -/
theorem Sound.settles (h : Sound writer) {settled : List (Nat × Bool)} {settling : List Nat}
    {succeeded : Bool} (hsettled : settled = writer.settled ++ settling.map fun number =>
      (number, succeeded))
    (hcovered : succeeded = true → ∀ number ∈ settling,
      ∃ done ∈ writer.written, number ≤ done.number) :
    ∀ number, (number, true) ∈ settled → ∃ done ∈ writer.written, number ≤ done.number := by
  intro number hnumber
  rw [hsettled, List.mem_append, List.mem_map] at hnumber
  rcases hnumber with hbefore | ⟨found, hfound, heq⟩
  · exact h.resolved number hbefore
  · cases heq
    exact hcovered rfl number hfound

/-- The loop of the call that is under way takes what is pending, or ends. -/
theorem sound_takePending (h : Sound writer) (hrunning : Running writer call)
    (hcall : writer.drains[call]? = some old) (hfree : old.stage.held = none)
    (hcount : begun ≤ writer.scheduled.length)
    (hbegun : ∀ number ∈ writer.waiters, begun ≤ number) {settling : List Nat}
    (hsettling : ∀ number ∈ settling, number < writer.scheduled.length ∧
      writer.beganBefore call ≤ number) :
    Sound (writer.takePending call begun settling) ∧
      writer.cell.Moves (writer.takePending call begun settling).cell := by
  have hempty : writer.cell.inHand = none := (hrunning.inHand hcall).trans hfree
  rw [takePending]
  split
  · rename_i entry hpending
    have htaken : ({ writer with pending := none }.put call begun
        (.writing settling entry)).cell = writer.cell.take := by
      have hinHand : ({ writer with pending := none }.put call begun
          (.writing settling entry)).inHand = writer.pending :=
        (hrunning.inHand_put hcall begun (.writing settling entry)).trans hpending.symm
      rw [cell, hinHand]
      rfl
    have hordered : Ordered (writer.put call begun (.writing settling entry)) :=
      h.ordered.put hrunning hcall hcount hbegun hsettling
    refine ⟨⟨⟨hordered.chained, hordered.begun, hordered.waiting, hordered.settling⟩, ?_,
      h.resolved⟩, ?_⟩
    · rw [htaken]
      exact h.cell.take hempty
    · rw [htaken]
      exact .takes hempty
  · rename_i hpending
    have hsame : ((writer.settle settling true).put call begun (.ended true)).cell =
        writer.cell := by
      have hinHand : ((writer.settle settling true).put call begun (.ended true)).inHand =
          writer.inHand := (hrunning.inHand_put hcall begun (.ended true)).trans hempty.symm
      rw [cell, hinHand]
      rfl
    have hordered : Ordered (writer.put call begun (.ended true)) :=
      h.ordered.put hrunning hcall hcount hbegun fun _ hnone => by cases hnone
    refine ⟨⟨⟨hordered.chained, hordered.begun, hordered.waiting, hordered.settling⟩, ?_, ?_⟩, ?_⟩
    · rw [hsame]
      exact h.cell
    · apply h.settles rfl
      intro _ number hnumber
      exact h.cell.covered hpending hempty (hsettling number hnumber).1
    · rw [hsame]
      exact .stays

theorem sound_schedule (h : Sound writer) (value : α) : Sound (writer.schedule value) where
  ordered := by
    have hlength : (writer.schedule value).scheduled.length = writer.scheduled.length + 1 :=
      List.length_append
    refine ⟨h.ordered.chained, fun other drain hother => ?_, fun number hnumber => ?_,
      fun other drain hother number hnumber => ?_⟩
    · have hle := h.ordered.begun other drain hother
      omega
    · rcases List.mem_append.1 hnumber with hbefore | hnew
      · obtain ⟨hlt, hbegun⟩ := h.ordered.waiting number hbefore
        exact ⟨by omega, hbegun⟩
      · obtain rfl := List.mem_singleton.1 hnew
        exact ⟨by omega, fun other drain hother _ => h.ordered.begun other drain hother⟩
    · obtain ⟨hlt, hbegun⟩ := h.ordered.settling other drain hother number hnumber
      exact ⟨by omega, hbegun⟩
  cell := h.cell.schedule value
  resolved := h.resolved

/-- One more call, which waits for the last. -/
theorem getElem?_drain {other : Nat} {call : Drain α}
    (h : writer.drain.drains[other]? = some call) :
    (other < writer.drains.length ∧ writer.drains[other]? = some call) ∨
      call = ⟨.waiting, 0⟩ := by
  have h : (writer.drains ++ [⟨.waiting, 0⟩])[other]? = some call := h
  by_cases hlt : other < writer.drains.length
  · rw [List.getElem?_append_left hlt] at h
    exact Or.inl ⟨hlt, h⟩
  · rw [List.getElem?_append_right (Nat.le_of_not_lt hlt)] at h
    exact Or.inr (List.mem_singleton.1 (List.mem_of_getElem? h))

theorem beganBefore_drain {other : Nat} (h : other ≤ writer.drains.length) :
    writer.drain.beganBefore other = writer.beganBefore other := by
  cases other with
  | zero => rfl
  | succ previous =>
      show (((writer.drains ++ [_])[previous]?).map Drain.begun).getD 0 = _
      rw [List.getElem?_append_left h]
      rfl

theorem sound_drain (h : Sound writer) :
    Sound writer.drain ∧ writer.drain.cell = writer.cell := by
  have hcell : writer.drain.cell = writer.cell := by
    have hinHand : writer.drain.inHand = writer.inHand := by
      show (writer.drains ++ [_]).findSome? _ = _
      rw [List.findSome?_append]
      exact Option.or_none
    rw [cell, hinHand]
    rfl
  refine ⟨⟨⟨?_, ?_, ?_, ?_⟩, ?_, h.resolved⟩, hcell⟩
  · intro earlier later before call hlt hearlier hlater hbegun
    rcases getElem?_drain hlater with ⟨hold, hlater⟩ | rfl
    · rcases getElem?_drain hearlier with ⟨-, hearlier⟩ | rfl
      · exact h.ordered.chained earlier later before call hlt hearlier hlater hbegun
      · have hlength : earlier < writer.drains.length := by omega
        change (writer.drains ++ [⟨.waiting, 0⟩])[earlier]? = _ at hearlier
        rw [List.getElem?_append_left hlength] at hearlier
        exact h.ordered.chained earlier later _ call hlt hearlier hlater hbegun
    · cases hbegun
  · intro other call hother
    rcases getElem?_drain hother with ⟨-, hother⟩ | rfl
    · exact h.ordered.begun other call hother
    · exact Nat.zero_le _
  · intro number hnumber
    obtain ⟨hlt, hbegun⟩ := h.ordered.waiting number hnumber
    refine ⟨hlt, fun other call hother hcall => ?_⟩
    rcases getElem?_drain hother with ⟨-, hother⟩ | rfl
    · exact hbegun other call hother hcall
    · exact Nat.zero_le _
  · intro other call hother number hnumber
    rcases getElem?_drain hother with ⟨hlt, hother⟩ | rfl
    · rw [beganBefore_drain (Nat.le_of_lt hlt)]
      exact h.ordered.settling other call hother number hnumber
    · cases hnumber
  · rw [hcell]
    exact h.cell

/-- A promise that waits came after the call that ended last had begun. -/
theorem Ordered.beganBefore_le (h : Ordered writer) (hready : writer.ready call = true)
    {number : Nat} (hnumber : number ∈ writer.waiters) : writer.beganBefore call ≤ number := by
  cases call with
  | zero => exact Nat.zero_le _
  | succ previous =>
      rw [ready] at hready
      split at hready
      · rename_i succeeded begun hprevious
        rw [beganBefore, hprevious]
        exact (h.waiting number hnumber).2 previous _ hprevious rfl
      · cases hready

/-- The call that is under way leaves its loop alone, or gives up. -/
theorem sound_put (h : Sound writer) (hrunning : Running writer call)
    (hcall : writer.drains[call]? = some old) (hbegun : old.stage.hasBegun = true)
    (stage : DrainStage α) (hsettling : ∀ number ∈ stage.settling, number ∈ old.stage.settling)
    {changed : CoalescingWriter α}
    (hdrains : changed.drains = (writer.put call old.begun stage).drains)
    (hwaiters : changed.waiters = writer.waiters)
    (hscheduled : changed.scheduled = writer.scheduled)
    (hmoves : writer.cell.Moves
      ⟨writer.scheduled, changed.pending, stage.held, changed.written⟩)
    (hresolved : ∀ number, (number, true) ∈ changed.settled →
      (number, true) ∈ writer.settled) :
    Sound changed ∧ writer.cell.Moves changed.cell := by
  have hordered : Ordered (writer.put call old.begun stage) := by
    apply h.ordered.put hrunning hcall (h.ordered.begun call old hcall)
    · exact fun number hnumber => (h.ordered.waiting number hnumber).2 call old hcall hbegun
    · exact fun number hnumber =>
        h.ordered.settling call old hcall number (hsettling number hnumber)
  have hcell : changed.cell =
      ⟨writer.scheduled, changed.pending, stage.held, changed.written⟩ := by
    have hinHand : changed.inHand = stage.held := by
      rw [inHand, hdrains]
      exact hrunning.inHand_put hcall old.begun stage
    rw [cell, hinHand, hscheduled]
  have hbefore : ∀ other, changed.beganBefore other =
      (writer.put call old.begun stage).beganBefore other := by
    intro other
    cases other with
    | zero => rfl
    | succ previous => rw [beganBefore, beganBefore, hdrains]
  have hwritten : writer.written ⊆ changed.written := hmoves.written_subset
  rw [hcell]
  refine ⟨⟨⟨?_, ?_, ?_, ?_⟩, ?_, ?_⟩, hmoves⟩
  · rw [hdrains]
    exact hordered.chained
  · rw [hdrains, hscheduled]
    exact hordered.begun
  · rw [hdrains, hscheduled, hwaiters]
    exact hordered.waiting
  · simp only [hbefore]
    rw [hdrains, hscheduled]
    exact hordered.settling
  · rw [hcell]
    exact h.cell.moves hmoves
  · intro number hnumber
    obtain ⟨done, hdone, hle⟩ := h.resolved number (hresolved number hnumber)
    exact ⟨done, hwritten hdone, hle⟩

theorem sound_step (h : Sound writer) {action : Action α}
    (hnext : writer.step action = some next) :
    Sound next ∧ writer.cell.Moves next.cell := by
  cases step_turn hnext with
  | schedules value => exact ⟨sound_schedule h value, .schedules value⟩
  | drains =>
      have hquiet : Sound { writer with timer := false } :=
        ⟨⟨h.ordered.chained, h.ordered.begun, h.ordered.waiting, h.ordered.settling⟩, h.cell,
          h.resolved⟩
      obtain ⟨hsound, hcell⟩ := sound_drain hquiet
      refine ⟨hsound, ?_⟩
      rw [hcell]
      exact .stays
  | @begins call begun hcall hready =>
      have hrunning := h.ordered.running hcall rfl (Or.inr hready)
      have hcleared : Sound { writer with waiters := [] } :=
        ⟨⟨h.ordered.chained, h.ordered.begun, fun _ hnone => (List.not_mem_nil hnone).elim,
          h.ordered.settling⟩, h.cell, h.resolved⟩
      apply sound_takePending hcleared ⟨hrunning.before, hrunning.after⟩ hcall rfl (Nat.le_refl _)
      · exact fun _ hnone => (List.not_mem_nil hnone).elim
      · intro number hnumber
        exact ⟨(h.ordered.waiting number hnumber).1, h.ordered.beganBefore_le hready hnumber⟩
  | @writes call begun settling entry hcall =>
      have hrunning := h.ordered.running hcall rfl (Or.inl rfl)
      have hinHand : writer.cell.inHand = some entry := hrunning.inHand hcall
      have hfinish : writer.cell.Moves writer.cell.finish := .finishes
      rw [Handover.finish, hinHand] at hfinish
      exact sound_put h hrunning hcall rfl (.answered settling entry true)
        (fun _ hnumber => hnumber) rfl rfl rfl hfinish fun _ hsettled => hsettled
  | @refuses call begun settling entry hcall =>
      have hrunning := h.ordered.running hcall rfl (Or.inl rfl)
      have hsame : writer.cell =
          ⟨writer.scheduled, writer.pending, some entry, writer.written⟩ := by
        rw [cell, hrunning.inHand hcall]
        rfl
      have hstays : writer.cell.Moves
          ⟨writer.scheduled, writer.pending, some entry, writer.written⟩ := by
        rw [hsame]
        exact .stays
      exact sound_put h hrunning hcall rfl (.answered settling entry false)
        (fun _ hnumber => hnumber) rfl rfl rfl hstays fun _ hsettled => hsettled
  | @goesOn call begun settling entry hcall =>
      have hrunning := h.ordered.running hcall rfl (Or.inl rfl)
      exact sound_takePending h hrunning hcall rfl (h.ordered.begun call _ hcall)
        (fun number hnumber => (h.ordered.waiting number hnumber).2 call _ hcall rfl)
        (h.ordered.settling call _ hcall)
  | @fails call begun settling entry hcall =>
      have hrunning := h.ordered.running hcall rfl (Or.inl rfl)
      have hinHand : writer.cell.inHand = some entry := hrunning.inHand hcall
      have hback : writer.cell.Moves writer.cell.giveBack := .givesBack
      rw [Handover.giveBack, hinHand] at hback
      have hnone : ∀ number ∈ (DrainStage.ended false : DrainStage α).settling,
          number ∈ settling := fun _ hnumber => (List.not_mem_nil hnumber).elim
      refine sound_put h hrunning hcall rfl (.ended false) hnone rfl rfl rfl hback ?_
      intro number hnumber
      rcases List.mem_append.1 hnumber with hbefore | hrejected
      · exact hbefore
      · obtain ⟨found, -, heq⟩ := List.mem_map.1 hrejected
        cases heq

theorem sound_run {condition : CoalescingWriter α → Action α → Prop}
    (run : Run step condition empty writer) : Sound writer :=
  run.invariant (fun _ _ _ h _ hnext => (sound_step h hnext).1) sound_empty

/-! ## Rejections -/

/-- A write that fails does so before anything is written that was scheduled since the
call before its own began, or else its call has no promise to settle. -/
def FailsEarly (writer : CoalescingWriter α) : Action α → Prop
  | .answer call false =>
      ∀ drain ∈ writer.drains[call]?, drain.stage.settling = [] ∨
        ∀ done ∈ writer.written, done.number < writer.beganBefore call
  | _ => True

/-- A call that is going to reject its promises has been spared: nothing of theirs has
been written. -/
def Spared (writer : CoalescingWriter α) : Prop :=
  ∀ (call : Nat) (settling : List Nat) (entry : Handover.Entry α) (begun : Nat),
    writer.drains[call]? = some ⟨.answered settling entry false, begun⟩ →
      settling = [] ∨ ∀ done ∈ writer.written, done.number < writer.beganBefore call

/-- Only the call that has gone on can be about to reject. -/
theorem Running.spared_put (hrunning : Running writer call)
    (hcall : writer.drains[call]? = some old) {changed : CoalescingWriter α}
    (hdrains : changed.drains = (writer.put call begun stage).drains)
    (hstage : ∀ settling entry, stage = .answered settling entry false → settling = [] ∨
      ∀ done ∈ changed.written, done.number < changed.beganBefore call) : Spared changed := by
  intro other settling entry began hother
  rw [hdrains, getElem?_put hcall] at hother
  split at hother
  · rename_i hsame
    subst hsame
    cases hother
    exact hstage settling entry rfl
  · exact absurd (hrunning.eq_of_held hother rfl) ‹_›

theorem Running.spared_takePending (hrunning : Running writer call)
    (hcall : writer.drains[call]? = some old) (begun : Nat) (settling : List Nat) :
    Spared (writer.takePending call begun settling) := by
  rw [takePending]
  split
  · exact hrunning.spared_put hcall rfl fun _ _ hstage => by cases hstage
  · exact hrunning.spared_put hcall rfl fun _ _ hstage => by cases hstage

theorem spared_step (h : Sound writer) (hspared : Spared writer) {action : Action α}
    (hearly : FailsEarly writer action) (hnext : writer.step action = some next) :
    Spared next := by
  cases step_turn hnext with
  | schedules value => exact hspared
  | drains =>
      intro other settling entry began hother
      rcases getElem?_drain hother with ⟨hlt, hother⟩ | hnew
      · rw [beganBefore_drain (Nat.le_of_lt hlt)]
        exact hspared other settling entry began hother
      · cases hnew
  | @begins call begun hcall hready =>
      have hrunning := h.ordered.running hcall rfl (Or.inr hready)
      have hcleared : Running { writer with waiters := [] } call :=
        ⟨hrunning.before, hrunning.after⟩
      exact hcleared.spared_takePending hcall _ _
  | writes hcall =>
      have hrunning := h.ordered.running hcall rfl (Or.inl rfl)
      exact hrunning.spared_put hcall rfl fun _ _ hstage => by cases hstage
  | refuses hcall =>
      have hrunning := h.ordered.running hcall rfl (Or.inl rfl)
      apply hrunning.spared_put hcall rfl
      intro settling entry hstage
      cases hstage
      rw [beganBefore_put hcall _ _ (Nat.le_refl _)]
      exact hearly _ hcall
  | goesOn hcall =>
      have hrunning := h.ordered.running hcall rfl (Or.inl rfl)
      exact hrunning.spared_takePending hcall _ _
  | fails hcall =>
      have hrunning := h.ordered.running hcall rfl (Or.inl rfl)
      exact hrunning.spared_put hcall rfl fun _ _ hstage => by cases hstage

/-- What the step rejects has not been written, and nothing newer has. -/
def RejectsTruthfully (writer next : CoalescingWriter α) : Prop :=
  ∀ number, (number, false) ∈ next.settled → (number, false) ∉ writer.settled →
    ∀ done ∈ next.written, done.number < number

theorem takePending_settled (number : Nat) {settling : List Nat}
    (h : (number, false) ∈ (writer.takePending call begun settling).settled) :
    (number, false) ∈ writer.settled := by
  rw [takePending] at h
  split at h
  · exact h
  · rcases List.mem_append.1 h with hbefore | hresolved
    · exact hbefore
    · obtain ⟨found, -, heq⟩ := List.mem_map.1 hresolved
      cases heq

theorem step_rejectsTruthfully (h : Sound writer) (hspared : Spared writer) {action : Action α}
    (hnext : writer.step action = some next) : RejectsTruthfully writer next := by
  intro number hrejected hnew
  cases step_turn hnext with
  | begins => exact absurd (takePending_settled number hrejected) hnew
  | goesOn => exact absurd (takePending_settled number hrejected) hnew
  | @fails call begun settling entry hcall =>
      rcases List.mem_append.1 hrejected with hbefore | hsettling
      · exact absurd hbefore hnew
      · obtain ⟨found, hfound, heq⟩ := List.mem_map.1 hsettling
        cases heq
        intro done hdone
        have hle := (h.ordered.settling call _ hcall number hfound).2
        rcases hspared call settling entry begun hcall with hnone | hless
        · rw [hnone] at hfound
          cases hfound
        · exact Nat.lt_of_lt_of_le (hless done hdone) hle
  | _ => exact absurd hrejected hnew

/-! ## The promises -/

/-- Two writes that are under way are one. -/
def WritesApart (writer : CoalescingWriter α) : Prop :=
  ∀ (call other : Nat) (drain found : Drain α), writer.drains[call]? = some drain →
    writer.drains[other]? = some found → drain.stage.isWriting = true →
    found.stage.isWriting = true → call = other

theorem Sound.writesApart (h : Sound writer) : WritesApart writer := by
  intro call other drain found hcall hother hdrain hfound
  have hrunning : Running writer other := by
    cases hstage : found.stage with
    | writing =>
        apply h.ordered.running hother
        · rw [hstage]
          rfl
        · rw [hstage]
          exact Or.inl rfl
    | _ =>
        rw [hstage] at hfound
        cases hfound
  cases hstage : drain.stage with
  | writing settling entry => exact hrunning.eq_of_held hcall (by rw [hstage]; rfl)
  | _ =>
      rw [hstage] at hdrain
      cases hdrain

/-- What has been written, in the order in which it was scheduled. -/
structure WritesInOrder (writer : CoalescingWriter α) : Prop where
  increasing : writer.written.Pairwise fun earlier later => earlier.number < later.number
  genuine : ∀ done ∈ writer.written, writer.scheduled[done.number]? = some done.value

/-- Whatever happens, writes do not overlap, follow the order of the schedule and drop
nothing but for a newer value, and a promise is resolved when its value or a newer one has
been written.  One is rejected only when neither has, as long as writes fail early. -/
theorem settles_run :
    (∀ writer : CoalescingWriter α, Run step (fun _ _ => True) empty writer →
      WritesApart writer ∧ WritesInOrder writer ∧
        ∀ number, (number, true) ∈ writer.settled → ∃ done ∈ writer.written, number ≤ done.number) ∧
    (∀ (writer next : CoalescingWriter α) (action : Action α),
      Run step (fun _ _ => True) empty writer → writer.step action = some next →
        writer.cell.Keeps next.cell) ∧
    ∀ (writer next : CoalescingWriter α) (action : Action α), Run step FailsEarly empty writer →
      writer.step action = some next → RejectsTruthfully writer next := by
  refine ⟨fun writer run => ?_, fun writer next action run hnext => ?_,
    fun writer next action run hnext => ?_⟩
  · have h := sound_run run
    exact ⟨h.writesApart, ⟨h.cell.increasing, fun done hdone => h.cell.genuine done
      (Or.inr hdone)⟩, h.resolved⟩
  · have h := sound_run run
    exact (sound_step h hnext).2.keeps h.cell
  · have hrun : Sound writer ∧ Spared writer := by
      apply run.invariant (I := fun writer => Sound writer ∧ Spared writer)
      · intro writer action next h hearly hnext
        exact ⟨(sound_step h.1 hnext).1, spared_step h.1 h.2 hearly hnext⟩
      · exact ⟨sound_empty, fun _ _ _ _ h => by cases h⟩
    exact step_rejectsTruthfully hrun.1 hrun.2 hnext

/-! ## A promise that is rejected after its value has been written -/

instance (writer : CoalescingWriter α) (action : Action α) :
    Decidable (FailsEarly writer action) := by
  unfold FailsEarly
  split
  · infer_instance
  · infer_instance

/-- The second value is scheduled while the first is being written, and its write fails. -/
def secondWriteFails : List (Action Nat) :=
  [.schedule 1, .fire, .begin 0, .schedule 2, .answer 0 true, .resume 0, .answer 0 false]

theorem not_rejectsTruthfully_secondWriteFails :
    ¬ ∀ (writer next : CoalescingWriter Nat) (action : Action Nat),
      Run step (fun _ _ => True) empty writer → writer.step action = some next →
        RejectsTruthfully writer next := by
  intro h
  have hruns : (runAll step (fun _ _ => True) empty secondWriteFails).any (fun writer =>
      (writer.step (.resume 0)).any fun next =>
        (0, false) ∈ next.settled ∧ (0, false) ∉ writer.settled ∧
          ⟨0, 1⟩ ∈ next.written) = true := by
    decide
  obtain ⟨writer, hwriter, hcheck⟩ := (Option.any_eq_true _ _).1 hruns
  obtain ⟨next, hnext, hcheck⟩ := (Option.any_eq_true _ _).1 hcheck
  obtain ⟨hrejected, hnew, hdone⟩ := of_decide_eq_true hcheck
  have hless := h writer next (.resume 0) (.of_runAll hwriter) hnext 0 hrejected hnew ⟨0, 1⟩ hdone
  exact Nat.lt_irrefl 0 hless

/-- The only write fails, and both promises are rejected. -/
theorem rejectsTruthfully_onlyWriteFails :
    ∃ writer next : CoalescingWriter Nat,
      runAll step FailsEarly empty
        [.schedule 1, .schedule 2, .flush, .begin 0, .answer 0 false] = some writer ∧
      writer.step (.resume 0) = some next ∧ next.settled = [(0, false), (1, false)] ∧
      RejectsTruthfully writer next := by
  have hruns : (runAll step FailsEarly (empty : CoalescingWriter Nat)
      [.schedule 1, .schedule 2, .flush, .begin 0, .answer 0 false]).any (fun writer =>
      (writer.step (.resume 0)).any fun next =>
        next.settled = [(0, false), (1, false)]) = true := by
    decide
  obtain ⟨writer, hwriter, hcheck⟩ := (Option.any_eq_true _ _).1 hruns
  obtain ⟨next, hnext, hcheck⟩ := (Option.any_eq_true _ _).1 hcheck
  exact ⟨writer, next, hwriter, hnext, of_decide_eq_true hcheck,
    settles_run.2.2 writer next (.resume 0) (.of_runAll hwriter) hnext⟩

end CoalescingWriter

end Pmbah.Web
