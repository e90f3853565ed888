import Mathlib.Logic.Function.Basic
import PiVccu.Eq3Loop

/-!
The event bits of `kernel/eq3_char_loop.c` between `eq3loop_open_slave`,
`eq3loop_close_slave` and `EQ3LOOP_IOCGEVENTS`. Opens and closes exclude each other by
`channel->sem`; the ioctl takes no lock, so its bit operations fall between theirs.
-/

namespace PiVccu.Eq3LoopEvents
open Eq3Loop Transition

inductive Event where
  | opened
  | closed
deriving DecidableEq

def Event.test : Event → PendingEvents → Bool
  | opened, word => word.slaveOpened
  | closed, word => word.slaveClosed

def Event.assign : Event → Bool → PendingEvents → PendingEvents
  | opened, bit, word => { word with slaveOpened := bit }
  | closed, bit, word => { word with slaveClosed := bit }

/-- The next operation of the open or close that holds the semaphore. -/
inductive Holder where
  | openCheck
  | openCount
  | openEvent
  | openState
  | closeCount
  | closeEvent
  | closeState
  | up (opened : Bool)
deriving DecidableEq

inductive Phase where
  | testOpened
  | testClosed
  | testState
  | copy
  | writeBack
  | done
deriving DecidableEq

/-- A call in progress; `taken` is a record of the opens and closes whose bits it has
cleared. -/
structure Call where
  phase : Phase
  temp : PendingEvents
  taken : Event → List Nat

/-- A channel with the calls on it. The opens and the closes are numbered for the
record: `waiting` are those since the bit was cleared last, `reported` those that a
successful ioctl has told its caller. -/
structure Channel where
  pendingEvents : PendingEvents
  slaveOpenCount : Nat
  files : Nat
  sem : Option Holder
  calls : List Call
  issued : Event → Nat
  waiting : Event → List Nat
  reported : Event → List Nat

inductive Step where
  | openDown
  | openCheck (created allocated : Bool)
  | closeDown (interrupted : Bool)
  | advance
  | getEvents
  | operate (index : Nat)
  | putUser (index : Nat) (ret : Bool)
deriving DecidableEq

def Channel.raise (channel : Channel) (event : Event) : Channel :=
  { channel with
    pendingEvents := event.assign true channel.pendingEvents
    issued := Function.update channel.issued event (channel.issued event + 1)
    waiting := Function.update channel.waiting event
      (channel.waiting event ++ [channel.issued event]) }

/-- The operations of `eq3loop_open_slave` and `eq3loop_close_slave` behind the checks. -/
def Channel.advance (channel : Channel) : Holder → Option Channel
  | .openCheck => none
  | .openCount => some { channel with
      slaveOpenCount := channel.slaveOpenCount + 1, sem := some .openEvent }
  | .openEvent => some { channel.raise .opened with sem := some .openState }
  | .openState => some { channel with
      pendingEvents := { channel.pendingEvents with stateSlaveOpened := true }
      sem := some (.up true) }
  | .closeCount => some { channel with
      slaveOpenCount := if channel.slaveOpenCount ≠ 0 then channel.slaveOpenCount - 1
        else channel.slaveOpenCount
      sem := some .closeEvent }
  | .closeEvent => some { channel.raise .closed with sem := some .closeState }
  | .closeState => some { channel with
      pendingEvents := { channel.pendingEvents with stateSlaveOpened := false }
      sem := some (.up false) }
  | .up opened => some { channel with
      files := if opened then channel.files + 1 else channel.files, sem := none }

def newCall : Call := ⟨.testOpened, ⟨false, false, false⟩, fun _ => []⟩

def Channel.setCall (channel : Channel) (index : Nat) (call : Call) : Channel :=
  { channel with calls := channel.calls.set index call }

def Channel.take (channel : Channel) (index : Nat) (call : Call) (event : Event) (next : Phase) :
    Channel :=
  if event.test channel.pendingEvents then
    ({ channel with
        pendingEvents := event.assign false channel.pendingEvents
        waiting := Function.update channel.waiting event [] }).setCall index
      { phase := next
        temp := event.assign true call.temp
        taken := Function.update call.taken event (call.taken event ++ channel.waiting event) }
  else channel.setCall index { call with phase := next }

/-- `pending_events = temp` behind a failed copy. -/
def Channel.writeBack (channel : Channel) (index : Nat) (call : Call) : Channel :=
  ({ channel with
      pendingEvents := call.temp
      waiting := fun event => channel.waiting event ++ call.taken event }).setCall index
    { call with phase := .done, taken := fun _ => [] }

def Channel.operate (channel : Channel) (index : Nat) (call : Call) : Option Channel :=
  match call.phase with
  | .testOpened => some (channel.take index call .opened .testClosed)
  | .testClosed => some (channel.take index call .closed .testState)
  | .testState => some (channel.setCall index { call with
      phase := .copy
      temp := if channel.pendingEvents.stateSlaveOpened then
          { call.temp with stateSlaveOpened := true }
        else call.temp })
  | .writeBack => some (channel.writeBack index call)
  | .copy => none
  | .done => none

def Channel.putUser (channel : Channel) (index : Nat) (call : Call) (ret : Bool) : Channel :=
  if ret then channel.setCall index { call with phase := .writeBack }
  else
    ({ channel with
        reported := fun event => channel.reported event ++ call.taken event }).setCall index
      { call with phase := .done, taken := fun _ => [] }

def step (channel : Channel) : Step → Option Channel
  | .openDown => if channel.sem = none then some { channel with sem := some .openCheck } else none
  | .openCheck created allocated =>
      if channel.sem = some .openCheck then
        if !created then some { channel with sem := some (.up false) }
        else if channel.slaveOpenCount ≠ 0 then some { channel with sem := some (.up false) }
        else if !allocated then some { channel with sem := some (.up false) }
        else some { channel with sem := some .openCount }
      else none
  | .closeDown interrupted =>
      -- The file is gone in either case.
      if channel.files = 0 then none
      else if interrupted then some { channel with files := channel.files - 1 }
      else if channel.sem = none then
        some { channel with files := channel.files - 1, sem := some .closeCount }
      else none
  | .advance => channel.sem.bind channel.advance
  | .getEvents => some { channel with calls := channel.calls ++ [newCall] }
  | .operate index => channel.calls[index]?.bind (channel.operate index)
  | .putUser index ret =>
      channel.calls[index]?.bind fun call =>
        if call.phase = .copy then some (channel.putUser index call ret) else none

def fresh : Channel where
  pendingEvents := ⟨false, false, false⟩
  slaveOpenCount := 0
  files := 0
  sem := none
  calls := []
  issued _ := 0
  waiting _ := []
  reported _ := []

/-- An open or close is pending in its bit, in a call that has taken the bit and not
returned, or it has been reported. -/
def Accounted (channel : Channel) (event : Event) (number : Nat) : Prop :=
  number ∈ channel.waiting event ∧ event.test channel.pendingEvents = true ∨
    (∃ call ∈ channel.calls, number ∈ call.taken event ∧ event.test call.temp = true) ∨
    number ∈ channel.reported event

structure NothingLost (channel : Channel) : Prop where
  events : ∀ event number, number < channel.issued event → Accounted channel event number
  state : channel.sem = none →
    (channel.pendingEvents.stateSlaveOpened = true ↔ 0 < channel.slaveOpenCount)

def Holder.unsettled : Holder → Bool
  | .openCheck => false
  | .up _ => false
  | _ => true

/-- What the word must be when a failed ioctl writes it back: no event that the call has
not taken, and the state that it has seen, unless an open or close is about to set it. -/
def Restores (channel : Channel) (call : Call) : Prop :=
  (∀ event, Event.test event channel.pendingEvents = true → event.test call.temp = true) ∧
    (call.temp.stateSlaveOpened = channel.pendingEvents.stateSlaveOpened ∨
      channel.sem.any Holder.unsettled = true)

/-- No failed ioctl writes its copy over a newer open or close. -/
def Undisturbed (channel : Channel) : Step → Prop
  | .operate index =>
      ∀ call, channel.calls[index]? = some call → call.phase = .writeBack → Restores channel call
  | _ => True

@[simp] theorem test_assign (event other : Event) (bit : Bool) (word : PendingEvents) :
    event.test (other.assign bit word) = if event = other then bit else event.test word := by
  cases event <;> cases other <;> rfl

@[simp] theorem state_assign (event : Event) (bit : Bool) (word : PendingEvents) :
    (event.assign bit word).stateSlaveOpened = word.stateSlaveOpened := by
  cases event <;> rfl

theorem mem_set_or {α : Type} {list : List α} {index : Nat} {old member : α} (new : α)
    (found : list[index]? = some old) (inside : member ∈ list) :
    member = old ∨ member ∈ list.set index new := by
  obtain ⟨position, here⟩ := List.mem_iff_getElem?.mp inside
  by_cases same : index = position
  · subst same
    exact .inl (Option.some.inj (here.symm.trans found))
  · refine .inr (List.mem_iff_getElem?.mpr ⟨position, ?_⟩)
    rw [List.getElem?_set_ne same, here]

structure Recorded (channel : Channel) : Prop where
  waiting : ∀ event, channel.waiting event ≠ [] → event.test channel.pendingEvents = true
  taken : ∀ call ∈ channel.calls, ∀ event, call.taken event ≠ [] → event.test call.temp = true
  numbered : ∀ event number, number < channel.issued event →
    number ∈ channel.waiting event ∨ (∃ call ∈ channel.calls, number ∈ call.taken event) ∨
      number ∈ channel.reported event

section Recorded
variable {channel : Channel} (recorded : Recorded channel) {index : Nat} {call : Call}
  (found : channel.calls[index]? = some call)

include recorded in
theorem Recorded.accounted (event : Event) (number : Nat)
    (early : number < channel.issued event) : Accounted channel event number := by
  rcases recorded.numbered event number early with waits | ⟨call, member, taken⟩ | reported
  · exact .inl ⟨waits, recorded.waiting event (List.ne_nil_of_mem waits)⟩
  · exact .inr (.inl ⟨call, member, taken,
      recorded.taken call member event (List.ne_nil_of_mem taken)⟩)
  · exact .inr (.inr reported)

include recorded in
theorem Recorded.frame (count files : Nat) (sem : Option Holder) (state : Bool) :
    Recorded { channel with
      pendingEvents := { channel.pendingEvents with stateSlaveOpened := state }
      slaveOpenCount := count, files := files, sem := sem } := by
  refine ⟨?_, recorded.taken, recorded.numbered⟩
  intro event waits
  have bit := recorded.waiting event waits
  cases event <;> exact bit

include recorded in
theorem Recorded.raise (event : Event) : Recorded (channel.raise event) := by
  refine ⟨?_, recorded.taken, ?_⟩
  · intro other waits
    simp only [Channel.raise, test_assign]
    split
    · rfl
    · rename_i different
      simp only [Channel.raise, Function.update_of_ne different] at waits
      exact recorded.waiting other waits
  · intro other number early
    by_cases same : other = event
    · subst same
      simp only [Channel.raise, Function.update_self] at early ⊢
      -- The new number waits in the word, the earlier ones are where they were.
      rcases Nat.lt_succ_iff_lt_or_eq.mp early with before | rfl
      · rcases recorded.numbered other number before with waits | rest
        · exact .inl (List.mem_append_left _ waits)
        · exact .inr rest
      · exact .inl (by simp)
    · simp only [Channel.raise, Function.update_of_ne same] at early ⊢
      exact recorded.numbered other number early

include recorded found in
/-- One call moves numbers between the word, itself and the reports, and drops none. -/
theorem Recorded.move {next : Call} {word : PendingEvents} {waiting reported : Event → List Nat}
    (bits : ∀ event, waiting event ≠ [] → event.test word = true)
    (temp : ∀ event, next.taken event ≠ [] → event.test next.temp = true)
    (moved : ∀ event, ∀ number ∈ channel.waiting event ++ call.taken event,
      number ∈ waiting event ∨ number ∈ next.taken event ∨ number ∈ reported event)
    (told : ∀ event, ∀ number ∈ channel.reported event, number ∈ reported event) :
    Recorded { channel with
      pendingEvents := word, waiting := waiting, reported := reported
      calls := channel.calls.set index next } := by
  have here : next ∈ channel.calls.set index next :=
    List.mem_iff_getElem?.mpr
      ⟨index, List.getElem?_set_self (List.getElem?_eq_some_iff.mp found).1⟩
  have placed : ∀ event, ∀ number ∈ channel.waiting event ++ call.taken event,
      number ∈ waiting event ∨
        (∃ call ∈ channel.calls.set index next, number ∈ call.taken event) ∨
          number ∈ reported event := by
    intro event number member
    rcases moved event number member with waits | takes | reports
    · exact .inl waits
    · exact .inr (.inl ⟨next, here, takes⟩)
    · exact .inr (.inr reports)
  refine ⟨bits, ?_, ?_⟩
  · intro other member
    rcases List.mem_or_eq_of_mem_set member with before | rfl
    · exact recorded.taken other before
    · exact temp
  · intro event number early
    rcases recorded.numbered event number early with waits | ⟨other, member, takes⟩ | reports
    · exact placed event number (List.mem_append_left _ waits)
    · rcases mem_set_or next found member with rfl | still
      · exact placed event number (List.mem_append_right _ takes)
      · exact .inr (.inl ⟨other, still, takes⟩)
    · exact .inr (.inr (told event number reports))

include recorded found in
theorem Recorded.setCall {next : Call} (taken : next.taken = call.taken)
    (kept : ∀ event, Event.test event call.temp = true → event.test next.temp = true) :
    Recorded (channel.setCall index next) := by
  refine recorded.move found recorded.waiting ?_ ?_ fun _ _ reports => reports
  · intro event some
    rw [taken] at some
    exact kept event (recorded.taken call (List.mem_of_getElem? found) event some)
  · intro event number member
    rw [taken]
    rcases List.mem_append.mp member with waits | takes
    · exact .inl waits
    · exact .inr (.inl takes)

include recorded found in
theorem Recorded.take (event : Event) (next : Phase) :
    Recorded (channel.take index call event next) := by
  unfold Channel.take
  split
  · refine recorded.move found ?_ ?_ ?_ fun _ _ reports => reports
    · intro other waits
      dsimp only at waits ⊢
      by_cases same : other = event
      · rw [same, Function.update_self] at waits
        exact absurd rfl waits
      · rw [Function.update_of_ne same] at waits
        rw [test_assign, if_neg same]
        exact recorded.waiting other waits
    · intro other takes
      dsimp only at takes ⊢
      rw [test_assign]
      split
      · rfl
      · rename_i different
        rw [Function.update_of_ne different] at takes
        exact recorded.taken call (List.mem_of_getElem? found) other takes
    · intro other number member
      dsimp only
      by_cases same : other = event
      · subst same
        rw [Function.update_self, Function.update_self]
        exact .inr (.inl (List.mem_append.mpr (List.mem_append.mp member).symm))
      · rw [Function.update_of_ne same, Function.update_of_ne same]
        rcases List.mem_append.mp member with waits | takes
        · exact .inl waits
        · exact .inr (.inl takes)
  · exact recorded.setCall found rfl fun _ bit => bit

include recorded found in
theorem Recorded.writeBack
    (newest : ∀ event, Event.test event channel.pendingEvents = true → event.test call.temp = true) :
    Recorded (channel.writeBack index call) := by
  refine recorded.move found ?_ nofun ?_ fun _ _ reports => reports
  · intro event some
    dsimp only at some ⊢
    by_cases waits : channel.waiting event = []
    · rw [waits, List.nil_append] at some
      exact recorded.taken call (List.mem_of_getElem? found) event some
    · exact newest event (recorded.waiting event waits)
  · intro event number member
    exact .inl member

include recorded found in
theorem Recorded.putUser (ret : Bool) : Recorded (channel.putUser index call ret) := by
  unfold Channel.putUser
  split
  · exact recorded.setCall found rfl fun _ bit => bit
  · refine recorded.move found recorded.waiting nofun ?_ ?_
    · intro event number member
      rcases List.mem_append.mp member with waits | takes
      · exact .inl waits
      · exact .inr (.inr (List.mem_append_right _ takes))
    · intro event number reports
      exact List.mem_append_left _ reports

end Recorded

theorem Recorded.getEvents {channel : Channel} (recorded : Recorded channel) :
    Recorded { channel with calls := channel.calls ++ [newCall] } := by
  refine ⟨recorded.waiting, ?_, ?_⟩
  · intro call member event some
    rcases List.mem_append.mp member with before | new
    · exact recorded.taken call before event some
    · rw [List.mem_singleton] at new
      rw [new] at some
      exact absurd rfl some
  · intro event number early
    rcases recorded.numbered event number early with waits | ⟨call, member, takes⟩ | reports
    · exact .inl waits
    · exact .inr (.inl ⟨call, List.mem_append_left _ member, takes⟩)
    · exact .inr (.inr reports)

def Settled (sem : Option Holder) (slaveOpenCount : Nat) (state : Bool) : Prop :=
  match sem with
  | some .openCount => slaveOpenCount = 0
  | some .openEvent => slaveOpenCount = 1
  | some .openState => slaveOpenCount = 1
  | some .closeCount => slaveOpenCount ≤ 1
  | some .closeEvent => slaveOpenCount = 0
  | some .closeState => slaveOpenCount = 0
  | _ => slaveOpenCount ≤ 1 ∧ (state = true ↔ 0 < slaveOpenCount)

structure Consistent (channel : Channel) : Prop where
  recorded : Recorded channel
  settled : Settled channel.sem channel.slaveOpenCount channel.pendingEvents.stateSlaveOpened

theorem settled_unsettled {sem : Option Holder} {slaveOpenCount : Nat} {state : Bool}
    (settled : Settled sem slaveOpenCount state) (pending : sem.any Holder.unsettled = true)
    (other : Bool) : Settled sem slaveOpenCount other := by
  cases sem with
  | none => cases pending
  -- Before its own store to the bit a holder says nothing about it.
  | some holder => cases holder <;> first | exact settled | cases pending

section Step
variable {channel next : Channel} (consistent : Consistent channel)

include consistent in
theorem Consistent.advance {holder : Holder} (holds : channel.sem = some holder)
    (taken : channel.advance holder = some next) : Consistent next := by
  obtain ⟨recorded, settled⟩ := consistent
  rw [holds] at settled
  cases holder with
  | openCheck => cases taken
  | openCount =>
      cases taken
      refine ⟨recorded.frame _ _ _ _, ?_⟩
      change channel.slaveOpenCount + 1 = 1
      rw [show channel.slaveOpenCount = 0 from settled]
  | openEvent =>
      cases taken
      exact ⟨(recorded.raise .opened).frame _ _ _ _, settled⟩
  | openState =>
      cases taken
      refine ⟨recorded.frame _ _ _ true, ?_⟩
      have one : channel.slaveOpenCount = 1 := settled
      exact ⟨Nat.le_of_eq one, iff_of_true rfl (by rw [one]; decide)⟩
  | closeCount =>
      cases taken
      refine ⟨recorded.frame _ _ _ _, ?_⟩
      change (if channel.slaveOpenCount ≠ 0 then channel.slaveOpenCount - 1
        else channel.slaveOpenCount) = 0
      have few : channel.slaveOpenCount ≤ 1 := settled
      split
      · omega
      · omega
  | closeEvent =>
      cases taken
      exact ⟨(recorded.raise .closed).frame _ _ _ _, settled⟩
  | closeState =>
      cases taken
      refine ⟨recorded.frame _ _ _ false, ?_⟩
      have zero : channel.slaveOpenCount = 0 := settled
      exact ⟨by rw [zero]; decide, iff_of_false nofun (by rw [zero]; decide)⟩
  | up opened =>
      cases taken
      exact ⟨recorded.frame _ _ _ _, settled⟩

include consistent in
theorem Consistent.operate {index : Nat} {call : Call} (found : channel.calls[index]? = some call)
    (undisturbed : call.phase = .writeBack → Restores channel call)
    (taken : channel.operate index call = some next) : Consistent next := by
  obtain ⟨recorded, settled⟩ := consistent
  unfold Channel.operate at taken
  cases phase : call.phase with
  | testOpened =>
      rw [phase] at taken
      cases taken
      refine ⟨recorded.take found .opened .testClosed, ?_⟩
      unfold Channel.take
      split <;> exact settled
  | testClosed =>
      rw [phase] at taken
      cases taken
      refine ⟨recorded.take found .closed .testState, ?_⟩
      unfold Channel.take
      split <;> exact settled
  | testState =>
      rw [phase] at taken
      cases taken
      refine ⟨recorded.setCall found rfl fun event bit => ?_, settled⟩
      dsimp only
      split
      · cases event <;> exact bit
      · exact bit
  | copy =>
      rw [phase] at taken
      cases taken
  | writeBack =>
      rw [phase] at taken
      cases taken
      -- The store of the whole word: here alone the condition on the run is needed.
      obtain ⟨events, state⟩ := undisturbed phase
      refine ⟨recorded.writeBack found events, ?_⟩
      change Settled channel.sem channel.slaveOpenCount call.temp.stateSlaveOpened
      rcases state with same | pending
      · rwa [same]
      · exact settled_unsettled settled pending _
  | done =>
      rw [phase] at taken
      cases taken

include consistent in
theorem step_consistent (action : Step) (undisturbed : Undisturbed channel action)
    (taken : step channel action = some next) : Consistent next := by
  cases action with
  | openDown =>
      obtain ⟨recorded, settled⟩ := consistent
      rw [step] at taken
      split at taken
      · rename_i free
        cases taken
        rw [free] at settled
        exact ⟨recorded.frame _ _ _ _, settled⟩
      · cases taken
  | openCheck created allocated =>
      obtain ⟨recorded, settled⟩ := consistent
      rw [step] at taken
      split at taken
      · rename_i holds
        rw [holds] at settled
        split at taken
        · cases taken
          exact ⟨recorded.frame _ _ _ _, settled⟩
        · split at taken
          · cases taken
            exact ⟨recorded.frame _ _ _ _, settled⟩
          · rename_i unused
            split at taken
            · cases taken
              exact ⟨recorded.frame _ _ _ _, settled⟩
            · cases taken
              exact ⟨recorded.frame _ _ _ _, not_not.mp unused⟩
      · cases taken
  | closeDown interrupted =>
      obtain ⟨recorded, settled⟩ := consistent
      rw [step] at taken
      split at taken
      · cases taken
      · split at taken
        · cases taken
          exact ⟨recorded.frame _ _ _ _, settled⟩
        · split at taken
          · rename_i free
            cases taken
            rw [free] at settled
            exact ⟨recorded.frame _ _ _ _, settled.1⟩
          · cases taken
  | advance =>
      obtain ⟨holder, holds, taken⟩ := Option.bind_eq_some_iff.mp taken
      exact consistent.advance holds taken
  | getEvents =>
      cases taken
      exact ⟨consistent.recorded.getEvents, consistent.settled⟩
  | operate index =>
      obtain ⟨call, found, taken⟩ := Option.bind_eq_some_iff.mp taken
      exact consistent.operate found (undisturbed call found) taken
  | putUser index ret =>
      obtain ⟨call, found, taken⟩ := Option.bind_eq_some_iff.mp taken
      split at taken
      · cases taken
        refine ⟨consistent.recorded.putUser found ret, ?_⟩
        unfold Channel.putUser
        split <;> exact consistent.settled
      · cases taken

end Step

theorem fresh_consistent : Consistent fresh :=
  ⟨⟨nofun, nofun, nofun⟩, Nat.zero_le 1, by decide⟩

/-- In every run without such a write-back no open or close gets lost, and between two
of them the state bit says whether the slave is open. -/
theorem slave_events_kept {channel : Channel}
    (reached : Reachable step Undisturbed (· = fresh) channel) : NothingLost channel := by
  have consistent : Consistent channel := by
    refine reached.invariant ?_ ?_
    · rintro _ rfl
      exact fresh_consistent
    · intro before action after holds allowed taken
      exact step_consistent holds action allowed taken
  refine ⟨consistent.recorded.accounted, fun idle => ?_⟩
  have settled := consistent.settled
  rw [idle] at settled
  exact settled.2

def restoresGuard (channel : Channel) (call : Call) : Bool :=
  (!channel.pendingEvents.slaveOpened || call.temp.slaveOpened) &&
    (!channel.pendingEvents.slaveClosed || call.temp.slaveClosed) &&
      (call.temp.stateSlaveOpened == channel.pendingEvents.stateSlaveOpened ||
        channel.sem.any Holder.unsettled)

def undisturbedGuard (channel : Channel) : Step → Bool
  | .operate index =>
      channel.calls[index]?.all fun call => call.phase ≠ .writeBack || restoresGuard channel call
  | _ => true

theorem undisturbedGuard_sound (channel : Channel) (action : Step)
    (passed : undisturbedGuard channel action = true) : Undisturbed channel action := by
  cases action with
  | operate index =>
      intro call found phase
      rw [undisturbedGuard, found] at passed
      simp only [Option.all_some, phase, ne_eq, not_true_eq_false, decide_false, Bool.false_or,
        restoresGuard, Bool.and_eq_true, Bool.or_eq_true, Bool.not_eq_true', beq_iff_eq] at passed
      obtain ⟨⟨opened, closed⟩, state⟩ := passed
      refine ⟨?_, state⟩
      intro event bit
      cases event with
      | opened => exact opened.resolve_left fun clear => Bool.false_ne_true (clear.symm.trans bit)
      | closed => exact closed.resolve_left fun clear => Bool.false_ne_true (clear.symm.trans bit)
  | openDown | openCheck | closeDown | advance | getEvents | putUser => trivial

def openRun : List Step :=
  [.openDown, .openCheck true true, .advance, .advance, .advance, .advance]

def closeRun : List Step := [.closeDown false, .advance, .advance, .advance, .advance]

section Alone
variable {channel : Channel} {loop : Eq3Loop.Channel} (free : channel.sem = none)
  (word : loop.pendingEvents = channel.pendingEvents)
  (count : loop.slaveOpenCount = channel.slaveOpenCount)

include free word count in
/-- With no operation of another call between them the steps of an open are
`eq3loop_open_slave` as a whole. -/
theorem open_alone (created : loop.created = true) (unused : loop.slaveOpenCount = 0) :
    ∃ final, runAll step channel openRun = some final ∧
      final.pendingEvents = (openSlave loop false true).1.pendingEvents ∧
      final.slaveOpenCount = (openSlave loop false true).1.slaveOpenCount := by
  have zero : channel.slaveOpenCount = 0 := count.symm.trans unused
  refine ⟨_, by simp [openRun, step, free, zero, Channel.advance]; rfl, ?_, ?_⟩
  · simp [openSlave, created, unused, word, Channel.raise, Event.assign]
  · simp [openSlave, created, unused, Channel.raise]

include free word count in
theorem close_alone (file : channel.files ≠ 0) :
    ∃ final, runAll step channel closeRun = some final ∧
      final.pendingEvents = (closeSlave loop false).1.pendingEvents ∧
      final.slaveOpenCount = (closeSlave loop false).1.slaveOpenCount := by
  refine ⟨_, by simp [closeRun, step, free, file, Channel.advance]; rfl, ?_, ?_⟩
  · simp [closeSlave, word, Channel.raise, Event.assign]
  · by_cases zero : channel.slaveOpenCount = 0
    · simp [closeSlave, count, Channel.raise, zero]
    · simp [closeSlave, count, Channel.raise, zero]

end Alone

def collectRun : List Step := [.getEvents, .operate 0, .operate 0, .operate 0]

/-- The copy fails, and a second ioctl reports the open that the first has restored. -/
theorem slave_events_kept_restored : ∃ channel,
    runAll step fresh (openRun ++ collectRun ++ [.putUser 0 true, .operate 0, .getEvents,
      .operate 1, .operate 1, .operate 1, .putUser 1 false]) = some channel ∧
      channel.reported .opened = [0] ∧ NothingLost channel := by
  refine ⟨_, rfl, rfl, ?_⟩
  exact slave_events_kept (run_reachable undisturbedGuard_sound (openRun ++ collectRun ++
    [.putUser 0 true, .operate 0, .getEvents, .operate 1, .operate 1, .operate 1,
      .putUser 1 false]) (.start rfl) rfl)

/-- The slave closes between the bit tests of an ioctl and the write-back of its failed
copy: the close is in no bit any more, and the state bit says that the slave is open. -/
theorem close_lost_in_write_back : ∃ channel,
    runAll step fresh (openRun ++ collectRun ++ closeRun ++ [.putUser 0 true, .operate 0]) =
      some channel ∧
      channel.issued .closed = 1 ∧ ¬ Accounted channel .closed 0 ∧
      channel.sem = none ∧ channel.pendingEvents = ⟨true, false, true⟩ ∧
      channel.slaveOpenCount = 0 ∧ ¬ NothingLost channel := by
  refine ⟨_, rfl, rfl, ?_, rfl, rfl, rfl, ?_⟩
  · rintro (⟨-, bit⟩ | ⟨call, member, taken, -⟩ | told)
    · cases bit
    · rw [List.mem_singleton.mp member] at taken
      cases taken
    · cases told
  · intro kept
    have state := (kept.state rfl).mp rfl
    exact absurd state (Nat.lt_irrefl 0)

end PiVccu.Eq3LoopEvents
