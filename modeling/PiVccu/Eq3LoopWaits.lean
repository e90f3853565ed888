import PiVccu.Eq3Loop
import PiVccu.WaitLoop

/-!
The four blocking calls of `kernel/eq3_char_loop.c` with their loops, while no
other thread changes the channel: whether a call returns or falls asleep, or goes
round and round. The semaphore is free then, so `down_interruptible` takes it in
every round, and a `wait_event_interruptible` whose condition is met returns
without a look at the signals.
-/

namespace PiVccu.Eq3LoopWaits
open ByteBuffer CircBuf Eq3Loop

def readSlaveLoop : WaitLoop Channel where
  guard := fun channel => channel.created &&
    circCnt channel.master2slave.head channel.master2slave.tail bufsize == 0
  condition := fun channel => !channel.created ||
    circCnt channel.master2slave.head channel.master2slave.tail bufsize != 0

def readMasterLoop : WaitLoop Channel where
  guard := fun channel => channel.slaveOpenCount != 0 &&
    circCnt channel.slave2master.head channel.slave2master.tail bufsize == 0
  condition := fun channel => channel.slaveOpenCount == 0 ||
    circCnt channel.slave2master.head channel.slave2master.tail bufsize != 0

def writeSlaveLoop : WaitLoop Channel where
  guard := fun channel =>
    circSpace channel.slave2master.head channel.slave2master.tail bufsize == 0
  condition := fun channel => !channel.created ||
    circSpace channel.slave2master.head channel.slave2master.tail bufsize != 0

def writeMasterLoop : WaitLoop Channel where
  guard := fun channel =>
    circSpace channel.master2slave.head channel.master2slave.tail bufsize == 0
  condition := fun channel => channel.slaveOpenCount == 0 ||
    circSpace channel.master2slave.head channel.master2slave.tail bufsize != 0

/-- A channel and a reply behind a call; the inner `none` is an access outside of
a ring. -/
abbrev Outcome := Option (Channel × Reply)

/-- The loop of a call with what a nonblocking file and a sleep lead to. -/
def await (loop : WaitLoop Channel) (channel : Channel) (wait : Wait) (behind : Channel → Outcome)
    (rounds : Nat) : Option Outcome :=
  loop.run (if wait.nonblock then some (some (channel, .returned (-eagain) [])) else none)
    (if wait.sleepInterrupted then some (channel, .returned (-erestartsys) [])
      else some (channel, .asleep))
    behind channel rounds

def attempt (channel : Channel) (rounds : Nat) : Operation → Option Outcome
  | .readSlave wait count firstFaults secondFaults =>
      if wait.lockInterrupted then some (some (channel, .returned (-erestartsys) []))
      else if !channel.created then some (some (channel, .returned (-enodev) []))
      else
        await readSlaveLoop channel wait (fun channel =>
          if !channel.created then some (channel, .returned (-enodev) [])
          else
            (readRing channel.master2slave count firstFaults secondFaults).map fun result =>
              ({ channel with master2slave := result.1 }, .returned result.2.1 result.2.2)) rounds
  | .readMaster wait count firstFaults secondFaults =>
      if wait.lockInterrupted then some (some (channel, .returned (-erestartsys) []))
      else
        await readMasterLoop channel wait (fun channel =>
          if channel.slaveOpenCount ≠ 0 then
            (readRing channel.slave2master count firstFaults secondFaults).map fun result =>
              ({ channel with slave2master := result.1 }, .returned result.2.1 result.2.2)
          else some (channel, .returned 0 [])) rounds
  | .writeSlave wait buffer firstFault secondFault =>
      if wait.lockInterrupted then some (some (channel, .returned (-erestartsys) []))
      else
        await writeSlaveLoop channel wait (fun channel =>
          if !channel.created then some (channel, .returned (-enodev) [])
          else
            (writeRing channel.slave2master buffer firstFault secondFault).map fun result =>
              ({ channel with slave2master := result.1 }, .returned result.2 [])) rounds
  | .writeMaster wait buffer firstFault secondFault =>
      if wait.lockInterrupted then some (some (channel, .returned (-erestartsys) []))
      else
        -- Unlike in the other calls, nothing is tested behind the loop.
        await writeMasterLoop channel wait (fun channel =>
          (writeRing channel.master2slave buffer firstFault secondFault).map fun result =>
            ({ channel with master2slave := result.1 }, .returned result.2 [])) rounds
  | .openSlave lockInterrupted allocated =>
      some (some (openSlave channel lockInterrupted allocated))
  | .closeSlave lockInterrupted => some (some (closeSlave channel lockInterrupted))

def Ends (channel : Channel) (operation : Operation) : Prop :=
  ∃ rounds outcome, attempt channel rounds operation = some outcome

theorem await_outcome {loop : WaitLoop Channel} {channel : Channel} {wait : Wait}
    {behind : Channel → Outcome} {rounds : Nat} {outcome : Outcome}
    (left : await loop channel wait behind rounds = some outcome) :
    outcome = if loop.guard channel then some (sleep channel wait) else behind channel := by
  rw [WaitLoop.run_result left, sleep]
  split
  · split
    · rfl
    · split <;> rfl
  · rfl

theorem await_ends_iff (loop : WaitLoop Channel) (channel : Channel) {wait : Wait}
    (blocking : wait.nonblock = false) (behind : Channel → Outcome) :
    (∃ rounds outcome, await loop channel wait behind rounds = some outcome) ↔
      (loop.condition channel = true → loop.guard channel = false) := by
  simp only [await, WaitLoop.run_ends_iff, blocking, Bool.false_eq_true, ↓reduceIte, forall_const]

/-- A call that is left does what the call is modelled to do in one attempt. -/
theorem attempt_performs {channel : Channel} {rounds : Nat} {operation : Operation}
    {outcome : Outcome} (left : attempt channel rounds operation = some outcome) :
    outcome = perform channel operation := by
  cases operation with
  | readSlave wait count firstFaults secondFaults =>
      rw [attempt] at left
      rw [perform, readSlave]
      -- What is tested before the loop ends the call with the same value in both.
      split at left
      · cases left
        rw [if_pos ‹_›]
      · split at left
        · cases left
          rw [if_neg ‹_›, if_pos ‹_›]
        · rename_i locked present
          have created : channel.created = true := by simpa using present
          rw [await_outcome left, if_neg locked, if_neg present]
          simp [readSlaveLoop, created]
  | readMaster wait count firstFaults secondFaults =>
      rw [attempt] at left
      rw [perform, readMaster]
      split at left
      · cases left
        rw [if_pos ‹_›]
      · rename_i locked
        rw [await_outcome left, if_neg locked]
        by_cases unused : channel.slaveOpenCount = 0
        · simp [readMasterLoop, unused]
        · simp [readMasterLoop, unused]
  | writeSlave wait buffer firstFault secondFault =>
      rw [attempt] at left
      rw [perform, writeSlave]
      split at left
      · cases left
        rw [if_pos ‹_›]
      · rename_i locked
        rw [await_outcome left, if_neg locked]
        simp [writeSlaveLoop]
  | writeMaster wait buffer firstFault secondFault =>
      rw [attempt] at left
      rw [perform, writeMaster]
      split at left
      · cases left
        rw [if_pos ‹_›]
      · rename_i locked
        rw [await_outcome left, if_neg locked]
        simp [writeMasterLoop]
  | openSlave lockInterrupted allocated =>
      cases left
      rfl
  | closeSlave lockInterrupted =>
      cases left
      rfl

inductive Call where
  | readSlave
  | readMaster
  | writeSlave
  | writeMaster

def loopOf : Call → WaitLoop Channel
  | .readSlave => readSlaveLoop
  | .readMaster => readMasterLoop
  | .writeSlave => writeSlaveLoop
  | .writeMaster => writeMasterLoop

def blocking : Operation → Option Call
  | .readSlave wait _ _ _ => if wait.lockInterrupted || wait.nonblock then none else some .readSlave
  | .readMaster wait _ _ _ =>
      if wait.lockInterrupted || wait.nonblock then none else some .readMaster
  | .writeSlave wait _ _ _ =>
      if wait.lockInterrupted || wait.nonblock then none else some .writeSlave
  | .writeMaster wait _ _ _ =>
      if wait.lockInterrupted || wait.nonblock then none else some .writeMaster
  | .openSlave _ _ => none
  | .closeSlave _ => none

def Served (channel : Channel) : Call → Prop
  | .readSlave => True
  | .readMaster => True
  | .writeSlave => circSpace channel.slave2master.head channel.slave2master.tail bufsize ≠ 0 ∨
      channel.created = true
  | .writeMaster => circSpace channel.master2slave.head channel.master2slave.tail bufsize ≠ 0 ∨
      channel.slaveOpenCount ≠ 0

/-- The guards of the readers name the other end, those of the writers do not. -/
theorem condition_stops_guard_iff (channel : Channel) (call : Call) :
    ((loopOf call).condition channel = true → (loopOf call).guard channel = false) ↔
      Served channel call := by
  cases call with
  | readSlave =>
      simp only [loopOf, readSlaveLoop, Served, iff_true]
      cases channel.created <;> simp
  | readMaster =>
      simp only [loopOf, readMasterLoop, Served, iff_true]
      cases channel.slaveOpenCount <;> simp
  | writeSlave =>
      simp only [loopOf, writeSlaveLoop, Served]
      cases channel.created <;> simp
  | writeMaster =>
      simp only [loopOf, writeMasterLoop, Served]
      cases channel.slaveOpenCount <;> simp

theorem blocking_flags {wait : Wait} {kind call : Call}
    (blocks : (if wait.lockInterrupted || wait.nonblock then none else some kind) = some call) :
    wait.lockInterrupted = false ∧ wait.nonblock = false ∧ kind = call := by
  split at blocks
  · cases blocks
  · rename_i waits
    simp only [Bool.or_eq_true, not_or, Bool.not_eq_true] at waits
    exact ⟨waits.1, waits.2, Option.some.inj blocks⟩

theorem ends_iff_condition (channel : Channel) {operation : Operation} {call : Call}
    (blocks : blocking operation = some call) : Ends channel operation ↔
      ((loopOf call).condition channel = true → (loopOf call).guard channel = false) := by
  cases operation with
  | readSlave wait count firstFaults secondFaults =>
      obtain ⟨locked, waits, rfl⟩ := blocking_flags blocks
      simp only [Ends, attempt, locked, Bool.false_eq_true, ↓reduceIte]
      cases created : channel.created with
      | false =>
          -- `-ENODEV` before the loop, whose guard would not hold either
          refine iff_of_true ⟨0, _, rfl⟩ ?_
          simp [loopOf, readSlaveLoop, created]
      | true => exact await_ends_iff readSlaveLoop channel waits _
  | readMaster wait count firstFaults secondFaults =>
      obtain ⟨locked, waits, rfl⟩ := blocking_flags blocks
      simp only [Ends, attempt, locked, Bool.false_eq_true, ↓reduceIte]
      exact await_ends_iff readMasterLoop channel waits _
  | writeSlave wait buffer firstFault secondFault =>
      obtain ⟨locked, waits, rfl⟩ := blocking_flags blocks
      simp only [Ends, attempt, locked, Bool.false_eq_true, ↓reduceIte]
      exact await_ends_iff writeSlaveLoop channel waits _
  | writeMaster wait buffer firstFault secondFault =>
      obtain ⟨locked, waits, rfl⟩ := blocking_flags blocks
      simp only [Ends, attempt, locked, Bool.false_eq_true, ↓reduceIte]
      exact await_ends_iff writeMasterLoop channel waits _
  | openSlave lockInterrupted allocated => cases blocks
  | closeSlave lockInterrupted => cases blocks

/-- A blocking call returns or sleeps, and its wait condition stops its guard,
exactly if it is a read or a write that is served. -/
theorem blocking_call_ends_iff (channel : Channel) (operation : Operation) (call : Call)
    (blocks : blocking operation = some call) :
    (Ends channel operation ∧
      ((loopOf call).condition channel = true → (loopOf call).guard channel = false)) ↔
        Served channel call := by
  rw [ends_iff_condition channel blocks, and_self_iff, condition_stops_guard_iff]

def patient : Wait := { lockInterrupted := false, nonblock := false, sleepInterrupted := false }

/-- A slave with a full ring sleeps until the master reads. -/
theorem blocking_call_ends_iff_full_ring :
    blocking (.writeSlave patient [0x41] none none) = some .writeSlave ∧
      Ends { createdChannel with
        slave2master := { createdChannel.slave2master with head := 1023 } }
        (.writeSlave patient [0x41] none none) := by
  refine ⟨rfl, ?_⟩
  exact ((blocking_call_ends_iff _ _ .writeSlave rfl).mpr (Or.inr rfl)).1

theorem writeRing_fills (octet : UInt8) :
    writeRing ⟨List.replicate bufsize 0, 0, 0⟩ (List.replicate 1023 octet) none none =
      some (⟨List.replicate 1023 octet ++ [0], 1023, 0⟩, 1023) := by
  have space : circSpace 0 0 bufsize = 1023 := by decide
  have toEnd : circSpaceToEnd 0 0 bufsize = 1023 := by decide
  have first : memcpy (List.replicate bufsize 0) 0 (List.replicate 1023 octet) =
      some (List.replicate 1023 octet ++ [0]) := by
    have fits : (List.replicate 1023 octet).length ≤ (List.replicate bufsize (0 : UInt8)).length := by
      rw [List.length_replicate, List.length_replicate]
      decide
    rw [memcpy_front fits, List.length_replicate, List.drop_replicate]
    rfl
  have nothing : ∀ (memory : List UInt8) (target : Nat), target ≤ memory.length →
      memcpy memory target [] = some memory := by
    intro memory target inside
    simp [memcpy, inside]
  have second : memcpy (List.replicate 1023 octet ++ [0]) 1023 [] =
      some (List.replicate 1023 octet ++ [0]) := by
    apply nothing
    rw [List.length_append, List.length_replicate]
    decide
  simp only [writeRing, List.length_replicate, space, toEnd, Nat.lt_irrefl, ↓reduceIte,
    Nat.min_self, List.take_replicate, List.drop_replicate, Nat.sub_self, List.replicate_zero,
    first, Nat.zero_add, Option.bind_eq_bind, Option.bind_some, Nat.add_zero]
  rw [show 1023 % bufsize = 1023 from rfl, second]
  rfl

/-- The master fills its ring, the slave closes, the master writes on. -/
theorem write_master_spins : ∃ opened filled closed,
    perform createdChannel (.openSlave false true) = some (opened, .returned 0 []) ∧
    perform opened (.writeMaster patient (List.replicate 1023 0x41) none none) =
      some (filled, .returned 1023 []) ∧
    perform filled (.closeSlave false) = some (closed, .returned 0 []) ∧
    blocking (.writeMaster patient [0x42] none none) = some .writeMaster ∧
    ¬ Ends closed (.writeMaster patient [0x42] none none) := by
  refine ⟨(openSlave createdChannel false true).1,
    { (openSlave createdChannel false true).1 with
      master2slave := ⟨List.replicate 1023 0x41 ++ [0], 1023, 0⟩ }, _, rfl, ?_, rfl, rfl, ?_⟩
  · have room : circSpace 0 0 bufsize ≠ 0 := by decide
    simp only [perform, writeMaster, patient, openSlave, createdChannel, Bool.false_eq_true,
      ↓reduceIte, Bool.not_true, ne_eq, not_true_eq_false, room, writeRing_fills, Option.map_some]
  · rw [ends_iff_condition _ (show blocking _ = some .writeMaster from rfl),
      condition_stops_guard_iff]
    rintro (room | used)
    · exact room rfl
    · exact used rfl

end PiVccu.Eq3LoopWaits
