import Mathlib.Logic.Function.Basic
import PiVccu.Transition

/-!
The transmit side of `kernel/generic_raw_uart.c` as a transition system: any
number of connections, the phases of their `generic_raw_uart_write` calls, the
ioctl that sets a priority, open and close, and the driver's callback. The
driver is a parameter with a state of its own, which the hardware may change at
any time, so every pattern of `isready_for_tx` answers occurs.

Atomic are the sections under `lock_tx`, the single stores of a writer and what
it does between two of them. `conn->sem` is held exactly in the phases other than
`idle`; it belongs to one writer from its `down` to its `up`.
-/

namespace PiVccu.RawUartTx

def erestartsys : Int := 512
def emsgsize : Int := 90
def efault : Int := 14
def conDataTxBufSize : Nat := 4096

/-- `struct raw_uart_driver` as far as transmission uses it. -/
structure RawUartDriver (Hardware : Type) where
  initTx : Hardware → Hardware
  isreadyForTx : Hardware → Bool
  txChars : Hardware → List UInt8 → Hardware
  stopTx : Hardware → Hardware
  txChunkSize : Nat
  txBulktransferSize : Nat
  chunk_pos : 0 < txChunkSize
  bulk_pos : 0 < txBulktransferSize

structure Write (Conn : Type) where
  id : Nat
  conn : Conn
  buffer : List UInt8
deriving DecidableEq

/-- Where the writer of a connection stands. `acquiring` and `sending` are the
two waits, `interrupted` is the second wait left on a signal and `failed` the
exit of a call that never acquired the sender. -/
inductive Phase (Conn : Type) where
  | idle
  | entered (write : Write Conn)
  | copied (write : Write Conn)
  | indexed (write : Write Conn)
  | acquiring (write : Write Conn)
  | sending (write : Write Conn)
  | interrupted (write : Write Conn)
  | completed (write : Write Conn)
  | failed (write : Write Conn) (error : Int)
deriving DecidableEq

def Phase.write? {Conn : Type} : Phase Conn → Option (Write Conn)
  | .idle => none
  | .entered write | .copied write | .indexed write | .acquiring write | .sending write
  | .interrupted write | .completed write | .failed write _ => some write

/-- `struct per_connection_data` with the state of its file and writer. `source`
is the call whose bytes `txbuf` was last filled with. -/
structure Connection (Conn : Type) where
  txbuf : List UInt8
  txBufLength : Nat
  txBufIndex : Nat
  priority : Nat
  opened : Bool
  phase : Phase Conn
  source : Option (Write Conn)
deriving DecidableEq

/-- What can be observed: acquisitions, the calls of `driver->tx_chars` and the
return values of the writes. -/
inductive Event (Conn : Type) where
  | acquired (write : Write Conn) (priority : Nat)
  | txChars (source : Option (Write Conn)) (octets : List UInt8)
  | returned (write : Write Conn) (ret : Int)
deriving DecidableEq

/-- A connection is `none` while it is not allocated. `useAfterFree` records
that `tx_connection` was dereferenced after its connection was freed. -/
structure Instance (Conn Hardware : Type) where
  txConnection : Option Conn
  conns : Conn → Option (Connection Conn)
  hardware : Hardware
  trace : List (Event Conn)
  nextId : Nat
  useAfterFree : Bool

variable {Conn Hardware : Type} [DecidableEq Conn]

def Instance.setConn (inst : Instance Conn Hardware) (c : Conn) (conn : Option (Connection Conn)) :
    Instance Conn Hardware :=
  { inst with conns := Function.update inst.conns c conn }

/-- The loop of `generic_raw_uart_tx_queued_unlocked` on the sending connection:
hardware, index and the arguments of the `tx_chars` calls. Every iteration sends
at least one byte, so the bytes left bound the iterations. -/
def txLoop (driver : RawUartDriver Hardware) (txbuf : List UInt8) (length : Nat) :
    Nat → Nat → Hardware → Nat → Hardware × Nat × List (List UInt8)
  | 0, _, hardware, index => (hardware, index, [])
  | fuel + 1, txCount, hardware, index =>
      if txCount < driver.txChunkSize ∧ driver.isreadyForTx hardware = true ∧ index < length then
        let bulksize := min driver.txBulktransferSize (length - index)
        let octets := (txbuf.drop index).take bulksize
        let rest := txLoop driver txbuf length fuel (txCount + bulksize)
          (driver.txChars hardware octets) (index + bulksize)
        (rest.1, rest.2.1, octets :: rest.2.2)
      else (hardware, index, [])

def txQueuedUnlocked (driver : RawUartDriver Hardware) (inst : Instance Conn Hardware) :
    Instance Conn Hardware :=
  match inst.txConnection with
  | none => inst
  | some c =>
      match inst.conns c with
      | none => { inst with useAfterFree := true }
      | some conn =>
          let sent := txLoop driver conn.txbuf conn.txBufLength (conn.txBufLength - conn.txBufIndex)
            0 inst.hardware conn.txBufIndex
          let after := { inst.setConn c (some { conn with txBufIndex := sent.2.1 }) with
            hardware := sent.1
            trace := inst.trace ++ sent.2.2.map (.txChars conn.source) }
          if sent.2.1 ≥ conn.txBufLength then
            { after with hardware := driver.stopTx sent.1, txConnection := none }
          else after

def takeSender (inst : Instance Conn Hardware) (c : Conn) (conn : Connection Conn)
    (write : Write Conn) : Instance Conn Hardware :=
  { inst.setConn c (some { conn with phase := .sending write }) with
    txConnection := some c
    trace := inst.trace ++ [.acquired write conn.priority] }

def acquireSender (driver : RawUartDriver Hardware) (inst : Instance Conn Hardware) (c : Conn)
    (conn : Connection Conn) (write : Write Conn) : Instance Conn Hardware :=
  match inst.txConnection with
  | none =>
      let taken := takeSender inst c conn write
      txQueuedUnlocked driver { taken with hardware := driver.initTx taken.hardware }
  | some other =>
      match inst.conns other with
      | none => { inst with useAfterFree := true }
      | some owner =>
          if owner.priority < conn.priority then takeSender inst c conn write else inst

inductive TxAction (Conn Hardware : Type) where
  | openFile (c : Conn)
  | closeFile (c : Conn) (signal : Bool)
  | ioctl (c : Conn) (priority : Option Nat)
  | enter (c : Conn) (buffer : List UInt8)
  | refuse (c : Conn) (buffer : List UInt8)
  | copy (c : Conn) (fault : Option (List UInt8))
  | setIndex (c : Conn)
  | setLength (c : Conn)
  | acquire (c : Conn)
  | interruptAcquire (c : Conn)
  | complete (c : Conn)
  | interruptComplete (c : Conn)
  | leave (c : Conn)
  | txQueued
  | environment (hardware : Hardware)

def freshConnection : Connection Conn where
  txbuf := List.replicate conDataTxBufSize 0
  txBufLength := 0
  txBufIndex := 0
  priority := 0
  opened := true
  phase := .idle
  source := none

/-- The size check and `copy_from_user`. A fault comes with what it leaves in the
part of `txbuf` it was to fill. -/
def copyFromUser (conn : Connection Conn) (write : Write Conn) (fault : Option (List UInt8)) :
    Connection Conn :=
  if write.buffer.length > conDataTxBufSize then { conn with phase := .failed write (-emsgsize) }
  else
    match fault with
    | some left =>
        { conn with
          txbuf := left.take write.buffer.length ++
            conn.txbuf.drop (left.take write.buffer.length).length
          phase := .failed write (-efault) }
    | none =>
        { conn with
          txbuf := write.buffer ++ conn.txbuf.drop write.buffer.length
          phase := .copied write
          source := some write }

/-- What the thread of a connection does next, on its own connection and on the
trace. `none` is a step that is not possible in this phase. -/
def localStep (inst : Instance Conn Hardware) (conn : Connection Conn) :
    TxAction Conn Hardware → Option (Connection Conn × List (Event Conn))
  | .ioctl _ priority =>
      match conn.phase with
      | .idle =>
          if conn.opened then some ({ conn with priority := priority.getD conn.priority }, [])
          else none
      | _ => none
  | .copy _ fault =>
      match conn.phase with
      | .entered write => some (copyFromUser conn write fault, [])
      | _ => none
  | .setIndex _ =>
      match conn.phase with
      | .copied write => some ({ conn with txBufIndex := 0, phase := .indexed write }, [])
      | _ => none
  | .setLength _ =>
      match conn.phase with
      | .indexed write =>
          some ({ conn with txBufLength := write.buffer.length, phase := .acquiring write }, [])
      | _ => none
  | .interruptAcquire _ =>
      match conn.phase with
      | .acquiring write => some ({ conn with phase := .failed write (-erestartsys) }, [])
      | _ => none
  | .complete c =>
      match conn.phase with
      | .sending write =>
          if inst.txConnection ≠ some c then some ({ conn with phase := .completed write }, [])
          else some (conn, [])
      | _ => none
  | .interruptComplete c =>
      match conn.phase with
      | .sending write =>
          if inst.txConnection = some c then some ({ conn with phase := .interrupted write }, [])
          else none
      | _ => none
  | .leave _ =>
      match conn.phase with
      | .failed write error => some ({ conn with phase := .idle }, [.returned write error])
      | .interrupted write => some ({ conn with phase := .idle }, [.returned write (-erestartsys)])
      | .completed write =>
          some ({ conn with phase := .idle }, [.returned write conn.txBufIndex])
      | _ => none
  | _ => none

def TxAction.localConn? : TxAction Conn Hardware → Option Conn
  | .ioctl c _ | .copy c _ | .setIndex c | .setLength c | .interruptAcquire c | .complete c
  | .interruptComplete c | .leave c => some c
  | _ => none

def stepOn (driver : RawUartDriver Hardware) (inst : Instance Conn Hardware) (c : Conn)
    (conn : Connection Conn) (action : TxAction Conn Hardware) : Option (Instance Conn Hardware) :=
  match action with
  | .closeFile _ signal =>
      match conn.phase with
      | .idle =>
          if conn.opened then
            some (inst.setConn c (if signal then some { conn with opened := false } else none))
          else none
      | _ => none
  | .enter _ buffer =>
      match conn.phase with
      | .idle =>
          if conn.opened then
            some { inst.setConn c (some { conn with phase := .entered ⟨inst.nextId, c, buffer⟩ }) with
              nextId := inst.nextId + 1 }
          else none
      | _ => none
  | .refuse _ buffer =>
      if conn.opened then
        some { inst with
          trace := inst.trace ++ [.returned ⟨inst.nextId, c, buffer⟩ (-erestartsys)]
          nextId := inst.nextId + 1 }
      else none
  | .acquire _ =>
      match conn.phase with
      | .acquiring write => some (acquireSender driver inst c conn write)
      | _ => none
  | action =>
      (localStep inst conn action).map fun result =>
        { inst.setConn c (some result.1) with trace := inst.trace ++ result.2 }

def TxAction.conn? : TxAction Conn Hardware → Option Conn
  | .closeFile c _ | .enter c _ | .refuse c _ | .acquire c => some c
  | action => action.localConn?

def step (driver : RawUartDriver Hardware) (inst : Instance Conn Hardware)
    (action : TxAction Conn Hardware) : Option (Instance Conn Hardware) :=
  match action with
  | .openFile c =>
      match inst.conns c with
      | none => some (inst.setConn c (some freshConnection))
      | some _ => none
  | .txQueued => some (txQueuedUnlocked driver inst)
  | .environment hardware => some { inst with hardware := hardware }
  | action =>
      match action.conn? with
      | none => none
      | some c => (inst.conns c).bind fun conn => stepOn driver inst c conn action

inductive LocalEffect (inst : Instance Conn Hardware) (c : Conn) (conn : Connection Conn) :
    TxAction Conn Hardware → Connection Conn → List (Event Conn) → Prop where
  | ioctl (priority : Option Nat) (idle : conn.phase = .idle) :
      LocalEffect inst c conn (.ioctl c priority)
        { conn with priority := priority.getD conn.priority } []
  | copy (fault : Option (List UInt8)) (write : Write Conn) (entered : conn.phase = .entered write) :
      LocalEffect inst c conn (.copy c fault) (copyFromUser conn write fault) []
  | setIndex (write : Write Conn) (copied : conn.phase = .copied write) :
      LocalEffect inst c conn (.setIndex c)
        { conn with txBufIndex := 0, phase := .indexed write } []
  | setLength (write : Write Conn) (indexed : conn.phase = .indexed write) :
      LocalEffect inst c conn (.setLength c)
        { conn with txBufLength := write.buffer.length, phase := .acquiring write } []
  | interruptAcquire (write : Write Conn) (acquiring : conn.phase = .acquiring write) :
      LocalEffect inst c conn (.interruptAcquire c)
        { conn with phase := .failed write (-erestartsys) } []
  | complete (write : Write Conn) (sending : conn.phase = .sending write)
      (free : inst.txConnection ≠ some c) :
      LocalEffect inst c conn (.complete c) { conn with phase := .completed write } []
  | wait (write : Write Conn) (sending : conn.phase = .sending write) :
      LocalEffect inst c conn (.complete c) conn []
  | interruptComplete (write : Write Conn) (sending : conn.phase = .sending write) :
      LocalEffect inst c conn (.interruptComplete c) { conn with phase := .interrupted write } []
  | leaveFailed (write : Write Conn) (error : Int) (failed : conn.phase = .failed write error) :
      LocalEffect inst c conn (.leave c) { conn with phase := .idle } [.returned write error]
  | leaveInterrupted (write : Write Conn) (interrupted : conn.phase = .interrupted write) :
      LocalEffect inst c conn (.leave c) { conn with phase := .idle }
        [.returned write (-erestartsys)]
  | leaveCompleted (write : Write Conn) (completed : conn.phase = .completed write) :
      LocalEffect inst c conn (.leave c) { conn with phase := .idle }
        [.returned write conn.txBufIndex]

theorem localStep_effect {inst : Instance Conn Hardware} {c : Conn} {conn after : Connection Conn}
    {action : TxAction Conn Hardware} {events : List (Event Conn)}
    (mine : action.localConn? = some c)
    (taken : localStep inst conn action = some (after, events)) :
    LocalEffect inst c conn action after events := by
  -- Every guard of a step is the phase it starts from.
  cases action with
  | ioctl =>
      cases mine
      simp only [localStep] at taken
      split at taken
      · split at taken <;> cases taken
        exact .ioctl _ ‹_›
      · cases taken
  | copy =>
      cases mine
      simp only [localStep] at taken
      split at taken <;> cases taken
      exact .copy _ _ ‹_›
  | setIndex =>
      cases mine
      simp only [localStep] at taken
      split at taken <;> cases taken
      exact .setIndex _ ‹_›
  | setLength =>
      cases mine
      simp only [localStep] at taken
      split at taken <;> cases taken
      exact .setLength _ ‹_›
  | interruptAcquire =>
      cases mine
      simp only [localStep] at taken
      split at taken <;> cases taken
      exact .interruptAcquire _ ‹_›
  | complete =>
      cases mine
      simp only [localStep] at taken
      split at taken
      · split at taken <;> cases taken
        · exact .complete _ ‹_› ‹_›
        · exact .wait _ ‹_›
      · cases taken
  | interruptComplete =>
      cases mine
      simp only [localStep] at taken
      split at taken
      · split at taken <;> cases taken
        exact .interruptComplete _ ‹_›
      · cases taken
  | leave =>
      cases mine
      simp only [localStep] at taken
      split at taken <;> cases taken
      · exact .leaveFailed _ _ ‹_›
      · exact .leaveInterrupted _ ‹_›
      · exact .leaveCompleted _ ‹_›
  | openFile => cases mine
  | closeFile => cases mine
  | enter => cases mine
  | refuse => cases mine
  | acquire => cases mine
  | txQueued => cases mine
  | environment => cases mine

inductive Effect (driver : RawUartDriver Hardware) (inst : Instance Conn Hardware) :
    TxAction Conn Hardware → Instance Conn Hardware → Prop where
  | openFile (c : Conn) (unallocated : inst.conns c = none) :
      Effect driver inst (.openFile c) (inst.setConn c (some freshConnection))
  | closeFile (c : Conn) (signal : Bool) (conn : Connection Conn) (held : inst.conns c = some conn)
      (idle : conn.phase = .idle) :
      Effect driver inst (.closeFile c signal)
        (inst.setConn c (if signal then some { conn with opened := false } else none))
  | enter (c : Conn) (buffer : List UInt8) (conn : Connection Conn)
      (held : inst.conns c = some conn) (idle : conn.phase = .idle) (opened : conn.opened = true) :
      Effect driver inst (.enter c buffer)
        { inst.setConn c (some { conn with phase := .entered ⟨inst.nextId, c, buffer⟩ }) with
          nextId := inst.nextId + 1 }
  | refuse (c : Conn) (buffer : List UInt8) :
      Effect driver inst (.refuse c buffer)
        { inst with
          trace := inst.trace ++ [.returned ⟨inst.nextId, c, buffer⟩ (-erestartsys)]
          nextId := inst.nextId + 1 }
  | acquire (c : Conn) (conn : Connection Conn) (write : Write Conn)
      (held : inst.conns c = some conn) (acquiring : conn.phase = .acquiring write) :
      Effect driver inst (.acquire c) (acquireSender driver inst c conn write)
  | thread (c : Conn) (conn after : Connection Conn) (action : TxAction Conn Hardware)
      (events : List (Event Conn)) (held : inst.conns c = some conn)
      (effect : LocalEffect inst c conn action after events) :
      Effect driver inst action
        { inst.setConn c (some after) with trace := inst.trace ++ events }
  | txQueued : Effect driver inst .txQueued (txQueuedUnlocked driver inst)
  | environment (hardware : Hardware) :
      Effect driver inst (.environment hardware) { inst with hardware := hardware }

theorem step_effect {driver : RawUartDriver Hardware} {inst after : Instance Conn Hardware}
    {action : TxAction Conn Hardware} (taken : step driver inst action = some after) :
    Effect driver inst action after := by
  -- A step of a connection's thread that is not one of the four global ones.
  have thread : ∀ c, action.localConn? = some c →
      (inst.conns c).bind (fun conn => (localStep inst conn action).map fun result =>
        { inst.setConn c (some result.1) with trace := inst.trace ++ result.2 }) = some after →
      Effect driver inst action after := by
    intro c mine stepped
    obtain ⟨conn, held, stepped⟩ := Option.bind_eq_some_iff.mp stepped
    obtain ⟨⟨next, events⟩, found, rfl⟩ := Option.map_eq_some_iff.mp stepped
    exact .thread c conn next action events held (localStep_effect mine found)
  cases action with
  | openFile c =>
      simp only [step] at taken
      split at taken <;> cases taken
      exact .openFile c ‹_›
  | txQueued =>
      cases taken
      exact .txQueued
  | environment hardware =>
      cases taken
      exact .environment hardware
  | closeFile c signal =>
      obtain ⟨conn, held, taken⟩ := Option.bind_eq_some_iff.mp taken
      simp only [stepOn] at taken
      split at taken
      · split at taken <;> cases taken
        exact .closeFile c signal conn held ‹_›
      · cases taken
  | enter c buffer =>
      obtain ⟨conn, held, taken⟩ := Option.bind_eq_some_iff.mp taken
      simp only [stepOn] at taken
      split at taken
      · split at taken <;> cases taken
        exact .enter c buffer conn held ‹_› ‹_›
      · cases taken
  | refuse c buffer =>
      obtain ⟨conn, held, taken⟩ := Option.bind_eq_some_iff.mp taken
      simp only [stepOn] at taken
      split at taken <;> cases taken
      exact .refuse c buffer
  | acquire c =>
      obtain ⟨conn, held, taken⟩ := Option.bind_eq_some_iff.mp taken
      simp only [stepOn] at taken
      split at taken <;> cases taken
      exact .acquire c conn _ held ‹_›
  | ioctl c => exact thread c rfl taken
  | copy c => exact thread c rfl taken
  | setIndex c => exact thread c rfl taken
  | setLength c => exact thread c rfl taken
  | interruptAcquire c => exact thread c rfl taken
  | complete c => exact thread c rfl taken
  | interruptComplete c => exact thread c rfl taken
  | leave c => exact thread c rfl taken

theorem txLoop_enough (driver : RawUartDriver Hardware) (txbuf : List UInt8) (length more : Nat) :
    ∀ (fuel txCount : Nat) (hardware : Hardware) (index : Nat), length - index ≤ fuel →
      txLoop driver txbuf length (fuel + more) txCount hardware index =
        txLoop driver txbuf length fuel txCount hardware index := by
  intro fuel
  induction fuel with
  | zero =>
      intro txCount hardware index enough
      cases more with
      | zero => rfl
      | succ more =>
          have ended : ¬ index < length := by omega
          simp [txLoop, ended]
  | succ fuel ih =>
      intro txCount hardware index enough
      have bulk := driver.bulk_pos
      rw [Nat.succ_add, txLoop, txLoop]
      split
      · have rest := ih (txCount + min driver.txBulktransferSize (length - index))
          (driver.txChars hardware
            ((txbuf.drop index).take (min driver.txBulktransferSize (length - index))))
          (index + min driver.txBulktransferSize (length - index)) (by omega)
        dsimp only
        rw [rest]
      · rfl

/-- The loop only moves forward, never past the length, and hands the bytes it
passes to the driver in order. -/
theorem txLoop_spec (driver : RawUartDriver Hardware) (txbuf : List UInt8) (length fuel : Nat) :
    ∀ (txCount : Nat) (hardware : Hardware) (index : Nat),
      index ≤ (txLoop driver txbuf length fuel txCount hardware index).2.1 ∧
      (index ≤ length → (txLoop driver txbuf length fuel txCount hardware index).2.1 ≤ length) ∧
      (txLoop driver txbuf length fuel txCount hardware index).2.2.flatten =
        (txbuf.drop index).take
          ((txLoop driver txbuf length fuel txCount hardware index).2.1 - index) := by
  induction fuel with
  | zero => simp [txLoop]
  | succ fuel ih =>
      intro txCount hardware index
      rw [txLoop]
      split
      · obtain ⟨forward, bounded, passed⟩ := ih
          (txCount + min driver.txBulktransferSize (length - index))
          (driver.txChars hardware
            ((txbuf.drop index).take (min driver.txBulktransferSize (length - index))))
          (index + min driver.txBulktransferSize (length - index))
        dsimp only
        refine ⟨by omega, fun within => bounded (by omega), ?_⟩
        simp only [List.flatten_cons, passed]
        rw [← List.drop_drop, ← List.take_add]
        congr 1
        omega
      · simp

theorem txQueuedUnlocked_sender (driver : RawUartDriver Hardware) (inst : Instance Conn Hardware)
    (c : Conn) (conn : Connection Conn) (sender : inst.txConnection = some c)
    (held : inst.conns c = some conn) :
    ∃ hardware index, ∃ chunks : List (List UInt8), conn.txBufIndex ≤ index ∧
      (conn.txBufIndex ≤ conn.txBufLength → index ≤ conn.txBufLength) ∧
      chunks.flatten = (conn.txbuf.drop conn.txBufIndex).take (index - conn.txBufIndex) ∧
      txQueuedUnlocked driver inst =
        { inst.setConn c (some { conn with txBufIndex := index }) with
          txConnection := if index ≥ conn.txBufLength then none else some c
          hardware := hardware
          trace := inst.trace ++ chunks.map (.txChars conn.source) } := by
  have spec := txLoop_spec driver conn.txbuf conn.txBufLength
    (conn.txBufLength - conn.txBufIndex) 0 inst.hardware conn.txBufIndex
  simp only [txQueuedUnlocked, sender, held]
  generalize txLoop driver conn.txbuf conn.txBufLength (conn.txBufLength - conn.txBufIndex) 0
    inst.hardware conn.txBufIndex = sent at spec
  obtain ⟨hardware, index, chunks⟩ := sent
  obtain ⟨forward, bounded, passed⟩ := spec
  by_cases ended : index ≥ conn.txBufLength
  · refine ⟨driver.stopTx hardware, index, chunks, forward, bounded, passed, ?_⟩
    simp only [ended, ↓reduceIte]
  · refine ⟨hardware, index, chunks, forward, bounded, passed, ?_⟩
    simp only [ended, ↓reduceIte, ← sender]
    rfl

end PiVccu.RawUartTx
