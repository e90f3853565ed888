import PiVccu.HbRfEthLoss

/-!
How long a write over HB-RF-ETH may be. The pump of the raw uart stops after one
chunk and waits for the driver to call `generic_raw_uart_tx_queued`, which
`hb_rf_eth.c` never does. A write of one chunk is done when
`generic_raw_uart_acquire_sender` returns; a longer one keeps the transmitter.
-/

namespace PiVccu.HbRfEthPump
open CircBuf HbRfEth HbRfEthLoss RawUartTx RawUartOwnership RawUartArbitration Transition

variable {Conn : Type}

/-- A writer about to acquire the sender, as `generic_raw_uart_write` has set up
its buffer. -/
structure Loaded (conn : Connection Conn) (write : Write Conn) : Prop where
  start : conn.txBufIndex = 0
  length : conn.txBufLength = write.buffer.length
  buffer : conn.txbuf.take write.buffer.length = write.buffer

/-- The driver's runs: nothing calls `generic_raw_uart_tx_queued`. -/
def EthRun (inst : Instance Conn (Option Eth)) : TxAction Conn (Option Eth) → Prop
  | .environment hardware => ∃ activity, hardware = inst.hardware.bind (·.perform activity)
  | .txQueued => False
  | _ => True

def OneChunk : TxAction Conn (Option Eth) → Prop
  | .enter _ buffer => buffer.length ≤ txChunkSize ∨ conDataTxBufSize < buffer.length
  | _ => True

theorem txLoop_chunk (txbuf : List UInt8) (length : Nat) (long : txChunkSize < length)
    (hardware : Option Eth) :
    txLoop driver txbuf length (length - 0) 0 hardware 0 =
      (driver.txChars hardware (txbuf.take txChunkSize), txChunkSize, [txbuf.take txChunkSize]) := by
  obtain ⟨more, count⟩ := Nat.exists_eq_add_of_lt long
  have bulk : min txChunkSize (length - 0) = txChunkSize := by omega
  have enter : 0 < driver.txChunkSize ∧ driver.isreadyForTx hardware = true ∧ 0 < length :=
    ⟨by decide, rfl, by omega⟩
  have fuel : length - 0 = (length - 1) + 1 := by omega
  have stop : ∀ rest hardware, txLoop driver txbuf length rest (0 + txChunkSize) hardware
      (0 + txChunkSize) = (hardware, 0 + txChunkSize, []) := by
    intro rest hardware
    cases rest with
    | zero => rfl
    | succ rest =>
        have full : ¬ (0 + txChunkSize < driver.txChunkSize ∧
            driver.isreadyForTx hardware = true ∧ 0 + txChunkSize < length) := by
          rintro ⟨below, -⟩
          exact absurd below (by decide)
        rw [txLoop, if_neg full]
  rw [fuel, txLoop, if_pos enter]
  dsimp only
  rw [show driver.txBulktransferSize = txChunkSize from rfl, bulk, stop, Nat.zero_add,
    List.drop_zero]

variable [DecidableEq Conn]

theorem acquireSender_chunk {inst : Instance Conn (Option Eth)} {c : Conn}
    {conn : Connection Conn} {write : Write Conn} (idle : inst.txConnection = none)
    (loaded : Loaded conn write) (long : txChunkSize < write.buffer.length) :
    acquireSender driver inst c conn write =
      { (takeSender inst c conn write).setConn c
          (some { conn with phase := .sending write, txBufIndex := txChunkSize }) with
        txConnection := some c
        hardware := driver.txChars inst.hardware (write.buffer.take txChunkSize)
        trace := inst.trace ++ [.acquired write conn.priority] ++
          [.txChars conn.source (write.buffer.take txChunkSize)] } := by
  have found : (takeSender inst c conn write).conns c =
      some { conn with phase := .sending write } := setConn_same inst c _
  have chunk : conn.txbuf.take txChunkSize = write.buffer.take txChunkSize := by
    rw [← loaded.buffer, List.take_take, Nat.min_eq_left (by omega)]
  have owner : (takeSender inst c conn write).txConnection = some c := rfl
  simp only [acquireSender, idle, txQueuedUnlocked, owner, found]
  rw [loaded.start, loaded.length, txLoop_chunk conn.txbuf _ long, chunk]
  have unfinished : ¬ txChunkSize ≥ write.buffer.length := by omega
  simp only [unfinished, ↓reduceIte]
  rfl

/-- An idle transmitter passes the whole write on, and is idle again, exactly if
the write fits one chunk. -/
theorem acquire_whole_iff {inst : Instance Conn (Option Eth)} {c : Conn} {conn : Connection Conn}
    {write : Write Conn} (idle : inst.txConnection = none) (loaded : Loaded conn write) :
    ((acquireSender driver inst c conn write).txConnection = none ∧
      (calls ((acquireSender driver inst c conn write).trace.drop inst.trace.length)).flatten =
        write.buffer) ↔ write.buffer.length ≤ txChunkSize := by
  constructor
  · rintro ⟨free, -⟩
    by_contra long
    rw [acquireSender_chunk idle loaded (Nat.lt_of_not_le long)] at free
    cases free
  · intro short
    rw [acquireSender_whole idle loaded.start loaded.length loaded.buffer short]
    refine ⟨rfl, ?_⟩
    dsimp only
    rw [List.append_assoc, List.drop_left]
    by_cases empty : write.buffer = []
    · simp [handOver, empty, calls]
    · simp [handOver, empty, calls]

def Chunked (conn : Connection Conn) : Prop :=
  (∀ write, conn.phase = .entered write →
    write.buffer.length ≤ txChunkSize ∨ conDataTxBufSize < write.buffer.length) ∧
  ∀ write, loaded? conn.phase = some write → write.buffer.length ≤ txChunkSize

structure Prompt (inst : Instance Conn (Option Eth)) : Prop where
  arbitration : Arbitration inst
  idle : inst.txConnection = none
  chunked : ∀ c conn, inst.conns c = some conn → Chunked conn

omit [DecidableEq Conn] in
theorem chunked_idle {conn : Connection Conn} (idle : conn.phase = .idle) : Chunked conn := by
  constructor
  · intro write entered
    rw [idle] at entered
    cases entered
  · intro write loaded
    rw [idle] at loaded
    cases loaded

omit [DecidableEq Conn] in
theorem chunked_thread {inst : Instance Conn (Option Eth)} {c : Conn} {conn after : Connection Conn}
    {action : TxAction Conn (Option Eth)} {events : List (Event Conn)} (held : Chunked conn)
    (effect : LocalEffect inst c conn action after events) : Chunked after := by
  obtain ⟨entered, short⟩ := held
  cases effect with
  | ioctl priority idle => exact chunked_idle idle
  | copy fault write phase =>
      unfold copyFromUser
      split
      · exact ⟨nofun, nofun⟩
      · rename_i accepted
        split
        · exact ⟨nofun, nofun⟩
        · refine ⟨nofun, ?_⟩
          rintro _ ⟨⟩
          rcases entered write phase with fits | refused
          · exact fits
          · exact absurd refused accepted
  | setIndex write phase | setLength write phase | complete write phase
  | interruptComplete write phase =>
      refine ⟨nofun, ?_⟩
      rintro _ ⟨⟩
      exact short write (by rw [phase]; rfl)
  | wait write phase => exact ⟨entered, short⟩
  | interruptAcquire write phase | leaveFailed write error phase | leaveInterrupted write phase
  | leaveCompleted write phase => exact ⟨nofun, nofun⟩

theorem chunked_update {inst : Instance Conn (Option Eth)} {c : Conn}
    {update : Option (Connection Conn)}
    (held : ∀ c conn, inst.conns c = some conn → Chunked conn)
    (mine : ∀ conn, update = some conn → Chunked conn) :
    ∀ other conn, (inst.setConn c update).conns other = some conn → Chunked conn := by
  intro other conn lookup
  rcases setConn_lookup lookup with ⟨-, same⟩ | ⟨-, before⟩
  · exact mine conn same
  · exact held other conn before

theorem prompt_step {inst after : Instance Conn (Option Eth)} {action : TxAction Conn (Option Eth)}
    (held : Prompt inst) (fits : OneChunk action) (taken : step driver inst action = some after) :
    Prompt after := by
  -- Nobody owns the transmitter, so no second wait is left on a signal.
  have uninterrupted : ∀ c, action ≠ .interruptComplete c := by
    rintro c rfl
    obtain ⟨conn, -, taken⟩ := Option.bind_eq_some_iff.mp taken
    simp only [stepOn, localStep, held.idle] at taken
    split at taken <;> simp at taken
  have arbitration := arbitration_step driver held.arbitration uninterrupted taken
  cases step_effect taken with
  | openFile c unallocated =>
      refine ⟨arbitration, held.idle, chunked_update held.chunked ?_⟩
      rintro conn ⟨⟩
      exact chunked_idle rfl
  | closeFile c signal conn found idle =>
      refine ⟨arbitration, held.idle, chunked_update held.chunked ?_⟩
      intro conn' same
      split at same <;> cases same
      exact chunked_idle idle
  | enter c buffer conn found idle opened =>
      refine ⟨arbitration, held.idle, chunked_update held.chunked ?_⟩
      rintro conn' ⟨⟩
      constructor
      · rintro write ⟨⟩
        exact fits
      · rintro write ⟨⟩
  | refuse c buffer => exact ⟨arbitration, held.idle, held.chunked⟩
  | acquire c conn write found acquiring =>
      have thread := held.arbitration.threads c conn found
      obtain ⟨start, length⟩ := thread.acquiring write acquiring
      have loaded := thread.buffered write (by rw [acquiring]; rfl)
      have short := (held.chunked c conn found).2 write (by rw [acquiring]; rfl)
      rw [acquireSender_whole held.idle start length loaded short] at arbitration ⊢
      refine ⟨arbitration, rfl, chunked_update (chunked_update held.chunked ?_) ?_⟩
      · rintro conn' ⟨⟩
        constructor
        · rintro _ ⟨⟩
        · rintro _ ⟨⟩
          exact short
      · rintro conn' ⟨⟩
        constructor
        · rintro _ ⟨⟩
        · rintro _ ⟨⟩
          exact short
  | thread c conn next _ events found effect =>
      refine ⟨arbitration, held.idle, chunked_update held.chunked ?_⟩
      rintro conn' ⟨⟩
      exact chunked_thread (held.chunked c conn found) effect
  | txQueued =>
      rw [txQueuedUnlocked, held.idle]
      exact held
  | environment hardware => exact ⟨arbitration, held.idle, held.chunked⟩

omit [DecidableEq Conn] in
theorem prompt_started {inst : Instance Conn (Option Eth)} (started : Started inst) :
    Prompt inst := by
  obtain ⟨initial, -⟩ := started
  refine ⟨arbitration_initial initial, initial.1, ?_⟩
  intro c conn found
  rw [initial.2.1 c] at found
  cases found

def Completes (inst : Instance Conn (Option Eth)) (c : Conn) (write : Write Conn) : Prop :=
  ∃ after conn, step driver inst (.complete c) = some after ∧ after.conns c = some conn ∧
    conn.phase = .completed write

theorem completes_idle {inst : Instance Conn (Option Eth)} {c : Conn} {conn : Connection Conn}
    {write : Write Conn} (idle : inst.txConnection = none) (found : inst.conns c = some conn)
    (sending : conn.phase = .sending write) : Completes inst c write := by
  refine ⟨{ inst.setConn c (some { conn with phase := .completed write }) with
    trace := inst.trace ++ [] }, { conn with phase := .completed write }, ?_,
    setConn_same inst c _, rfl⟩
  simp only [step, TxAction.conn?, TxAction.localConn?, found, Option.bind_some, stepOn, localStep,
    sending, idle, ne_eq, reduceCtorEq, not_false_eq_true, ↓reduceIte, Option.map_some]

/-- A write over HB-RF-ETH is passed on whole by an idle transmitter exactly if it
fits one chunk. In the runs where every accepted write does, the transmitter is
idle in every state and no writer waits in vain. -/
theorem writes_complete_iff (Conn : Type) [DecidableEq Conn] :
    (∀ (inst : Instance Conn (Option Eth)) (c : Conn) (conn : Connection Conn) (write : Write Conn),
      inst.txConnection = none → Loaded conn write → write.buffer.length ≤ conDataTxBufSize →
      (((acquireSender driver inst c conn write).txConnection = none ∧
        (calls ((acquireSender driver inst c conn write).trace.drop inst.trace.length)).flatten =
          write.buffer) ↔ write.buffer.length ≤ 1468)) ∧
    ∀ inst : Instance Conn (Option Eth),
      Reachable (step driver) (fun inst action => EthRun inst action ∧ OneChunk action) Started
        inst →
      inst.txConnection = none ∧ ∀ c conn write, inst.conns c = some conn →
        conn.phase = .sending write → Completes inst c write := by
  constructor
  · intro inst c conn write idle loaded _
    exact acquire_whole_iff idle loaded
  · intro inst reached
    have prompt : Prompt inst := by
      induction reached with
      | start started => exact prompt_started started
      | next action _ allowed taken ih => exact prompt_step ih allowed.2 taken
    refine ⟨prompt.idle, ?_⟩
    intro c conn write found sending
    exact completes_idle prompt.idle found sending

def oneChunk (_ : Instance Nat (Option Eth)) : TxAction Nat (Option Eth) → Bool
  | .enter _ buffer => buffer.length ≤ txChunkSize
  | .environment _ | .txQueued => false
  | _ => true

theorem oneChunk_sound (inst : Instance Nat (Option Eth)) (action : TxAction Nat (Option Eth))
    (passed : oneChunk inst action = true) : EthRun inst action ∧ OneChunk action := by
  cases action with
  | enter c buffer =>
      refine ⟨trivial, .inl ?_⟩
      simpa [oneChunk] using passed
  | environment hardware => cases passed
  | txQueued => cases passed
  | _ => exact ⟨trivial, trivial⟩

/-- A write of one byte, before and after it acquires the sender. -/
theorem writes_complete_single :
    ∃ before conn inst, run (step driver) oneChunk (idleInstance initialEth) (singleWrite.take 5) =
        some before ∧ before.conns 0 = some conn ∧
      (acquireSender driver before 0 conn ⟨0, 0, [0xaa]⟩).txConnection = none ∧
      run (step driver) oneChunk (idleInstance initialEth) (singleWrite.take 6) = some inst ∧
      inst.txConnection = none ∧ Completes inst 0 ⟨0, 0, [0xaa]⟩ := by
  obtain ⟨whole, idle⟩ := writes_complete_iff Nat
  refine ⟨_, _, _, rfl, rfl, ?_, rfl, ?_⟩
  · exact ((whole _ 0 _ ⟨0, 0, [0xaa]⟩ rfl ⟨rfl, rfl, rfl⟩ (by decide)).mpr (by decide)).1
  · obtain ⟨free, completes⟩ := idle _
      (run_reachable oneChunk_sound (singleWrite.take 6) (.start idleInstance_started) rfl)
    exact ⟨free, completes 0 _ _ rfl rfl⟩

def loadedConnection (buffer : List UInt8) : Connection Nat :=
  { (freshConnection : Connection Nat) with
    txbuf := buffer ++ (List.replicate conDataTxBufSize 0).drop buffer.length
    txBufLength := buffer.length
    phase := .acquiring ⟨0, 0, buffer⟩
    source := some ⟨0, 0, buffer⟩ }

def acquiringInstance (buffer : List UInt8) : Instance Nat (Option Eth) :=
  { (idleInstance initialEth).setConn 0 (some (loadedConnection buffer)) with nextId := 1 }

def noCallback (_ : Instance Nat (Option Eth)) : TxAction Nat (Option Eth) → Bool
  | .environment _ | .txQueued => false
  | _ => true

theorem noCallback_sound (inst : Instance Nat (Option Eth)) (action : TxAction Nat (Option Eth))
    (passed : noCallback inst action = true) : EthRun inst action := by
  cases action with
  | environment hardware => cases passed
  | txQueued => cases passed
  | _ => trivial

theorem acquiring_reachable (buffer : List UInt8) (fits : buffer.length ≤ conDataTxBufSize) :
    Reachable (step driver) EthRun Started (acquiringInstance buffer) := by
  apply run_reachable noCallback_sound
    [.openFile 0, .enter 0 buffer, .copy 0 none, .setIndex 0, .setLength 0]
    (.start idleInstance_started)
  have accepted : ¬ buffer.length > conDataTxBufSize := Nat.not_lt.mpr fits
  simp only [run, noCallback, ↓reduceIte, step, idleInstance, Option.bind_some, TxAction.conn?,
    TxAction.localConn?, stepOn, localStep, Instance.setConn, Function.update_self,
    freshConnection, copyFromUser, accepted, Option.map_some, Function.update_idem,
    acquiringInstance, loadedConnection, List.append_nil]

theorem chunk_reachable (buffer : List UInt8) (long : txChunkSize < buffer.length)
    (fits : buffer.length ≤ conDataTxBufSize) :
    ∃ inst : Instance Nat (Option Eth), Reachable (step driver) EthRun Started inst ∧
      (∃ conn, inst.conns 0 = some conn ∧ conn.phase = .sending ⟨0, 0, buffer⟩) ∧
      inst.txConnection = some 0 ∧ calls inst.trace = [buffer.take txChunkSize] := by
  have loaded : Loaded (loadedConnection buffer) ⟨0, 0, buffer⟩ := ⟨rfl, rfl, List.take_left⟩
  have found : (acquiringInstance buffer).conns 0 = some (loadedConnection buffer) :=
    setConn_same (idleInstance initialEth) 0 _
  have taken : step driver (acquiringInstance buffer) (.acquire 0) =
      some (acquireSender driver (acquiringInstance buffer) 0 (loadedConnection buffer)
        ⟨0, 0, buffer⟩) := by
    simp only [step, TxAction.conn?, found, Option.bind_some, stepOn]
    rfl
  refine ⟨_, .next (.acquire 0) (acquiring_reachable buffer fits) trivial taken, ?_⟩
  rw [acquireSender_chunk rfl loaded long]
  refine ⟨⟨{ loadedConnection buffer with
    phase := .sending ⟨0, 0, buffer⟩, txBufIndex := txChunkSize }, ?_, rfl⟩, rfl, ?_⟩
  · dsimp only
    rw [setConn_same]
  · simp [acquiringInstance, Instance.setConn, idleInstance, calls]

/-- After a write of more than one chunk the writer waits and nothing it waits for
can run: the transmitter is its own, and the pump has not passed on its last
byte. -/
theorem large_write_waits :
    ∃ inst : Instance Nat (Option Eth), Reachable (step driver) EthRun Started inst ∧
      (∃ conn, inst.conns 0 = some conn ∧
        conn.phase = .sending ⟨0, 0, List.replicate 1469 0xaa⟩) ∧
      inst.txConnection = some 0 ∧ (calls inst.trace).flatten = List.replicate 1468 0xaa ∧
      ¬ Completes inst 0 ⟨0, 0, List.replicate 1469 0xaa⟩ := by
  obtain ⟨inst, reached, ⟨conn, found, sending⟩, sender, sent⟩ :=
    chunk_reachable (List.replicate 1469 0xaa) (by rw [List.length_replicate]; decide)
      (by rw [List.length_replicate]; decide)
  refine ⟨inst, reached, ⟨conn, found, sending⟩, sender, ?_, ?_⟩
  · rw [sent, List.flatten_singleton, List.take_replicate]
    rfl
  · rintro ⟨after, next, taken, lookup, completed⟩
    simp only [step, TxAction.conn?, TxAction.localConn?, found, Option.bind_some, stepOn, localStep,
      sending, sender, ne_eq, not_true_eq_false, ↓reduceIte, Option.map_some] at taken
    cases taken
    rw [setConn_same] at lookup
    cases lookup
    rw [sending] at completed
    cases completed

end PiVccu.HbRfEthPump
