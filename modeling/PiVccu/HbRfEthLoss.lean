import PiVccu.HbRfEth
import PiVccu.RawUartArbitration

/-!
Writes over HB-RF-ETH. The driver always says that it is ready, while
`hb_rf_eth_queue_msg` drops a message when no entry is free. In the runs where
every non-empty write meets a free entry, each call of `hb_rf_eth_tx_chars` is
accepted and a write that returns has its bytes in the queue.
-/

namespace PiVccu.HbRfEthLoss
open CircBuf HbRfEth RawUartTx RawUartOwnership RawUartArbitration Transition

variable {Conn : Type}

def calls (trace : List (Event Conn)) : List (List UInt8) :=
  trace.filterMap fun
    | .txChars _ octets => some octets
    | _ => none

/-- The hardware changes only through the other users of the queue and its send
thread; writes have at most the size of one message. -/
def Interleaving (inst : Instance Conn (Option Eth)) : TxAction Conn (Option Eth) → Prop
  | .environment hardware => ∃ activity, hardware = inst.hardware.bind (·.perform activity)
  | .enter _ buffer => buffer.length ≤ txChunkSize
  | _ => True

/-- A non-empty write tries to acquire the sender only with fewer than 31
messages pending. -/
def Room (inst : Instance Conn (Option Eth)) : TxAction Conn (Option Eth) → Prop
  | .acquire c => ∀ conn write eth, inst.conns c = some conn → conn.phase = .acquiring write →
      write.buffer ≠ [] → inst.hardware = some eth →
      circCnt eth.queue.head eth.queue.tail queueLength < 31
  | _ => True

structure Delivered (inst : Instance Conn (Option Eth)) : Prop where
  arbitration : Arbitration inst
  idle : inst.txConnection = none
  short : ∀ c conn write, inst.conns c = some conn → conn.phase.write? = some write →
    write.buffer.length ≤ txChunkSize
  whole : ∀ segment ∈ history inst.trace, segment.sent = segment.write.buffer
  called : calls inst.trace = ((history inst.trace).reverse.map Segment.sent).filter (· ≠ [])
  queue : ∃ eth, inst.hardware = some eth ∧ Sound eth ∧ eth.transmissions = calls inst.trace

theorem calls_append (trace events : List (Event Conn)) :
    calls (trace ++ events) = calls trace ++ calls events := by
  rw [calls, List.filterMap_append]
  rfl

theorem txLoop_whole (txbuf : List UInt8) (length : Nat) (short : length ≤ txChunkSize)
    (hardware : Option Eth) :
    txLoop driver txbuf length (length - 0) 0 hardware 0 =
      if length = 0 then (hardware, 0, [])
      else (driver.txChars hardware (txbuf.take length), length, [txbuf.take length]) := by
  cases length with
  | zero => rfl
  | succ count =>
      have bulk : min txChunkSize (count + 1 - 0) = count + 1 := by omega
      have enter : 0 < driver.txChunkSize ∧ driver.isreadyForTx hardware = true ∧
          0 < count + 1 := ⟨by decide, rfl, Nat.succ_pos count⟩
      rw [Nat.sub_zero, txLoop, if_pos enter, if_neg (Nat.succ_ne_zero count)]
      dsimp only
      rw [show driver.txBulktransferSize = txChunkSize from rfl, bulk]
      cases count with
      | zero => rfl
      | succ count => simp [txLoop]

def handOver (source : Option (Write Conn)) (buffer : List UInt8) : List (Event Conn) :=
  if buffer = [] then [] else [.txChars source buffer]

variable [DecidableEq Conn]

/-- On an idle transmitter the whole buffer goes to the driver at once. -/
theorem acquireSender_whole {inst : Instance Conn (Option Eth)} {c : Conn}
    {conn : Connection Conn} {write : Write Conn} (idle : inst.txConnection = none)
    (start : conn.txBufIndex = 0) (length : conn.txBufLength = write.buffer.length)
    (loaded : conn.txbuf.take write.buffer.length = write.buffer)
    (short : write.buffer.length ≤ txChunkSize) :
    acquireSender driver inst c conn write =
      { (takeSender inst c conn write).setConn c
          (some { conn with phase := .sending write, txBufIndex := write.buffer.length }) with
        txConnection := none
        hardware := if write.buffer = [] then inst.hardware
          else driver.txChars inst.hardware write.buffer
        trace := inst.trace ++ [.acquired write conn.priority] ++
          handOver conn.source write.buffer } := by
  have found : (takeSender inst c conn write).conns c =
      some { conn with phase := .sending write } := setConn_same inst c _
  have owner : (takeSender inst c conn write).txConnection = some c := rfl
  simp only [acquireSender, idle, txQueuedUnlocked, owner, found]
  rw [start, length, txLoop_whole conn.txbuf write.buffer.length short]
  by_cases empty : write.buffer = []
  · simp [empty, handOver, takeSender, driver]
    rfl
  · simp [empty, handOver, loaded, takeSender, driver]
    rfl

theorem delivered_acquire {inst : Instance Conn (Option Eth)} (held : Delivered inst) {c : Conn}
    {conn : Connection Conn} {write : Write Conn} (found : inst.conns c = some conn)
    (acquiring : conn.phase = .acquiring write)
    (room : ∀ eth, write.buffer ≠ [] → inst.hardware = some eth →
      circCnt eth.queue.head eth.queue.tail queueLength < 31) :
    Delivered (acquireSender driver inst c conn write) := by
  have thread := held.arbitration.threads c conn found
  have running : conn.phase.write? = some write := by rw [acquiring]; rfl
  have short := held.short c conn write found running
  obtain ⟨start, length⟩ := thread.acquiring write acquiring
  have loaded := thread.buffered write (by rw [acquiring]; rfl)
  have after := arbitration_acquire driver held.arbitration found acquiring
  -- The write fits into one chunk, so that the transmitter is free again at once.
  rw [acquireSender_whole held.idle start length loaded short] at after ⊢
  have newest : history (inst.trace ++ [.acquired write conn.priority] ++
      handOver conn.source write.buffer) =
        ⟨write, conn.priority, write.buffer⟩ :: history inst.trace := by
    rw [history_append, history_acquired]
    by_cases empty : write.buffer = []
    · simp [handOver, empty]
    · simp [handOver, empty, record]
  have handed : calls (inst.trace ++ [.acquired write conn.priority] ++
      handOver conn.source write.buffer) =
        calls inst.trace ++ if write.buffer = [] then [] else [write.buffer] := by
    rw [calls_append, calls_append]
    by_cases empty : write.buffer = []
    · simp [handOver, empty, calls]
    · simp [handOver, empty, calls]
  refine ⟨after, rfl, ?_, ?_, ?_, ?_⟩
  · intro other conn' call lookup busy
    rcases setConn_lookup lookup with ⟨rfl, same⟩ | ⟨differs, before⟩
    · cases same
      cases busy
      exact short
    · exact held.short other conn' call ((setConn_other differs _).symm.trans before) busy
  · dsimp only
    rw [newest]
    intro segment member
    rcases List.mem_cons.mp member with rfl | older
    · rfl
    · exact held.whole segment older
  · dsimp only
    rw [newest, handed, held.called]
    by_cases empty : write.buffer = []
    · simp [empty]
    · simp [empty]
  · dsimp only
    rw [handed]
    obtain ⟨eth, present, sound, same⟩ := held.queue
    by_cases empty : write.buffer = []
    · rw [if_pos empty, if_pos empty, List.append_nil]
      exact ⟨eth, present, sound, same⟩
    · -- There is room in the queue, and the message is appended to it.
      have pending := room eth empty present
      have space : 1 ≤ circSpace eth.queue.head eth.queue.tail queueLength := by
        rw [circSpace_eq sound.formed.head sound.formed.tail]
        unfold queueLength at *
        omega
      obtain ⟨entry, queue, queued, kept, -, command, payload⟩ :=
        queueMsg_room sound 7 write.buffer short space
      rw [if_neg empty, if_neg empty, ← same]
      refine ⟨_, ?_, kept, ?_⟩
      · rw [present]
        exact queued
      · simp [Eth.transmissions, command, payload]

omit [DecidableEq Conn] in
theorem Delivered.quiet {inst after : Instance Conn (Option Eth)} (held : Delivered inst)
    (arbitration : Arbitration after) (idle : after.txConnection = none)
    (hardware : after.hardware = inst.hardware)
    (short : ∀ c conn write, after.conns c = some conn → conn.phase.write? = some write →
      write.buffer.length ≤ txChunkSize)
    (events : List (Event Conn)) (trace : after.trace = inst.trace ++ events)
    (same : history (inst.trace ++ events) = history inst.trace) (mute : calls events = []) :
    Delivered after := by
  have silent : calls after.trace = calls inst.trace := by
    rw [trace, calls_append, mute, List.append_nil]
  have unchanged : history after.trace = history inst.trace := by rw [trace, same]
  refine ⟨arbitration, idle, short, ?_, ?_, ?_⟩
  · rw [unchanged]
    exact held.whole
  · rw [unchanged, silent]
    exact held.called
  · rw [hardware, silent]
    exact held.queue

theorem short_update {inst : Instance Conn (Option Eth)} (held : Delivered inst) {c : Conn}
    {update : Option (Connection Conn)}
    (mine : ∀ conn write, update = some conn → conn.phase.write? = some write →
      write.buffer.length ≤ txChunkSize) :
    ∀ other conn write, (inst.setConn c update).conns other = some conn →
      conn.phase.write? = some write → write.buffer.length ≤ txChunkSize := by
  intro other conn write lookup busy
  rcases setConn_lookup lookup with ⟨-, same⟩ | ⟨-, before⟩
  · exact mine conn write same busy
  · exact held.short other conn write before busy

theorem delivered_step {inst after : Instance Conn (Option Eth)}
    {action : TxAction Conn (Option Eth)} (held : Delivered inst)
    (interleaving : Interleaving inst action) (room : Room inst action)
    (taken : step driver inst action = some after) : Delivered after := by
  -- The second wait cannot be interrupted: nobody owns the idle transmitter.
  have uninterrupted : ∀ c, action ≠ .interruptComplete c := by
    rintro c rfl
    obtain ⟨conn, -, taken⟩ := Option.bind_eq_some_iff.mp taken
    simp only [stepOn, localStep, held.idle] at taken
    split at taken <;> simp at taken
  have arbitration := arbitration_step driver held.arbitration uninterrupted taken
  have unchanged : ∀ inst : Instance Conn (Option Eth),
      history (inst.trace ++ []) = history inst.trace := by
    intro inst
    rw [List.append_nil]
  cases step_effect taken with
  | openFile c unallocated =>
      refine held.quiet arbitration held.idle rfl (short_update held ?_) []
        (List.append_nil _).symm (unchanged inst) rfl
      rintro conn write ⟨⟩ busy
      cases busy
  | closeFile c signal conn found idle =>
      refine held.quiet arbitration held.idle rfl (short_update held ?_) []
        (List.append_nil _).symm (unchanged inst) rfl
      intro conn' write same busy
      split at same <;> cases same
      rw [idle] at busy
      cases busy
  | enter c buffer conn found idle opened =>
      refine held.quiet arbitration held.idle rfl (short_update held ?_) []
        (List.append_nil _).symm (unchanged inst) rfl
      rintro conn' write ⟨⟩ busy
      cases busy
      exact interleaving
  | refuse c buffer =>
      exact held.quiet arbitration held.idle rfl held.short _ rfl
        (history_returned inst.trace _ _) rfl
  | acquire c conn write found acquiring =>
      apply delivered_acquire held found acquiring
      intro eth nonempty present
      exact room conn write eth found acquiring nonempty present
  | thread c conn next _ events found effect =>
      obtain ⟨same, -⟩ := localEffect_history effect inst.trace
      have mute : calls events = [] := by
        rcases localEffect_call effect with ⟨rfl, -⟩ | ⟨-, write, ret, -, rfl⟩
        · rfl
        · rfl
      refine held.quiet arbitration held.idle rfl (short_update held ?_) events rfl same mute
      rintro conn' write ⟨⟩ busy
      rcases localEffect_call effect with ⟨-, kept⟩ | ⟨idle, -⟩
      · exact held.short c conn write found (kept ▸ busy)
      · rw [idle] at busy
        cases busy
  | txQueued =>
      rw [txQueuedUnlocked, held.idle]
      exact held
  | environment hardware =>
      obtain ⟨activity, rfl⟩ := interleaving
      obtain ⟨eth, present, sound, same⟩ := held.queue
      obtain ⟨next, done, kept, transmissions⟩ := perform_sound sound activity
      refine ⟨arbitration, held.idle, held.short, held.whole, held.called, next, ?_, kept, ?_⟩
      · dsimp only
        rw [present]
        exact done
      · rw [transmissions]
        exact same

def initialEth : Eth where
  queue := ⟨List.replicate queueLength ⟨List.replicate bufferSize 0, 0⟩, 0, 0⟩
  gpioValue := 0
  msgCnt := 0
  phase := .waiting
  accepted := []
  sent := []

theorem initialEth_empty : initialEth.queue.contents = [] := by
  simp [initialEth, CircRing.contents, circCnt]

theorem initialEth_sound : Sound initialEth := by
  have start : 0 < queueLength := by decide
  refine ⟨⟨List.length_replicate, start, start⟩, ?_, ?_, ?_⟩
  · intro entry member
    rw [List.eq_of_mem_replicate member]
    exact List.length_replicate
  · rw [initialEth_empty]
    intro entry member
    cases member
  · rintro tail ⟨⟩

def Started (inst : Instance Conn (Option Eth)) : Prop :=
  Initial inst ∧ inst.hardware = some initialEth

omit [DecidableEq Conn] in
theorem delivered_started {inst : Instance Conn (Option Eth)} (started : Started inst) :
    Delivered inst := by
  obtain ⟨initial, present⟩ := started
  have empty : inst.trace = [] := initial.2.2.1
  refine ⟨arbitration_initial initial, initial.1, ?_, ?_, ?_, initialEth, present,
    initialEth_sound, ?_⟩
  · intro c conn write found
    rw [initial.2.1 c] at found
    cases found
  · rw [empty]
    intro segment member
    cases member
  · rw [empty]
    rfl
  · rw [empty]
    rfl

/-- The accepted command-7 messages are the `tx_chars` calls, one for each
non-empty write that acquired the sender, and a positive return value is the
length of such a write. -/
structure Lossless (inst : Instance Conn (Option Eth)) (eth : Eth) : Prop where
  accepted : eth.transmissions = calls inst.trace
  messages : calls inst.trace =
    ((history inst.trace).reverse.map fun segment => segment.write.buffer).filter (· ≠ [])
  once : ((history inst.trace).map Segment.write).Nodup
  returned : ∀ write ret, .returned write ret ∈ inst.trace → 0 < ret →
    ret = write.buffer.length ∧ ∃ segment ∈ history inst.trace, segment.write = write

omit [DecidableEq Conn] in
theorem Delivered.lossless {inst : Instance Conn (Option Eth)} (held : Delivered inst) :
    ∃ eth, inst.hardware = some eth ∧ Lossless inst eth := by
  obtain ⟨eth, present, -, same⟩ := held.queue
  refine ⟨eth, present, same, ?_, held.arbitration.arbitrated.once, ?_⟩
  · rw [held.called]
    congr 1
    apply List.map_congr_left
    intro segment member
    exact held.whole segment (List.mem_reverse.mp member)
  · intro write ret member positive
    obtain ⟨before, after, split⟩ := List.append_of_mem member
    rcases held.arbitration.arbitrated.returns before write ret after split with
      ⟨-, newer, segment, older, shape, mine, length, -⟩ | ⟨negative, -⟩
    · have present : segment ∈ history inst.trace := by
        rw [shape]
        simp
      rw [held.whole segment present, mine] at length
      exact ⟨length, segment, present, mine⟩
    · omega

/-- No write is lost in the runs where non-empty writes find a free entry. -/
theorem writes_accepted (inst : Instance Conn (Option Eth))
    (reached : Reachable (step driver)
      (fun inst action => Interleaving inst action ∧ Room inst action) Started inst) :
    ∃ eth, inst.hardware = some eth ∧ Lossless inst eth := by
  apply Delivered.lossless
  induction reached with
  | start started => exact delivered_started started
  | next action _ allowed taken ih => exact delivered_step ih allowed.1 allowed.2 taken

def idleInstance (eth : Eth) : Instance Nat (Option Eth) where
  txConnection := none
  conns _ := none
  hardware := some eth
  trace := []
  nextId := 0
  useAfterFree := false

def singleWrite : List (TxAction Nat (Option Eth)) :=
  [.openFile 0, .enter 0 [0xaa], .copy 0 none, .setIndex 0, .setLength 0, .acquire 0, .complete 0,
    .leave 0]

def checked (inst : Instance Nat (Option Eth)) : TxAction Nat (Option Eth) → Bool
  | .acquire _ => inst.hardware.all fun eth =>
      circCnt eth.queue.head eth.queue.tail queueLength < 31
  | .enter _ buffer => buffer.length ≤ txChunkSize
  | .environment _ => false
  | _ => true

theorem checked_sound (inst : Instance Nat (Option Eth)) (action : TxAction Nat (Option Eth))
    (passed : checked inst action = true) : Interleaving inst action ∧ Room inst action := by
  cases action with
  | acquire c =>
      refine ⟨trivial, ?_⟩
      intro conn write eth _ _ _ present
      simpa [checked, present] using passed
  | enter c buffer =>
      refine ⟨?_, trivial⟩
      simpa [checked, Interleaving] using passed
  | environment hardware => cases passed
  | _ => exact ⟨trivial, trivial⟩

theorem idleInstance_started : Started (idleInstance initialEth) :=
  ⟨⟨rfl, fun _ => rfl, rfl, rfl⟩, rfl⟩

theorem writes_accepted_single :
    ∃ inst, run (step driver) checked (idleInstance initialEth) singleWrite = some inst ∧
      inst.trace = [.acquired ⟨0, 0, [0xaa]⟩ 0, .txChars (some ⟨0, 0, [0xaa]⟩) [0xaa],
        .returned ⟨0, 0, [0xaa]⟩ 1] ∧
      ∃ eth, inst.hardware = some eth ∧ Lossless inst eth := by
  refine ⟨_, rfl, rfl, ?_⟩
  exact writes_accepted _ (run_reachable checked_sound singleWrite
    (.start idleInstance_started) rfl)

def shortWrites (_ : Instance Nat (Option Eth)) : TxAction Nat (Option Eth) → Bool
  | .enter _ buffer => buffer.length ≤ txChunkSize
  | .environment _ => false
  | _ => true

theorem queue_filled (count : Nat) (fits : count ≤ 31) :
    ∃ eth, Reachable (step driver) Interleaving Started (idleInstance eth) ∧ Sound eth ∧
      circCnt eth.queue.head eth.queue.tail queueLength = count ∧ eth.transmissions = [] := by
  induction count with
  | zero =>
      refine ⟨initialEth, .start idleInstance_started, initialEth_sound, ?_, rfl⟩
      rw [← contents_length initialEth_sound.formed, initialEth_empty]
      rfl
  | succ count ih =>
      obtain ⟨eth, reached, sound, pending, none⟩ := ih (by omega)
      have space : 1 ≤ circSpace eth.queue.head eth.queue.tail queueLength := by
        rw [circSpace_eq sound.formed.head sound.formed.tail, pending]
        unfold queueLength
        omega
      obtain ⟨entry, queue, queued, kept, contents, command, -⟩ :=
        queueMsg_room sound 4 [] (by decide) space
      refine ⟨_, ?_, kept, ?_, ?_⟩
      · exact .next (.environment _) reached ⟨.sendReset, queued.symm⟩ rfl
      · have grown := contents_length kept.formed
        rw [← grown, contents, List.length_append, contents_length sound.formed, pending]
        rfl
      · have reset : entry.command ≠ 7 := by
          rw [command]
          decide
        simpa [Eth.transmissions, reset] using none

/-- The write of one byte, whatever is in the queue: it returns 1 and leaves the
queue to `hb_rf_eth_queue_msg`. -/
theorem singleWrite_reachable {eth : Eth}
    (reached : Reachable (step driver) Interleaving Started (idleInstance eth)) :
    ∃ inst, Reachable (step driver) Interleaving Started inst ∧
      .returned ⟨0, 0, [0xaa]⟩ 1 ∈ inst.trace ∧ inst.hardware = queueMsg eth 7 [0xaa] := by
  have sound : ∀ (inst : Instance Nat (Option Eth)) (action : TxAction Nat (Option Eth)),
      shortWrites inst action = true → Interleaving inst action := by
    intro inst action passed
    cases action with
    | enter c buffer => simpa [shortWrites, Interleaving] using passed
    | environment hardware => cases passed
    | _ => trivial
  refine ⟨_, run_reachable sound singleWrite reached rfl, ?_, rfl⟩
  exact List.mem_cons_of_mem _ (List.mem_cons_of_mem _ (List.mem_singleton.mpr rfl))

/-- With 31 messages pending the write returns 1 and its byte is dropped. -/
theorem write_dropped :
    ¬ ∀ inst : Instance Nat (Option Eth), Reachable (step driver) Interleaving Started inst →
      ∀ write ret, .returned write ret ∈ inst.trace → 0 < ret →
        ∃ eth, inst.hardware = some eth ∧ write.buffer.take ret.toNat ∈ eth.transmissions := by
  intro claim
  obtain ⟨eth, reached, sound, pending, nothing⟩ := queue_filled 31 (by decide)
  have full : ¬ 1 ≤ circSpace eth.queue.head eth.queue.tail queueLength := by
    rw [circSpace_eq sound.formed.head sound.formed.tail, pending]
    decide
  have dropped := queueMsg_full 7 [0xaa] full
  obtain ⟨inst, run, returned, hardware⟩ := singleWrite_reachable reached
  obtain ⟨final, present, accepted⟩ := claim inst run _ 1 returned (by decide)
  rw [hardware, dropped] at present
  cases present
  rw [nothing] at accepted
  cases accepted

end PiVccu.HbRfEthLoss
