import PiVccu.HbRfEthLoss

/-!
The send queue of HB-RF-ETH as an exactly-once queue. Producers call
`hb_rf_eth_queue_msg` with any command; the send thread takes the oldest entry,
patches, stamps and transmits it and releases its slot, each in a step of its
own. Everything that is accepted goes out once and in order, and what goes out
is what was accepted but for the counter, the checksum and the value byte of a
command-3 message.
-/

namespace PiVccu.HbRfEthQueue
open BigEndian ByteBuffer CircBuf HbRfEth HbRfEthLoss Transition

/-- A queue message that reached `kernel_sendmsg`, or its `else` branch when
there was no socket: the value of `gpio_value` that the thread last read for a
command-3 message and the one at the time of the call. -/
structure Transmission where
  datagram : List UInt8
  shown : UInt8
  current : UInt8
  connected : Bool
deriving DecidableEq

def Transmission.command (transmission : Transmission) : UInt8 := transmission.datagram.headD 0

def Transmission.payload (transmission : Transmission) : List UInt8 :=
  (transmission.datagram.drop 2).take (transmission.datagram.length - 4)

/-- The queue with its surroundings. `sock` tells whether `_sock` is set,
`shown` is the value the send thread read for the entry in its hands and
`transmissions` are the queue messages it sent. -/
structure Link where
  eth : Eth
  sock : Bool
  shown : UInt8
  transmissions : List Transmission
deriving DecidableEq

/-- A message outside the queue takes a number of the message counter, as the
connection requests do. -/
inductive LinkAct where
  | queue (cmd : UInt8) (buffer : List UInt8)
  | thread
  | keepAlive
  | gpioStore (value : UInt8)
  | socket (connected : Bool)
  | otherMsg

/-- A step of the send thread. It reads `gpio_value` when it looks at the entry
it has taken. -/
def Link.threadStep (link : Link) : Option Link := do
  let eth ← sendStep link.eth
  let shown := match link.eth.phase with
    | .taken _ => link.eth.gpioValue
    | _ => link.shown
  let datagrams := eth.sent.drop link.eth.sent.length
  return { link with
    eth := eth
    shown := shown
    transmissions := link.transmissions ++ datagrams.map fun datagram =>
      ⟨datagram, link.shown, link.eth.gpioValue, link.sock⟩ }

def Link.step (link : Link) : LinkAct → Option Link
  | .queue cmd buffer => (queueMsg link.eth cmd buffer).map fun eth => { link with eth := eth }
  | .thread => link.threadStep
  | .keepAlive => (link.eth.perform .keepAlive).map fun eth => { link with eth := eth }
  | .gpioStore value => some { link with eth := { link.eth with gpioValue := value } }
  | .socket connected => some { link with sock := connected }
  | .otherMsg => some { link with eth := { link.eth with msgCnt := link.eth.msgCnt + 1 } }

/-- After `hb_rf_eth_init` and the first connection; the message counter and the
LEDs are as an earlier connection left them. -/
def Connected (link : Link) : Prop :=
  link.eth = { initialEth with gpioValue := link.eth.gpioValue, msgCnt := link.eth.msgCnt } ∧
    link.sock = true ∧ link.transmissions = []

def patchPayload (cmd shown : UInt8) (payload : List UInt8) : List UInt8 :=
  if cmd = 3 then payload.set 0 shown else payload

def Entry.patch (entry : Entry) (shown : UInt8) : Entry :=
  if entry.command = 3 then { entry with buffer := entry.buffer.set 2 shown } else entry

structure Carries (shown : UInt8) (message front : Entry) : Prop where
  len : front.len = message.len
  command : front.command = message.command
  payload : front.payload = patchPayload message.command shown message.payload

structure Delivers (message : Entry) (transmission : Transmission) : Prop where
  len : transmission.datagram.length = message.len
  command : transmission.command = message.command
  payload : transmission.payload =
    patchPayload message.command transmission.shown message.payload

theorem patch_carries (entry : Entry) (shown : UInt8) :
    Carries shown entry (Entry.patch entry shown) := by
  by_cases command : entry.command = 3
  · refine ⟨?_, ?_, ?_⟩
    · simp only [Entry.patch, command, ↓reduceIte]
    · rw [Entry.patch, if_pos command]
      match shape : entry.buffer with
      | [] => simp [Entry.command, shape]
      | first :: rest => simp [Entry.command, shape]
    · simp only [Entry.patch, patchPayload, command, ↓reduceIte, Entry.payload]
      rw [List.drop_set, if_neg (Nat.lt_irrefl 2), Nat.sub_self, List.take_set]
  · refine ⟨?_, ?_, ?_⟩
    · simp only [Entry.patch, command, ↓reduceIte]
    · simp only [Entry.patch, command, ↓reduceIte]
    · simp only [Entry.patch, patchPayload, command, ↓reduceIte]

theorem stamp_command {front : Entry} (long : 4 ≤ front.len)
    (fits : front.len ≤ front.buffer.length) {count : Nat} {stamped : List UInt8}
    (done : stampMsg front.buffer front.len count = some stamped) :
    Entry.command { front with buffer := stamped } = front.command := by
  rw [stampMsg_eq _ _ _ long fits] at done
  cases done
  match shape : front.buffer with
  | [] =>
      rw [shape] at fits
      simp at fits
      omega
  | first :: rest =>
      obtain ⟨more, count⟩ := Nat.exists_eq_add_of_le' long
      simp [Entry.command, shape, count]

theorem stamp_carries {shown : UInt8} {message front : Entry} (carries : Carries shown message front)
    (long : 4 ≤ front.len) (fits : front.len ≤ front.buffer.length) {count : Nat}
    {stamped : List UInt8} (done : stampMsg front.buffer front.len count = some stamped) :
    Carries shown message { front with buffer := stamped } := by
  refine ⟨carries.len, (stamp_command long fits done).trans carries.command, ?_⟩
  rw [stampMsg_eq _ _ _ long fits] at done
  cases done
  rw [← carries.payload]
  generalize calcCrc _ = crc
  have inner : 2 ≤ (List.take (front.len - 2)
      (front.buffer.set 1 (UInt8.ofNat count))).length := by
    simp
    omega
  simp only [Entry.payload, List.append_assoc]
  rw [List.drop_append_of_le_length inner, List.take_append_of_le_length (by simp; omega),
    List.drop_take, List.drop_set, if_pos (by decide), List.take_take]
  congr 1
  omega

theorem datagram_command {front : Entry} (long : 4 ≤ front.len) :
    (front.buffer.take front.len).headD 0 = front.command := by
  match shape : front.buffer, front.len, long with
  | [], _, _ => simp [Entry.command, shape]
  | first :: rest, more + 4, _ => simp [Entry.command, shape]

theorem carries_delivers {shown : UInt8} {message front : Entry}
    (carries : Carries shown message front) (long : 4 ≤ front.len)
    (fits : front.len ≤ front.buffer.length) (current : UInt8) (connected : Bool) :
    Delivers message ⟨front.buffer.take front.len, shown, current, connected⟩ := by
  have length : (front.buffer.take front.len).length = front.len := by simp [fits]
  refine ⟨length.trans carries.len, (datagram_command long).trans carries.command, ?_⟩
  rw [← carries.payload]
  simp only [Transmission.payload, Entry.payload, length]
  rw [List.drop_take, List.take_take]
  congr 1
  omega

/-- Everything a step of the send thread can do, read off the pending entries. -/
inductive SendEffect (eth : Eth) : Eth → Prop where
  | idle (phase : eth.phase = .waiting) (empty : eth.queue.contents = []) : SendEffect eth eth
  | take (front : Entry) (rest : List Entry) (phase : eth.phase = .waiting)
      (contents : eth.queue.contents = front :: rest) :
      SendEffect eth { eth with phase := .taken eth.queue.tail }
  | patch (front : Entry) (rest : List Entry) (queue : CircRing Entry)
      (phase : eth.phase = .taken eth.queue.tail) (contents : eth.queue.contents = front :: rest)
      (changed : queue.contents = Entry.patch front eth.gpioValue :: rest) :
      SendEffect eth { eth with queue := queue, phase := .patched eth.queue.tail }
  | stamp (front : Entry) (rest : List Entry) (queue : CircRing Entry) (stamped : List UInt8)
      (phase : eth.phase = .patched eth.queue.tail)
      (contents : eth.queue.contents = front :: rest)
      (done : stampMsg front.buffer front.len (eth.msgCnt + 1) = some stamped)
      (changed : queue.contents = { front with buffer := stamped } :: rest) :
      SendEffect eth { eth with
        queue := queue, msgCnt := eth.msgCnt + 1, phase := .stamped eth.queue.tail }
  | transmit (front : Entry) (rest : List Entry) (phase : eth.phase = .stamped eth.queue.tail)
      (contents : eth.queue.contents = front :: rest) :
      SendEffect eth { eth with
        sent := eth.sent ++ [front.buffer.take front.len], phase := .transmitted eth.queue.tail }
  | release (front : Entry) (rest : List Entry) (queue : CircRing Entry)
      (phase : eth.phase = .transmitted eth.queue.tail)
      (contents : eth.queue.contents = front :: rest) (released : queue.contents = rest) :
      SendEffect eth { eth with queue := queue, phase := .waiting }

theorem front_entry {eth : Eth} (sound : Sound eth) (tail : Nat)
    (busy : eth.phase.tail? = some tail) :
    ∃ front rest, eth.queue.contents = front :: rest ∧ tail = eth.queue.tail ∧
      load eth.queue.buf eth.queue.tail = some front ∧ front.buffer.length = bufferSize ∧
      4 ≤ front.len ∧ front.len ≤ bufferSize := by
  obtain ⟨same, pending, entry, found, facts⟩ := sound.entry busy
  obtain ⟨front, rest, contents, here⟩ := peek sound.formed pending
  rw [found] at here
  cases here
  exact ⟨entry, rest, contents, same, found, facts⟩

theorem front_bounds {eth : Eth} (sound : Sound eth) {front : Entry} {rest : List Entry}
    (contents : eth.queue.contents = front :: rest) :
    4 ≤ front.len ∧ front.len ≤ front.buffer.length := by
  have member : front ∈ eth.queue.contents := by
    rw [contents]
    exact List.mem_cons_self ..
  have stored : front ∈ eth.queue.buf := List.mem_rotate.mp (List.mem_of_mem_take member)
  obtain ⟨long, fits⟩ := sound.lengths front member
  rw [sound.sized front stored]
  exact ⟨long, fits⟩

theorem setBuffer_front {eth after : Eth} (sound : Sound eth) {front : Entry} {rest : List Entry}
    (contents : eth.queue.contents = front :: rest) {buffer : List UInt8}
    (done : eth.setBuffer eth.queue.tail front buffer = some after) :
    ∃ queue, after = { eth with queue := queue } ∧
      queue.contents = { front with buffer := buffer } :: rest := by
  have pending : 1 ≤ circCnt eth.queue.head eth.queue.tail queueLength := by
    rw [← contents_length sound.formed, contents]
    exact Nat.le_add_left 1 rest.length
  obtain ⟨entries, stored, -, changed⟩ := poke sound.formed pending
    { front with buffer := buffer }
  simp only [Eth.setBuffer, stored, Option.bind_eq_bind, Option.bind_some, Option.pure_def] at done
  cases done
  rw [contents] at changed
  exact ⟨{ eth.queue with buf := entries }, rfl, changed⟩

theorem sendStep_effect {eth after : Eth} (sound : Sound eth) (taken : sendStep eth = some after) :
    SendEffect eth after := by
  unfold sendStep at taken
  cases phase : eth.phase with
  | waiting =>
      simp only [phase] at taken
      split at taken
      · rename_i pending
        cases taken
        obtain ⟨front, rest, contents, -⟩ := peek sound.formed pending
        exact .take front rest phase contents
      · rename_i nothing
        cases taken
        apply SendEffect.idle phase
        rw [← List.length_eq_zero_iff, contents_length sound.formed]
        omega
  | taken tail =>
      obtain ⟨front, rest, contents, rfl, found, size, -⟩ :=
        front_entry sound tail (by rw [phase]; rfl)
      have first : load front.buffer 0 = some front.command := by
        match shape : front.buffer with
        | [] => simp [shape, bufferSize] at size
        | cell :: _ => simp [load, Entry.command, shape]
      simp only [phase, found, first, Option.bind_eq_bind, Option.bind_some] at taken
      -- A GPIO command gets the newest value before it is stamped.
      by_cases command : front.command = 3
      · have third : 2 < front.buffer.length := by
          rw [size]
          decide
        simp only [command, ↓reduceIte, store, third, Option.bind_some] at taken
        obtain ⟨changed, stored, done⟩ := Option.bind_eq_some_iff.mp taken
        cases done
        obtain ⟨queue, rfl, replaced⟩ := setBuffer_front sound contents stored
        refine .patch front rest queue phase contents ?_
        rw [replaced, Entry.patch, if_pos command]
      · simp only [command, ↓reduceIte] at taken
        cases taken
        refine .patch front rest eth.queue phase contents ?_
        rw [contents, Entry.patch, if_neg command]
  | patched tail =>
      obtain ⟨front, rest, contents, rfl, found, -⟩ :=
        front_entry sound tail (by rw [phase]; rfl)
      simp only [phase, found, Option.bind_eq_bind, Option.bind_some] at taken
      obtain ⟨stamped, done, taken⟩ := Option.bind_eq_some_iff.mp taken
      obtain ⟨changed, stored, taken⟩ := Option.bind_eq_some_iff.mp taken
      cases taken
      obtain ⟨queue, rfl, replaced⟩ := setBuffer_front sound contents stored
      exact .stamp front rest queue stamped phase contents done replaced
  | stamped tail =>
      obtain ⟨front, rest, contents, rfl, found, size, -, fits⟩ :=
        front_entry sound tail (by rw [phase]; rfl)
      have inside : 0 + front.len ≤ front.buffer.length := by
        rw [size, Nat.zero_add]
        exact fits
      simp only [phase, found, loadRange, if_pos inside, Option.bind_eq_bind,
        Option.bind_some] at taken
      cases taken
      exact .transmit front rest phase contents
  | transmitted tail =>
      obtain ⟨rfl, pending⟩ := sound.busy tail (by rw [phase]; rfl)
      obtain ⟨front, rest, contents, -⟩ := peek sound.formed pending
      -- Only now does the slot go back to the writers.
      obtain ⟨-, released⟩ := consume sound.formed pending
      simp only [phase] at taken
      cases taken
      rw [contents, List.drop_one, List.tail_cons] at released
      exact .release front rest _ phase contents released

def SendPhase.changed : SendPhase → Bool
  | .patched _ | .stamped _ => true
  | _ => false

def SendPhase.sent : SendPhase → Bool
  | .transmitted _ => true
  | _ => false

/-- The accepted messages behind the ones whose slots are released, against the
entries of the queue: only the oldest entry can differ from its message, and
only in the hands of the thread. -/
def Pending (link : Link) (released pending : List Entry) : Prop :=
  match link.eth.phase with
  | .waiting | .taken _ =>
      link.eth.queue.contents = pending ∧ List.Forall₂ Delivers released link.transmissions
  | .patched _ | .stamped _ => ∃ message front rest, pending = message :: rest ∧
      link.eth.queue.contents = front :: rest ∧ Carries link.shown message front ∧
      List.Forall₂ Delivers released link.transmissions
  | .transmitted _ => ∃ message front rest, pending = message :: rest ∧
      link.eth.queue.contents = front :: rest ∧
      List.Forall₂ Delivers (released ++ [message]) link.transmissions

structure Queued (link : Link) : Prop where
  sound : Sound link.eth
  pending : ∃ released pending, link.eth.accepted = released ++ pending ∧
    Pending link released pending

theorem queued_connected {link : Link} (connected : Connected link) : Queued link := by
  obtain ⟨initial, -, nothing⟩ := connected
  refine ⟨?_, [], [], ?_, ?_⟩
  · rw [initial]
    exact ⟨initialEth_sound.formed, initialEth_sound.sized, initialEth_sound.lengths,
      initialEth_sound.busy⟩
  · rw [initial]
    rfl
  · unfold Pending
    rw [initial]
    refine ⟨initialEth_empty, ?_⟩
    rw [nothing]
    exact .nil

theorem Pending.accept {link : Link} {released pending : List Entry} {entry : Entry}
    {queue : CircRing Entry} (held : Pending link released pending)
    (contents : queue.contents = link.eth.queue.contents ++ [entry]) :
    Pending { link with eth := { link.eth with
      queue := queue, accepted := link.eth.accepted ++ [entry] } } released (pending ++ [entry]) := by
  unfold Pending at held ⊢
  dsimp only
  cases phase : link.eth.phase with
  | waiting | taken tail =>
      simp only [phase] at held ⊢
      rw [contents, held.1]
      exact ⟨rfl, held.2⟩
  | patched tail | stamped tail =>
      simp only [phase] at held ⊢
      obtain ⟨message, front, rest, rfl, before, carries, delivered⟩ := held
      refine ⟨message, front, rest ++ [entry], rfl, ?_, carries, delivered⟩
      rw [contents, before]
      rfl
  | transmitted tail =>
      simp only [phase] at held ⊢
      obtain ⟨message, front, rest, rfl, before, delivered⟩ := held
      refine ⟨message, front, rest ++ [entry], rfl, ?_, delivered⟩
      rw [contents, before]
      rfl

theorem queued_queue {link : Link} (held : Queued link) (cmd : UInt8) (buffer : List UInt8)
    (short : buffer.length ≤ txChunkSize) :
    ∃ after, link.step (.queue cmd buffer) = some after ∧ Queued after := by
  obtain ⟨sound, released, pending, accepted, progress⟩ := held
  by_cases room : 1 ≤ circSpace link.eth.queue.head link.eth.queue.tail queueLength
  · obtain ⟨entry, queue, queued, kept, contents, -⟩ := queueMsg_room sound cmd buffer short room
    refine ⟨_, by rw [Link.step, queued]; rfl, kept, released, pending ++ [entry], ?_,
      progress.accept contents⟩
    rw [accepted, List.append_assoc]
  · refine ⟨link, ?_, sound, released, pending, accepted, progress⟩
    rw [Link.step, queueMsg_full cmd buffer room]
    rfl

theorem threadStep_eq {link : Link} {eth : Eth} (done : sendStep link.eth = some eth) :
    link.threadStep = some { link with
      eth := eth
      shown := match link.eth.phase with
        | .taken _ => link.eth.gpioValue
        | _ => link.shown
      transmissions := link.transmissions ++ (eth.sent.drop link.eth.sent.length).map
        fun datagram => ⟨datagram, link.shown, link.eth.gpioValue, link.sock⟩ } := by
  simp only [Link.threadStep, done, Option.bind_eq_bind, Option.bind_some, Option.pure_def]

theorem queued_thread {link : Link} (held : Queued link) :
    ∃ after, link.step .thread = some after ∧ Queued after := by
  obtain ⟨sound, released, pending, accepted, progress⟩ := held
  obtain ⟨eth, done, kept, -⟩ := sendStep_sound sound
  refine ⟨_, threadStep_eq done, kept, ?_⟩
  unfold Pending at progress
  -- The entry at the front is the oldest message, changed by the steps taken so far.
  cases sendStep_effect sound done with
  | idle phase empty =>
      rw [phase] at progress
      refine ⟨released, pending, accepted, ?_⟩
      simpa [Pending, phase] using progress
  | take front rest phase contents =>
      rw [phase] at progress
      refine ⟨released, pending, accepted, ?_⟩
      simpa [Pending, phase] using progress
  | patch front rest queue phase contents changed =>
      rw [phase] at progress
      obtain ⟨same, delivered⟩ := progress
      refine ⟨released, pending, accepted, ?_⟩
      refine ⟨front, Entry.patch front link.eth.gpioValue, rest, same.symm.trans contents, changed,
        ?_, ?_⟩
      · simp only [phase]
        exact patch_carries front link.eth.gpioValue
      · simpa using delivered
  | stamp front rest queue stamped phase contents done changed =>
      rw [phase] at progress
      obtain ⟨message, entry, others, shape, same, carries, delivered⟩ := progress
      obtain ⟨rfl, rfl⟩ := List.cons.inj (same.symm.trans contents)
      obtain ⟨long, fits⟩ := front_bounds sound contents
      refine ⟨released, pending, accepted, ?_⟩
      refine ⟨message, _, others, shape, changed, ?_, ?_⟩
      · simp only [phase]
        exact stamp_carries carries long fits done
      · simpa using delivered
  | transmit front rest phase contents =>
      rw [phase] at progress
      obtain ⟨message, entry, others, rfl, same, carries, delivered⟩ := progress
      obtain ⟨rfl, rfl⟩ := List.cons.inj (same.symm.trans contents)
      obtain ⟨long, fits⟩ := front_bounds sound contents
      refine ⟨released, message :: others, accepted, ?_⟩
      refine ⟨message, entry, others, rfl, contents, ?_⟩
      simp only [List.drop_left, List.map_cons, List.map_nil]
      exact List.rel_append delivered
        (.cons (carries_delivers carries long fits _ _) .nil)
  | release front rest queue phase contents freed =>
      rw [phase] at progress
      obtain ⟨message, entry, others, rfl, same, delivered⟩ := progress
      obtain ⟨rfl, rfl⟩ := List.cons.inj (same.symm.trans contents)
      refine ⟨released ++ [message], others, ?_, freed, ?_⟩
      · rw [accepted, List.append_assoc]
        rfl
      · simpa using delivered

theorem Queued.frame {link after : Link} (held : Queued link)
    (queue : after.eth.queue = link.eth.queue) (phase : after.eth.phase = link.eth.phase)
    (accepted : after.eth.accepted = link.eth.accepted) (shown : after.shown = link.shown)
    (transmissions : after.transmissions = link.transmissions) : Queued after := by
  obtain ⟨sound, released, pending, before, progress⟩ := held
  refine ⟨⟨?_, ?_, ?_, ?_⟩, released, pending, accepted.trans before, ?_⟩
  · rw [queue]
    exact sound.formed
  · rw [queue]
    exact sound.sized
  · rw [queue]
    exact sound.lengths
  · rw [queue, phase]
    exact sound.busy
  · unfold Pending at progress ⊢
    rw [queue, phase, shown, transmissions]
    exact progress

theorem keepAlive_step (link : Link) : ∃ msgCnt sent, link.step .keepAlive =
    some { link with eth := { link.eth with msgCnt := msgCnt, sent := sent } } := by
  obtain ⟨stamped, done, -⟩ := stampMsg_length [2, 0, 0, 0] 4 (link.eth.msgCnt + 1) (by decide)
    (by decide)
  by_cases waiting : link.eth.phase = .waiting
  · refine ⟨link.eth.msgCnt + 1, link.eth.sent ++ [stamped], ?_⟩
    simp only [Link.step, Eth.perform, waiting, ↓reduceIte, keepAlive, done,
      Option.bind_eq_bind, Option.bind_some, Option.pure_def, Option.map_some]
  · refine ⟨link.eth.msgCnt, link.eth.sent, ?_⟩
    simp only [Link.step, Eth.perform, waiting, ↓reduceIte, Option.map_some]

theorem queued_step {link : Link} (held : Queued link) (act : LinkAct)
    (short : ∀ cmd buffer, act = .queue cmd buffer → buffer.length ≤ txChunkSize) :
    ∃ after, link.step act = some after ∧ Queued after := by
  cases act with
  | queue cmd buffer => exact queued_queue held cmd buffer (short cmd buffer rfl)
  | thread => exact queued_thread held
  | keepAlive =>
      obtain ⟨msgCnt, sent, done⟩ := keepAlive_step link
      exact ⟨_, done, held.frame rfl rfl rfl rfl rfl⟩
  | gpioStore value => exact ⟨_, rfl, held.frame rfl rfl rfl rfl rfl⟩
  | socket connected => exact ⟨_, rfl, held.frame rfl rfl rfl rfl rfl⟩
  | otherMsg => exact ⟨_, rfl, held.frame rfl rfl rfl rfl rfl⟩

def Eth.remaining (eth : Eth) : Nat :=
  5 * eth.queue.contents.length - match eth.phase with
    | .waiting => 0
    | .taken _ => 1
    | .patched _ => 2
    | .stamped _ => 3
    | .transmitted _ => 4

theorem sendEffect_remaining {eth after : Eth} (effect : SendEffect eth after)
    (nonempty : eth.queue.contents ≠ []) :
    Eth.remaining eth = Eth.remaining after + 1 ∧ after.accepted = eth.accepted := by
  cases effect with
  | idle phase empty => exact absurd empty nonempty
  | take front rest phase contents =>
      simp only [Eth.remaining, phase, contents, List.length_cons, and_true]
      omega
  | patch front rest queue phase contents changed =>
      simp only [Eth.remaining, phase, contents, changed, List.length_cons, and_true]
      omega
  | stamp front rest queue stamped phase contents done changed =>
      simp only [Eth.remaining, phase, contents, changed, List.length_cons, and_true]
      omega
  | transmit front rest phase contents =>
      simp only [Eth.remaining, phase, contents, List.length_cons, and_true]
      omega
  | release front rest queue phase contents freed =>
      simp only [Eth.remaining, phase, contents, freed, List.length_cons, and_true]
      omega

theorem waiting_of_empty {eth : Eth} (sound : Sound eth) (empty : eth.queue.contents = []) :
    eth.phase = .waiting := by
  have nothing : circCnt eth.queue.head eth.queue.tail queueLength = 0 := by
    rw [← contents_length sound.formed, empty]
    rfl
  cases phase : eth.phase with
  | waiting => rfl
  | taken tail | patched tail | stamped tail | transmitted tail =>
      obtain ⟨-, pending⟩ := sound.busy tail (by rw [phase]; rfl)
      omega

/-- Left alone, the thread sends everything that was accepted. -/
theorem drain {link : Link} (held : Queued link) :
    ∃ steps final, run Link.step (fun _ _ => true) link (List.replicate steps .thread) =
        some final ∧ List.Forall₂ Delivers link.eth.accepted final.transmissions := by
  -- Induction on the steps that are left.
  induction count : Eth.remaining link.eth generalizing link with
  | zero =>
      have empty : link.eth.queue.contents = [] := by
        cases shape : link.eth.queue.contents with
        | nil => rfl
        | cons front rest =>
            simp only [Eth.remaining, shape, List.length_cons] at count
            split at count <;> omega
      obtain ⟨sound, released, pending, accepted, progress⟩ := held
      simp only [Pending, waiting_of_empty sound empty, empty] at progress
      obtain ⟨rfl, delivered⟩ := progress
      refine ⟨0, link, rfl, ?_⟩
      rw [accepted, List.append_nil]
      exact delivered
  | succ count ih =>
      have nonempty : link.eth.queue.contents ≠ [] := by
        intro empty
        simp [Eth.remaining, empty] at count
      obtain ⟨eth, done, -⟩ := sendStep_sound held.sound
      obtain ⟨fewer, same⟩ := sendEffect_remaining (sendStep_effect held.sound done) nonempty
      obtain ⟨after, taken, kept⟩ := queued_thread held
      have moved : after.eth = eth := by
        rw [Link.step, threadStep_eq done] at taken
        cases taken
        rfl
      obtain ⟨steps, final, rest, delivered⟩ := ih kept (by rw [moved]; omega)
      refine ⟨steps + 1, final, ?_, ?_⟩
      · rw [List.replicate_succ, run, taken]
        exact rest
      · rw [← same, ← moved]
        exact delivered

structure ExactlyOnce (link : Link) : Prop where
  delivered : List.Forall₂ Delivers (link.eth.accepted.take link.transmissions.length)
    link.transmissions
  waiting : SendPhase.changed link.eth.phase = false →
    link.eth.accepted.drop link.transmissions.length =
      if SendPhase.sent link.eth.phase then link.eth.queue.contents.tail
      else link.eth.queue.contents
  drained : ∃ steps final, run Link.step (fun _ _ => true) link (List.replicate steps .thread) =
    some final ∧ List.Forall₂ Delivers link.eth.accepted final.transmissions
  exclusive : ∀ tail cmd buffer after, link.eth.phase.tail? = some tail →
    queueMsg link.eth cmd buffer = some after →
    load after.queue.buf tail = load link.eth.queue.buf tail
  rejected : ∀ cmd buffer after, queueMsg link.eth cmd buffer = some after →
    after.accepted = link.eth.accepted → link.eth.queue.contents.length = 31
  head : link.eth.queue.head < 32
  tail : link.eth.queue.tail < 32

/-- A producer writes at the head, which a busy thread never works on. -/
theorem queueMsg_exclusive {eth after : Eth} (sound : Sound eth) {tail : Nat} {cmd : UInt8}
    {buffer : List UInt8} (busy : eth.phase.tail? = some tail)
    (done : queueMsg eth cmd buffer = some after) :
    load after.queue.buf tail = load eth.queue.buf tail := by
  obtain ⟨rfl, pending⟩ := sound.busy tail busy
  have apart : eth.queue.head ≠ eth.queue.tail := by
    intro same
    rw [same, circCnt, Nat.add_sub_cancel_left, Nat.mod_self] at pending
    omega
  simp only [queueMsg] at done
  split at done
  · simp only [Option.bind_eq_bind, Option.bind_eq_some_iff] at done
    obtain ⟨entry, -, first, -, second, -, third, -, entries, stored, final⟩ := done
    cases final
    rw [store] at stored
    split at stored
    · cases stored
      rw [load, load]
      exact List.getElem?_set_ne apart
    · cases stored
  · cases done
    rfl

theorem queueMsg_rejected {eth after : Eth} (sound : Sound eth) {cmd : UInt8}
    {buffer : List UInt8} (done : queueMsg eth cmd buffer = some after)
    (same : after.accepted = eth.accepted) : eth.queue.contents.length = 31 := by
  simp only [queueMsg] at done
  split at done
  · simp only [Option.bind_eq_bind, Option.bind_eq_some_iff] at done
    obtain ⟨entry, -, first, -, second, -, third, -, entries, -, final⟩ := done
    cases final
    simp at same
  · rename_i full
    have bounded : circCnt eth.queue.head eth.queue.tail queueLength < queueLength :=
      Nat.mod_lt _ (by decide)
    rw [circSpace_eq sound.formed.head sound.formed.tail] at full
    rw [contents_length sound.formed]
    unfold queueLength at *
    omega

theorem Queued.exactlyOnce {link : Link} (held : Queued link) : ExactlyOnce link := by
  have drained := drain held
  obtain ⟨sound, released, pending, accepted, progress⟩ := held
  have shape : ∃ sent unsent, link.eth.accepted = sent ++ unsent ∧
      List.Forall₂ Delivers sent link.transmissions ∧
      (SendPhase.changed link.eth.phase = false → unsent =
        if SendPhase.sent link.eth.phase then link.eth.queue.contents.tail
        else link.eth.queue.contents) := by
    unfold Pending at progress
    cases phase : link.eth.phase with
    | waiting | taken tail =>
        simp only [phase] at progress
        exact ⟨released, pending, accepted, progress.2, fun _ => progress.1.symm⟩
    | patched tail | stamped tail =>
        simp only [phase] at progress
        obtain ⟨message, front, rest, rfl, -, -, delivered⟩ := progress
        exact ⟨released, message :: rest, accepted, delivered, fun changed => by cases changed⟩
    | transmitted tail =>
        simp only [phase] at progress
        obtain ⟨message, front, rest, rfl, contents, delivered⟩ := progress
        refine ⟨released ++ [message], rest, ?_, delivered, ?_⟩
        · rw [accepted, List.append_assoc]
          rfl
        · intro
          rw [contents]
          rfl
  obtain ⟨sent, unsent, split, delivered, rest⟩ := shape
  have length := delivered.length_eq
  refine ⟨?_, ?_, drained, ?_, ?_, sound.formed.head, sound.formed.tail⟩
  · rw [split, ← length, List.take_left]
    exact delivered
  · rw [split, ← length, List.drop_left]
    exact rest
  · intro tail cmd buffer after busy done
    exact queueMsg_exclusive sound busy done
  · intro cmd buffer after done same
    exact queueMsg_rejected sound done same

section Runs
variable {admitted : Link → LinkAct → Prop}

theorem queued_reachable
    (short : ∀ link cmd buffer, admitted link (.queue cmd buffer) → buffer.length ≤ txChunkSize)
    {link : Link} (reached : Reachable Link.step admitted Connected link) : Queued link := by
  apply reached.invariant (fun _ => queued_connected)
  intro before act after held allowed taken
  obtain ⟨next, done, kept⟩ := queued_step held act (by
    rintro cmd buffer rfl
    exact short before cmd buffer allowed)
  rw [taken] at done
  cases done
  exact kept

/-- The thread shows the current value as long as nobody stores another one
between its read and the transmission. -/
structure Current (link : Link) : Prop where
  inHand : SendPhase.changed link.eth.phase = true → link.shown = link.eth.gpioValue
  sent : ∀ transmission ∈ link.transmissions, transmission.shown = transmission.current

theorem current_thread {link after : Link} (queued : Queued link) (held : Current link)
    (taken : link.step .thread = some after) : Current after := by
  obtain ⟨eth, done, -⟩ := sendStep_sound queued.sound
  rw [Link.step, threadStep_eq done] at taken
  cases taken
  cases sendStep_effect queued.sound done with
  | idle phase empty =>
      refine ⟨fun changed => ?_, by simpa using held.sent⟩
      rw [phase] at changed
      cases changed
  | take front rest phase contents => exact ⟨nofun, by simpa using held.sent⟩
  | patch front rest queue phase contents changed =>
      refine ⟨fun _ => ?_, by simpa using held.sent⟩
      simp only [phase]
  | stamp front rest queue stamped phase contents done changed =>
      refine ⟨fun _ => ?_, by simpa using held.sent⟩
      simp only [phase]
      exact held.inHand (by rw [phase]; rfl)
  | transmit front rest phase contents =>
      refine ⟨nofun, ?_⟩
      intro transmission member
      simp only [List.drop_left, List.map_cons, List.map_nil] at member
      rcases List.mem_append.mp member with older | new
      · exact held.sent transmission older
      · cases List.mem_singleton.mp new
        exact held.inHand (by rw [phase]; rfl)
  | release front rest queue phase contents freed => exact ⟨nofun, by simpa using held.sent⟩

theorem step_frame {link after : Link} {act : LinkAct} (other : act ≠ .thread)
    (taken : link.step act = some after) :
    after.eth.phase = link.eth.phase ∧ after.shown = link.shown ∧
      after.transmissions = link.transmissions ∧
      ((∀ value, act ≠ .gpioStore value) → after.eth.gpioValue = link.eth.gpioValue) ∧
      ((∀ connected, act ≠ .socket connected) → after.sock = link.sock) := by
  -- Only the thread moves the phase and the transmissions.
  cases act with
  | queue cmd buffer =>
      obtain ⟨eth, done, rfl⟩ := Option.map_eq_some_iff.mp taken
      simp only [queueMsg] at done
      split at done
      · simp only [Option.bind_eq_bind, Option.bind_eq_some_iff] at done
        obtain ⟨entry, -, first, -, second, -, third, -, entries, -, final⟩ := done
        cases final
        exact ⟨rfl, rfl, rfl, fun _ => rfl, fun _ => rfl⟩
      · cases done
        exact ⟨rfl, rfl, rfl, fun _ => rfl, fun _ => rfl⟩
  | thread => exact absurd rfl other
  | keepAlive =>
      obtain ⟨msgCnt, sent, done⟩ := keepAlive_step link
      rw [done] at taken
      cases taken
      exact ⟨rfl, rfl, rfl, fun _ => rfl, fun _ => rfl⟩
  | gpioStore value =>
      cases taken
      exact ⟨rfl, rfl, rfl, fun differs => absurd rfl (differs value), fun _ => rfl⟩
  | socket connected =>
      cases taken
      exact ⟨rfl, rfl, rfl, fun _ => rfl, fun differs => absurd rfl (differs connected)⟩
  | otherMsg =>
      cases taken
      exact ⟨rfl, rfl, rfl, fun _ => rfl, fun _ => rfl⟩

theorem current_reachable
    (short : ∀ link cmd buffer, admitted link (.queue cmd buffer) → buffer.length ≤ txChunkSize)
    (steady : ∀ link value, admitted link (.gpioStore value) →
      SendPhase.changed link.eth.phase = false)
    {link : Link} (reached : Reachable Link.step admitted Connected link) : Current link := by
  induction reached with
  | start connected =>
      obtain ⟨initial, -, nothing⟩ := connected
      refine ⟨?_, ?_⟩
      · rw [initial]
        nofun
      · rw [nothing]
        nofun
  | next act prior allowed taken ih =>
      by_cases thread : act = .thread
      · subst thread
        exact current_thread (queued_reachable short prior) ih taken
      · obtain ⟨phase, shown, transmissions, value, -⟩ := step_frame thread taken
        refine ⟨fun changed => ?_, by rw [transmissions]; exact ih.sent⟩
        rw [phase] at changed
        have unstored : ∀ value, act ≠ .gpioStore value := by
          rintro octet rfl
          rw [steady _ octet allowed] at changed
          cases changed
        rw [shown, value unstored]
        exact ih.inHand changed

theorem connected_reachable
    (stays : ∀ link, ¬ admitted link (.socket false))
    {link : Link} (reached : Reachable Link.step admitted Connected link) :
    link.sock = true ∧ ∀ transmission ∈ link.transmissions, transmission.connected = true := by
  induction reached with
  | start connected =>
      obtain ⟨-, sock, nothing⟩ := connected
      refine ⟨sock, ?_⟩
      rw [nothing]
      nofun
  | next act prior allowed taken ih =>
      obtain ⟨sock, sent⟩ := ih
      by_cases thread : act = .thread
      · subst thread
        obtain ⟨eth, done, final⟩ := Option.bind_eq_some_iff.mp taken
        cases final
        refine ⟨sock, ?_⟩
        intro transmission member
        rcases List.mem_append.mp member with older | new
        · exact sent transmission older
        · obtain ⟨datagram, -, rfl⟩ := List.mem_map.mp new
          exact sock
      · obtain ⟨-, -, transmissions, -, kept⟩ := step_frame thread taken
        rw [transmissions]
        refine ⟨?_, sent⟩
        cases act with
        | socket connected =>
            cases connected with
            | false => exact absurd allowed (stays _)
            | true =>
                cases taken
                rfl
        | _ => exact (kept nofun).trans sock

end Runs

/-- The send queue is an exactly-once queue in every run: the datagrams are the
accepted messages in order, no producer touches the entry of the thread, and a
message is rejected only by a full queue. No step leaves the queue or an entry.
The value byte is the one `gpio_value` had when the thread read it, which is the
one at the transmission if it is not stored to in between. -/
theorem queue_exactly_once (admitted : Link → LinkAct → Prop)
    (short : ∀ link cmd buffer, admitted link (.queue cmd buffer) → buffer.length ≤ txChunkSize)
    (link : Link) (reached : Reachable Link.step admitted Connected link) :
    ExactlyOnce link ∧
      (∀ act, admitted link act → ∃ after, link.step act = some after) ∧
      ((∀ link value, admitted link (.gpioStore value) →
          SendPhase.changed link.eth.phase = false) →
        ∀ transmission ∈ link.transmissions, transmission.shown = transmission.current) ∧
      ((∀ link, ¬ admitted link (.socket false)) →
        ∀ transmission ∈ link.transmissions, transmission.connected = true) := by
  have queued := queued_reachable short reached
  refine ⟨queued.exactlyOnce, ?_, ?_, ?_⟩
  · intro act allowed
    obtain ⟨after, taken, -⟩ := queued_step queued act (by
      rintro cmd buffer rfl
      exact short link cmd buffer allowed)
    exact ⟨after, taken⟩
  · intro steady
    exact (current_reachable short steady reached).sent
  · intro stays
    exact (connected_reachable stays reached).2

def producing (_ : Link) : LinkAct → Bool
  | .queue _ buffer => buffer.length ≤ txChunkSize
  | .thread => true
  | _ => false

def ledRun : Option Link :=
  run Link.step producing ⟨{ initialEth with gpioValue := 5 }, true, 0, []⟩
    [.queue 3 [1], .thread, .thread, .queue 7 [0xfd, 0], .thread, .thread, .thread, .thread,
      .thread, .thread, .thread]

/-- The value byte of the command-3 message is replaced, the other one goes out
as it is. -/
theorem queue_exactly_once_led :
    ∃ link, ledRun = some link ∧
      link.transmissions.map (fun sent => (sent.command, sent.payload, sent.current)) =
        [(3, [5], 5), (7, [0xfd, 0], 5)] ∧
      ExactlyOnce link ∧ (∀ sent ∈ link.transmissions, sent.shown = sent.current) ∧
      ∀ sent ∈ link.transmissions, sent.connected = true := by
  have evaluated : ledRun.map (fun link => link.transmissions.map fun sent =>
      (sent.command, sent.payload, sent.current)) =
        some [(3, [5], 5), (7, [0xfd, 0], 5)] := by decide +kernel
  obtain ⟨link, done, sent⟩ := Option.map_eq_some_iff.mp evaluated
  obtain ⟨once, -, current, connected⟩ := queue_exactly_once
    (fun link act => producing link act = true)
    (fun _ _ _ allowed => by simpa [producing] using allowed) link
    (run_reachable (fun _ _ passed => passed) _ (.start ⟨rfl, rfl, rfl⟩) done)
  exact ⟨link, done, sent, once, current (fun _ _ allowed => by cases allowed),
    connected (fun _ allowed => by cases allowed)⟩

end PiVccu.HbRfEthQueue
