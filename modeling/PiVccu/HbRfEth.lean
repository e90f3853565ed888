import PiVccu.BigEndian
import PiVccu.CircBuf
import PiVccu.Crc16
import PiVccu.RawUartTx

/-!
`kernel/hb_rf_eth.c`: the send queue, the thread that empties it and the driver
that the raw uart transmits through. A producer runs under `queue_write_lock`
and is one step; the thread takes the queue's indices, patches, stamps and
transmits the entry and advances the tail in steps of its own. `none` is an
access outside the queue or an entry.
-/

namespace PiVccu.HbRfEth
open BigEndian ByteBuffer CircBuf

def bufferSize : Nat := 1500
def txChunkSize : Nat := 1468
def queueLength : Nat := 32

structure Entry where
  buffer : List UInt8
  len : Nat
deriving DecidableEq

def Entry.command (entry : Entry) : UInt8 := entry.buffer.headD 0

def Entry.payload (entry : Entry) : List UInt8 := (entry.buffer.drop 2).take (entry.len - 4)

/-- Where `hb_rf_eth_send_threadproc` stands, with its copy of the tail. -/
inductive SendPhase where
  | waiting
  | taken (tail : Nat)
  | patched (tail : Nat)
  | stamped (tail : Nat)
  | transmitted (tail : Nat)
deriving DecidableEq

/-- The state behind the driver. `accepted` records the entries as they were
queued and `sent` the datagrams in the order they went out. -/
structure Eth where
  queue : CircRing Entry
  gpioValue : UInt8
  msgCnt : Nat
  phase : SendPhase
  accepted : List Entry
  sent : List (List UInt8)
deriving DecidableEq

def calcCrc (octets : List UInt8) : UInt16 := Crc16.remainder 0x8005 0xd77f octets

def queueMsg (eth : Eth) (cmd : UInt8) (buffer : List UInt8) : Option Eth :=
  let head := eth.queue.head
  if circSpace head eth.queue.tail queueLength ≥ 1 then do
    let entry ← load eth.queue.buf head
    let octets ← store entry.buffer 0 cmd
    let octets ← store octets 1 0
    let octets ← memcpy octets 2 buffer
    let filled : Entry := ⟨octets, buffer.length + 4⟩
    let entries ← store eth.queue.buf head filled
    return { eth with
      queue := { eth.queue with buf := entries, head := (head + 1) % queueLength }
      accepted := eth.accepted ++ [filled] }
  else some eth

/-- The stamps that `hb_rf_eth_send_msg` puts on a message: the counter and the
checksum in network byte order. -/
def stampMsg (buffer : List UInt8) (len count : Nat) : Option (List UInt8) := do
  let buffer ← store buffer 1 (UInt8.ofNat count)
  let covered ← loadRange buffer 0 (len - 2)
  memcpy buffer (len - 2) [highByte (calcCrc covered), lowByte (calcCrc covered)]

def Eth.setBuffer (eth : Eth) (index : Nat) (entry : Entry) (buffer : List UInt8) : Option Eth := do
  let entries ← store eth.queue.buf index { entry with buffer := buffer }
  return { eth with queue := { eth.queue with buf := entries } }

def sendStep (eth : Eth) : Option Eth :=
  match eth.phase with
  | .waiting =>
      if circCnt eth.queue.head eth.queue.tail queueLength ≥ 1 then
        some { eth with phase := .taken eth.queue.tail }
      else some eth
  | .taken tail => do
      let entry ← load eth.queue.buf tail
      let cmd ← load entry.buffer 0
      let eth ← if cmd = 3 then do
          let buffer ← store entry.buffer 2 eth.gpioValue
          eth.setBuffer tail entry buffer
        else some eth
      return { eth with phase := .patched tail }
  | .patched tail => do
      let entry ← load eth.queue.buf tail
      let buffer ← stampMsg entry.buffer entry.len (eth.msgCnt + 1)
      let eth ← eth.setBuffer tail entry buffer
      return { eth with msgCnt := eth.msgCnt + 1, phase := .stamped tail }
  | .stamped tail => do
      let entry ← load eth.queue.buf tail
      let datagram ← loadRange entry.buffer 0 entry.len
      return { eth with sent := eth.sent ++ [datagram], phase := .transmitted tail }
  | .transmitted tail =>
      some { eth with
        queue := { eth.queue with tail := (tail + 1) % queueLength }
        phase := .waiting }

/-- The keep-alive message of the send thread, from a buffer of its own. -/
def keepAlive (eth : Eth) : Option Eth := do
  let datagram ← stampMsg [2, 0, 0, 0] 4 (eth.msgCnt + 1)
  return { eth with msgCnt := eth.msgCnt + 1, sent := eth.sent ++ [datagram] }

inductive Activity where
  | gpioStore (value : UInt8)
  | sendGpio
  | sendReset
  | startConnection
  | stopConnection
  | sendThread
  | keepAlive

def Eth.perform (eth : Eth) : Activity → Option Eth
  | .gpioStore value => some { eth with gpioValue := value }
  | .sendGpio => queueMsg eth 3 [eth.gpioValue]
  | .sendReset => queueMsg eth 4 []
  | .startConnection => queueMsg eth 5 []
  | .stopConnection => queueMsg eth 6 []
  | .sendThread => sendStep eth
  | .keepAlive => if eth.phase = .waiting then HbRfEth.keepAlive eth else some eth

def driver : RawUartTx.RawUartDriver (Option Eth) where
  initTx := id
  isreadyForTx _ := true
  txChars eth octets := eth.bind fun eth => queueMsg eth 7 octets
  stopTx := id
  txChunkSize := txChunkSize
  txBulktransferSize := txChunkSize
  chunk_pos := by decide
  bulk_pos := by decide

def SendPhase.tail? : SendPhase → Option Nat
  | .waiting => none
  | .taken tail | .patched tail | .stamped tail | .transmitted tail => some tail

/-- The queue and its entries keep their sizes, and the thread works on the
oldest entry. -/
structure Sound (eth : Eth) : Prop where
  formed : eth.queue.WellFormed queueLength
  sized : ∀ entry ∈ eth.queue.buf, entry.buffer.length = bufferSize
  lengths : ∀ entry ∈ eth.queue.contents, 4 ≤ entry.len ∧ entry.len ≤ bufferSize
  busy : ∀ tail, eth.phase.tail? = some tail →
    tail = eth.queue.tail ∧ 1 ≤ circCnt eth.queue.head eth.queue.tail queueLength

theorem fill_entry (entry : Entry) (sized : entry.buffer.length = bufferSize) (cmd : UInt8)
    (buffer : List UInt8) (short : buffer.length ≤ txChunkSize) :
    ∃ octets, ((store entry.buffer 0 cmd).bind fun first => (store first 1 0).bind fun second =>
        memcpy second 2 buffer) = some octets ∧ octets.length = bufferSize ∧
      Entry.command ⟨octets, buffer.length + 4⟩ = cmd ∧
      Entry.payload ⟨octets, buffer.length + 4⟩ = buffer := by
  unfold bufferSize txChunkSize at *
  match shape : entry.buffer with
  | [] => simp [shape] at sized
  | [_] => simp [shape] at sized
  | old :: counter :: rest =>
      have size : rest.length = 1498 := by
        rw [shape] at sized
        simpa using sized
      have within : buffer.length ≤ rest.length := by omega
      refine ⟨cmd :: 0 :: (buffer ++ rest.drop buffer.length), ?_, ?_, rfl, ?_⟩
      · simp only [store, List.length_cons, Nat.zero_lt_succ, ↓reduceIte, List.set_cons_zero,
          Option.bind_some, Nat.lt_add_left_iff_pos, List.set_cons_succ, memcpy]
        simp [Nat.add_comm 2, within]
      · simp only [List.length_cons, List.length_append, List.length_drop]
        omega
      · simp [Entry.payload]

theorem queueMsg_full {eth : Eth} (cmd : UInt8) (buffer : List UInt8)
    (full : ¬ 1 ≤ circSpace eth.queue.head eth.queue.tail queueLength) :
    queueMsg eth cmd buffer = some eth := by
  simp only [queueMsg, ge_iff_le, full, ↓reduceIte]

theorem queueMsg_room {eth : Eth} (sound : Sound eth) (cmd : UInt8) (buffer : List UInt8)
    (short : buffer.length ≤ txChunkSize)
    (room : 1 ≤ circSpace eth.queue.head eth.queue.tail queueLength) :
    ∃ entry queue, queueMsg eth cmd buffer =
        some { eth with queue := queue, accepted := eth.accepted ++ [entry] } ∧
      Sound { eth with queue := queue, accepted := eth.accepted ++ [entry] } ∧
      queue.contents = eth.queue.contents ++ [entry] ∧
      entry.command = cmd ∧ entry.payload = buffer := by
  have inside : eth.queue.head < eth.queue.buf.length := by
    rw [sound.formed.sized]
    exact sound.formed.head
  have found : load eth.queue.buf eth.queue.head = some eth.queue.buf[eth.queue.head] :=
    List.getElem?_eq_getElem inside
  obtain ⟨octets, filled, size, command, payload⟩ := fill_entry eth.queue.buf[eth.queue.head]
    (sound.sized _ (List.getElem_mem inside)) cmd buffer short
  obtain ⟨entries, stored, formed, contents⟩ := push sound.formed room ⟨octets, buffer.length + 4⟩
  obtain ⟨first, one, filled⟩ := Option.bind_eq_some_iff.mp filled
  obtain ⟨second, two, three⟩ := Option.bind_eq_some_iff.mp filled
  refine ⟨⟨octets, buffer.length + 4⟩,
    ⟨entries, (eth.queue.head + 1) % queueLength, eth.queue.tail⟩, ?_, ?_, contents, command,
    payload⟩
  · simp only [queueMsg, ge_iff_le, room, ↓reduceIte, found, one, two, three, stored,
      Option.bind_eq_bind, Option.bind_some, Option.pure_def]
  · refine ⟨formed, ?_, ?_, ?_⟩
    · intro entry member
      rcases mem_of_store stored member with rfl | older
      · exact size
      · exact sound.sized entry older
    · intro entry member
      rw [contents] at member
      rcases List.mem_append.mp member with older | new
      · exact sound.lengths entry older
      · cases List.mem_singleton.mp new
        unfold txChunkSize at short
        unfold bufferSize
        dsimp only
        omega
    · -- A busy sender keeps its entry: the new one goes behind it.
      intro tail busy
      obtain ⟨same, pending⟩ := sound.busy tail busy
      refine ⟨same, ?_⟩
      have grown := circCnt_advance_head sound.formed.head sound.formed.tail room
      dsimp only
      rw [grown]
      omega

theorem setBuffer_sound {eth : Eth} (sound : Sound eth)
    (pending : 1 ≤ circCnt eth.queue.head eth.queue.tail queueLength) {entry : Entry}
    (found : load eth.queue.buf eth.queue.tail = some entry) (buffer : List UInt8)
    (size : buffer.length = bufferSize) :
    ∃ queue, eth.setBuffer eth.queue.tail entry buffer = some { eth with queue := queue } ∧
      Sound { eth with queue := queue } ∧ queue.tail = eth.queue.tail := by
  obtain ⟨oldest, rest, contents, here⟩ := peek sound.formed pending
  rw [found] at here
  cases here
  obtain ⟨entries, stored, formed, changed⟩ := poke sound.formed pending
    { entry with buffer := buffer }
  refine ⟨{ eth.queue with buf := entries }, ?_, ⟨formed, ?_, ?_, sound.busy⟩, rfl⟩
  · simp only [Eth.setBuffer, stored, Option.bind_eq_bind, Option.bind_some, Option.pure_def]
  · intro other member
    rcases mem_of_store stored member with rfl | older
    · exact size
    · exact sound.sized other older
  · intro other member
    rw [changed, contents, List.tail_cons] at member
    have lengths := sound.lengths
    rw [contents] at lengths
    rcases List.mem_cons.mp member with rfl | older
    · exact lengths entry (List.mem_cons_self ..)
    · exact lengths other (List.mem_cons_of_mem _ older)

theorem stampMsg_eq (buffer : List UInt8) (len count : Nat) (long : 4 ≤ len)
    (fits : len ≤ buffer.length) :
    stampMsg buffer len count =
      let counted := buffer.set 1 (UInt8.ofNat count)
      let crc := calcCrc (counted.take (len - 2))
      some (counted.take (len - 2) ++ [highByte crc, lowByte crc] ++ counted.drop len) := by
  have second : 1 < buffer.length := by omega
  have whole : len - 2 + 2 = len := by omega
  have inner : len - 2 ≤ (buffer.set 1 (UInt8.ofNat count)).length := by
    rw [List.length_set]
    omega
  have outer : len ≤ (buffer.set 1 (UInt8.ofNat count)).length := by
    rw [List.length_set]
    exact fits
  simp only [stampMsg, store, second, ↓reduceIte, loadRange, memcpy, Option.bind_eq_bind,
    Option.bind_some, List.drop_zero, List.length_cons, List.length_nil, Nat.zero_add,
    Nat.reduceAdd, whole, inner, outer]

theorem stampMsg_length (buffer : List UInt8) (len count : Nat) (long : 4 ≤ len)
    (fits : len ≤ buffer.length) :
    ∃ stamped, stampMsg buffer len count = some stamped ∧ stamped.length = buffer.length := by
  refine ⟨_, stampMsg_eq buffer len count long fits, ?_⟩
  simp only [List.length_append, List.length_take, List.length_drop, List.length_set,
    List.length_cons, List.length_nil]
  omega

theorem Sound.entry {eth : Eth} (sound : Sound eth) {tail : Nat}
    (busy : eth.phase.tail? = some tail) :
    tail = eth.queue.tail ∧ 1 ≤ circCnt eth.queue.head eth.queue.tail queueLength ∧
      ∃ entry, load eth.queue.buf eth.queue.tail = some entry ∧
        entry.buffer.length = bufferSize ∧ 4 ≤ entry.len ∧ entry.len ≤ bufferSize := by
  obtain ⟨same, pending⟩ := sound.busy tail busy
  obtain ⟨entry, rest, contents, found⟩ := peek sound.formed pending
  have lengths := sound.lengths entry (by rw [contents]; exact List.mem_cons_self ..)
  have size := sound.sized entry (List.mem_of_getElem? found)
  exact ⟨same, pending, entry, found, size, lengths⟩

theorem Sound.forward {eth after : Eth} (sound : Sound eth) (queue : after.queue = eth.queue)
    (same : after.phase.tail? = eth.phase.tail?) : Sound after := by
  constructor
  · rw [queue]
    exact sound.formed
  · rw [queue]
    exact sound.sized
  · rw [queue]
    exact sound.lengths
  · intro tail busy
    rw [same] at busy
    rw [queue]
    exact sound.busy tail busy

theorem sendStep_sound {eth : Eth} (sound : Sound eth) :
    ∃ after, sendStep eth = some after ∧ Sound after ∧ after.accepted = eth.accepted := by
  unfold sendStep
  cases phase : eth.phase with
  | waiting =>
      dsimp only
      split
      · rename_i pending
        refine ⟨_, rfl, ⟨sound.formed, sound.sized, sound.lengths, ?_⟩, rfl⟩
        rintro tail ⟨⟩
        exact ⟨rfl, pending⟩
      · exact ⟨_, rfl, sound, rfl⟩
  | taken tail =>
      obtain ⟨rfl, pending, entry, found, size, -, -⟩ := sound.entry (by rw [phase]; rfl)
      have first : 0 < entry.buffer.length := by
        rw [size]
        decide
      have third : 2 < entry.buffer.length := by
        rw [size]
        decide
      have command : load entry.buffer 0 = some entry.buffer[0] := List.getElem?_eq_getElem first
      dsimp only
      rw [found, Option.bind_eq_bind, Option.bind_some, command, Option.bind_eq_bind,
        Option.bind_some]
      split
      · obtain ⟨queue, changed, kept, same⟩ := setBuffer_sound sound pending found
          (entry.buffer.set 2 eth.gpioValue) (by rw [List.length_set]; exact size)
        refine ⟨{ eth with queue := queue, phase := .patched eth.queue.tail }, ?_,
          kept.forward rfl (by rw [phase]; rfl), rfl⟩
        simp only [store, third, ↓reduceIte, Option.bind_eq_bind, Option.bind_some, changed,
          Option.pure_def]
      · exact ⟨{ eth with phase := .patched eth.queue.tail }, rfl,
          sound.forward rfl (by rw [phase]; rfl), rfl⟩
  | patched tail =>
      obtain ⟨rfl, pending, entry, found, size, long, fits⟩ := sound.entry (by rw [phase]; rfl)
      obtain ⟨stamped, done, same⟩ := stampMsg_length entry.buffer entry.len (eth.msgCnt + 1) long
        (by rw [size]; exact fits)
      obtain ⟨queue, changed, kept, -⟩ := setBuffer_sound sound pending found stamped
        (same.trans size)
      refine ⟨{ eth with
        queue := queue, msgCnt := eth.msgCnt + 1, phase := .stamped eth.queue.tail }, ?_,
        kept.forward rfl (by rw [phase]; rfl), rfl⟩
      simp only [found, done, changed, Option.bind_eq_bind, Option.bind_some, Option.pure_def]
  | stamped tail =>
      obtain ⟨rfl, pending, entry, found, size, -, fits⟩ := sound.entry (by rw [phase]; rfl)
      have inside : 0 + entry.len ≤ entry.buffer.length := by
        rw [size, Nat.zero_add]
        exact fits
      refine ⟨{ eth with
        sent := eth.sent ++ [(entry.buffer.drop 0).take entry.len]
        phase := .transmitted eth.queue.tail }, ?_,
        sound.forward rfl (by rw [phase]; rfl), rfl⟩
      simp only [found, loadRange, if_pos inside, Option.bind_eq_bind, Option.bind_some,
        Option.pure_def]
  -- The entry was the oldest one; the others move up.
  | transmitted tail =>
      obtain ⟨rfl, pending⟩ := sound.busy tail (by rw [phase]; rfl)
      obtain ⟨formed, rest⟩ := consume sound.formed pending
      refine ⟨_, rfl, ⟨formed, sound.sized, ?_, ?_⟩, rfl⟩
      · intro entry member
        rw [rest] at member
        exact sound.lengths entry (List.mem_of_mem_drop member)
      · rintro tail ⟨⟩

def Eth.transmissions (eth : Eth) : List (List UInt8) :=
  (eth.accepted.filter fun entry => entry.command = 7).map Entry.payload

theorem queueMsg_other {eth : Eth} (sound : Sound eth) (cmd : UInt8) (buffer : List UInt8)
    (short : buffer.length ≤ txChunkSize) (other : cmd ≠ 7) :
    ∃ after, queueMsg eth cmd buffer = some after ∧ Sound after ∧
      after.transmissions = eth.transmissions := by
  by_cases room : 1 ≤ circSpace eth.queue.head eth.queue.tail queueLength
  · obtain ⟨entry, queue, queued, kept, -, command, -⟩ := queueMsg_room sound cmd buffer short room
    refine ⟨_, queued, kept, ?_⟩
    simp [Eth.transmissions, command, other]
  · exact ⟨eth, queueMsg_full cmd buffer room, sound, rfl⟩

theorem perform_sound {eth : Eth} (sound : Sound eth) (activity : Activity) :
    ∃ after, eth.perform activity = some after ∧ Sound after ∧
      after.transmissions = eth.transmissions := by
  cases activity with
  | gpioStore value =>
      exact ⟨_, rfl, sound.forward rfl rfl, rfl⟩
  | sendGpio => exact queueMsg_other sound 3 [eth.gpioValue] (by simp [txChunkSize]) (by decide)
  | sendReset => exact queueMsg_other sound 4 [] (by decide) (by decide)
  | startConnection => exact queueMsg_other sound 5 [] (by decide) (by decide)
  | stopConnection => exact queueMsg_other sound 6 [] (by decide) (by decide)
  | sendThread =>
      obtain ⟨after, done, kept, same⟩ := sendStep_sound sound
      refine ⟨after, done, kept, ?_⟩
      rw [Eth.transmissions, same, Eth.transmissions]
  | keepAlive =>
      simp only [Eth.perform]
      split
      · obtain ⟨stamped, done, -⟩ := stampMsg_length [2, 0, 0, 0] 4 (eth.msgCnt + 1) (by decide)
          (by decide)
        refine ⟨{ eth with msgCnt := eth.msgCnt + 1, sent := eth.sent ++ [stamped] }, ?_,
          sound.forward rfl rfl, rfl⟩
        simp only [keepAlive, done, Option.bind_eq_bind, Option.bind_some, Option.pure_def]
      · exact ⟨eth, rfl, sound, rfl⟩

end PiVccu.HbRfEth
