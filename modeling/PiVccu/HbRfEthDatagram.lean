import PiVccu.HbRfEthLoss

/-!
The datagrams of HB-RF-ETH between two hosts: a message is put into an entry by
`hb_rf_eth_queue_msg`, stamped by `hb_rf_eth_send_msg`, received by
`hb_rf_eth_recv_packet` and taken apart by `hb_rf_eth_recv_threadproc`. The
checksum is stored and compared as a 16-bit word of the host. As elsewhere,
`none` is an access outside a buffer.
-/

namespace PiVccu.HbRfEthDatagram
open BigEndian ByteBuffer CircBuf HbRfEth HbRfEthLoss

def storeWord (order : HostOrder) (memory : List UInt8) (index : Nat) (word : UInt16) :
    Option (List UInt8) :=
  memcpy memory index (wordBytes order word)

def loadWord (order : HostOrder) (memory : List UInt8) (index : Nat) : Option UInt16 := do
  let first ← load memory index
  let second ← load memory (index + 1)
  return wordOf order first second

/-- `hb_rf_eth_send_msg` up to the socket: the stamped buffer, the bytes for
`kernel_sendmsg` and the new value of `msg_cnt`. -/
def sendMsg (order : HostOrder) (buffer : List UInt8) (len : Nat) (msgCnt : UInt32) :
    Option (List UInt8 × List UInt8 × UInt32) := do
  let buffer ← store buffer 1 (msgCnt + 1).toUInt8
  let covered ← loadRange buffer 0 (len - 2)
  let buffer ← storeWord order buffer (len - 2) (htons order (calcCrc covered))
  let datagram ← loadRange buffer 0 len
  return (buffer, datagram, msgCnt + 1)

inductive Reception where
  | failed (err : Nat)
  | datagram (octets : List UInt8)

def eproto : Int := 71

/-- The return value and the buffer of `hb_rf_eth_recv_packet`. A datagram that
is longer than the buffer is cut by the socket. -/
def recvPacket (order : HostOrder) (sock : Bool) (buffer : List UInt8) (reception : Reception) :
    Option (Int × List UInt8) :=
  if sock = false then some (-eproto, buffer)
  else match reception with
  | .failed err => some (-err, buffer)
  | .datagram octets => do
      let len := min octets.length buffer.length
      let buffer ← memcpy buffer 0 (octets.take len)
      if len > 0 then
        if len < 4 then return (-eproto, buffer)
        let crc ← loadWord order buffer (len - 2)
        let covered ← loadRange buffer 0 (len - 2)
        if crc ≠ htons order (calcCrc covered) then return (-eproto, buffer)
      return (len, buffer)

/-- The loop over the payload: the bytes handed to
`generic_raw_uart_handle_rx_char` from index `i` on. -/
def rxChars (buffer : List UInt8) (i : Nat) : Nat → Option (List UInt8)
  | 0 => some []
  | count + 1 => do
      let octet ← load buffer i
      let rest ← rxChars buffer (i + 1) count
      return octet :: rest

/-- One packet in `hb_rf_eth_recv_threadproc`, as the bytes it hands to the raw
uart. -/
def recvThread (order : HostOrder) (sock : Bool) (buffer : List UInt8) (reception : Reception) :
    Option (List UInt8) := do
  let (len, buffer) ← recvPacket order sock buffer reception
  if len ≥ 4 then
    let command ← load buffer 0
    if command = 7 then rxChars buffer 2 (len.toNat - 2 - 2)
    else return []
  else return []

theorem rxChars_eq (buffer : List UInt8) (i count : Nat) (inside : i + count ≤ buffer.length) :
    rxChars buffer i count = some ((buffer.drop i).take count) := by
  induction count generalizing i with
  | zero => rfl
  | succ count ih =>
      have here : i < buffer.length := by omega
      rw [rxChars, load, List.getElem?_eq_getElem here, ih (i + 1) (by omega),
        List.drop_eq_getElem_cons here]
      rfl

theorem sendMsg_eq (order : HostOrder) (buffer : List UInt8) (len : Nat) (msgCnt : UInt32) :
    sendMsg order buffer len msgCnt =
      (stampMsg buffer len (msgCnt + 1).toNat).bind fun stamped =>
        (loadRange stamped 0 len).bind fun datagram => some (stamped, datagram, msgCnt + 1) := by
  have counter : UInt8.ofNat (msgCnt + 1).toNat = (msgCnt + 1).toUInt8 := rfl
  simp only [sendMsg, stampMsg, storeWord, wordBytes_htons, counter, Option.bind_eq_bind,
    Option.pure_def, Option.bind_assoc]

def covered (cmd counter : UInt8) (payload : List UInt8) : List UInt8 := cmd :: counter :: payload

def sealed (cmd counter : UInt8) (payload : List UInt8) : List UInt8 :=
  covered cmd counter payload ++
    [highByte (calcCrc (covered cmd counter payload)), lowByte (calcCrc (covered cmd counter payload))]

theorem sealed_length (cmd counter : UInt8) (payload : List UInt8) :
    (sealed cmd counter payload).length = payload.length + 4 := by
  simp [sealed, covered]

theorem sendMsg_sealed (order : HostOrder) (msgCnt : UInt32) {entry : Entry} {payload : List UInt8}
    (len : entry.len = payload.length + 4) (fits : entry.len ≤ entry.buffer.length)
    (message : entry.payload = payload) :
    ∃ stamped, sendMsg order entry.buffer entry.len msgCnt =
      some (stamped, sealed entry.command (msgCnt + 1).toUInt8 payload, msgCnt + 1) := by
  have long : 4 ≤ entry.len := by omega
  have inside : ∀ trailer : List UInt8, trailer.length = 2 → ∀ counted : List UInt8,
      counted.length = entry.buffer.length →
      loadRange (counted.take (entry.len - 2) ++ trailer ++ counted.drop entry.len) 0 entry.len =
        some (counted.take (entry.len - 2) ++ trailer) := by
    intro trailer two counted same
    have size : (counted.take (entry.len - 2) ++ trailer).length = entry.len := by
      simp
      omega
    have bound : 0 + entry.len ≤
        (counted.take (entry.len - 2) ++ trailer ++ counted.drop entry.len).length := by
      rw [List.length_append, size]
      omega
    rw [loadRange, if_pos bound, List.drop_zero, List.take_append_of_le_length (by omega),
      List.take_of_length_le (by omega)]
  have shape : (entry.buffer.set 1 (UInt8.ofNat (msgCnt + 1).toNat)).take (entry.len - 2) =
      covered entry.command (msgCnt + 1).toUInt8 payload := by
    have count : entry.len - 2 = payload.length + 2 := by omega
    rw [Entry.payload, show entry.len - 4 = payload.length by omega] at message
    rcases buffer : entry.buffer with _ | ⟨first, _ | ⟨second, rest⟩⟩
    · rw [buffer, List.length_nil] at fits
      omega
    · rw [buffer, List.length_singleton] at fits
      omega
    · rw [buffer] at message
      simp only [List.drop_succ_cons, List.drop_zero] at message
      simp only [count, List.set_cons_succ, List.set_cons_zero, List.take_succ_cons, message,
        covered, Entry.command, buffer, List.headD_cons]
      rfl
  obtain ⟨stamped, done, -⟩ := stampMsg_length entry.buffer entry.len (msgCnt + 1).toNat long fits
  refine ⟨stamped, ?_⟩
  rw [sendMsg_eq, done, Option.bind_some]
  rw [stampMsg_eq _ _ _ long fits] at done
  cases done
  rw [inside _ rfl _ (List.length_set ..), shape]
  rfl

theorem recvPacket_sealed (order : HostOrder) (buffer : List UInt8) (cmd counter : UInt8)
    (payload : List UInt8) (fits : payload.length + 4 ≤ buffer.length) :
    recvPacket order true buffer (.datagram (sealed cmd counter payload)) =
      some (((payload.length + 4 : Nat) : Int),
        sealed cmd counter payload ++ buffer.drop (payload.length + 4)) := by
  have whole : min (sealed cmd counter payload).length buffer.length = payload.length + 4 := by
    rw [sealed_length]
    omega
  have copied : memcpy buffer 0 ((sealed cmd counter payload).take (payload.length + 4)) =
      some (sealed cmd counter payload ++ buffer.drop (payload.length + 4)) := by
    have length := sealed_length cmd counter payload
    rw [List.take_of_length_le (by omega), memcpy, if_pos (by omega), List.take_zero,
      List.nil_append, Nat.zero_add, length]
  have last : payload.length + 4 - 2 = (covered cmd counter payload).length := by
    simp [covered]
  have checksum : loadWord order (sealed cmd counter payload ++ buffer.drop (payload.length + 4))
      (payload.length + 4 - 2) = some (htons order (calcCrc (covered cmd counter payload))) := by
    rw [last, loadWord, sealed, List.append_assoc, List.cons_append, load_boundary]
    rw [List.append_cons, List.singleton_append]
    have next := load_boundary (covered cmd counter payload ++
      [highByte (calcCrc (covered cmd counter payload))])
      (lowByte (calcCrc (covered cmd counter payload))) (buffer.drop (payload.length + 4))
    rw [List.length_append, List.length_singleton] at next
    rw [next]
    exact congrArg some (wordOf_network order _)
  have prefixed : loadRange (sealed cmd counter payload ++ buffer.drop (payload.length + 4)) 0
      (payload.length + 4 - 2) = some (covered cmd counter payload) := by
    rw [last, loadRange, if_pos (by simp [sealed]), List.drop_zero, sealed,
      List.append_assoc, List.take_left]
  have four : ¬ payload.length + 4 < 4 := by omega
  simp only [recvPacket, Bool.true_eq_false, ↓reduceIte, whole, copied, Option.bind_eq_bind,
    Option.bind_some, Nat.zero_lt_succ, gt_iff_lt, four, checksum, prefixed, ne_eq, not_true_eq_false]
  simp

theorem recvThread_sealed (order : HostOrder) (buffer : List UInt8) (cmd counter : UInt8)
    (payload : List UInt8) (fits : payload.length + 4 ≤ buffer.length) :
    recvThread order true buffer (.datagram (sealed cmd counter payload)) =
      some (if cmd = 7 then payload else []) := by
  have long : ((payload.length + 4 : Nat) : Int) ≥ 4 := by omega
  have command : load (sealed cmd counter payload ++ buffer.drop (payload.length + 4)) 0 =
      some cmd := rfl
  have inside : 2 + payload.length ≤
      (sealed cmd counter payload ++ buffer.drop (payload.length + 4)).length := by
    rw [List.length_append, sealed_length]
    omega
  have count : (((payload.length + 4 : Nat) : Int).toNat - 2 - 2) = payload.length := by
    rw [Int.toNat_natCast]
    omega
  simp only [recvThread, recvPacket_sealed order buffer cmd counter payload fits,
    Option.bind_eq_bind, Option.bind_some, long, ↓reduceIte, command, count, rxChars_eq _ _ _ inside]
  split
  · simp [sealed, covered]
  · rfl

theorem queueMsg_entry {eth after : Eth} {cmd : UInt8} {payload : List UInt8}
    (sized : ∀ entry ∈ eth.queue.buf, entry.buffer.length = bufferSize)
    (short : payload.length ≤ txChunkSize)
    (room : 1 ≤ circSpace eth.queue.head eth.queue.tail queueLength)
    (queued : queueMsg eth cmd payload = some after) :
    ∃ entry, load after.queue.buf eth.queue.head = some entry ∧
      after.accepted = eth.accepted ++ [entry] ∧ entry.buffer.length = bufferSize ∧
      entry.len = payload.length + 4 ∧ entry.command = cmd ∧ entry.payload = payload := by
  simp only [queueMsg, ge_iff_le, room, ↓reduceIte, Option.bind_eq_bind,
    Option.bind_eq_some_iff] at queued
  obtain ⟨old, found, first, one, second, two, octets, three, entries, stored, final⟩ := queued
  cases final
  obtain ⟨filled, done, size, command, message⟩ := fill_entry old
    (sized old (List.mem_of_getElem? found)) cmd payload short
  rw [one, Option.bind_some, two, Option.bind_some, three] at done
  cases done
  refine ⟨⟨octets, payload.length + 4⟩, ?_, rfl, size, rfl, command, message⟩
  rw [store] at stored
  split at stored
  · rename_i inside
    cases stored
    exact List.getElem?_set_self inside
  · cases stored

/-- The round trip of a message between two hosts of any byte order: the entry of
an accepted message fits, its datagram carries command, counter and payload, is
accepted in its full length, and a command-7 payload reaches the raw uart. -/
theorem datagram_round_trip (eth after : Eth) (cmd : UInt8) (payload : List UInt8)
    (sized : ∀ entry ∈ eth.queue.buf, entry.buffer.length = bufferSize)
    (short : payload.length ≤ txChunkSize)
    (room : 1 ≤ circSpace eth.queue.head eth.queue.tail queueLength)
    (queued : queueMsg eth cmd payload = some after) :
    ∃ entry, load after.queue.buf eth.queue.head = some entry ∧
      entry.buffer.length = 1500 ∧ entry.len = payload.length + 4 ∧ entry.len ≤ 1500 ∧
      ∀ (sender receiver : HostOrder) (msgCnt : UInt32) (buffer : List UInt8),
        buffer.length = bufferSize →
        ∃ stamped datagram,
          sendMsg sender entry.buffer entry.len msgCnt = some (stamped, datagram, msgCnt + 1) ∧
          datagram.length = entry.len ∧ datagram[0]? = some cmd ∧
          datagram[1]? = some (msgCnt + 1).toUInt8 ∧
          (datagram.drop 2).take payload.length = payload ∧
          recvPacket receiver true buffer (.datagram datagram) =
            some ((datagram.length : Int), datagram ++ buffer.drop datagram.length) ∧
          recvThread receiver true buffer (.datagram datagram) =
            some (if cmd = 7 then payload else []) := by
  obtain ⟨entry, found, -, size, len, command, message⟩ :=
    queueMsg_entry sized short room queued
  have bound : payload.length + 4 ≤ bufferSize := by
    unfold txChunkSize at short
    unfold bufferSize
    omega
  refine ⟨entry, found, size, len, by rw [len]; exact bound, ?_⟩
  intro sender receiver msgCnt buffer room
  obtain ⟨stamped, sent⟩ := sendMsg_sealed sender msgCnt len (by rw [len, size]; exact bound) message
  rw [command] at sent
  have length := sealed_length cmd (msgCnt + 1).toUInt8 payload
  refine ⟨stamped, _, sent, length.trans len.symm, rfl, rfl, ?_, ?_, ?_⟩
  · simp [sealed, covered]
  · rw [length]
    exact recvPacket_sealed receiver buffer cmd _ payload (by rw [room]; exact bound)
  · exact recvThread_sealed receiver buffer cmd _ payload (by rw [room]; exact bound)

/-- Two bytes from a little-endian to a big-endian host, as message 42. -/
theorem datagram_round_trip_two :
    ∃ after entry stamped datagram, queueMsg initialEth 7 [0xfd, 0] = some after ∧
      load after.queue.buf 0 = some entry ∧
      sendMsg .littleEndian entry.buffer entry.len 41 = some (stamped, datagram, 42) ∧
      datagram[1]? = some 42 ∧
      recvThread .bigEndian true (List.replicate 1500 0) (.datagram datagram) =
        some [0xfd, 0] := by
  have room : 1 ≤ circSpace initialEth.queue.head initialEth.queue.tail queueLength := by decide
  obtain ⟨accepted, queue, queued, -⟩ :=
    queueMsg_room initialEth_sound 7 [0xfd, 0] (by decide) room
  obtain ⟨entry, found, -, -, -, sent⟩ := datagram_round_trip _ _ 7 [0xfd, 0]
    initialEth_sound.sized (by decide) room queued
  obtain ⟨stamped, datagram, done, -, -, counter, -, -, handed⟩ :=
    sent .littleEndian .bigEndian 41 (List.replicate 1500 0) List.length_replicate
  exact ⟨_, entry, stamped, datagram, queued, found, done, counter, handed⟩

end PiVccu.HbRfEthDatagram
