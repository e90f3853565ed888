import PiVccu.FakeHmrfWrite
import PiVccu.RawUartRx

/-!
The other side of `kernel/fake_hmrf.c`: `fake_hmrf_read` and `fake_hmrf_poll` on
the ring that `fake_hmrf_add_to_buffer` fills, and what a request that was encoded
by the detector leaves in that ring.
-/

namespace PiVccu.FakeHmrfRead
open BigEndian ByteBuffer ByteStuffing CircBuf FakeHmrf FakeHmrfWrite Hm

def eagain : Int := 11

def pollin : Nat := 0x0001
def pollout : Nat := 0x0004
def pollrdnorm : Nat := 0x0040
def pollwrnorm : Nat := 0x0100

/-- Converted to `int` for the minimum, and back to `size_t`. -/
def readCount (rxbuf : CircRing UInt8) (count : Nat) : Nat :=
  (min (RawUartRx.intOf count) (circCntToEnd rxbuf.head rxbuf.tail bufSize : Int) % 2 ^ 64).toNat

inductive ReadResult where
  | error (errno : Int)
  | octets (octets : List UInt8)
deriving DecidableEq

/-- `tail += count; if (tail >= RX_BUF_SIZE) tail -= RX_BUF_SIZE`. -/
def advanceTail (rxbuf : CircRing UInt8) (count : Nat) : CircRing UInt8 :=
  { rxbuf with
    tail := if rxbuf.tail + count ≥ bufSize then rxbuf.tail + count - bufSize
      else rxbuf.tail + count }

theorem advanceTail_eq {rxbuf : CircRing UInt8} (formed : rxbuf.WellFormed bufSize) {count : Nat}
    (inside : rxbuf.tail + count ≤ bufSize) :
    advanceTail rxbuf count = { rxbuf with tail := (rxbuf.tail + count) % bufSize } := by
  have tail := formed.tail
  rw [advanceTail, mod_wrap (by omega)]
  congr 1
  split <;> split <;> omega

theorem advanceTail_formed {rxbuf : CircRing UInt8} (formed : rxbuf.WellFormed bufSize)
    {count : Nat} (inside : rxbuf.tail + count ≤ bufSize) :
    (advanceTail rxbuf count).WellFormed bufSize := by
  rw [advanceTail_eq formed inside]
  exact ⟨formed.sized, formed.head, Nat.mod_lt _ (by decide)⟩

/-- `fake_hmrf_read`; `none` is a reader that has to wait, or a copy from behind the
end of the ring. `faults` is the outcome of `copy_to_user`. -/
def fakeHmrfRead (device : Device) (nonblock : Bool) (count : Nat) (faults : Bool) :
    Option (Device × ReadResult) :=
  if circCnt device.rxbuf.head device.rxbuf.tail bufSize = 0 then
    if nonblock then some (device, .error (-eagain)) else none
  else if inside : device.rxbuf.tail + readCount device.rxbuf count ≤ bufSize then
    if faults then some (device, .error (-efault))
    else some ({ device with
        rxbuf := advanceTail device.rxbuf (readCount device.rxbuf count)
        formed := advanceTail_formed device.formed inside },
      .octets ((device.rxbuf.buf.drop device.rxbuf.tail).take (readCount device.rxbuf count)))
  else none

/-- `fake_hmrf_poll`: the ring is looked at again behind `poll_wait`. -/
def fakeHmrfPoll (device : Device) : Nat :=
  let pending := circCnt device.rxbuf.head device.rxbuf.tail bufSize
  (pollout ||| pollwrnorm) ||| if pending > 0 then pollin ||| pollrdnorm else 0

def pending (device : Device) : List UInt8 := device.rxbuf.contents

theorem pending_length (device : Device) :
    (pending device).length = circCnt device.rxbuf.head device.rxbuf.tail bufSize :=
  contents_length device.formed

theorem readCount_eq (device : Device) {count : Nat} (bounded : count ≤ RawUartRx.intMax) :
    readCount device.rxbuf count =
      min count (min (pending device).length (bufSize - device.rxbuf.tail)) :=
  RawUartRx.readCount_eq device.formed bounded

/-- A reader is told that there is something to read exactly if a read does not wait. -/
theorem poll_readable_iff (device : Device) :
    fakeHmrfPoll device &&& pollin ≠ 0 ↔ pending device ≠ [] := by
  rw [← List.length_pos_iff, pending_length, fakeHmrfPoll]
  split
  · rename_i data
    exact iff_of_true (by decide) data
  · rename_i none
    exact iff_of_false (by decide) none

theorem fakeHmrfRead_data (device : Device) (nonblock : Bool) {count : Nat}
    (bounded : count ≤ RawUartRx.intMax) (data : pending device ≠ []) :
    ∃ after octets, fakeHmrfRead device nonblock count false = some (after, .octets octets) ∧
      octets ++ pending after = pending device ∧ (1 ≤ count → octets ≠ []) ∧
      octets.length ≤ count ∧ after.parameters = device.parameters ∧
      after.isInBl = device.isInBl := by
  have length := pending_length device
  have filled := List.length_pos_iff.mpr data
  have tail := device.formed.tail
  have value := readCount_eq device bounded
  have inside : device.rxbuf.tail + readCount device.rxbuf count ≤ bufSize := by omega
  have start : (device.rxbuf.tail + 0) % bufSize = device.rxbuf.tail := Nat.mod_eq_of_lt tail
  have read := read_behind device.formed 0 (readCount device.rxbuf count) (by omega)
    (by rw [start]; exact inside)
  rw [start, List.drop_zero, loadRange, device.formed.sized, if_pos inside] at read
  have taken := Option.some.inj read
  obtain ⟨-, contents⟩ := consume device.formed
    (show readCount device.rxbuf count ≤ _ by omega)
  rw [← advanceTail_eq device.formed inside] at contents
  unfold fakeHmrfRead
  rw [if_neg (by omega), dif_pos inside, if_neg Bool.false_ne_true, taken]
  refine ⟨_, _, rfl, ?_, ?_, ?_, rfl, rfl⟩
  · rw [pending, contents]
    exact List.take_append_drop _ _
  · intro positive empty
    have none := congrArg List.length empty
    rw [List.length_take, ← pending, List.length_nil] at none
    omega
  · rw [List.length_take]
    omega

/-- A byte that finds no room is dropped, and so is everything behind it. -/
theorem addToBuffer_contents {rxbuf after : CircRing UInt8} {octets : List UInt8}
    (formed : rxbuf.WellFormed bufSize) (added : addToBuffer rxbuf octets = some after) :
    after.contents = rxbuf.contents ++ octets.take (bufSize - 1 - rxbuf.contents.length) := by
  induction octets generalizing rxbuf with
  | nil =>
      cases added
      rw [List.take_nil, List.append_nil]
  | cons octet rest ih =>
      have space := circSpace_eq formed.head formed.tail
      rw [← contents_length formed] at space
      rw [addToBuffer] at added
      split at added
      · rename_i full
        rw [ih formed added, show bufSize - 1 - rxbuf.contents.length = 0 by omega, List.take_zero,
          List.take_zero]
      · rename_i room
        obtain ⟨buf, stored, added⟩ := Option.bind_eq_some_iff.mp added
        obtain ⟨buf', stored', kept, pushed⟩ := push formed (Nat.one_le_iff_ne_zero.mpr room) octet
        cases stored.symm.trans stored'
        rw [show (if rxbuf.head + 1 ≥ bufSize then 0 else rxbuf.head + 1) =
          (rxbuf.head + 1) % bufSize from RawUartRx.bumpHead_eq formed.head] at added
        rw [ih kept added, pushed, List.length_append, List.length_singleton, List.append_assoc]
        obtain ⟨more, count⟩ : ∃ more, bufSize - 1 - rxbuf.contents.length = more + 1 :=
          ⟨bufSize - 1 - rxbuf.contents.length - 1, by omega⟩
        rw [count, show bufSize - 1 - (rxbuf.contents.length + 1) = more by omega,
          List.take_succ_cons, List.singleton_append]

theorem tryParseFrame_front {octets : List UInt8} {frame : HmFrame}
    (parsed : tryParseFrame octets octets.length = some frame) (rest : List UInt8) :
    tryParseFrame (octets ++ rest) octets.length = some frame := by
  by_cases short : octets.length < 8
  · rw [tryParseFrame, if_pos short] at parsed
    cases parsed
  · have inside : ∀ index, index < octets.length →
        (octets ++ rest).getD index 0 = octets.getD index 0 := by
      intro index below
      rw [List.getD_eq_getElem?_getD, List.getD_eq_getElem?_getD, List.getElem?_append_left below]
    have checked : hmCrc (octets ++ rest) (octets.length - 2) = hmCrc octets (octets.length - 2) := by
      rw [hmCrc, hmCrc, List.take_append_of_le_length (by omega)]
    unfold tryParseFrame at parsed ⊢
    rw [if_neg short] at parsed ⊢
    simp only [inside 0 (by omega), inside 1 (by omega), inside 2 (by omega), inside 3 (by omega),
      inside 4 (by omega), inside (octets.length - 2) (by omega),
      inside (octets.length - 1) (by omega), checked] at parsed ⊢
    by_cases start : octets.getD 0 0 ≠ 0xfd
    · rw [if_pos start] at parsed
      cases parsed
    · rw [if_neg start] at parsed ⊢
      split at parsed
      · cases parsed
      · rename_i size
        rw [if_neg size]
        split at parsed
        · cases parsed
        · rename_i sum
          rw [if_neg sum, ← parsed]
          have small := (join (octets.getD 1 0) (octets.getD 2 0)).toNat_lt
          rw [not_not, show ((join (octets.getD 1 0) (octets.getD 2 0)).toNat : Int) - 2 + 7 =
            (((join (octets.getD 1 0) (octets.getD 2 0)).toNat + 5 : Nat) : Int) by omega,
            sizeT_natCast _ (by omega)] at size
          have cmd : ((octets ++ rest).drop 5).take
              (((join (octets.getD 1 0) (octets.getD 2 0)).toNat : Int) - 2).toNat =
                (octets.drop 5).take
                  (((join (octets.getD 1 0) (octets.getD 2 0)).toNat : Int) - 2).toNat := by
            rw [List.drop_append_of_le_length (by omega),
              List.take_append_of_le_length (by rw [List.length_drop]; omega)]
          simp only [cmd]

def answerStream (request : HMFrame) (response : Response) : List UInt8 :=
  tailStuff (HmWire.plain request.destination request.counter response)

theorem respond_pending (device : Device) {frameBuf rawBuf : List UInt8} (frame : HmFrame)
    (response : Response) (frameSized : frameBuf.length = bufSize)
    (rawSized : rawBuf.length = bufSize) :
    ∃ after, respond device frameBuf rawBuf frame response = some after ∧
      after.parameters = device.parameters ∧ after.isInBl = device.isInBl ∧
      pending after = pending device ++ (tailStuff (HmWire.plain frame.dst frame.cnt response)).take
        (bufSize - 1 - (pending device).length) := by
  have short := response.property
  have answered := respondToFrame_eq frameBuf (answerFrame frame response) frameSized
    (by change response.val.length ≤ 1017; omega)
  have escaped := tailStuff_length_le (answerFrame frame response).wire
  rw [HmFrame.wire_length] at escaped
  change _ ≤ 2 * (response.val.length + 7) at escaped
  have size : rawBuf.length = 1024 := rawSized
  have range : loadRange (tailStuff (answerFrame frame response).wire ++
      rawBuf.drop (tailStuff (answerFrame frame response).wire).length) 0
      (tailStuff (answerFrame frame response).wire).length =
        some (tailStuff (answerFrame frame response).wire) := by
    rw [loadRange, if_pos (by rw [List.length_append]; omega), List.drop_zero, List.take_left]
  unfold respond
  simp only [Option.bind_eq_bind]
  rw [answered, Option.bind_some, memcpy_front (by omega), Option.bind_some, range, Option.bind_some]
  split
  · rename_i refused
    obtain ⟨rxbuf, added⟩ := addToBuffer_total (tailStuff (answerFrame frame response).wire)
      device.formed
    rw [added] at refused
    cases refused
  · rename_i rxbuf added
    exact ⟨_, rfl, rfl, rfl, addToBuffer_contents device.formed added⟩

theorem decodeFrameBuffer_escapedWire (request : HMFrame) (short : request.data.length ≤ 500)
    (left : List UInt8) :
    decodeFrameBuffer (request.escapedWire ++ left) request.escapedWire.length =
      some (request.wire, left) := by
  have bound := FrameRoundTrip.escapedWire_length_le request
  have stuffed : request.escapedWire.length = (stuff HmWire.escapeCode
      (HmWire.body request.destination request.counter request.cmd)).length + 1 := rfl
  have decoded := decodeFrameBuffer_stuff
    (HmWire.body request.destination request.counter request.cmd) left (by omega)
  change decodeFrameBuffer (0xfd :: (_ ++ left)) (_ + 1) = some (0xfd :: _, left)
  rw [decodeFrameBuffer_plain _ _ _ (by decide), decoded]
  rfl

/-- A request as the detector encodes it: the module parses it, its answer waits
behind what has not been read, and of a full ring it gets the bytes that fit. -/
theorem fakeHmrfWrite_request (device : Device) (request : HMFrame)
    (short : request.data.length ≤ 500) :
    ∃ after, fakeHmrfWrite device request.escapedWire false =
        some (after, (request.escapedWire.length : Int)) ∧
      after.parameters = device.parameters ∧
      after.isInBl = (answer device request.destination request.command).1 ∧
      pending after = pending device ++
        (((answer device request.destination request.command).2.map (answerStream request)).getD []).take
          (bufSize - 1 - (pending device).length) := by
  have bound := FrameRoundTrip.escapedWire_length_le request
  have plainSize : request.wire.length = request.data.length + 8 := HMFrame.wire_length request
  have fits : request.escapedWire.length ≤ bufSize := by
    unfold bufSize
    omega
  let kernel : HmFrame := ⟨request.destination, request.counter, request.cmd, by
    change request.data.length + 1 + 7 < 2 ^ 31
    omega⟩
  have parsed : tryParseFrame request.wire request.wire.length = some kernel :=
    (tryParseFrame_iff request.wire (by omega) kernel).mpr
      ⟨rfl, Nat.succ_le_succ (Nat.zero_le _)⟩
  have room : request.wire.length ≤ (List.replicate bufSize (0 : UInt8)).length := by
    rw [List.length_replicate, bufSize]
    omega
  have decoded : decodeLoop bufSize
      (request.escapedWire ++ List.replicate (bufSize - request.escapedWire.length) 0) 0
      request.escapedWire.length (List.replicate bufSize 0) 0 =
        some (request.wire ++ (List.replicate bufSize 0).drop request.wire.length,
          request.wire.length) := by
    have enough : request.wire.length ≤ bufSize := by rwa [List.length_replicate] at room
    rw [decodeLoop_eq _ _ _ _ _ _ (Nat.zero_le _), List.drop_zero,
      decodeFrameBuffer_escapedWire request short, Option.bind_some, written, if_pos enough,
      memcpy_front room, Option.map_some, Nat.zero_add]
  have sized : (request.wire ++ (List.replicate bufSize (0 : UInt8)).drop
      request.wire.length).length = bufSize := by
    rw [List.length_append, List.length_drop, Nat.add_sub_cancel' room, List.length_replicate]
  have read : loadRange (request.wire ++ (List.replicate bufSize 0).drop request.wire.length) 0
      request.wire.length = some request.wire := by
    rw [loadRange, if_pos (by rw [List.length_append]; omega), List.drop_zero, List.take_left]
  have raw : (request.escapedWire ++
      List.replicate (bufSize - request.escapedWire.length) (0 : UInt8)).length = bufSize := by
    rw [List.length_append, List.length_replicate]
    omega
  unfold fakeHmrfWrite
  simp only [Nat.not_lt.mpr fits, ↓reduceIte, Bool.false_eq_true, rawBuf_filled fits,
    Option.bind_eq_bind, Option.bind_some, decoded, read, tryParseFrame_front parsed]
  have asked : answer device kernel.dst (kernel.cmd.getD 0 0) =
      answer device request.destination request.command := rfl
  rw [asked]
  cases (answer device request.destination request.command).2 with
  | none =>
      refine ⟨_, rfl, rfl, rfl, ?_⟩
      rw [Option.map_none, Option.getD_none, List.take_nil, List.append_nil]
      rfl
  | some response =>
      obtain ⟨after, done, parameters, mode, added⟩ := respond_pending { device with
        isInBl := (answer device request.destination request.command).1 } kernel response sized raw
      refine ⟨after, ?_, parameters, mode, added⟩
      dsimp only
      rw [done]
      rfl

end PiVccu.FakeHmrfRead
