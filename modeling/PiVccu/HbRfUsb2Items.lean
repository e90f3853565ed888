import PiVccu.HbRfUsb2Urb

/-!
The receive items of a CP2102N in embedded-event mode and what is left of them in
the receive ring: `hb_rf_usb_2_process_read_urb` of `kernel/hb_rf_usb_2.c` with
`generic_raw_uart_handle_rx_char` of `kernel/generic_raw_uart.c` behind it.
-/

namespace PiVccu.HbRfUsb2Urb
open ByteBuffer CircBuf RawUartChars RawUartRx

def readUrb (buffer : List UInt8) (device : Instance) (octets : List UInt8) : Option Instance := do
  let buffer ← memcpy buffer 0 octets
  let trace ← hbRfUsb2ProcessReadUrb buffer octets.length
  some (handleAll device trace.calls).genericRawUartRxCompleted

/-- What the chip reports: a byte, or a line status with the byte that it belongs to
or with none. -/
inductive Item where
  | plain (octet : UInt8) (other : octet ≠ embedEventChar)
  | escaped
  | character (code status octet : UInt8) (known : code = 1 ∨ code = 2)
      (filled : status &&& 0x01 ≠ 0)
  | event (code status : UInt8) (known : code = 1 ∨ code = 2) (empty : status &&& 0x01 = 0)

namespace Item

def octets : Item → List UInt8
  | plain octet _ => [octet]
  | escaped => [embedEventChar, 0]
  | character code status octet _ _ => [embedEventChar, code, status, octet]
  | event code status _ _ => [embedEventChar, code, status]

def data : Item → Option UInt8
  | plain octet _ => some octet
  | escaped => some embedEventChar
  | character _ _ octet _ _ => some octet
  | event _ _ _ _ => none

def status : Item → UInt8
  | plain _ _ => 0
  | escaped => 0
  | character _ status _ _ _ => status
  | event _ status _ _ => status

def errors (item : Item) : Errors where
  overrun := item.status &&& 0x02 ≠ 0
  parity := item.status &&& 0x04 ≠ 0
  frame := item.status &&& 0x08 ≠ 0
  brk := item.status &&& 0x10 ≠ 0

def call (item : Item) : UInt8 × UInt8 := (statusFlags item.status, item.data.getD 0)

end Item

def stream (items : List Item) : List UInt8 := items.flatMap Item.octets

theorem stream_decodes (items : List Item) : Decodes (stream items) (items.map Item.call) := by
  induction items with
  | nil => exact .nil
  | cons item rest ih =>
      cases item with
      | plain octet other =>
          have none : statusFlags 0 = rxStateNone := by decide
          show Decodes (octet :: stream rest) ((statusFlags 0, octet) :: rest.map Item.call)
          rw [none]
          exact .plain other ih
      | escaped => exact .escape ih
      | character code status octet known filled => exact .character known filled ih
      | event code status known empty => exact .status known empty ih

theorem statusFlags_bits (status : UInt8) :
    breaks (statusFlags status) = decide (status &&& 0x10 ≠ 0) ∧
      reports rxStateParity (statusFlags status) =
        (!decide (status &&& 0x10 ≠ 0) && decide (status &&& 0x04 ≠ 0)) ∧
      reports rxStateFrame (statusFlags status) =
        (!decide (status &&& 0x10 ≠ 0) && decide (status &&& 0x08 ≠ 0)) ∧
      reports rxStateOverrun (statusFlags status) =
        (!decide (status &&& 0x10 ≠ 0) && decide (status &&& 0x02 ≠ 0)) := by
  by_cases overrun : status &&& 0x02 = 0 <;> by_cases parity : status &&& 0x04 = 0 <;>
    by_cases frame : status &&& 0x08 = 0 <;> by_cases brk : status &&& 0x10 = 0 <;>
      simp only [statusFlags, overrun, parity, frame, brk, ne_eq, not_true_eq_false,
        not_false_eq_true, ↓reduceIte, decide_true, decide_false] <;> decide

/-- The bytes that the items have for the ring: not those of a break. -/
def received (items : List Item) : List UInt8 :=
  items.filterMap fun item => if item.errors.brk then none else item.data

def passed (items : List Item) : List UInt8 :=
  items.filterMap fun item => if item.errors.brk then none else some (item.data.getD 0)

theorem passed_eq (items : List Item) :
    (((items.map Item.call).filter fun call => !breaks call.1).map Prod.snd) = passed items := by
  induction items with
  | nil => rfl
  | cons item rest ih =>
      have flag : breaks item.call.1 = item.errors.brk := (statusFlags_bits item.status).1
      rw [List.map_cons, List.filter_cons, flag, passed, List.filterMap_cons]
      cases item.errors.brk with
      | true => exact ih
      | false => exact congrArg (item.data.getD 0 :: ·) ih

def BareBreakEvents (items : List Item) : Prop :=
  ∀ item ∈ items, item.data = none → item.errors.brk = true

theorem received_length (items : List Item) : (received items).length ≤ (passed items).length := by
  induction items with
  | nil => exact Nat.le_refl _
  | cons item rest ih =>
      rw [received, passed, List.filterMap_cons, List.filterMap_cons]
      cases item.errors.brk with
      | true => exact ih
      | false =>
          cases item.data with
          | none => exact Nat.le_succ_of_le ih
          | some octet => exact Nat.succ_le_succ ih

/-- The driver's zero for an event without a byte makes the difference. -/
theorem passed_eq_iff (items : List Item) :
    passed items = received items ↔ BareBreakEvents items := by
  induction items with
  | nil => simp [passed, received, BareBreakEvents]
  | cons item rest ih =>
      have shorter := received_length rest
      rw [BareBreakEvents, List.forall_mem_cons, ← BareBreakEvents, ← ih, passed, received,
        List.filterMap_cons, List.filterMap_cons]
      cases item.errors.brk with
      | true => simp [passed, received]
      | false =>
          cases item.data with
          | some octet => simp [passed, received]
          | none =>
              refine iff_of_false (fun same => ?_) (by simp)
              have lengths := congrArg List.length same
              simp only [Bool.false_eq_true, ↓reduceIte, List.length_cons, Option.getD_none] at lengths
              rw [← passed, ← received] at lengths
              omega

def RingExact (device after : Instance) (items : List Item) : Prop :=
  after.rxbuf.contents = device.rxbuf.contents ++
    (received items).take (circSpace device.rxbuf.head device.rxbuf.tail circbufSize)

structure CountersExact (device after : Instance) (items : List Item) : Prop where
  brk : after.countBrk = device.countBrk +
    UInt32.ofNat (items.countP fun item => item.errors.brk)
  each : CountsEach Item.errors device after items

section Urb
variable (buffer : List UInt8) (device : Instance) {items : List Item}
  (sized : buffer.length = bufferSize) (fit : (stream items).length ≤ bufferSize)

include sized fit in
theorem readUrb_calls : readUrb buffer device (stream items) =
    some (handleAll device (items.map Item.call)).genericRawUartRxCompleted := by
  have filled : memcpy buffer 0 (stream items) =
      some (stream items ++ buffer.drop (stream items).length) :=
    memcpy_front (by rw [sized]; exact fit)
  obtain ⟨reads, processed, -⟩ :=
    urb_decodes (stream_decodes items) (buffer.drop (stream items).length)
  simp only [readUrb, filled, processed, Option.bind_eq_bind, Option.bind_some]

theorem items_length (items : List Item) : items.length ≤ (stream items).length := by
  induction items with
  | nil => exact Nat.le_refl _
  | cons item rest ih =>
      have some : 1 ≤ item.octets.length := by cases item <;> simp [Item.octets]
      rw [stream, List.flatMap_cons, List.length_append, List.length_cons, ← stream]
      omega

theorem ring_after (items : List Item) :
    (handleAll device (items.map Item.call)).genericRawUartRxCompleted.rxbuf.contents =
      device.rxbuf.contents ++
        (passed items).take (circSpace device.rxbuf.head device.rxbuf.tail circbufSize) := by
  have room : circSpace device.rxbuf.head device.rxbuf.tail circbufSize =
      circbufSize - 1 - device.rxbuf.contents.length := by
    rw [circSpace_eq device.formed.head device.formed.tail, contents_length device.formed]
  rw [(rxCompleted_fields _).1, handleAll_contents, room, passed_eq]

theorem brk_after (items : List Item) :
    (handleAll device (items.map Item.call)).genericRawUartRxCompleted.countBrk =
      device.countBrk + UInt32.ofNat (items.countP fun item => item.errors.brk) := by
  rw [(rxCompleted_fields _).2.1, handleAll_count _ _ handle_countBrk, List.countP_map]
  simp only [Function.comp_def, Item.call, statusFlags_bits]
  rfl

theorem counts_after (few : items.length < 2 ^ 32) : CountsEach Item.errors device
    (handleAll device (items.map Item.call)).genericRawUartRxCompleted items ↔
      BareBreaks Item.errors items := by
  refine countsEach_iff_bare Item.errors ?_ ?_ ?_ few
  · refine (counted_call .parity device _).trans ?_
    rw [List.countP_map]
    simp only [Function.comp_def, Item.call, RxError.bit, statusFlags_bits]
    rfl
  · refine (counted_call .frame device _).trans ?_
    rw [List.countP_map]
    simp only [Function.comp_def, Item.call, RxError.bit, statusFlags_bits]
    rfl
  · refine (counted_call .overrun device _).trans ?_
    rw [List.countP_map]
    simp only [Function.comp_def, Item.call, RxError.bit, statusFlags_bits]
    rfl

end Urb

section Exact
variable (buffer : List UInt8) (device : Instance) {items : List Item}

theorem ring_iff (room : items.length ≤ circSpace device.rxbuf.head device.rxbuf.tail circbufSize) :
    RingExact device (handleAll device (items.map Item.call)).genericRawUartRxCompleted items ↔
      BareBreakEvents items := by
  have most : (passed items).length ≤ items.length := List.length_filterMap_le _ _
  have fewer := received_length items
  rw [RingExact, ring_after, List.append_right_inj, List.take_of_length_le (by omega),
    List.take_of_length_le (by omega), passed_eq_iff]

theorem ring_of_bare (bare : BareBreakEvents items) :
    RingExact device (handleAll device (items.map Item.call)).genericRawUartRxCompleted items := by
  rw [RingExact, ring_after, (passed_eq_iff items).mpr bare]

end Exact

/-- The items of one URB come out exactly, as far as the ring has room for them, if
every event without a byte is a break; the counters are those of the items if no break
comes with another error. With room for all of them nothing less will do. -/
theorem items_exact_iff (buffer : List UInt8) (device : Instance) (items : List Item)
    (sized : buffer.length = bufferSize) (fit : (stream items).length ≤ bufferSize) :
    ∃ after, readUrb buffer device (stream items) = some after ∧
      (BareBreakEvents items → RingExact device after items) ∧
      (CountersExact device after items ↔ BareBreaks Item.errors items) ∧
      (items.length ≤ circSpace device.rxbuf.head device.rxbuf.tail circbufSize →
        (RingExact device after items ∧ CountersExact device after items ↔
          BareBreakEvents items ∧ BareBreaks Item.errors items)) := by
  have few : items.length < 2 ^ 32 := by
    have least := items_length items
    rw [bufferSize] at fit
    omega
  have counts : CountersExact device
      (handleAll device (items.map Item.call)).genericRawUartRxCompleted items ↔
        BareBreaks Item.errors items := by
    rw [← counts_after device few]
    exact ⟨CountersExact.each, fun each => ⟨brk_after device items, each⟩⟩
  exact ⟨_, readUrb_calls buffer device sized fit, ring_of_bare device, counts,
    fun room => and_congr (ring_iff device room) counts⟩

def mixed : List Item :=
  [.plain 0x41 (by decide), .escaped, .character 1 0x05 0x42 (.inl rfl) (by decide),
    .event 2 0x10 (.inr rfl) (by decide)]

theorem items_exact_iff_mixed : ∃ after,
    readUrb (List.replicate bufferSize 0) idle (stream mixed) = some after ∧
      after.rxbuf.contents = [0x41, 0xff, 0x42] ∧ CountersExact idle after mixed := by
  obtain ⟨after, run, -, -, exactly⟩ := items_exact_iff (List.replicate bufferSize 0) idle mixed
    List.length_replicate (by decide)
  have bare : BareBreakEvents mixed := by
    simp [BareBreakEvents, mixed, Item.data, Item.errors, Item.status]
  have alone : BareBreaks Item.errors mixed := by
    unfold BareBreaks
    decide
  obtain ⟨ring, counters⟩ := (exactly (by decide)).mpr ⟨bare, alone⟩
  have empty : idle.rxbuf.contents = [] := by decide +kernel
  have room : circSpace idle.rxbuf.head idle.rxbuf.tail circbufSize = 1023 := by decide
  rw [RingExact, empty, room] at ring
  exact ⟨after, run, ring, counters⟩

def silentOverrun : List Item := [.event 2 0x02 (.inr rfl) (by decide)]

/-- An overrun without a byte puts a zero into the ring. -/
theorem overrun_event_makes_zero : ∃ after,
    readUrb (List.replicate bufferSize 0) idle (stream silentOverrun) = some after ∧
      received silentOverrun = [] ∧ after.rxbuf.contents = [0] ∧
      ¬ RingExact idle after silentOverrun := by
  refine ⟨_, readUrb_calls _ idle List.length_replicate (by decide), rfl, by decide +kernel, ?_⟩
  rw [ring_iff idle (by decide), BareBreakEvents]
  decide

end PiVccu.HbRfUsb2Urb
