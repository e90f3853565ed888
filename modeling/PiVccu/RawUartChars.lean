import PiVccu.RawUartRx

/-!
The characters that the UARTs of a SoC drain from their FIFO in one call of
`pl011_raw_uart_rx_chars` or `dw_apb_raw_uart_rx_chars`, and what
`generic_raw_uart_handle_rx_char` does with them. Both loops set bits in a variable
that is cleared once, before the first character. Counters are of 32 bits.
-/

namespace PiVccu.RawUartChars
open CircBuf RawUartRx

def rxStateNone : UInt8 := 0
def rxStateParity : UInt8 := 2
def rxStateFrame : UInt8 := 4
def rxStateOverrun : UInt8 := 8

structure Dump where
  rxbuf : List UInt8
  pos : Nat
  printed : List (List UInt8)
  sized : rxbuf.length = 32
  inside : pos < 32

/-- The part of `struct generic_raw_uart_instance` that is about received data. -/
structure Instance where
  countRx : UInt32
  countBrk : UInt32
  countParity : UInt32
  countFrame : UInt32
  countOverrun : UInt32
  dumpTraffic : Bool
  dump : Dump
  rxbuf : CircRing UInt8
  formed : rxbuf.WellFormed circbufSize

def Dump.put (dump : Dump) (data : UInt8) : Dump :=
  if full : dump.pos + 1 = 32 then
    { rxbuf := dump.rxbuf.set dump.pos data
      pos := 0
      printed := dump.printed ++ [dump.rxbuf.set dump.pos data]
      sized := List.length_set.trans dump.sized
      inside := by decide }
  else
    { dump with
      rxbuf := dump.rxbuf.set dump.pos data
      pos := dump.pos + 1
      sized := List.length_set.trans dump.sized
      inside := by
        have before := dump.inside
        omega }

def Dump.flush (dump : Dump) : Dump :=
  { dump with pos := 0, printed := dump.printed ++ [dump.rxbuf.take dump.pos], inside := by decide }

/-- The last part of `generic_raw_uart_handle_rx_char`; a full ring drops the byte. -/
def putRing (rxbuf : CircRing UInt8) (data : UInt8) : CircRing UInt8 :=
  if circSpace rxbuf.head rxbuf.tail circbufSize ≠ 0 then
    ⟨rxbuf.buf.set rxbuf.head data, bumpHead rxbuf.head, rxbuf.tail⟩
  else rxbuf

theorem putRing_spec {rxbuf : CircRing UInt8} (formed : rxbuf.WellFormed circbufSize)
    (data : UInt8) : (putRing rxbuf data).WellFormed circbufSize ∧
      (putRing rxbuf data).contents = rxbuf.contents ++
        [data].take (circbufSize - 1 - rxbuf.contents.length) := by
  have space := circSpace_eq formed.head formed.tail
  rw [← contents_length formed] at space
  unfold putRing
  split
  · rename_i room
    obtain ⟨buf, stored, kept, pushed⟩ := push formed (Nat.one_le_iff_ne_zero.mpr room) data
    have inside : rxbuf.head < rxbuf.buf.length := by
      rw [formed.sized]
      exact formed.head
    rw [ByteBuffer.store, if_pos inside] at stored
    cases stored
    rw [bumpHead_eq formed.head]
    refine ⟨kept, pushed.trans ?_⟩
    rw [List.take_of_length_le]
    rw [List.length_singleton]
    omega
  · rename_i full
    have none : circbufSize - 1 - rxbuf.contents.length = 0 := space.symm.trans (not_not.mp full)
    rw [none, List.take_zero, List.append_nil]
    exact ⟨formed, rfl⟩

namespace Instance

def genericRawUartHandleRxChar (device : Instance) (flags data : UInt8) : Instance :=
  let device := { device with countRx := device.countRx + 1 }
  if flags &&& rxStateBreak ≠ 0 then { device with countBrk := device.countBrk + 1 }
  else
    { device with
      countParity := if flags &&& rxStateParity ≠ 0 then device.countParity + 1
        else device.countParity
      countFrame := if flags &&& rxStateFrame ≠ 0 then device.countFrame + 1 else device.countFrame
      countOverrun := if flags &&& rxStateOverrun ≠ 0 then device.countOverrun + 1
        else device.countOverrun
      dump := if device.dumpTraffic then device.dump.put data else device.dump
      rxbuf := putRing device.rxbuf data
      formed := (putRing_spec device.formed data).1 }

/-- Without the readers that it wakes. -/
def genericRawUartRxCompleted (device : Instance) : Instance :=
  if device.dumpTraffic then { device with dump := device.dump.flush } else device

end Instance

structure Errors where
  brk : Bool
  parity : Bool
  frame : Bool
  overrun : Bool

def raiseFlags (flags : UInt8) (errors : Errors) : UInt8 :=
  if errors.brk then flags ||| rxStateBreak
  else
    let flags := if errors.parity then flags ||| rxStateParity else flags
    let flags := if errors.frame then flags ||| rxStateFrame else flags
    if errors.overrun then flags ||| rxStateOverrun else flags

/-- The flags of an entry alone. A break hides the other errors. -/
def Errors.flags (errors : Errors) : UInt8 := raiseFlags rxStateNone errors

section
variable {Entry : Type}

/-- The calls of `generic_raw_uart_handle_rx_char` that a loop makes: `flags` is the
variable that lives as long as the loop. -/
def rxCalls (errors : Entry → Errors) (data : Entry → UInt8) (flags : UInt8) :
    List Entry → List (UInt8 × UInt8)
  | [] => []
  | entry :: rest =>
      (raiseFlags flags (errors entry), data entry) ::
        rxCalls errors data (raiseFlags flags (errors entry)) rest

def handleAll (device : Instance) (calls : List (UInt8 × UInt8)) : Instance :=
  calls.foldl (fun device call => device.genericRawUartHandleRxChar call.1 call.2) device

def rxChars (errors : Entry → Errors) (data : Entry → UInt8) (device : Instance)
    (entries : List Entry) : Instance :=
  (handleAll device (rxCalls errors data rxStateNone entries)).genericRawUartRxCompleted

end

def pl011Errors (dr : UInt32) : Errors where
  frame := dr &&& 0x100 ≠ 0
  parity := dr &&& 0x200 ≠ 0
  brk := dr &&& 0x400 ≠ 0
  overrun := dr &&& 0x800 ≠ 0

/-- The data register is read until the receive FIFO is empty. -/
def pl011RawUartRxChars : Instance → List UInt32 → Instance := rxChars pl011Errors UInt32.toUInt8

/-- What the line status and the receiver register of a DesignWare UART give for one
character: the loop ends at a status without data and break. -/
structure LsrEntry where
  status : UInt8
  data : UInt8
  ready : status &&& (0x01 ||| 0x10) ≠ 0

def lsrErrors (entry : LsrEntry) : Errors where
  overrun := entry.status &&& 0x02 ≠ 0
  parity := entry.status &&& 0x04 ≠ 0
  frame := entry.status &&& 0x08 ≠ 0
  brk := entry.status &&& 0x10 ≠ 0

def dwApbRawUartRxChars : Instance → List LsrEntry → Instance := rxChars lsrErrors LsrEntry.data

theorem raiseFlags_eq (flags : UInt8) (errors : Errors) :
    raiseFlags flags errors = flags ||| errors.flags := by
  obtain ⟨brk, parity, frame, overrun⟩ := errors
  cases brk <;> cases parity <;> cases frame <;> cases overrun <;>
    simp [raiseFlags, Errors.flags, rxStateNone, UInt8.or_assoc]

section Handler

theorem handleAll_count (count : Instance → UInt32) (counted : UInt8 → Bool)
    (one : ∀ device flags data, count (device.genericRawUartHandleRxChar flags data) =
      if counted flags then count device + 1 else count device)
    (calls : List (UInt8 × UInt8)) (device : Instance) : count (handleAll device calls) =
      count device + UInt32.ofNat (calls.countP fun call => counted call.1) := by
  induction calls generalizing device with
  | nil => simp [handleAll]
  | cons call rest ih =>
      have step : handleAll device (call :: rest) =
          handleAll (device.genericRawUartHandleRxChar call.1 call.2) rest := rfl
      rw [step, ih, one, List.countP_cons]
      split
      · rw [UInt32.ofNat_add, UInt32.add_assoc, UInt32.add_comm 1]
        rfl
      · rfl

def breaks (flags : UInt8) : Bool := flags &&& rxStateBreak ≠ 0

def reports (bit flags : UInt8) : Bool := !breaks flags && flags &&& bit ≠ 0

theorem handle_countBrk (device : Instance) (flags data : UInt8) :
    (device.genericRawUartHandleRxChar flags data).countBrk =
      if breaks flags then device.countBrk + 1 else device.countBrk := by
  by_cases brk : flags &&& rxStateBreak = 0 <;>
    simp [Instance.genericRawUartHandleRxChar, breaks, brk]

inductive RxError where
  | parity
  | frame
  | overrun

def RxError.bit : RxError → UInt8
  | .parity => rxStateParity
  | .frame => rxStateFrame
  | .overrun => rxStateOverrun

def RxError.count : RxError → Instance → UInt32
  | .parity => Instance.countParity
  | .frame => Instance.countFrame
  | .overrun => Instance.countOverrun

theorem handle_countError (error : RxError) (device : Instance) (flags data : UInt8) :
    error.count (device.genericRawUartHandleRxChar flags data) =
      if reports error.bit flags then error.count device + 1 else error.count device := by
  cases error with
  | parity | frame | overrun =>
      rw [RxError.bit]
      by_cases brk : flags &&& rxStateBreak = 0 <;>
        simp [RxError.count, Instance.genericRawUartHandleRxChar, reports, breaks, brk]

theorem handleAll_contents (calls : List (UInt8 × UInt8)) (device : Instance) :
    (handleAll device calls).rxbuf.contents = device.rxbuf.contents ++
      ((calls.filter fun call => !breaks call.1).map Prod.snd).take
        (circbufSize - 1 - device.rxbuf.contents.length) := by
  induction calls generalizing device with
  | nil => simp [handleAll]
  | cons call rest ih =>
      have step : handleAll device (call :: rest) =
          handleAll (device.genericRawUartHandleRxChar call.1 call.2) rest := rfl
      rw [step, ih]
      by_cases brk : call.1 &&& rxStateBreak = 0
      · have after : (device.genericRawUartHandleRxChar call.1 call.2).rxbuf =
            putRing device.rxbuf call.2 := by
          simp [Instance.genericRawUartHandleRxChar, brk]
        rw [after, (putRing_spec device.formed call.2).2,
          List.filter_cons_of_pos (by simpa [breaks] using brk), List.map_cons, List.append_assoc,
          List.length_append]
        -- A full ring drops the byte, and it has no room for the later ones either.
        cases room : circbufSize - 1 - device.rxbuf.contents.length with
        | zero => simp [room]
        | succ count =>
            have left : circbufSize - 1 - (device.rxbuf.contents.length + 1) = count := by omega
            rw [List.take_succ_cons, List.take_nil, List.length_singleton, left,
              List.take_succ_cons]
            rfl
      · have after : (device.genericRawUartHandleRxChar call.1 call.2).rxbuf = device.rxbuf := by
          simp [Instance.genericRawUartHandleRxChar, brk]
        rw [after, List.filter_cons_of_neg (by simpa [breaks] using brk)]

end Handler

section
variable {Entry : Type} (errors : Entry → Errors) (data : Entry → UInt8)

def Growing (entries : List Entry) : Prop :=
  entries.IsChain fun before entry =>
    (errors before).flags ||| (errors entry).flags = (errors entry).flags

theorem rxCalls_own_iff (flags : UInt8) (entries : List Entry) :
    rxCalls errors data flags entries =
        (entries.map fun entry => ((errors entry).flags, data entry)) ↔
      (∀ first ∈ entries.head?, flags ||| (errors first).flags = (errors first).flags) ∧
        Growing errors entries := by
  induction entries generalizing flags with
  | nil => simp [rxCalls, Growing]
  | cons entry rest ih =>
      rw [rxCalls, List.map_cons, List.cons.injEq, Prod.mk.injEq, raiseFlags_eq]
      simp only [and_true, List.head?_cons, Option.mem_some_iff, forall_eq']
      -- Once the entry has absorbed the flags before it, they are its own.
      refine and_congr_right fun absorbed => ?_
      rw [absorbed, ih]
      cases rest with
      | nil => simp [Growing]
      | cons next rest => simp [Growing, List.isChain_cons_cons]

/-- What the loop of a driver has to keep to: the flags are those of the
character alone, the ring gets the characters without a break in their order as far
as it has room, and the counters count characters. -/
structure OwnFlags (device after : Instance) (entries : List Entry) : Prop where
  flags : rxCalls errors data rxStateNone entries =
    entries.map fun entry => ((errors entry).flags, data entry)
  ring : after.rxbuf.contents = device.rxbuf.contents ++
    ((entries.filter fun entry => !(errors entry).brk).map data).take
      (circSpace device.rxbuf.head device.rxbuf.tail circbufSize)
  brk : after.countBrk = device.countBrk +
    UInt32.ofNat (entries.countP fun entry => (errors entry).brk)
  parity : after.countParity = device.countParity +
    UInt32.ofNat (entries.countP fun entry => !(errors entry).brk && (errors entry).parity)
  frame : after.countFrame = device.countFrame +
    UInt32.ofNat (entries.countP fun entry => !(errors entry).brk && (errors entry).frame)
  overrun : after.countOverrun = device.countOverrun +
    UInt32.ofNat (entries.countP fun entry => !(errors entry).brk && (errors entry).overrun)

theorem breaks_flags (errors : Errors) : breaks errors.flags = errors.brk := by
  obtain ⟨brk, parity, frame, overrun⟩ := errors
  cases brk <;> cases parity <;> cases frame <;> cases overrun <;> decide

theorem reports_flags (errors : Errors) :
    reports rxStateParity errors.flags = (!errors.brk && errors.parity) ∧
      reports rxStateFrame errors.flags = (!errors.brk && errors.frame) ∧
      reports rxStateOverrun errors.flags = (!errors.brk && errors.overrun) := by
  obtain ⟨brk, parity, frame, overrun⟩ := errors
  cases brk <;> cases parity <;> cases frame <;> cases overrun <;> decide

theorem rxCompleted_fields (device : Instance) :
    device.genericRawUartRxCompleted.rxbuf = device.rxbuf ∧
      device.genericRawUartRxCompleted.countBrk = device.countBrk ∧
      device.genericRawUartRxCompleted.countParity = device.countParity ∧
      device.genericRawUartRxCompleted.countFrame = device.countFrame ∧
      device.genericRawUartRxCompleted.countOverrun = device.countOverrun := by
  unfold Instance.genericRawUartRxCompleted
  split <;> exact ⟨rfl, rfl, rfl, rfl, rfl⟩

theorem counted_call (error : RxError) (device : Instance) (calls : List (UInt8 × UInt8)) :
    error.count (handleAll device calls).genericRawUartRxCompleted = error.count device +
      UInt32.ofNat (calls.countP fun call => reports error.bit call.1) := by
  have kept : error.count (handleAll device calls).genericRawUartRxCompleted =
      error.count (handleAll device calls) := by
    obtain ⟨-, -, parity, frame, overrun⟩ := rxCompleted_fields (handleAll device calls)
    cases error with
    | parity => exact parity
    | frame => exact frame
    | overrun => exact overrun
  rw [kept]
  exact handleAll_count error.count (reports error.bit) (handle_countError error) calls device

theorem ownFlags_iff (device : Instance) (entries : List Entry) :
    OwnFlags errors data device (rxChars errors data device entries) entries ↔
      Growing errors entries := by
  have own := rxCalls_own_iff errors data rxStateNone entries
  simp only [rxStateNone, UInt8.zero_or, implies_true, true_and] at own
  rw [← own]
  constructor
  · intro kept
    exact kept.flags
  · intro flags
    have calls : rxChars errors data device entries = (handleAll device (entries.map fun entry =>
        ((errors entry).flags, data entry))).genericRawUartRxCompleted := by
      rw [rxChars, show rxStateNone = 0 from rfl, flags]
    obtain ⟨rxbuf, brk, -⟩ := rxCompleted_fields
      (handleAll device (entries.map fun entry => ((errors entry).flags, data entry)))
    have room : circSpace device.rxbuf.head device.rxbuf.tail circbufSize =
        circbufSize - 1 - device.rxbuf.contents.length := by
      rw [circSpace_eq device.formed.head device.formed.tail, contents_length device.formed]
    rw [calls]
    refine ⟨flags, ?_, ?_, ?_, ?_, ?_⟩
    · rw [rxbuf, handleAll_contents, room, List.filter_map, List.map_map]
      simp only [Function.comp_def, breaks_flags]
    · rw [brk, handleAll_count _ _ handle_countBrk, List.countP_map]
      simp only [Function.comp_def, breaks_flags]
    · refine (counted_call .parity device _).trans ?_
      rw [List.countP_map]
      simp only [Function.comp_def, RxError.bit, reports_flags]
      rfl
    · refine (counted_call .frame device _).trans ?_
      rw [List.countP_map]
      simp only [Function.comp_def, RxError.bit, reports_flags]
      rfl
    · refine (counted_call .overrun device _).trans ?_
      rw [List.countP_map]
      simp only [Function.comp_def, RxError.bit, reports_flags]
      rfl

structure CountsEach (device after : Instance) (entries : List Entry) : Prop where
  parity : after.countParity = device.countParity +
    UInt32.ofNat (entries.countP fun entry => (errors entry).parity)
  frame : after.countFrame = device.countFrame +
    UInt32.ofNat (entries.countP fun entry => (errors entry).frame)
  overrun : after.countOverrun = device.countOverrun +
    UInt32.ofNat (entries.countP fun entry => (errors entry).overrun)

def BareBreaks (entries : List Entry) : Prop :=
  ∀ entry ∈ entries, (errors entry).brk = true →
    (errors entry).parity = false ∧ (errors entry).frame = false ∧ (errors entry).overrun = false

theorem countP_and_eq_iff (passed chosen : Entry → Bool) (entries : List Entry) :
    (entries.countP fun entry => passed entry && chosen entry) = entries.countP chosen ↔
      ∀ entry ∈ entries, chosen entry = true → passed entry = true := by
  induction entries with
  | nil => simp
  | cons entry rest ih =>
      have fewer : (rest.countP fun entry => passed entry && chosen entry) ≤ rest.countP chosen :=
        List.countP_mono_left fun other _ both => (Bool.and_eq_true_iff.mp both).2
      rw [List.countP_cons, List.countP_cons, List.forall_mem_cons, ← ih]
      cases chosen entry with
      | false => simp
      | true =>
          cases passed entry with
          | false =>
              simp only [Bool.false_and, Bool.false_eq_true, ↓reduceIte, imp_false, not_true_eq_false,
                false_and, iff_false]
              omega
          | true => simp

theorem counter_iff (chosen : Entry → Bool) (before : UInt32) {entries : List Entry}
    (few : entries.length < 2 ^ 32) :
    before + UInt32.ofNat (entries.countP fun entry => !(errors entry).brk && chosen entry) =
        before + UInt32.ofNat (entries.countP chosen) ↔
      ∀ entry ∈ entries, chosen entry = true → (errors entry).brk = false := by
  have small : ∀ test : Entry → Bool, entries.countP test < 2 ^ 32 :=
    fun test => Nat.lt_of_le_of_lt List.countP_le_length few
  rw [UInt32.add_right_inj, ← UInt32.toNat_inj, UInt32.toNat_ofNat_of_lt' (small _),
    UInt32.toNat_ofNat_of_lt' (small _), countP_and_eq_iff]
  simp only [Bool.not_eq_true']

theorem countsEach_iff_bare {device after : Instance} {entries : List Entry}
    (parityCount : after.countParity = device.countParity +
      UInt32.ofNat (entries.countP fun entry => !(errors entry).brk && (errors entry).parity))
    (frameCount : after.countFrame = device.countFrame +
      UInt32.ofNat (entries.countP fun entry => !(errors entry).brk && (errors entry).frame))
    (overrunCount : after.countOverrun = device.countOverrun +
      UInt32.ofNat (entries.countP fun entry => !(errors entry).brk && (errors entry).overrun))
    (few : entries.length < 2 ^ 32) :
    CountsEach errors device after entries ↔ BareBreaks errors entries := by
  have parity := counter_iff errors (fun entry => (errors entry).parity) device.countParity few
  have frame := counter_iff errors (fun entry => (errors entry).frame) device.countFrame few
  have overrun := counter_iff errors (fun entry => (errors entry).overrun) device.countOverrun few
  rw [← parityCount] at parity
  rw [← frameCount] at frame
  rw [← overrunCount] at overrun
  constructor
  · rintro ⟨first, second, third⟩ entry member brk
    refine ⟨?_, ?_, ?_⟩
    · exact Bool.eq_false_iff.mpr fun set =>
        Bool.eq_false_iff.mp (parity.mp first entry member set) brk
    · exact Bool.eq_false_iff.mpr fun set =>
        Bool.eq_false_iff.mp (frame.mp second entry member set) brk
    · exact Bool.eq_false_iff.mpr fun set =>
        Bool.eq_false_iff.mp (overrun.mp third entry member set) brk
  · intro bare
    refine ⟨parity.mpr ?_, frame.mpr ?_, overrun.mpr ?_⟩
    · intro entry member set
      exact Bool.eq_false_iff.mpr fun brk => Bool.eq_false_iff.mp (bare entry member brk).1 set
    · intro entry member set
      exact Bool.eq_false_iff.mpr fun brk => Bool.eq_false_iff.mp (bare entry member brk).2.1 set
    · intro entry member set
      exact Bool.eq_false_iff.mpr fun brk => Bool.eq_false_iff.mp (bare entry member brk).2.2 set

theorem countsEach_iff {device after : Instance} {entries : List Entry}
    (own : OwnFlags errors data device after entries) (few : entries.length < 2 ^ 32) :
    CountsEach errors device after entries ↔ BareBreaks errors entries :=
  countsEach_iff_bare errors own.parity own.frame own.overrun few

theorem ownCounts_iff (device : Instance) {entries : List Entry} (few : entries.length < 2 ^ 32) :
    (OwnFlags errors data device (rxChars errors data device entries) entries ∧
        CountsEach errors device (rxChars errors data device entries) entries) ↔
      Growing errors entries ∧ BareBreaks errors entries := by
  rw [← ownFlags_iff errors data device entries]
  exact and_congr_right fun own => countsEach_iff errors data own few

end

/-- Both loops keep to the flags of each character exactly if the flags only grow
from one character to the next. Every error is counted, as long as the counters do
not wrap, exactly if moreover no break hides one of its own character. -/
theorem rx_flags_own_iff (device : Instance) (registers : List UInt32) (entries : List LsrEntry) :
    (OwnFlags pl011Errors UInt32.toUInt8 device (pl011RawUartRxChars device registers) registers ↔
      Growing pl011Errors registers) ∧
    (OwnFlags lsrErrors LsrEntry.data device (dwApbRawUartRxChars device entries) entries ↔
      Growing lsrErrors entries) ∧
    (registers.length < 2 ^ 32 →
      ((OwnFlags pl011Errors UInt32.toUInt8 device (pl011RawUartRxChars device registers) registers ∧
          CountsEach pl011Errors device (pl011RawUartRxChars device registers) registers) ↔
        Growing pl011Errors registers ∧ BareBreaks pl011Errors registers)) ∧
    (entries.length < 2 ^ 32 →
      ((OwnFlags lsrErrors LsrEntry.data device (dwApbRawUartRxChars device entries) entries ∧
          CountsEach lsrErrors device (dwApbRawUartRxChars device entries) entries) ↔
        Growing lsrErrors entries ∧ BareBreaks lsrErrors entries)) :=
  ⟨ownFlags_iff pl011Errors UInt32.toUInt8 device registers,
    ownFlags_iff lsrErrors LsrEntry.data device entries,
    ownCounts_iff pl011Errors UInt32.toUInt8 device, ownCounts_iff lsrErrors LsrEntry.data device⟩

def idle : Instance where
  countRx := 0
  countBrk := 0
  countParity := 0
  countFrame := 0
  countOverrun := 0
  dumpTraffic := false
  dump :=
    { rxbuf := List.replicate 32 0
      pos := 0
      printed := []
      sized := List.length_replicate
      inside := by decide }
  rxbuf := ⟨List.replicate circbufSize 0, 0, 0⟩
  formed := ⟨List.length_replicate, by decide, by decide⟩

/-- A break and a good character behind it: the character is taken for a break. -/
theorem break_sticks :
    ¬ OwnFlags pl011Errors UInt32.toUInt8 idle (pl011RawUartRxChars idle [0x400, 0x41])
        [0x400, 0x41] ∧
      rxCalls pl011Errors UInt32.toUInt8 rxStateNone [0x400, 0x41] = [(1, 0), (1, 0x41)] ∧
      (pl011RawUartRxChars idle [0x400, 0x41]).countBrk = 2 ∧
      (pl011RawUartRxChars idle [0x400, 0x41]).rxbuf.head = 0 := by
  refine ⟨?_, rfl, rfl, rfl⟩
  intro own
  have flags := own.flags
  exact absurd flags (by decide)

end PiVccu.RawUartChars
