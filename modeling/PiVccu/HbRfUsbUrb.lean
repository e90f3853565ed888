import PiVccu.ByteBuffer
import PiVccu.RawUartChars

/-!
`hb_rf_usb_process_read_urb` in `kernel/hb_rf_usb.c`: a read URB of the FT232R. The
chip puts two status bytes in front of every bulk packet, and a URB can hold several
packets one behind the other.
-/

namespace PiVccu.HbRfUsbUrb
open ByteBuffer RawUartChars RawUartRx

def bufferSize : Nat := 256

/-- The flags for the line status of a character; a break is passed on by itself. -/
def lineFlags (status : UInt8) : UInt8 :=
  if status &&& 0x10 ≠ 0 then rxStateNone
  else
    let flags := rxStateNone
    let flags := if status &&& 0x04 ≠ 0 then flags ||| rxStateParity else flags
    let flags := if status &&& 0x08 ≠ 0 then flags ||| rxStateFrame else flags
    if status &&& 0x02 ≠ 0 then flags ||| rxStateOverrun else flags

def notice (status : UInt8) : List (UInt8 × UInt8) :=
  if status &&& 0x10 ≠ 0 then [(rxStateBreak, 0)] else []

def plainChars (data : List UInt8) : Nat → Nat → Option (List (UInt8 × UInt8))
  | 0, _ => some []
  | count + 1, i => do
      let octet ← load data i
      let rest ← plainChars data count (i + 1)
      return (rxStateNone, octet) :: rest

/-- The calls of `generic_raw_uart_handle_rx_char` for one URB; `none` is a read
outside of the buffer. The status is read whatever the length is. -/
def hbRfUsbProcessReadUrb (data : List UInt8) (actualLength : Nat) :
    Option (List (UInt8 × UInt8)) := do
  let status ← load data 1
  let first ←
    if actualLength > 2 then (load data 2).map fun octet => [(lineFlags status, octet)]
    else some []
  let rest ← plainChars data (actualLength - 3) 3
  return notice status ++ first ++ rest

def readUrb (buffer octets : List UInt8) : Option (List (UInt8 × UInt8)) := do
  let buffer ← memcpy buffer 0 octets
  hbRfUsbProcessReadUrb buffer octets.length

def payloadSize : Nat := 62

/-- A bulk packet of the FT232R: at most 64 bytes with the status in front. -/
structure Packet where
  modem : UInt8
  line : UInt8
  payload : List UInt8
  short : payload.length ≤ payloadSize

def Packet.octets (packet : Packet) : List UInt8 := packet.modem :: packet.line :: packet.payload

/-- The USB core puts packets into one URB until one of them is not full. -/
def Concatenated (packets : List Packet) : Prop :=
  ∀ packet ∈ packets.dropLast, packet.payload.length = payloadSize

def urb (packets : List Packet) : List UInt8 := packets.flatMap Packet.octets

/-- The calls without a break are the payload, and there is at most one break. -/
structure HeadersHidden (calls : List (UInt8 × UInt8)) (packets : List Packet) : Prop where
  breaks : (calls.filter fun call => breaks call.1) = [] ∨
    (calls.filter fun call => breaks call.1) = [(rxStateBreak, 0)]
  characters : ((calls.filter fun call => !RawUartChars.breaks call.1).map Prod.snd) =
    packets.flatMap Packet.payload

def characters (flags : UInt8) : List UInt8 → List (UInt8 × UInt8)
  | [] => []
  | octet :: rest => (flags, octet) :: rest.map fun octet => (rxStateNone, octet)

theorem characters_octets (flags : UInt8) (octets : List UInt8) :
    (characters flags octets).map Prod.snd = octets := by
  cases octets with
  | nil => rfl
  | cons octet rest =>
      rw [characters, List.map_cons, List.map_map]
      exact congrArg (octet :: ·) (List.map_id rest)

theorem lineFlags_unbroken (status : UInt8) : breaks (lineFlags status) = false := by
  by_cases brk : status &&& 0x10 = 0 <;> by_cases parity : status &&& 0x04 = 0 <;>
    by_cases frame : status &&& 0x08 = 0 <;> by_cases overrun : status &&& 0x02 = 0 <;>
      simp only [lineFlags, brk, parity, frame, overrun, ne_eq, not_true_eq_false,
        not_false_eq_true, ↓reduceIte] <;> decide

theorem characters_unbroken (status : UInt8) (octets : List UInt8) :
    ∀ call ∈ characters (lineFlags status) octets, breaks call.1 = false := by
  cases octets with
  | nil => nofun
  | cons octet rest =>
      rw [characters, List.forall_mem_cons]
      refine ⟨lineFlags_unbroken status, ?_⟩
      intro call member
      obtain ⟨other, -, rfl⟩ := List.mem_map.mp member
      show breaks rxStateNone = false
      decide

theorem plainChars_eq (done octets left : List UInt8) :
    plainChars (done ++ (octets ++ left)) octets.length done.length =
      some (octets.map fun octet => (rxStateNone, octet)) := by
  induction octets generalizing done with
  | nil => rfl
  | cons octet rest ih =>
      have next := ih (done ++ [octet])
      rw [List.append_assoc, List.singleton_append, List.length_append, List.length_singleton]
        at next
      rw [List.cons_append, List.length_cons, plainChars, load_boundary, next]
      rfl

theorem urb_calls (modem line : UInt8) (octets left : List UInt8) :
    hbRfUsbProcessReadUrb (modem :: line :: (octets ++ left)) (octets.length + 2) =
      some (notice line ++ characters (lineFlags line) octets) := by
  cases octets with
  | nil => simp [hbRfUsbProcessReadUrb, load, plainChars, characters]
  | cons octet rest =>
      have more := plainChars_eq [modem, line, octet] rest left
      have count : rest.length + 1 + 2 - 3 = rest.length := by omega
      simp only [List.cons_append, List.nil_append, List.length_cons, List.length_nil] at more
      rw [hbRfUsbProcessReadUrb, List.length_cons, count]
      simp [load, more, characters]

/-- A URB without a byte leaves the buffer alone, so that an old break can be passed
on once more, but no character. -/
theorem empty_urb_calls (modem line : UInt8) (left : List UInt8) :
    hbRfUsbProcessReadUrb (modem :: line :: left) 0 = some (notice line) := by
  simp [hbRfUsbProcessReadUrb, load, plainChars]

theorem notice_breaks (status : UInt8) : ∀ call ∈ notice status, breaks call.1 = true := by
  unfold notice
  split
  · rw [List.forall_mem_singleton]
    decide
  · nofun

theorem split_calls (status : UInt8) (octets : List UInt8) :
    ((notice status ++ characters (lineFlags status) octets).filter fun call => breaks call.1) =
        notice status ∧
      ((notice status ++ characters (lineFlags status) octets).filter fun call =>
        !breaks call.1).map Prod.snd = octets := by
  -- The break flag tells the notice from the characters.
  have front := notice_breaks status
  have back := characters_unbroken status octets
  have none : (characters (lineFlags status) octets).filter (fun call => breaks call.1) = [] :=
    List.filter_eq_nil_iff.mpr fun call member => by simp [back call member]
  have gone : (notice status).filter (fun call => !breaks call.1) = [] :=
    List.filter_eq_nil_iff.mpr fun call member => by simp [front call member]
  have kept : (characters (lineFlags status) octets).filter (fun call => !breaks call.1) =
      characters (lineFlags status) octets :=
    List.filter_eq_self.mpr fun call member => by simp [back call member]
  constructor
  · rw [List.filter_append, none, List.append_nil, List.filter_eq_self.mpr front]
  · rw [List.filter_append, gone, kept, List.nil_append, characters_octets]

theorem hidden_iff (status : UInt8) (octets : List UInt8) (packets : List Packet) :
    HeadersHidden (notice status ++ characters (lineFlags status) octets) packets ↔
      octets = packets.flatMap Packet.payload := by
  obtain ⟨first, second⟩ := split_calls status octets
  constructor
  · intro hidden
    rw [← hidden.characters, second]
  · intro same
    refine ⟨?_, second.trans same⟩
    rw [first, notice]
    split
    · exact .inr rfl
    · exact .inl rfl

theorem urb_length (packets : List Packet) :
    (urb packets).length = (packets.flatMap Packet.payload).length + 2 * packets.length := by
  induction packets with
  | nil => rfl
  | cons packet rest ih =>
      rw [urb] at ih ⊢
      rw [List.flatMap_cons, List.flatMap_cons, List.length_append, List.length_append, ih,
        List.length_cons, Packet.octets]
      simp only [List.length_cons]
      omega

theorem buffer_front (buffer : List UInt8) (sized : buffer.length = bufferSize) :
    ∃ modem line left, buffer = modem :: line :: left := by
  match buffer, sized with
  | modem :: line :: left, _ => exact ⟨modem, line, left, rfl⟩

/-- The status bytes stay out of the data exactly if the URB has at most one packet. -/
theorem headers_hidden_iff (buffer : List UInt8) (packets : List Packet)
    (sized : buffer.length = bufferSize) (fit : (urb packets).length ≤ bufferSize) :
    ∃ calls, readUrb buffer (urb packets) = some calls ∧
      (HeadersHidden calls packets ↔ packets.length ≤ 1) := by
  have filled : memcpy buffer 0 (urb packets) =
      some (urb packets ++ buffer.drop (urb packets).length) :=
    memcpy_front (by rw [sized]; exact fit)
  cases packets with
  | nil =>
      obtain ⟨modem, line, left, rfl⟩ := buffer_front buffer sized
      have none := hidden_iff line [] []
      refine ⟨notice line, ?_, ?_⟩
      · simp only [readUrb, filled, Option.bind_eq_bind, Option.bind_some]
        exact empty_urb_calls modem line left
      · rw [characters, List.append_nil] at none
        simp [none]
  | cons packet rest =>
      have shape : urb (packet :: rest) =
          packet.modem :: packet.line :: (packet.payload ++ urb rest) := by
        rw [urb, List.flatMap_cons]
        rfl
      refine ⟨_, ?_, (hidden_iff packet.line (packet.payload ++ urb rest) (packet :: rest)).trans ?_⟩
      · simp only [readUrb, filled, Option.bind_eq_bind, Option.bind_some]
        have processed := urb_calls packet.modem packet.line (packet.payload ++ urb rest)
          (buffer.drop (urb (packet :: rest)).length)
        have length : (urb (packet :: rest)).length = (packet.payload ++ urb rest).length + 2 := by
          rw [shape]
          rfl
        rw [length] at processed ⊢
        rw [shape]
        exact processed
      · -- The second packet's status is longer than nothing.
        rw [List.flatMap_cons, List.append_right_inj, List.length_cons]
        constructor
        · intro same
          have lengths := congrArg List.length same
          rw [urb_length] at lengths
          omega
        · intro single
          have none : rest = [] := List.eq_nil_of_length_eq_zero (by omega)
          rw [none]
          rfl

def single : List Packet := [⟨0x01, 0x64, [0x41, 0x42], by decide⟩]

theorem headers_hidden_iff_single : ∃ calls,
    readUrb (List.replicate bufferSize 0) [0x01, 0x64, 0x41, 0x42] = some calls ∧
      HeadersHidden calls single := by
  obtain ⟨calls, run, hidden⟩ :=
    headers_hidden_iff (List.replicate bufferSize 0) single List.length_replicate (by decide)
  exact ⟨calls, run, hidden.mpr (by decide)⟩

def burst : List Packet :=
  [⟨0x01, 0x60, List.replicate payloadSize 0x55, by decide⟩, ⟨0x01, 0x60, [0x41], by decide⟩]

/-- The status of the second packet is passed on as two characters. -/
theorem second_header_leaks : Concatenated burst ∧ ∃ calls,
    readUrb (List.replicate bufferSize 0) (urb burst) = some calls ∧
      calls.map Prod.snd = List.replicate payloadSize 0x55 ++ [0x01, 0x60, 0x41] ∧
      ¬ HeadersHidden calls burst := by
  refine ⟨by simp [Concatenated, burst], characters 0 (List.replicate payloadSize 0x55 ++ [0x01, 0x60, 0x41]),
    by decide +kernel, by decide, ?_⟩
  have hidden := hidden_iff 0x60 (List.replicate payloadSize 0x55 ++ [0x01, 0x60, 0x41]) burst
  exact fun same => absurd (hidden.mp same) (by decide)

end PiVccu.HbRfUsbUrb
