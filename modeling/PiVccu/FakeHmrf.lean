import PiVccu.FrameRoundTrip

/-!
`kernel/fake_hmrf.c`: the simulated radio module answers through `encodeFrame`
and `encodeFrameBuffer`. The escaping condition of the latter looks at the
number of bytes left instead of the position from the start: a 0xfd is escaped
only as the second to last byte of the buffer.
-/

namespace PiVccu.FakeHmrf
open BigEndian ByteStuffing Hm StreamParser

def bufSize : Nat := 1024

/-- The bytes that the macro `fake_hmrf_respond_to_frame` adds to the receive
buffer. `frameBuf` holds the request that is being answered. -/
def respondToFrame (frameBuf : List UInt8) (frame : HmFrame) : Option (List UInt8) := do
  let written ← encodeFrame frameBuf bufSize frame
  encodeFrameBuffer written.1 written.2

/-- The escaping that `encodeFrameBuffer` performs on a whole buffer. -/
def tailStuff : List UInt8 → List UInt8
  | [] => []
  | cur :: rest =>
      (if cur = 0xfc ∨ (cur = 0xfd ∧ rest.length = 1) then [0xfc, cur &&& 0x7f] else [cur]) ++
        tailStuff rest

theorem encodeFrameBuffer_eq (src left : List UInt8) :
    encodeFrameBuffer (src ++ left) src.length = some (tailStuff src) := by
  induction src with
  | nil => cases left <;> rfl
  | cons cur rest ih =>
      simp only [List.cons_append, List.length_cons, encodeFrameBuffer, ih, Option.bind_eq_bind,
        Option.bind_some, tailStuff]
      split <;> rfl

theorem respondToFrame_eq (frameBuf : List UInt8) (frame : HmFrame)
    (sized : frameBuf.length = bufSize) (bounded : frame.cmd.length ≤ 1017) :
    respondToFrame frameBuf frame = some (tailStuff frame.wire) := by
  have room : frame.cmd.length + 7 ≤ bufSize := by
    unfold bufSize
    omega
  have written := encodeFrameBuffer_eq frame.wire (frameBuf.drop (frame.cmd.length + 7))
  rw [HmFrame.wire_length] at written
  simp only [respondToFrame, encodeFrame_eq frameBuf bufSize frame room (by omega),
    Option.bind_eq_bind, Option.bind_some, written]

/-- Every 0xfd stands where `encodeFrameBuffer` escapes it. -/
def Placed (octets : List UInt8) : Prop :=
  ∀ front back, octets = front ++ 0xfd :: back → back.length = 1

theorem tailStuff_placed (octets : List UInt8) (placed : Placed octets) :
    tailStuff octets = stuff HmWire.escapeCode octets := by
  induction octets with
  | nil => rfl
  | cons octet rest ih =>
      have tail : Placed rest := by
        intro front back split
        exact placed (octet :: front) back (by rw [split]; rfl)
      have head : octet = 0xfd → rest.length = 1 := by
        rintro rfl
        exact placed [] rest rfl
      rw [tailStuff, ih tail, stuff_cons]
      congr 1
      by_cases escape : octet = 0xfc
      · subst escape
        rfl
      · by_cases start : octet = 0xfd
        · have one := head start
          subst start
          simp [stuffSymbol, HmWire.escapeCode, one]
        · simp [stuffSymbol, HmWire.escapeCode, escape, start]

/-- Whatever is escaped or not, each source byte stores one byte at the
receiver: the output splits wherever the source does. -/
theorem tailStuff_split (front back : List UInt8) :
    ∃ sent, tailStuff (front ++ back) = sent ++ tailStuff back ∧
      storable sent = front.length := by
  induction front with
  | nil => exact ⟨[], rfl, rfl⟩
  | cons octet rest ih =>
      obtain ⟨sent, same, count⟩ := ih
      rw [List.cons_append, tailStuff, same]
      by_cases escape : octet = 0xfc
      · subst escape
        refine ⟨0xfc :: 0x7c :: sent, by simp; rfl, ?_⟩
        simpa [storable, List.countP_cons] using count
      · by_cases masked : octet = 0xfd ∧ (rest ++ back).length = 1
        · refine ⟨0xfc :: 0x7d :: sent, by simp [masked]; rfl, ?_⟩
          simpa [storable, List.countP_cons] using count
        · refine ⟨octet :: sent, by simp only [escape, masked, false_or, ↓reduceIte]; rfl, ?_⟩
          simpa [storable, List.countP_cons, escape] using count

/-- The frames whose only 0xfd behind the start byte, if any, is the high byte
of the checksum. -/
structure Escapable (frame : HmFrame) : Prop where
  length : lowByte (HmWire.lengthField frame.cmd) ≠ 0xfd
  dst : frame.dst ≠ 0xfd
  cnt : frame.cnt ≠ 0xfd
  cmd : 0xfd ∉ frame.cmd
  checksum : lowByte (hmCrc (HmWire.covered frame.dst frame.cnt frame.cmd)
    (frame.cmd.length + 5)) ≠ 0xfd

theorem hmCrc_covered (frame : HmFrame) :
    hmCrc (HmWire.covered frame.dst frame.cnt frame.cmd) (frame.cmd.length + 5) =
      HmWire.checksum (HmWire.covered frame.dst frame.cnt frame.cmd) := by
  have size : frame.cmd.length + 5 = (HmWire.covered frame.dst frame.cnt frame.cmd).length := rfl
  rw [hmCrc, size, List.take_length]
  rfl

theorem highByte_length_ne (cmd : List UInt8) (bounded : cmd.length ≤ 1017) :
    highByte (HmWire.lengthField cmd) ≠ 0xfd := by
  intro same
  have value := congrArg UInt8.toNat same
  rw [highByte_toNat, HmWire.lengthField, UInt16.toNat_ofNat'] at value
  have start : (0xfd : UInt8).toNat = 253 := rfl
  omega

theorem escapable_placed (frame : HmFrame) (bounded : frame.cmd.length ≤ 1017)
    (escapable : Escapable frame) :
    Placed (HmWire.body frame.dst frame.cnt frame.cmd) := by
  intro front back split
  have low := escapable.checksum
  rw [hmCrc_covered] at low
  unfold HmWire.body at split
  rcases front with _ | ⟨_, _ | ⟨_, _ | ⟨_, _ | ⟨_, front⟩⟩⟩⟩
  · rw [List.nil_append, List.cons.injEq] at split
    exact absurd split.1 (highByte_length_ne frame.cmd bounded)
  · simp only [List.cons_append, List.nil_append, List.cons.injEq] at split
    exact absurd split.2.1 escapable.length
  · simp only [List.cons_append, List.nil_append, List.cons.injEq] at split
    exact absurd split.2.2.1 escapable.dst
  · simp only [List.cons_append, List.nil_append, List.cons.injEq] at split
    exact absurd split.2.2.2.1 escapable.cnt
  · simp only [List.cons_append, List.cons.injEq] at split
    rcases List.append_eq_append_iff.mp split.2.2.2.2 with
      ⟨between, rfl, tail⟩ | ⟨between, cmd, tail⟩
    · rcases between with _ | ⟨_, _ | ⟨_, _⟩⟩
      · simp only [HmWire.trailer, List.nil_append, List.cons.injEq] at tail
        rw [← tail.2]
        rfl
      · simp only [HmWire.trailer, List.cons_append, List.nil_append, List.cons.injEq] at tail
        exact absurd tail.2.1 low
      · have size := congrArg List.length tail
        simp only [HmWire.trailer_length, List.length_append, List.length_cons] at size
        omega
    · cases between with
      | nil =>
          simp only [HmWire.trailer, List.nil_append, List.cons.injEq] at tail
          rw [tail.2]
          rfl
      | cons first others =>
          simp only [List.cons_append, List.cons.injEq] at tail
          have member : (0xfd : UInt8) ∈ frame.cmd := by
            rw [cmd, ← tail.1]
            simp
          exact absurd member escapable.cmd

theorem placed_escapable (frame : HmFrame)
    (placed : Placed (HmWire.body frame.dst frame.cnt frame.cmd)) : Escapable frame := by
  constructor
  · intro start
    have one := placed [highByte (HmWire.lengthField frame.cmd)]
      (frame.dst :: frame.cnt :: (frame.cmd ++ HmWire.trailer frame.dst frame.cnt frame.cmd))
      (by rw [HmWire.body, start]; rfl)
    simp only [List.length_cons, List.length_append] at one
    omega
  · intro start
    have one := placed [highByte (HmWire.lengthField frame.cmd), lowByte (HmWire.lengthField frame.cmd)]
      (frame.cnt :: (frame.cmd ++ HmWire.trailer frame.dst frame.cnt frame.cmd))
      (by rw [HmWire.body]; nth_rewrite 1 [start]; rfl)
    simp only [List.length_cons, List.length_append, HmWire.trailer_length] at one
    omega
  · intro start
    have one := placed [highByte (HmWire.lengthField frame.cmd),
        lowByte (HmWire.lengthField frame.cmd), frame.dst]
      (frame.cmd ++ HmWire.trailer frame.dst frame.cnt frame.cmd)
      (by rw [HmWire.body]; nth_rewrite 1 [start]; rfl)
    simp only [List.length_append, HmWire.trailer_length] at one
    omega
  · intro member
    obtain ⟨front, back, split⟩ := List.append_of_mem member
    have one := placed (highByte (HmWire.lengthField frame.cmd) ::
        lowByte (HmWire.lengthField frame.cmd) :: frame.dst :: frame.cnt :: front)
      (back ++ HmWire.trailer frame.dst frame.cnt frame.cmd)
      (by rw [HmWire.body]; nth_rewrite 3 [split]; simp)
    simp only [List.length_append, HmWire.trailer_length] at one
    omega
  · intro start
    rw [hmCrc_covered] at start
    have one := placed (highByte (HmWire.lengthField frame.cmd) ::
        lowByte (HmWire.lengthField frame.cmd) :: frame.dst :: frame.cnt :: (frame.cmd ++
          [highByte (HmWire.checksum (HmWire.covered frame.dst frame.cnt frame.cmd))])) []
      (by rw [HmWire.body, HmWire.trailer, start]; simp)
    simp at one

theorem tailStuff_start (octets : List UInt8) (long : octets.length ≠ 1) :
    tailStuff (0xfd :: octets) = 0xfd :: tailStuff octets := by
  simp [tailStuff, long]

/-- Exactly one call of the processor, with a buffer that parses to the frame. -/
def Delivers (parser : StreamParser) (frameBuf : List UInt8) (frame : HmFrame) : Prop :=
  ∃ stream next call parsed, respondToFrame frameBuf frame = some stream ∧
    parser.appendAll stream = some (next, [call]) ∧
    HMFrame.tryParse call (UInt16.ofNat call.length) = some parsed ∧
    parsed.destination = frame.dst ∧ parsed.counter = frame.cnt ∧
    parsed.command :: parsed.data = frame.cmd

def SingleStart (frameBuf : List UInt8) (frame : HmFrame) : Prop :=
  ∃ stream, respondToFrame frameBuf frame = some (0xfd :: stream) ∧ 0xfd ∉ stream

section Response
variable (frameBuf : List UInt8) (frame : HmFrame) (sized : frameBuf.length = bufSize)
  (bounded : frame.cmd.length ≤ 1017)

include sized bounded in
theorem respondToFrame_start :
    respondToFrame frameBuf frame =
      some (0xfd :: tailStuff (HmWire.body frame.dst frame.cnt frame.cmd)) := by
  rw [respondToFrame_eq frameBuf frame sized bounded, HmFrame.wire, HmWire.plain, tailStuff_start]
  rw [HmWire.body_length]
  omega

include sized bounded in
theorem respondToFrame_escapable (escapable : Escapable frame) :
    respondToFrame frameBuf frame = some (HmWire.escaped frame.dst frame.cnt frame.cmd) := by
  rw [respondToFrame_start frameBuf frame sized bounded,
    tailStuff_placed _ (escapable_placed frame bounded escapable)]
  rfl

/-- An unescaped 0xfd inside the frame cuts it in two, and neither part can
fill a buffer of the frame's length. -/
theorem misplaced_calls (parser next : StreamParser) (decoding : parser.decodeEscaped = true)
    (front back : List UInt8) (long : back.length ≠ 1) (calls : List (List UInt8))
    (run : parser.appendAll (0xfd :: tailStuff (front ++ 0xfd :: back)) = some (next, calls)) :
    ∀ call ∈ calls, call.length < front.length + back.length + 2 := by
  obtain ⟨sent, split, count⟩ := tailStuff_split front (0xfd :: back)
  obtain ⟨rest, whole, countBack⟩ := tailStuff_split back []
  rw [List.append_nil, show tailStuff [] = [] from rfl, List.append_nil] at whole
  rw [split, tailStuff_start back long, ← List.cons_append, appendAll_append] at run
  simp only [Option.bind_eq_some_iff, Option.map_eq_some_iff] at run
  obtain ⟨⟨middle, earlier⟩, first, ⟨final, later⟩, second, same⟩ := run
  cases same
  intro call member
  rcases List.mem_append.mp member with before | after
  · have bound := appendAll_start_bounded sent parser decoding middle earlier first call before
    omega
  · have kept : middle.decodeEscaped = true := appendAll_decoding first decoding
    have bound := appendAll_start_bounded _ middle kept _ later second call after
    rw [whole, countBack] at bound
    omega

include sized bounded in
theorem delivers_escapable (parser : StreamParser) (decoding : parser.decodeEscaped = true)
    (nonempty : 1 ≤ frame.cmd.length) (escapable : Escapable frame) :
    Delivers parser frameBuf frame := by
  obtain ⟨next, run, -, -⟩ := appendAll_escaped parser frame.dst frame.cnt frame.cmd (by omega)
    decoding
  cases shape : frame.cmd with
  | nil => simp [shape] at nonempty
  | cons command data =>
      have size : frame.cmd.length = data.length + 1 := by rw [shape]; rfl
      let parsed : HMFrame := ⟨frame.cnt, frame.dst, command, data, by omega⟩
      have same : HmWire.plain frame.dst frame.cnt frame.cmd = parsed.wire := by
        rw [shape]
        rfl
      refine ⟨_, next, _, parsed, respondToFrame_escapable frameBuf frame sized bounded escapable,
        run, ?_, rfl, rfl, shape.symm⟩
      rw [same]
      exact FrameRoundTrip.tryParse_wire parsed (by simp only [parsed]; omega)

include sized bounded in
theorem delivers_only_escapable (parser : StreamParser) (decoding : parser.decodeEscaped = true)
    (delivers : Delivers parser frameBuf frame) : Escapable frame := by
  apply placed_escapable
  intro front back split
  by_contra long
  obtain ⟨stream, next, call, parsed, emitted, run, accepted, -, -, cmd⟩ := delivers
  rw [respondToFrame_start frameBuf frame sized bounded, Option.some.injEq, split] at emitted
  rw [← emitted] at run
  have short := misplaced_calls parser next decoding front back long [call] run call
    (List.mem_singleton.mpr rfl)
  have total := congrArg List.length split
  rw [HmWire.body_length, List.length_append, List.length_cons] at total
  have wire := (HMFrame.tryParse_iff call (by omega) parsed).mp accepted
  have size := HMFrame.wire_length parsed
  have cmdSize := congrArg List.length cmd
  rw [List.length_cons] at cmdSize
  rw [← wire] at size
  omega

include sized bounded in
theorem singleStart_iff : SingleStart frameBuf frame ↔ Escapable frame := by
  constructor
  · rintro ⟨stream, emitted, quiet⟩
    apply placed_escapable
    intro front back split
    by_contra long
    obtain ⟨sent, whole, -⟩ := tailStuff_split front (0xfd :: back)
    rw [respondToFrame_start frameBuf frame sized bounded, split, whole,
      tailStuff_start back long] at emitted
    simp only [Option.some.injEq, List.cons.injEq, true_and] at emitted
    apply quiet
    rw [← emitted]
    simp
  · intro escapable
    exact ⟨_, respondToFrame_escapable frameBuf frame sized bounded escapable,
      HmWire.start_not_mem_stuffed _⟩

end Response

/-- The emitted stream is understood, from every state of the receiver, exactly
when the kernel's escaping rule happens to cover all of the frame. -/
theorem kernel_stream_iff (frameBuf : List UInt8) (frame : HmFrame)
    (sized : frameBuf.length = bufSize) (nonempty : 1 ≤ frame.cmd.length)
    (bounded : frame.cmd.length ≤ 1017) (parser : StreamParser)
    (decoding : parser.decodeEscaped = true) :
    (Delivers parser frameBuf frame ↔ Escapable frame) ∧
      (SingleStart frameBuf frame ↔ Escapable frame) :=
  ⟨⟨delivers_only_escapable frameBuf frame sized bounded parser decoding,
    delivers_escapable frameBuf frame sized bounded parser decoding nonempty⟩,
    singleStart_iff frameBuf frame sized bounded⟩

/-- `common_start_bl_response`, sent for a request whose counter is 0xfd. -/
def startBootloaderResponse : HmFrame := ⟨0xfe, 0xfd, [0x05, 0x01], by decide⟩

theorem kernel_stream_iff_response :
    (Delivers FrameRoundTrip.interruptedParser (List.replicate bufSize 0)
        startBootloaderResponse ↔ Escapable startBootloaderResponse) ∧
      (SingleStart (List.replicate bufSize 0) startBootloaderResponse ↔
        Escapable startBootloaderResponse) :=
  kernel_stream_iff (List.replicate bufSize 0) startBootloaderResponse List.length_replicate
    (by decide) (by decide) FrameRoundTrip.interruptedParser rfl

/-- A counter of 0xfd is sent unescaped: the answer never reaches the processor. -/
theorem kernel_stream_unescaped_counter :
    ¬ ∀ (frameBuf : List UInt8) (frame : HmFrame) (parser : StreamParser),
      frameBuf.length = bufSize → 1 ≤ frame.cmd.length → frame.cmd.length ≤ 1017 →
      parser.decodeEscaped = true →
      Delivers parser frameBuf frame ∧ SingleStart frameBuf frame := by
  intro claim
  have delivered := (claim (List.replicate bufSize 0) startBootloaderResponse
    FrameRoundTrip.interruptedParser List.length_replicate (by decide) (by decide) rfl).1
  have escapable := delivers_only_escapable (List.replicate bufSize 0) startBootloaderResponse
    List.length_replicate (by decide) FrameRoundTrip.interruptedParser rfl delivered
  exact escapable.cnt rfl

end PiVccu.FakeHmrf
