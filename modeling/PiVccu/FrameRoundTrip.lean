import Mathlib
import PiVccu.Hm
import PiVccu.HmFrame
import PiVccu.StreamParser

/-!
The user-space codec against itself and against the kernel's: what one side
writes the other one reads back. Both parsers accept exactly the wire forms of
`HmWire`, so every agreement below goes through that format.
-/

namespace PiVccu.FrameRoundTrip
open BigEndian ByteStuffing StreamParser

/-- A frame together with the output buffer `encode` is called with and the
bytes that follow it on the line. The buffer has room for the escaped form. -/
structure Transmission where
  frame : HMFrame
  buffer : List UInt8
  len : UInt16
  junk : List UInt8
  short : frame.data.length + 8 ≤ 2048
  admitted : frame.data.length + 8 ≤ len.toNat
  room : frame.escapedWire.length ≤ buffer.length
  quiet : (0xfd : UInt8) ∉ junk

def emit : List Transmission → Option (List UInt8)
  | [] => some []
  | sent :: rest => do
      let octets ← sent.frame.encoded sent.buffer sent.len true
      let others ← emit rest
      some (octets ++ sent.junk ++ others)

theorem escapedWire_length_le (frame : HMFrame) :
    frame.escapedWire.length ≤ 2 * frame.data.length + 15 := by
  have bounds := HmWire.escaped_length_bounds frame.destination frame.counter frame.cmd
  have size : frame.cmd.length = frame.data.length + 1 := rfl
  have same : frame.escapedWire.length =
      (HmWire.escaped frame.destination frame.counter frame.cmd).length := rfl
  omega

theorem Transmission.encoded_eq (sent : Transmission) :
    sent.frame.encoded sent.buffer sent.len true = some sent.frame.escapedWire := by
  have bound := escapedWire_length_le sent.frame
  have short := sent.short
  exact HMFrame.encoded_escaped sent.frame sent.buffer sent.len sent.admitted sent.room (by omega)

theorem Transmission.received (sent : Transmission) (parser : StreamParser)
    (decoding : parser.decodeEscaped = true) :
    ∃ next, parser.appendAll (sent.frame.escapedWire ++ sent.junk) =
        some (next, [sent.frame.wire]) ∧ next.decodeEscaped = true := by
  have short := sent.short
  have size : sent.frame.cmd.length = sent.frame.data.length + 1 := rfl
  obtain ⟨middle, run, idle, kept⟩ := appendAll_escaped parser sent.frame.destination
    sent.frame.counter sent.frame.cmd (by omega) decoding
  obtain ⟨next, skipped, -, final⟩ := appendAll_junk middle sent.junk sent.quiet idle kept
  exact ⟨next, appendAll_trans run skipped, final⟩

theorem tryParse_wire (frame : HMFrame) (short : frame.data.length + 8 < 2 ^ 16) :
    HMFrame.tryParse frame.wire (UInt16.ofNat frame.wire.length) = some frame :=
  (HMFrame.tryParse_iff frame.wire (by rw [HMFrame.wire_length]; exact short) frame).mpr rfl

-- Induction over the transmissions: the parser enters each of them in an
-- arbitrary state, so nothing has to be carried over but the decode mode.
theorem stream_round_trip (sent : List Transmission) (parser : StreamParser)
    (decoding : parser.decodeEscaped = true) :
    ∃ stream next calls, emit sent = some stream ∧
      parser.appendAll stream = some (next, calls) ∧
      List.Forall₂ (fun one call =>
        HMFrame.tryParse call (UInt16.ofNat call.length) = some one.frame) sent calls := by
  induction sent generalizing parser with
  | nil => exact ⟨[], parser, [], rfl, rfl, .nil⟩
  | cons one rest ih =>
      obtain ⟨middle, received, kept⟩ := one.received parser decoding
      obtain ⟨stream, next, calls, emitted, run, parsed⟩ := ih middle kept
      have short := one.short
      refine ⟨one.frame.escapedWire ++ one.junk ++ stream, next, one.frame.wire :: calls, ?_,
        appendAll_trans received run, .cons (tryParse_wire one.frame (by omega)) parsed⟩
      simp [emit, one.encoded_eq, emitted]

def interruptedParser : StreamParser where
  buffer := List.replicate 2048 0xfc
  bufferPos := 7
  framePos := 3
  frameLength := 9
  state := .receiveFrameData
  isEscaped := true
  decodeEscaped := true
  sized := List.length_replicate

theorem fits_nil : ([] : List UInt8).length < 2 ^ 16 := Nat.two_pow_pos 16

def identifyTransmission : Transmission where
  frame := ⟨0xfd, 0xfe, 0x01, [], fits_nil⟩
  buffer := List.replicate 18 0
  len := 18
  junk := [0xfc, 0x7d]
  short := by decide
  admitted := by decide
  room := (escapedWire_length_le _).trans (by decide)
  quiet := by decide

theorem stream_round_trip_identify :
    ∃ stream next calls, emit [identifyTransmission, identifyTransmission] = some stream ∧
      interruptedParser.appendAll stream = some (next, calls) ∧
      List.Forall₂ (fun one call =>
        HMFrame.tryParse call (UInt16.ofNat call.length) = some one.frame)
        [identifyTransmission, identifyTransmission] calls :=
  stream_round_trip [identifyTransmission, identifyTransmission] interruptedParser rfl

def fields (frame : HMFrame) : UInt8 × UInt8 × List UInt8 :=
  (frame.destination, frame.counter, frame.command :: frame.data)

def kernelFields (frame : Hm.HmFrame) : UInt8 × UInt8 × List UInt8 :=
  (frame.dst, frame.cnt, frame.cmd)

theorem parse_iff_encoded (buf out : List UInt8) (len : UInt16)
    (fits : buf.length ≤ len.toNat) (real : len.toNat ≤ out.length) (frame : HMFrame) :
    HMFrame.tryParse buf (UInt16.ofNat buf.length) = some frame ↔
      frame.encoded out len false = some buf := by
  have bound := len.toNat_lt
  rw [HMFrame.tryParse_iff buf (by omega) frame]
  by_cases admitted : frame.data.length + 8 ≤ len.toNat
  · rw [HMFrame.encoded_plain frame out len admitted (by omega), Option.some.injEq, eq_comm]
  · rw [HMFrame.encoded_refused frame out len false (by omega)]
    constructor
    · intro same
      rw [same, HMFrame.wire_length] at fits
      omega
    · nofun

theorem parsers_agree (buf : List UInt8) (small : buf.length < 2 ^ 16) :
    (Hm.tryParseFrame buf buf.length).map kernelFields =
      (HMFrame.tryParse buf (UInt16.ofNat buf.length)).map fields := by
  cases parsed : HMFrame.tryParse buf (UInt16.ofNat buf.length) with
  | some frame =>
      have wire := (HMFrame.tryParse_iff buf small frame).mp parsed
      have size := HMFrame.wire_length frame
      rw [← wire] at size
      have cmdSize : frame.cmd.length = frame.data.length + 1 := rfl
      let kernel : Hm.HmFrame :=
        ⟨frame.destination, frame.counter, frame.cmd, by omega⟩
      have accepted : Hm.tryParseFrame buf buf.length = some kernel :=
        (Hm.tryParseFrame_iff buf small kernel).mpr ⟨wire, by simp only [kernel]; omega⟩
      rw [accepted]
      rfl
  | none =>
      cases accepted : Hm.tryParseFrame buf buf.length with
      | none => rfl
      | some kernel =>
          obtain ⟨wire, long⟩ := (Hm.tryParseFrame_iff buf small kernel).mp accepted
          have size := Hm.HmFrame.wire_length kernel
          rw [← wire] at size
          cases shape : kernel.cmd with
          | nil => simp [shape] at long
          | cons command data =>
              rw [shape, List.length_cons] at size
              let frame : HMFrame := ⟨kernel.cnt, kernel.dst, command, data, by omega⟩
              have same : buf = frame.wire := by
                rw [wire, Hm.HmFrame.wire, shape]
                rfl
              rw [(HMFrame.tryParse_iff buf small frame).mpr same] at parsed
              cases parsed

/-- Parsing and encoding are inverse to each other on both sides, and the two
parsers accept the same buffers with the same contents. -/
theorem parse_encode_inverse (buf out : List UInt8) (len : UInt16)
    (fits : buf.length ≤ len.toNat) (real : len.toNat ≤ out.length) :
    (∀ frame, HMFrame.tryParse buf (UInt16.ofNat buf.length) = some frame ↔
        frame.encoded out len false = some buf) ∧
      (Hm.tryParseFrame buf buf.length).map kernelFields =
        (HMFrame.tryParse buf (UInt16.ofNat buf.length)).map fields ∧
      ∀ kernel, Hm.tryParseFrame buf buf.length = some kernel →
        Hm.encodeFrame out len.toNat kernel = some (buf ++ out.drop buf.length, buf.length) := by
  have bound := len.toNat_lt
  refine ⟨parse_iff_encoded buf out len fits real, parsers_agree buf (by omega), ?_⟩
  intro kernel accepted
  obtain ⟨wire, -⟩ := (Hm.tryParseFrame_iff buf (by omega) kernel).mp accepted
  have size := Hm.HmFrame.wire_length kernel
  rw [← wire] at size
  rw [Hm.encodeFrame_eq out len.toNat kernel (by omega) (by omega), ← wire, ← size]

theorem parse_encode_inverse_identify :
    (∀ frame, HMFrame.tryParse identifyTransmission.frame.wire
        (UInt16.ofNat identifyTransmission.frame.wire.length) = some frame ↔
        frame.encoded (List.replicate 18 0) 18 false = some identifyTransmission.frame.wire) ∧
      (Hm.tryParseFrame identifyTransmission.frame.wire
          identifyTransmission.frame.wire.length).map kernelFields =
        (HMFrame.tryParse identifyTransmission.frame.wire
          (UInt16.ofNat identifyTransmission.frame.wire.length)).map fields ∧
      ∀ kernel, Hm.tryParseFrame identifyTransmission.frame.wire
          identifyTransmission.frame.wire.length = some kernel →
        Hm.encodeFrame (List.replicate 18 0) (18 : UInt16).toNat kernel =
          some (identifyTransmission.frame.wire ++
            (List.replicate 18 0).drop identifyTransmission.frame.wire.length,
            identifyTransmission.frame.wire.length) :=
  parse_encode_inverse identifyTransmission.frame.wire (List.replicate 18 0) 18
    (by rw [HMFrame.wire_length]; decide) (by decide)

/-- The kernel undoes the user-space escaping: it stops where the encoder
stopped, whatever lies behind, and recovers the frame. -/
theorem kernel_decodes_encoded (frame : HMFrame) (buffer left : List UInt8) (len : UInt16)
    (room : frame.escapedWire.length ≤ len.toNat) (real : len.toNat ≤ buffer.length) :
    ∃ sent plain parsed, frame.encoded buffer len true = some sent ∧
      frame.encoded buffer len false = some plain ∧
      Hm.decodeFrameBuffer (sent ++ left) sent.length = some (plain, left) ∧
      Hm.tryParseFrame plain plain.length = some parsed ∧
      parsed.dst = frame.destination ∧ parsed.cnt = frame.counter ∧
      parsed.cmd = frame.command :: frame.data := by
  have bound := len.toNat_lt
  have bounds := HmWire.escaped_length_bounds frame.destination frame.counter frame.cmd
  change _ ≤ frame.escapedWire.length ∧ _ at bounds
  have size : frame.cmd.length = frame.data.length + 1 := rfl
  have stuffed : frame.escapedWire.length = (stuff HmWire.escapeCode
      (HmWire.body frame.destination frame.counter frame.cmd)).length + 1 := rfl
  let kernel : Hm.HmFrame := ⟨frame.destination, frame.counter, frame.cmd, by omega⟩
  refine ⟨frame.escapedWire, frame.wire, kernel,
    HMFrame.encoded_escaped frame buffer len (by omega) (by omega) (by omega),
    HMFrame.encoded_plain frame buffer len (by omega) (by omega), ?_, ?_, rfl, rfl, rfl⟩
  · have decoded := Hm.decodeFrameBuffer_stuff
      (HmWire.body frame.destination frame.counter frame.cmd) left (by omega)
    change Hm.decodeFrameBuffer (0xfd :: (_ ++ left)) (_ + 1) = some (0xfd :: _, left)
    rw [Hm.decodeFrameBuffer_plain _ _ _ (by decide), decoded]
    rfl
  · exact (Hm.tryParseFrame_iff frame.wire (by rw [HMFrame.wire_length]; omega) kernel).mpr
      ⟨rfl, by simp only [kernel]; omega⟩

theorem kernel_decodes_identify :
    ∃ sent plain parsed,
      identifyTransmission.frame.encoded (List.replicate 18 0) 18 true = some sent ∧
      identifyTransmission.frame.encoded (List.replicate 18 0) 18 false = some plain ∧
      Hm.decodeFrameBuffer (sent ++ []) sent.length = some (plain, []) ∧
      Hm.tryParseFrame plain plain.length = some parsed ∧
      parsed.dst = 0xfe ∧ parsed.cnt = 0xfd ∧ parsed.cmd = [0x01] :=
  kernel_decodes_encoded identifyTransmission.frame (List.replicate 18 0) [] 18
    ((escapedWire_length_le _).trans (by decide)) (by decide)

end PiVccu.FrameRoundTrip
