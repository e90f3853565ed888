import PiVccu.HmFrame

/-!
The room that `HMFrame::encode` of `detect_radio_module/hmframe.cpp` takes. Its only
check compares the buffer with the frame before the escaping, and the escaping then
lengthens the frame in place by one byte for each reserved byte.
-/

namespace PiVccu
open ByteBuffer ByteStuffing

namespace HMFrame

/-- `encode` stays inside of the buffer and returns no more than `len`, or 0 with the
buffer as it was. -/
def Contained (frame : HMFrame) (buffer : List UInt8) (len : UInt16) (escaped : Bool) : Prop :=
  ∃ after res, frame.encode buffer len escaped = some (after, res) ∧
    (res = 0 ∧ after = buffer ∨ res.toNat ≤ len.toNat)

/-- The bytes behind the start byte that the escaping doubles: those of the length, the
address, the counter, the command, the data and the checksum. -/
def reservedBytes (frame : HMFrame) : Nat :=
  (HmWire.body frame.destination frame.counter frame.cmd).countP HmWire.escapeCode.reserved

theorem escapedWire_length (frame : HMFrame) :
    frame.escapedWire.length = frame.data.length + 8 + frame.reservedBytes := by
  have size : frame.cmd.length = frame.data.length + 1 := rfl
  rw [escapedWire, HmWire.escaped, List.length_cons, stuff_length, HmWire.body_length, size,
    reservedBytes]
  omega

theorem escapeLoop_overrun (todo : List UInt8) (done rest : List UInt8) (i res : UInt16)
    (fuel : Nat) (position : i.toNat = done.length) (extent : res.toNat = done.length + todo.length)
    (small : done.length + todo.length + rest.length < 2 ^ 16)
    (beyond : rest.length < todo.countP HmWire.escapeCode.reserved) :
    escapeLoop fuel (done ++ (todo ++ rest)) i res = none := by
  induction todo generalizing done rest i res fuel with
  | nil =>
      rw [List.countP_nil] at beyond
      omega
  | cons octet todo ih =>
      simp only [List.length_cons] at extent small
      have go : i < res := UInt16.lt_iff_toNat_lt.mpr (by omega)
      cases fuel with
      | zero => simp only [escapeLoop, go, ↓reduceIte]
      | succ fuel =>
          cases hit : HmWire.escapeCode.reserved octet with
          | false =>
              rw [List.countP_cons_of_neg (by simp [hit])] at beyond
              have next := index_plain position octet (by omega)
              have later := ih (done ++ [octet]) rest (i + 1) res fuel next
                (by simp only [List.length_append, List.length_singleton]; omega)
                (by simp only [List.length_append, List.length_singleton]; omega) beyond
              rw [List.cons_append, escapeLoop_plain fuel done octet _ i res position (by omega) hit]
              simpa using later
          | true =>
              rw [List.countP_cons_of_pos hit] at beyond
              cases rest with
              | nil =>
                  -- No cell is left behind `res`: the move would write the one after the last.
                  have special : octet = 0xfc ∨ octet = 0xfd := by
                    simpa [HmWire.escapeCode] using hit
                  have here : load (done ++ (octet :: todo ++ [])) i.toNat = some octet := by
                    rw [position, List.append_nil]
                    exact load_boundary done octet todo
                  have leaves : memmove (done ++ (octet :: todo ++ [])) (i.toNat + 1) i.toNat
                      (res.toNat - i.toNat) = none := by
                    have count : res.toNat - i.toNat = todo.length + 1 := by omega
                    have outside : ¬ done.length + 1 + (todo.length + 1) ≤
                        (done ++ (octet :: todo ++ [])).length := by
                      simp
                    have source : (((done ++ (octet :: todo ++ [])).drop done.length).take
                        (todo.length + 1)).length = todo.length + 1 := by
                      simp
                    rw [memmove, count, position]
                    split
                    · rw [memcpy, source, if_neg outside]
                    · rfl
                  simp only [escapeLoop, go, ↓reduceIte, here, Option.bind_eq_bind,
                    Option.bind_some, special, leaves, Option.bind_none]
              | cons spare rest =>
                  simp only [List.length_cons] at small beyond
                  have next := index_reserved position (octet &&& 0x7f) (by omega)
                  have grown := extent_reserved extent (octet &&& 0x7f) (by omega)
                  rw [List.cons_append,
                    escapeLoop_reserved fuel done octet todo spare rest i res position extent hit]
                  exact ih (done ++ [0xfc, octet &&& 0x7f]) rest (i + 1 + 1) (res + 1) fuel next
                    grown
                    (by simp only [List.length_append, List.length_cons, List.length_nil]; omega)
                    (by omega)

section Room
variable (frame : HMFrame) {buffer : List UInt8} {len : UInt16} (sized : buffer.length = len.toNat)

include sized in
theorem contained_escaped_iff (admitted : frame.data.length + 8 ≤ len.toNat) :
    frame.Contained buffer len true ↔
      frame.data.length + 8 + frame.reservedBytes ≤ len.toNat := by
  have bound := len.toNat_lt
  have counted : (UInt16.ofNat (frame.data.length + 8)).toNat = frame.data.length + 8 := by
    rw [UInt16.toNat_ofNat']
    omega
  have size : (HmWire.body frame.destination frame.counter frame.cmd).length =
      frame.data.length + 7 := HmWire.body_length _ _ _
  have shape : frame.wire ++ buffer.drop (frame.data.length + 8) =
      [0xfd] ++ (HmWire.body frame.destination frame.counter frame.cmd ++
        buffer.drop (frame.data.length + 8)) := rfl
  have spare : (buffer.drop (frame.data.length + 8)).length =
      len.toNat - (frame.data.length + 8) := by rw [List.length_drop, sized]
  have start : (1 : UInt16).toNat = [(0xfd : UInt8)].length := rfl
  have extent : (UInt16.ofNat (frame.data.length + 8)).toNat = [(0xfd : UInt8)].length +
      (HmWire.body frame.destination frame.counter frame.cmd).length := by
    rw [counted, size, List.length_singleton]
    omega
  have stuffed := stuff_length HmWire.escapeCode
    (HmWire.body frame.destination frame.counter frame.cmd)
  rw [← reservedBytes, size] at stuffed
  -- The loop starts behind the delimiter, which is not escaped.
  by_cases room : frame.data.length + 8 + frame.reservedBytes ≤ len.toNat
  · refine iff_of_true ?_ room
    obtain ⟨left, total, run, counts⟩ := escapeLoop_run _ [0xfd] (buffer.drop (frame.data.length + 8))
      1 _ (frame.data.length + 8) start extent (by rw [size]; omega)
      (by rw [stuffed, size, spare]; omega) (by rw [stuffed, List.length_singleton]; omega)
    rw [stuffed, List.length_singleton] at counts
    have encoded := encode_eq frame buffer len true admitted (by omega)
    rw [if_pos rfl, shape, run] at encoded
    exact ⟨_, total, encoded, .inr (by omega)⟩
  · refine iff_of_false ?_ room
    rintro ⟨after, res, run, -⟩
    rw [encode_eq frame buffer len true admitted (by omega), if_pos rfl, shape,
      escapeLoop_overrun _ [0xfd] _ 1 _ _ start extent
        (by rw [size, spare, List.length_singleton]; omega)
        (by rw [spare, ← reservedBytes]; omega)] at run
    cases run

end Room

/-- The condition in numbers: the check refuses the buffer, nothing is escaped, or the
buffer has a byte for every reserved byte of the frame. -/
theorem encode_contained_iff (frame : HMFrame) (buffer : List UInt8) (len : UInt16)
    (escaped : Bool) (sized : buffer.length = len.toNat) :
    frame.Contained buffer len escaped ↔
      (len.toNat < frame.data.length + 8 ∨ escaped = false ∨
        frame.data.length + 8 + frame.reservedBytes ≤ len.toNat) := by
  by_cases refused : len.toNat < frame.data.length + 8
  · refine iff_of_true ⟨buffer, 0, ?_, .inl ⟨rfl, rfl⟩⟩ (.inl refused)
    have short : frame.data.length + 8 > len.toNat := refused
    simp [encode, short]
  · have admitted : frame.data.length + 8 ≤ len.toNat := by omega
    cases escaped with
    | false =>
        have bound := len.toNat_lt
        have plain := encode_eq frame buffer len false admitted (by omega)
        rw [if_neg Bool.false_ne_true] at plain
        refine iff_of_true ⟨_, _, plain, .inr ?_⟩ (.inr (.inl rfl))
        rw [UInt16.toNat_ofNat']
        omega
    | true =>
        rw [contained_escaped_iff frame sized admitted]
        simp [refused]

def request : HMFrame := ⟨0, 0xfe, 0x02, [], by decide⟩

theorem encode_contained_iff_request : request.Contained (List.replicate 8 0) 8 true :=
  (encode_contained_iff request (List.replicate 8 0) 8 true rfl).mpr (.inr (.inr (by decide +kernel)))

def delimiter : HMFrame := ⟨0, 0xfe, 0x02, [0xfd], by decide⟩

/-- One data byte 0xfd: the nine bytes of the frame fit before the escaping only. -/
theorem escaping_leaves_buffer : ¬ delimiter.Contained (List.replicate 9 0) 9 true ∧
    delimiter.encode (List.replicate 9 0) 9 true = none ∧
    (delimiter.encode (List.replicate 10 0) 9 true).map Prod.snd = some 10 := by
  have leaves : delimiter.encode (List.replicate 9 0) 9 true = none := by decide +kernel
  refine ⟨?_, leaves, by decide +kernel⟩
  rintro ⟨after, res, run, -⟩
  rw [leaves] at run
  cases run

/-- The buffer of `RadioModuleDetector::sendFrame`: ten bytes more than the frame takes
before the escaping. -/
def sendBufferSize (frame : HMFrame) : Nat := 8 + frame.data.length + 10

theorem sendFrame_contained_iff (frame : HMFrame) (buffer : List UInt8)
    (sized : buffer.length = frame.sendBufferSize) (small : frame.sendBufferSize < 2 ^ 16) :
    frame.Contained buffer (UInt16.ofNat frame.sendBufferSize) true ↔ frame.reservedBytes ≤ 10 := by
  have counted : (UInt16.ofNat frame.sendBufferSize).toNat = frame.sendBufferSize := by
    rw [UInt16.toNat_ofNat']
    exact Nat.mod_eq_of_lt small
  rw [encode_contained_iff frame buffer _ true (sized.trans counted.symm), counted, sendBufferSize]
  simp only [Bool.true_eq_false, false_or]
  omega

end HMFrame
end PiVccu
