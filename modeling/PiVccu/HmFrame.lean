import PiVccu.ByteBuffer
import PiVccu.HmWire

/-!
`detect_radio_module/hmframe.cpp`: the user-space frame class. `encode` works
in the caller's buffer and escapes in place, so the model threads that buffer
through checked accesses; `none` is an access outside of it. `len` is what the
caller passes as the size of the buffer and need not be its real size.
-/

namespace PiVccu

open ByteBuffer BigEndian ByteStuffing

/-- `data` is what the pointer of the class refers to. Its length is kept in a
16-bit field, so a longer payload cannot be described. -/
structure HMFrame where
  counter : UInt8
  destination : UInt8
  command : UInt8
  data : List UInt8
  fits : data.length < 2 ^ 16

namespace HMFrame

def dataLen (frame : HMFrame) : UInt16 := UInt16.ofNat frame.data.length

def crc (buffer : List UInt8) (len : Nat) : UInt16 :=
  Crc16.remainder 0x8005 0xd77f (buffer.take len)

def tryParse (buffer : List UInt8) (len : UInt16) : Option HMFrame :=
  if len < 8 then none
  else if buffer.getD 0 0 ≠ 0xfd then none
  else
    let dataLen := join (buffer.getD 1 0) (buffer.getD 2 0) - 3
    -- the comparison is made in `int`: the sum does not wrap
    if dataLen.toNat + 8 ≠ len.toNat then none
    else if join (buffer.getD (len.toNat - 2) 0) (buffer.getD (len.toNat - 1) 0) ≠
        crc buffer (len.toNat - 2) then none
    else some
      { destination := buffer.getD 3 0
        counter := buffer.getD 4 0
        command := buffer.getD 5 0
        data := (buffer.drop 6).take dataLen.toNat
        fits := Nat.lt_of_le_of_lt (List.length_take_le _ _) dataLen.toNat_lt }

/-- The escaping loop. `fuel` bounds the iterations; `res - i` shrinks by one in
both branches, and a wrap of `res` ends the loop, so `res` iterations suffice. -/
def escapeLoop : Nat → List UInt8 → UInt16 → UInt16 → Option (List UInt8 × UInt16)
  | 0, buffer, i, res => if i < res then none else some (buffer, res)
  | fuel + 1, buffer, i, res =>
      if i < res then do
        let octet ← load buffer i.toNat
        if octet = 0xfc ∨ octet = 0xfd then
          let buffer ← memmove buffer (i.toNat + 1) i.toNat (res.toNat - i.toNat)
          let buffer ← store buffer i.toNat 0xfc
          let moved ← load buffer (i + 1).toNat
          let buffer ← store buffer (i + 1).toNat (moved &&& 0x7f)
          escapeLoop fuel buffer (i + 1 + 1) (res + 1)
        else escapeLoop fuel buffer (i + 1) res
      else some (buffer, res)

def writeFields (frame : HMFrame) (buffer : List UInt8) : Option (List UInt8) := do
  let buffer ← store buffer 0 0xfd
  let buffer ← store buffer 1 (UInt8.ofNat (((frame.dataLen.toNat + 3) >>> 8) &&& 0xff))
  let buffer ← store buffer 2 (UInt8.ofNat ((frame.dataLen.toNat + 3) &&& 0xff))
  let buffer ← store buffer 3 frame.destination
  let buffer ← store buffer 4 frame.counter
  store buffer 5 frame.command

def writeData (frame : HMFrame) (buffer : List UInt8) : Option (List UInt8) :=
  if frame.dataLen.toNat > 0 then memcpy buffer 6 frame.data else some buffer

def writeCrc (frame : HMFrame) (buffer : List UInt8) : Option (List UInt8) := do
  let crc := crc buffer (frame.dataLen.toNat + 6)
  let buffer ← store buffer (frame.dataLen.toNat + 6) ((crc >>> 8) &&& 0xff).toUInt8
  store buffer (frame.dataLen.toNat + 7) (crc &&& 0xff).toUInt8

def encode (frame : HMFrame) (buffer : List UInt8) (len : UInt16) (escaped : Bool) :
    Option (List UInt8 × UInt16) :=
  if frame.dataLen.toNat + 8 > len.toNat then some (buffer, 0)
  else do
    let buffer ← frame.writeFields buffer
    let buffer ← frame.writeData buffer
    let buffer ← frame.writeCrc buffer
    let res := UInt16.ofNat (frame.dataLen.toNat + 8)
    if escaped then escapeLoop res.toNat buffer 1 res else some (buffer, res)

/-- What `encode` leaves for its caller to send: the first `res` bytes. A
result of 0 is the refusal of a buffer that is too small. -/
def encoded (frame : HMFrame) (buffer : List UInt8) (len : UInt16) (escaped : Bool) :
    Option (List UInt8) := do
  let result ← frame.encode buffer len escaped
  if result.2 = 0 then none else some (result.1.take result.2.toNat)

def cmd (frame : HMFrame) : List UInt8 := frame.command :: frame.data

def wire (frame : HMFrame) : List UInt8 :=
  HmWire.plain frame.destination frame.counter frame.cmd

def escapedWire (frame : HMFrame) : List UInt8 :=
  HmWire.escaped frame.destination frame.counter frame.cmd

@[simp] theorem dataLen_toNat (frame : HMFrame) : frame.dataLen.toNat = frame.data.length := by
  have bound := frame.fits
  simp only [dataLen, UInt16.toNat_ofNat']
  omega

@[simp] theorem wire_length (frame : HMFrame) : frame.wire.length = frame.data.length + 8 := by
  simp [wire, cmd]

theorem escapeLoop_stop (fuel : Nat) (buffer : List UInt8) (i res : UInt16)
    (stop : res.toNat ≤ i.toNat) : escapeLoop fuel buffer i res = some (buffer, res) := by
  have halted : ¬ i < res := by
    rw [UInt16.lt_iff_toNat_lt]
    omega
  cases fuel <;> simp only [escapeLoop, halted, ↓reduceIte]

theorem escapeLoop_plain (fuel : Nat) (done : List UInt8) (octet : UInt8) (rest : List UInt8)
    (i res : UInt16) (position : i.toNat = done.length) (inside : i.toNat < res.toNat)
    (plain : HmWire.escapeCode.reserved octet = false) :
    escapeLoop (fuel + 1) (done ++ octet :: rest) i res =
      escapeLoop fuel (done ++ octet :: rest) (i + 1) res := by
  have go : i < res := UInt16.lt_iff_toNat_lt.mpr inside
  have here : load (done ++ octet :: rest) i.toNat = some octet := by
    rw [position]
    exact load_boundary done octet rest
  have unreserved : ¬ (octet = 0xfc ∨ octet = 0xfd) := by
    simpa [HmWire.escapeCode] using plain
  simp only [escapeLoop, go, ↓reduceIte, here, Option.bind_eq_bind, Option.bind_some, unreserved]

section Positions
variable {i res : UInt16} {done : List UInt8}

theorem index_plain (position : i.toNat = done.length) (octet : UInt8)
    (small : done.length + 1 < 2 ^ 16) : (i + 1).toNat = (done ++ [octet]).length := by
  rw [UInt16.toNat_add, position, List.length_append, List.length_singleton, UInt16.toNat_one]
  omega

theorem index_reserved (position : i.toNat = done.length) (octet : UInt8)
    (small : done.length + 2 < 2 ^ 16) :
    (i + 1 + 1).toNat = (done ++ [0xfc, octet]).length := by
  have second := index_plain position 0xfc (by omega)
  have third := index_plain second octet (by
    rw [List.length_append, List.length_singleton]
    omega)
  rwa [List.append_assoc, List.singleton_append] at third

theorem extent_reserved {count : Nat} (extent : res.toNat = done.length + (count + 1))
    (octet : UInt8) (small : done.length + count + 2 < 2 ^ 16) :
    (res + 1).toNat = (done ++ [0xfc, octet]).length + count := by
  have two : [0xfc, octet].length = 2 := rfl
  rw [UInt16.toNat_add, List.length_append, UInt16.toNat_one, two]
  omega

end Positions

theorem escapeLoop_reserved (fuel : Nat) (done : List UInt8) (octet : UInt8)
    (todo : List UInt8) (spare : UInt8) (rest : List UInt8) (i res : UInt16)
    (position : i.toNat = done.length) (extent : res.toNat = done.length + (todo.length + 1))
    (reserved : HmWire.escapeCode.reserved octet = true) :
    escapeLoop (fuel + 1) (done ++ octet :: (todo ++ spare :: rest)) i res =
      escapeLoop fuel (done ++ [0xfc, octet &&& 0x7f] ++ (todo ++ rest)) (i + 1 + 1) (res + 1) := by
  have go : i < res := UInt16.lt_iff_toNat_lt.mpr (by omega)
  have special : octet = 0xfc ∨ octet = 0xfd := by
    simpa [HmWire.escapeCode] using reserved
  have bound := res.toNat_lt
  have second := index_plain position 0xfc (by omega)
  have here : load (done ++ octet :: (todo ++ spare :: rest)) i.toNat = some octet := by
    rw [position]
    exact load_boundary done octet _
  have moved : memmove (done ++ octet :: (todo ++ spare :: rest)) (i.toNat + 1) i.toNat
      (res.toNat - i.toNat) = some (done ++ octet :: octet :: (todo ++ rest)) := by
    rw [show res.toNat - i.toNat = todo.length + 1 by omega, position]
    exact memmove_gap done octet todo spare rest
  have marked : store (done ++ octet :: octet :: (todo ++ rest)) i.toNat 0xfc =
      some (done ++ [0xfc] ++ octet :: (todo ++ rest)) := by
    rw [position, store_boundary, List.append_assoc, List.singleton_append]
  have reloaded : load (done ++ [0xfc] ++ octet :: (todo ++ rest)) (i + 1).toNat = some octet := by
    rw [second]
    exact load_boundary _ octet _
  have masked : store (done ++ [0xfc] ++ octet :: (todo ++ rest)) (i + 1).toNat (octet &&& 0x7f) =
      some (done ++ [0xfc, octet &&& 0x7f] ++ (todo ++ rest)) := by
    rw [second, store_boundary]
    simp
  simp only [escapeLoop, go, ↓reduceIte, here, Option.bind_eq_bind, Option.bind_some, special, moved,
    marked, reloaded, masked]

-- Induction on the bytes not yet visited: everything before `i` is final, and
-- the room behind `res` shrinks by one cell for each reserved byte among them.
theorem escapeLoop_run (todo : List UInt8) (done rest : List UInt8) (i res : UInt16) (fuel : Nat)
    (position : i.toNat = done.length) (extent : res.toNat = done.length + todo.length)
    (enough : todo.length ≤ fuel)
    (room : (stuff HmWire.escapeCode todo).length ≤ todo.length + rest.length)
    (small : done.length + (stuff HmWire.escapeCode todo).length < 2 ^ 16) :
    ∃ left size, escapeLoop fuel (done ++ (todo ++ rest)) i res =
        some (done ++ (stuff HmWire.escapeCode todo ++ left), size) ∧
      size.toNat = done.length + (stuff HmWire.escapeCode todo).length := by
  induction todo generalizing done rest i res fuel with
  | nil =>
      simp only [List.length_nil] at extent
      exact ⟨rest, res, escapeLoop_stop fuel _ i res (by omega), by simpa using extent⟩
  | cons octet todo ih =>
      simp only [List.length_cons] at extent enough room
      obtain ⟨fuel, rfl⟩ : ∃ left, fuel = left + 1 := ⟨fuel - 1, by omega⟩
      cases hit : HmWire.escapeCode.reserved octet with
      | false =>
          simp only [stuff_plain _ _ _ hit, List.length_cons] at room small ⊢
          have next := index_plain position octet (by omega)
          obtain ⟨left, size, run, total⟩ := ih (done ++ [octet]) rest (i + 1) res fuel next
            (by simp only [List.length_append, List.length_singleton]; omega) (by omega) (by omega)
            (by simp only [List.length_append, List.length_singleton]; omega)
          refine ⟨left, size, ?_, ?_⟩
          · rw [List.cons_append, escapeLoop_plain fuel done octet _ i res position (by omega) hit]
            simpa using run
          · simpa [Nat.add_assoc, Nat.add_comm, Nat.add_left_comm] using total
      | true =>
          have bounds := stuff_length_bounds HmWire.escapeCode todo
          simp only [stuff_reserved _ _ _ hit, List.length_cons] at room small ⊢
          cases rest with
          | nil =>
              simp only [List.length_nil] at room
              omega
          | cons spare rest =>
              simp only [List.length_cons] at room
              have next := index_reserved position (octet &&& 0x7f) (by omega)
              have grown := extent_reserved extent (octet &&& 0x7f) (by omega)
              obtain ⟨left, size, run, total⟩ := ih (done ++ [0xfc, octet &&& 0x7f]) rest
                (i + 1 + 1) (res + 1) fuel next grown (by omega) (by omega)
                (by simp only [List.length_append, List.length_cons, List.length_nil]; omega)
              refine ⟨left, size, ?_, ?_⟩
              · rw [List.cons_append,
                  escapeLoop_reserved fuel done octet todo spare rest i res position extent hit, run]
                simp [HmWire.escapeCode]
              · rw [total, List.length_append]
                simp only [List.length_cons, List.length_nil]
                omega

theorem split_room (buffer : List UInt8) (count : Nat) (room : count + 8 ≤ buffer.length) :
    ∃ b0 b1 b2 b3 b4 b5 mid c0 c1 rest,
      buffer = b0 :: b1 :: b2 :: b3 :: b4 :: b5 :: (mid ++ c0 :: c1 :: rest) ∧
        mid.length = count := by
  obtain ⟨front, mid, c0, c1, rest, rfl, sized, middle⟩ :=
    split_parts buffer 6 count (by omega)
  match front, sized with
  | [b0, b1, b2, b3, b4, b5], _ =>
      exact ⟨b0, b1, b2, b3, b4, b5, mid, c0, c1, rest, rfl, middle⟩

theorem writeFields_eq (frame : HMFrame) (b0 b1 b2 b3 b4 b5 : UInt8) (rest : List UInt8) :
    frame.writeFields (b0 :: b1 :: b2 :: b3 :: b4 :: b5 :: rest) =
      some (0xfd :: highByte (HmWire.lengthField frame.cmd) ::
        lowByte (HmWire.lengthField frame.cmd) :: frame.destination :: frame.counter ::
        frame.command :: rest) := by
  have length : HmWire.lengthField frame.cmd = UInt16.ofNat (frame.data.length + 3) := rfl
  rw [length, ← highByte_ofNat, ← lowByte_ofNat]
  simp [writeFields, store]

theorem writeData_eq (frame : HMFrame) (a0 a1 a2 a3 a4 a5 : UInt8) (mid rest : List UInt8)
    (middle : mid.length = frame.data.length) :
    frame.writeData (a0 :: a1 :: a2 :: a3 :: a4 :: a5 :: (mid ++ rest)) =
      some (a0 :: a1 :: a2 :: a3 :: a4 :: a5 :: (frame.data ++ rest)) := by
  unfold writeData
  rw [dataLen_toNat]
  split
  · exact memcpy_boundary [a0, a1, a2, a3, a4, a5] mid frame.data rest middle
  · have empty : frame.data = [] := List.length_eq_zero_iff.mp (by omega)
    have gone : mid = [] := List.length_eq_zero_iff.mp (by omega)
    rw [empty, gone]

theorem writeCrc_eq (frame : HMFrame) (c0 c1 : UInt8) (rest : List UInt8) :
    frame.writeCrc
        (HmWire.covered frame.destination frame.counter frame.cmd ++ c0 :: c1 :: rest) =
      some (frame.wire ++ rest) := by
  have size : (HmWire.covered frame.destination frame.counter frame.cmd).length =
      frame.data.length + 6 := rfl
  have checked : crc (HmWire.covered frame.destination frame.counter frame.cmd ++ c0 :: c1 :: rest)
      (frame.data.length + 6) =
      HmWire.checksum (HmWire.covered frame.destination frame.counter frame.cmd) := by
    rw [crc, ← size, List.take_left]
    rfl
  simp only [writeCrc, dataLen_toNat, checked, Option.bind_eq_bind]
  rw [← size]
  refine (store_pair _ c0 c1 (highByte (HmWire.checksum _)) (lowByte (HmWire.checksum _)) rest).trans ?_
  rw [wire, HmWire.plain_eq]
  simp [HmWire.trailer]

/-- Up to the escaping, the first `data_len + 8` cells hold the wire form of the
frame and the cells behind it are untouched. -/
theorem encode_eq (frame : HMFrame) (buffer : List UInt8) (len : UInt16) (escaped : Bool)
    (admitted : frame.data.length + 8 ≤ len.toNat)
    (room : frame.data.length + 8 ≤ buffer.length) :
    frame.encode buffer len escaped =
      if escaped then
        escapeLoop (frame.data.length + 8) (frame.wire ++ buffer.drop (frame.data.length + 8)) 1
          (UInt16.ofNat (frame.data.length + 8))
      else some (frame.wire ++ buffer.drop (frame.data.length + 8),
        UInt16.ofNat (frame.data.length + 8)) := by
  obtain ⟨b0, b1, b2, b3, b4, b5, mid, c0, c1, rest, rfl, middle⟩ :=
    split_room buffer frame.data.length room
  have bound := len.toNat_lt
  have counted : (UInt16.ofNat (frame.data.length + 8)).toNat = frame.data.length + 8 := by
    rw [UInt16.toNat_ofNat']
    omega
  have dropped : (b0 :: b1 :: b2 :: b3 :: b4 :: b5 :: (mid ++ c0 :: c1 :: rest)).drop
      (frame.data.length + 8) = rest := by
    rw [← middle]
    simp
  have accepted : ¬ frame.data.length + 8 > len.toNat := by omega
  have checksummed := writeCrc_eq frame c0 c1 rest
  simp only [HmWire.covered, cmd, List.cons_append] at checksummed
  simp only [encode, dataLen_toNat, accepted, ↓reduceIte, writeFields_eq, Option.bind_eq_bind,
    Option.bind_some, writeData_eq frame _ _ _ _ _ _ mid _ middle, checksummed, counted, dropped, cmd]

theorem encoded_plain (frame : HMFrame) (buffer : List UInt8) (len : UInt16)
    (admitted : frame.data.length + 8 ≤ len.toNat)
    (room : frame.data.length + 8 ≤ buffer.length) :
    frame.encoded buffer len false = some frame.wire := by
  have bound := len.toNat_lt
  have counted : (UInt16.ofNat (frame.data.length + 8)).toNat = frame.data.length + 8 := by
    rw [UInt16.toNat_ofNat']
    omega
  have nonzero : UInt16.ofNat (frame.data.length + 8) ≠ 0 := by
    intro zero
    rw [zero] at counted
    simp at counted
  have taken : (frame.wire ++ buffer.drop (frame.data.length + 8)).take (frame.data.length + 8) =
      frame.wire := by
    rw [← wire_length]
    exact List.take_left
  simp only [encoded, encode_eq frame buffer len false admitted room, Bool.false_eq_true, ↓reduceIte,
    Option.bind_eq_bind, Option.bind_some, nonzero, counted, taken]

theorem encoded_refused (frame : HMFrame) (buffer : List UInt8) (len : UInt16) (escaped : Bool)
    (small : len.toNat < frame.data.length + 8) : frame.encoded buffer len escaped = none := by
  have refused : frame.data.length + 8 > len.toNat := small
  simp [encoded, encode, refused]

theorem encoded_escaped (frame : HMFrame) (buffer : List UInt8) (len : UInt16)
    (admitted : frame.data.length + 8 ≤ len.toNat)
    (room : frame.escapedWire.length ≤ buffer.length)
    (small : frame.escapedWire.length < 2 ^ 16) :
    frame.encoded buffer len true = some frame.escapedWire := by
  have bounds := HmWire.escaped_length_bounds frame.destination frame.counter frame.cmd
  have size : frame.cmd.length = frame.data.length + 1 := rfl
  change _ ≤ frame.escapedWire.length ∧ _ at bounds
  have counted : (UInt16.ofNat (frame.data.length + 8)).toNat = frame.data.length + 8 := by
    rw [UInt16.toNat_ofNat']
    omega
  have stuffed : frame.escapedWire.length = 1 + (stuff HmWire.escapeCode
      (HmWire.body frame.destination frame.counter frame.cmd)).length := by
    simp only [escapedWire, HmWire.escaped, List.length_cons]
    omega
  obtain ⟨left, total, run, counts⟩ := escapeLoop_run
    (HmWire.body frame.destination frame.counter frame.cmd) [0xfd]
    (buffer.drop (frame.data.length + 8)) 1 (UInt16.ofNat (frame.data.length + 8))
    (frame.data.length + 8) rfl
    (by rw [counted, HmWire.body_length, size, List.length_singleton]; omega)
    (by rw [HmWire.body_length, size]; omega)
    (by rw [HmWire.body_length, size, List.length_drop]; omega)
    (by rw [List.length_singleton]; omega)
  rw [List.length_singleton, ← stuffed] at counts
  have nonzero : total ≠ 0 := by
    intro zero
    rw [zero] at counts
    simp only [UInt16.toNat_zero] at counts
    omega
  have shape : frame.wire ++ buffer.drop (frame.data.length + 8) =
      [0xfd] ++ (HmWire.body frame.destination frame.counter frame.cmd ++
        buffer.drop (frame.data.length + 8)) := rfl
  have taken : ([0xfd] ++ (stuff HmWire.escapeCode
      (HmWire.body frame.destination frame.counter frame.cmd) ++ left)).take
        frame.escapedWire.length = frame.escapedWire := List.take_left
  simp only [encoded, encode_eq frame buffer len true admitted (by omega), ↓reduceIte, shape, run,
    Option.bind_eq_bind, Option.bind_some, nonzero, counts, taken]

/-- A too small length field wraps to at least 65533, and no 16-bit buffer is
long enough for that: only the exact length passes the comparison. -/
theorem length_field_iff (field : UInt16) (size : Nat) (small : size + 8 < 2 ^ 16) :
    (field - 3).toNat + 8 = size + 8 ↔ field = UInt16.ofNat (size + 3) := by
  have bound := field.toNat_lt
  have three : (3 : UInt16).toNat = 3 := rfl
  rw [← UInt16.toNat_inj, UInt16.toNat_sub, UInt16.toNat_ofNat', three]
  omega

theorem wire_shape (frame : HMFrame) :
    frame.wire = 0xfd :: highByte (UInt16.ofNat (frame.data.length + 3)) ::
      lowByte (UInt16.ofNat (frame.data.length + 3)) :: frame.destination :: frame.counter ::
      frame.command :: (frame.data ++
        [highByte (HmWire.checksum (HmWire.covered frame.destination frame.counter frame.cmd)),
          lowByte (HmWire.checksum (HmWire.covered frame.destination frame.counter frame.cmd))]) :=
  rfl

theorem tryParse_fields (b0 b1 b2 b3 b4 b5 : UInt8) (mid : List UInt8) (c0 c1 : UInt8)
    (small : mid.length + 8 < 2 ^ 16) (frame : HMFrame) :
    tryParse (b0 :: b1 :: b2 :: b3 :: b4 :: b5 :: (mid ++ [c0, c1]))
        (UInt16.ofNat (mid.length + 8)) = some frame ↔
      b0 = 0xfd ∧ join b1 b2 = UInt16.ofNat (mid.length + 3) ∧
        join c0 c1 = HmWire.checksum (b0 :: b1 :: b2 :: b3 :: b4 :: b5 :: mid) ∧
        frame = ⟨b4, b3, b5, mid, by omega⟩ := by
  have counted : (UInt16.ofNat (mid.length + 8)).toNat = mid.length + 8 := by
    rw [UInt16.toNat_ofNat']
    omega
  have long : ¬ UInt16.ofNat (mid.length + 8) < 8 := by
    rw [UInt16.lt_iff_toNat_lt, counted]
    exact Nat.not_lt.mpr (Nat.le_add_left 8 _)
  have penultimate : (b0 :: b1 :: b2 :: b3 :: b4 :: b5 :: (mid ++ [c0, c1])).getD
      (mid.length + 8 - 2) 0 = c0 := by
    simp
  have last : (b0 :: b1 :: b2 :: b3 :: b4 :: b5 :: (mid ++ [c0, c1])).getD
      (mid.length + 8 - 1) 0 = c1 := by
    simp
  have checked : crc (b0 :: b1 :: b2 :: b3 :: b4 :: b5 :: (mid ++ [c0, c1])) (mid.length + 8 - 2) =
      HmWire.checksum (b0 :: b1 :: b2 :: b3 :: b4 :: b5 :: mid) := by
    simp [crc, HmWire.checksum]
  have field := length_field_iff (join b1 b2) mid.length small
  unfold tryParse
  rw [if_neg long, counted, penultimate, last, checked]
  simp only [List.getD_cons_zero, List.getD_cons_succ, List.drop_succ_cons, List.drop_zero]
  -- The tests in the order of the source; the first that fails gives no frame.
  by_cases start : b0 = 0xfd
  · rw [if_neg (not_not_intro start)]
    by_cases sized : join b1 b2 = UInt16.ofNat (mid.length + 3)
    · have size := field.mpr sized
      have whole : (join b1 b2 - 3).toNat = mid.length := by omega
      rw [if_neg (not_not_intro size)]
      by_cases sum : join c0 c1 = HmWire.checksum (b0 :: b1 :: b2 :: b3 :: b4 :: b5 :: mid)
      · rw [if_neg (not_not_intro sum)]
        have same : (mid ++ [c0, c1]).take (join b1 b2 - 3).toNat = mid := by
          rw [whole]
          exact List.take_left
        simp only [Option.some.injEq, same]
        exact ⟨fun parsed => ⟨start, sized, sum, parsed.symm⟩, fun fields => fields.2.2.2.symm⟩
      · rw [if_pos sum]
        exact ⟨nofun, fun fields => absurd fields.2.2.1 sum⟩
    · rw [if_pos (fun size => sized (field.mp size))]
      exact ⟨nofun, fun fields => absurd fields.2.1 sized⟩
  · rw [if_pos start]
    exact ⟨nofun, fun fields => absurd fields.1 start⟩

theorem tryParse_short (buffer : List UInt8) (len : UInt16) (short : len.toNat < 8) :
    tryParse buffer len = none := by
  have few : len < 8 := UInt16.lt_iff_toNat_lt.mpr short
  simp [tryParse, few]

theorem tryParse_iff (buffer : List UInt8) (small : buffer.length < 2 ^ 16) (frame : HMFrame) :
    tryParse buffer (UInt16.ofNat buffer.length) = some frame ↔ buffer = frame.wire := by
  by_cases short : buffer.length < 8
  · have counted : (UInt16.ofNat buffer.length).toNat = buffer.length := by
      rw [UInt16.toNat_ofNat']
      omega
    rw [tryParse_short buffer _ (by omega)]
    constructor
    · nofun
    · intro same
      rw [same, wire_length] at short
      omega
  · obtain ⟨b0, b1, b2, b3, b4, b5, mid, c0, c1, rest, shape, middle⟩ :=
      split_room buffer (buffer.length - 8) (by omega)
    have size := congrArg List.length shape
    simp only [List.length_cons, List.length_append] at size
    have empty : rest = [] := List.length_eq_zero_iff.mp (by omega)
    have total : buffer.length = mid.length + 8 := by omega
    rw [total, shape, empty, tryParse_fields b0 b1 b2 b3 b4 b5 mid c0 c1 (by omega) frame]
    constructor
    · rintro ⟨start, sized, sum, rfl⟩
      rw [wire_shape]
      simp only [cmd, HmWire.covered, HmWire.lengthField, List.length_cons]
      rw [← sized, highByte_join, lowByte_join, ← start, ← sum, highByte_join, lowByte_join]
    · intro same
      rw [wire_shape] at same
      simp only [List.cons.injEq] at same
      obtain ⟨start, high, low, dst, cnt, command, tail⟩ := same
      have data : mid = frame.data ∧ [c0, c1] = _ := List.append_inj' tail rfl
      obtain ⟨rfl, ends⟩ := data
      simp only [List.cons.injEq, and_true] at ends
      refine ⟨start, ?_, ?_, ?_⟩
      · rw [high, low, join_split]
      · rw [ends.1, ends.2, join_split, start, high, low, dst, cnt, command]
        rfl
      · subst dst cnt command
        rfl

end HMFrame
end PiVccu
