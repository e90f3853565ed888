import PiVccu.ByteBuffer
import PiVccu.HmWire

/-!
`kernel/hm.h`: the frame codec of the kernel side. Lengths are `size_t` and the
command length is a signed `int`, so a comparison of the two converts the `int`
modulo 2^64. The two buffer transformations read their source through a pointer
and a count; `none` is a read behind the end of the source.
-/

namespace PiVccu.Hm
open ByteBuffer BigEndian ByteStuffing

def emsgsize : Int := 90

def sizeT (value : Int) : Nat := (value % 2 ^ 64).toNat

def sizeDec (value : Nat) : Nat := (value + (2 ^ 64 - 1)) % 2 ^ 64

def hmCrc (buf : List UInt8) (len : Nat) : UInt16 :=
  Crc16.remainder 0x8005 0xd77f (buf.take len)

/-- `cmd` is the memory the pointer refers to; `cmdlen` counts it in an `int`. -/
structure HmFrame where
  dst : UInt8
  cnt : UInt8
  cmd : List UInt8
  fits : cmd.length + 7 < 2 ^ 31

namespace HmFrame

def cmdlen (frame : HmFrame) : Int := frame.cmd.length

def wire (frame : HmFrame) : List UInt8 := HmWire.plain frame.dst frame.cnt frame.cmd

@[simp] theorem wire_length (frame : HmFrame) : frame.wire.length = frame.cmd.length + 7 := by
  simp [wire]

end HmFrame

def tryParseFrame (buf : List UInt8) (len : Nat) : Option HmFrame :=
  if len < 8 then none
  else if buf.getD 0 0 ≠ 0xfd then none
  else
    let field := join (buf.getD 1 0) (buf.getD 2 0)
    let cmdlen : Int := field.toNat - 2
    if sizeT (cmdlen + 7) ≠ len then none
    else if join (buf.getD (len - 2) 0) (buf.getD (len - 1) 0) ≠ hmCrc buf (len - 2) then none
    else some
      { dst := buf.getD 3 0
        cnt := buf.getD 4 0
        cmd := (buf.drop 5).take cmdlen.toNat
        fits := by
          have taken := List.length_take_le cmdlen.toNat (buf.drop 5)
          have bound := field.toNat_lt
          have small : cmdlen.toNat ≤ field.toNat := by
            simp only [cmdlen]
            omega
          omega }

def writeHeader (buf : List UInt8) (frame : HmFrame) : Option (List UInt8) := do
  let buf ← store buf 0 0xfd
  let buf ← store buf 1 (UInt8.ofNat (((frame.cmd.length + 2) >>> 8) &&& 0xff))
  let buf ← store buf 2 (UInt8.ofNat ((frame.cmd.length + 2) &&& 0xff))
  let buf ← store buf 3 frame.dst
  let buf ← store buf 4 frame.cnt
  memcpy buf 5 frame.cmd

def writeCrc (buf : List UInt8) (frame : HmFrame) : Option (List UInt8) := do
  let crc := hmCrc buf (frame.cmd.length + 5)
  let buf ← store buf (frame.cmd.length + 5) ((crc >>> 8) &&& 0xff).toUInt8
  store buf (frame.cmd.length + 6) (crc &&& 0xff).toUInt8

/-- The result is the buffer and the `size_t` return value, which for a frame
that does not fit is the converted negative error number. -/
def encodeFrame (buf : List UInt8) (len : Nat) (frame : HmFrame) : Option (List UInt8 × Nat) :=
  if sizeT (frame.cmdlen + 7) > len then some (buf, sizeT (-emsgsize))
  else do
    let buf ← writeHeader buf frame
    let buf ← writeCrc buf frame
    some (buf, sizeT (frame.cmdlen + 7))

/-- The bytes written to `dst`. Inside the loop `len` already counts only the
bytes behind `cur`. -/
def encodeFrameBuffer : List UInt8 → Nat → Option (List UInt8)
  | _, 0 => some []
  | [], _ + 1 => none
  | cur :: src, len + 1 => do
      let rest ← encodeFrameBuffer src len
      if cur = 0xfc ∨ (cur = 0xfd ∧ len = 1) then some (0xfc :: (cur &&& 0x7f) :: rest)
      else some (cur :: rest)

/-- The bytes written to `dst` and the source that was not read. An escape byte
takes a second byte from the source and decrements the unsigned `len` again. -/
def decodeFrameBuffer : List UInt8 → Nat → Option (List UInt8 × List UInt8)
  | src, 0 => some ([], src)
  | [], _ + 1 => none
  | [cur], len + 1 =>
      if cur = 0xfc then none
      else (decodeFrameBuffer [] len).map fun result => (cur :: result.1, result.2)
  | cur :: next :: src, len + 1 =>
      if cur = 0xfc then
        (decodeFrameBuffer src (sizeDec len)).map fun result =>
          ((next ||| 0x80) :: result.1, result.2)
      else (decodeFrameBuffer (next :: src) len).map fun result => (cur :: result.1, result.2)

theorem sizeT_natCast (value : Nat) (small : value < 2 ^ 64) : sizeT (value : Int) = value := by
  unfold sizeT
  omega

theorem sizeDec_succ (value : Nat) (small : value + 1 < 2 ^ 64) :
    sizeDec (value + 1) = value := by
  unfold sizeDec
  omega

theorem split_room (buf : List UInt8) (count : Nat) (room : count + 7 ≤ buf.length) :
    ∃ b0 b1 b2 b3 b4 mid c0 c1 rest,
      buf = b0 :: b1 :: b2 :: b3 :: b4 :: (mid ++ c0 :: c1 :: rest) ∧ mid.length = count := by
  obtain ⟨front, mid, c0, c1, rest, rfl, sized, middle⟩ :=
    split_parts buf 5 count (by omega)
  match front, sized with
  | [b0, b1, b2, b3, b4], _ => exact ⟨b0, b1, b2, b3, b4, mid, c0, c1, rest, rfl, middle⟩

theorem writeHeader_eq (frame : HmFrame) (b0 b1 b2 b3 b4 : UInt8) (mid rest : List UInt8)
    (middle : mid.length = frame.cmd.length) :
    writeHeader (b0 :: b1 :: b2 :: b3 :: b4 :: (mid ++ rest)) frame =
      some (HmWire.covered frame.dst frame.cnt frame.cmd ++ rest) := by
  have copied := memcpy_boundary [0xfd, highByte (HmWire.lengthField frame.cmd),
    lowByte (HmWire.lengthField frame.cmd), frame.dst, frame.cnt] mid frame.cmd rest middle
  have length : HmWire.lengthField frame.cmd = UInt16.ofNat (frame.cmd.length + 2) := rfl
  unfold writeHeader
  rw [highByte_ofNat, lowByte_ofNat, ← length]
  simpa [store, HmWire.covered] using copied

theorem writeCrc_eq (frame : HmFrame) (c0 c1 : UInt8) (rest : List UInt8) :
    writeCrc (HmWire.covered frame.dst frame.cnt frame.cmd ++ c0 :: c1 :: rest) frame =
      some (frame.wire ++ rest) := by
  have size : (HmWire.covered frame.dst frame.cnt frame.cmd).length = frame.cmd.length + 5 := rfl
  have checked : hmCrc (HmWire.covered frame.dst frame.cnt frame.cmd ++ c0 :: c1 :: rest)
      (frame.cmd.length + 5) = HmWire.checksum (HmWire.covered frame.dst frame.cnt frame.cmd) := by
    rw [hmCrc, ← size, List.take_left]
    rfl
  simp only [writeCrc, checked, Option.bind_eq_bind]
  rw [← size]
  refine (store_pair _ c0 c1 (highByte (HmWire.checksum _)) (lowByte (HmWire.checksum _)) rest).trans ?_
  rw [HmFrame.wire, HmWire.plain_eq]
  simp [HmWire.trailer]

theorem encodeFrame_eq (buf : List UInt8) (len : Nat) (frame : HmFrame)
    (admitted : frame.cmd.length + 7 ≤ len) (room : frame.cmd.length + 7 ≤ buf.length) :
    encodeFrame buf len frame =
      some (frame.wire ++ buf.drop (frame.cmd.length + 7), frame.cmd.length + 7) := by
  have bound := frame.fits
  have size : sizeT (frame.cmdlen + 7) = frame.cmd.length + 7 := by
    have cast : frame.cmdlen + 7 = ((frame.cmd.length + 7 : Nat) : Int) := by
      simp [HmFrame.cmdlen]
    rw [cast, sizeT_natCast _ (by omega)]
  have accepted : ¬ frame.cmd.length + 7 > len := by omega
  obtain ⟨b0, b1, b2, b3, b4, mid, c0, c1, rest, rfl, middle⟩ :=
    split_room buf frame.cmd.length room
  have dropped : (b0 :: b1 :: b2 :: b3 :: b4 :: (mid ++ c0 :: c1 :: rest)).drop
      (frame.cmd.length + 7) = rest := by
    rw [← middle]
    simp
  simp only [encodeFrame, size, accepted, ↓reduceIte, Option.bind_eq_bind,
    writeHeader_eq frame b0 b1 b2 b3 b4 mid (c0 :: c1 :: rest) middle, Option.bind_some,
    writeCrc_eq, dropped]

/-- The signed command length of a too small length field stays below any
admitted buffer length, so only the exact length passes the comparison. -/
theorem length_field_iff (field : UInt16) (size : Nat) :
    sizeT ((field.toNat : Int) - 2 + 7) = size + 7 ↔ field.toNat = size + 2 := by
  have bound := field.toNat_lt
  have cast : (field.toNat : Int) - 2 + 7 = ((field.toNat + 5 : Nat) : Int) := by omega
  rw [cast, sizeT_natCast _ (by omega)]
  omega

theorem tryParseFrame_fields (b0 b1 b2 b3 b4 : UInt8) (mid : List UInt8) (c0 c1 : UInt8)
    (long : 1 ≤ mid.length) (small : mid.length + 7 < 2 ^ 16) (frame : HmFrame) :
    tryParseFrame (b0 :: b1 :: b2 :: b3 :: b4 :: (mid ++ [c0, c1])) (mid.length + 7) =
        some frame ↔
      b0 = 0xfd ∧ join b1 b2 = UInt16.ofNat (mid.length + 2) ∧
        join c0 c1 = HmWire.checksum (b0 :: b1 :: b2 :: b3 :: b4 :: mid) ∧
        frame = ⟨b3, b4, mid, by omega⟩ := by
  have enough : ¬ mid.length + 7 < 8 := by omega
  have penultimate : (b0 :: b1 :: b2 :: b3 :: b4 :: (mid ++ [c0, c1])).getD
      (mid.length + 7 - 2) 0 = c0 := by
    simp
  have last : (b0 :: b1 :: b2 :: b3 :: b4 :: (mid ++ [c0, c1])).getD
      (mid.length + 7 - 1) 0 = c1 := by
    simp
  have checked : hmCrc (b0 :: b1 :: b2 :: b3 :: b4 :: (mid ++ [c0, c1])) (mid.length + 7 - 2) =
      HmWire.checksum (b0 :: b1 :: b2 :: b3 :: b4 :: mid) := by
    simp [hmCrc, HmWire.checksum]
  have field := length_field_iff (join b1 b2) mid.length
  have exact16 : (join b1 b2).toNat = mid.length + 2 ↔
      join b1 b2 = UInt16.ofNat (mid.length + 2) := by
    rw [← UInt16.toNat_inj, UInt16.toNat_ofNat', Nat.mod_eq_of_lt (by omega)]
  unfold tryParseFrame
  rw [if_neg enough, penultimate, last, checked]
  simp only [List.getD_cons_zero, List.getD_cons_succ, List.drop_succ_cons, List.drop_zero]
  -- The tests in the order of the source.
  by_cases start : b0 = 0xfd
  · rw [if_neg (not_not_intro start)]
    by_cases sized : (join b1 b2).toNat = mid.length + 2
    · rw [if_neg (not_not_intro (field.mpr sized))]
      by_cases sum : join c0 c1 = HmWire.checksum (b0 :: b1 :: b2 :: b3 :: b4 :: mid)
      · rw [if_neg (not_not_intro sum)]
        have same : (mid ++ [c0, c1]).take (((join b1 b2).toNat : Int) - 2).toNat = mid := by
          rw [show (((join b1 b2).toNat : Int) - 2).toNat = mid.length by omega]
          exact List.take_left
        simp only [Option.some.injEq, same]
        exact ⟨fun parsed => ⟨start, exact16.mp sized, sum, parsed.symm⟩,
          fun fields => fields.2.2.2.symm⟩
      · rw [if_pos sum]
        exact ⟨nofun, fun fields => absurd fields.2.2.1 sum⟩
    · rw [if_pos (fun size => sized (field.mp size))]
      exact ⟨nofun, fun fields => absurd (exact16.mpr fields.2.1) sized⟩
  · rw [if_pos start]
    exact ⟨nofun, fun fields => absurd fields.1 start⟩

theorem tryParseFrame_iff (buf : List UInt8) (small : buf.length < 2 ^ 16) (frame : HmFrame) :
    tryParseFrame buf buf.length = some frame ↔ buf = frame.wire ∧ 1 ≤ frame.cmd.length := by
  by_cases short : buf.length < 8
  · have refused : tryParseFrame buf buf.length = none := by simp [tryParseFrame, short]
    rw [refused]
    constructor
    · nofun
    · rintro ⟨same, long⟩
      rw [same, HmFrame.wire_length] at short
      omega
  · obtain ⟨b0, b1, b2, b3, b4, mid, c0, c1, rest, shape, middle⟩ :=
      split_room buf (buf.length - 7) (by omega)
    have size := congrArg List.length shape
    simp only [List.length_cons, List.length_append] at size
    have empty : rest = [] := List.length_eq_zero_iff.mp (by omega)
    have total : buf.length = mid.length + 7 := by omega
    rw [total, shape, empty,
      tryParseFrame_fields b0 b1 b2 b3 b4 mid c0 c1 (by omega) (by omega) frame]
    constructor
    · rintro ⟨start, sized, sum, rfl⟩
      refine ⟨?_, by simp only; omega⟩
      simp only [HmFrame.wire, HmWire.plain, HmWire.body, HmWire.trailer, HmWire.covered,
        HmWire.lengthField]
      rw [← sized, highByte_join, lowByte_join, ← start, ← sum, highByte_join, lowByte_join]
    · rintro ⟨same, -⟩
      simp only [HmFrame.wire, HmWire.plain, HmWire.body, List.cons.injEq] at same
      obtain ⟨start, high, low, dst, cnt, tail⟩ := same
      have data : mid = frame.cmd ∧ [c0, c1] = _ := List.append_inj' tail rfl
      obtain ⟨rfl, ends⟩ := data
      simp only [HmWire.trailer, List.cons.injEq, and_true] at ends
      refine ⟨start, ?_, ?_, ?_⟩
      · rw [high, low, join_split]
        rfl
      · rw [ends.1, ends.2, join_split, start, high, low, dst, cnt]
        rfl
      · subst dst cnt
        rfl

theorem decodeFrameBuffer_plain (cur : UInt8) (src : List UInt8) (len : Nat) (plain : cur ≠ 0xfc) :
    decodeFrameBuffer (cur :: src) (len + 1) =
      (decodeFrameBuffer src len).map fun result => (cur :: result.1, result.2) := by
  cases src <;> simp only [decodeFrameBuffer, plain, ↓reduceIte]

/-- Unescaping a stuffed list stops exactly behind it and restores it. The
masked byte behind an escape keeps `len` from running below zero. -/
theorem decodeFrameBuffer_stuff (octets left : List UInt8)
    (small : (stuff HmWire.escapeCode octets).length < 2 ^ 64) :
    decodeFrameBuffer (stuff HmWire.escapeCode octets ++ left)
      (stuff HmWire.escapeCode octets).length = some (octets, left) := by
  induction octets with
  | nil => cases left <;> rfl
  | cons octet rest ih =>
      cases hit : HmWire.escapeCode.reserved octet with
      | true =>
          rw [stuff_reserved _ _ _ hit] at small ⊢
          simp only [List.length_cons] at small ⊢
          have restored := HmWire.escapeCode.unmask_mask octet hit
          change (octet &&& 0x7f) ||| 0x80 = octet at restored
          have counted := sizeDec_succ (stuff HmWire.escapeCode rest).length (by omega)
          have tail := ih (by omega)
          change decodeFrameBuffer (0xfc :: (octet &&& 0x7f) :: (_ ++ left)) _ = _
          simp only [decodeFrameBuffer, ↓reduceIte, counted, tail, Option.map_some, restored]
      | false =>
          rw [stuff_plain _ _ _ hit] at small ⊢
          simp only [List.length_cons] at small ⊢
          have plain : octet ≠ 0xfc := by
            rintro rfl
            simp [HmWire.escapeCode] at hit
          rw [List.cons_append, decodeFrameBuffer_plain _ _ _ plain, ih (by omega)]
          rfl

end PiVccu.Hm
