import PiVccu.CircBuf
import PiVccu.FakeHmrf

/-!
`fake_hmrf_write` in `kernel/fake_hmrf.c` with the memory it works on: the
request is unescaped from one 1024-byte buffer into another one and answered
through both. `none` is an access outside of a buffer. The two `kzalloc` calls
are taken to succeed, and the texts that module parameters change are parameters
here.
-/

namespace PiVccu.FakeHmrfWrite
open ByteBuffer CircBuf FakeHmrf Hm

def efault : Int := 14

/-- The loop of `decodeFrameBuffer` with its pointers and its counter as the
position in `src`, the number of bytes in `dst` and the unsigned `len`. `fuel`
bounds the iterations. -/
def decodeLoop : Nat → List UInt8 → Nat → Nat → List UInt8 → Nat → Option (List UInt8 × Nat)
  | 0, _, _, len, dst, ret => if len = 0 then some (dst, ret) else none
  | fuel + 1, src, position, len, dst, ret =>
      if len = 0 then some (dst, ret)
      else do
        let cur ← load src position
        if cur = 0xfc then
          let next ← load src (position + 1)
          let dst ← store dst ret (next ||| 0x80)
          decodeLoop fuel src (position + 2) (sizeDec (len - 1)) dst (ret + 1)
        else
          let dst ← store dst ret cur
          decodeLoop fuel src (position + 1) (len - 1) dst (ret + 1)

def hmDstSystem : UInt8 := 0x00
def hmDstTrx : UInt8 := 0x01
def hmDstHmip : UInt8 := 0x02
def hmDstLlmac : UInt8 := 0x03
def hmDstCommon : UInt8 := 0xfe

def hmSystemIdentify : UInt8 := 0x00
def hmSystemStartApp : UInt8 := 0x03

def hmTrxGetVersion : UInt8 := 0x02
def hmTrxGetDutycycle : UInt8 := 0x03
def hmTrxSetDcutycycleLimit : UInt8 := 0x07
def hmTrxGetMcuType : UInt8 := 0x09

def hmLlmacGetTimestamp : UInt8 := 0x02
def hmLlmacRfdInit : UInt8 := 0x06
def hmLlmacGetSerial : UInt8 := 0x07
def hmLlmacGetDefaultRfAddr : UInt8 := 0x08

def hmCommonIdentify : UInt8 := 0x01
def hmCommonStartBl : UInt8 := 0x02
def hmCommonGetSgtin : UInt8 := 0x04

def hmHmipSetRadioAddr : UInt8 := 0x00
def hmHmipGetDefaultRfAddr : UInt8 := 0x01
def hmHmipSend : UInt8 := 0x03
def hmHmipAddLinkPartner : UInt8 := 0x04
def hmHmipSetSecurityCounter : UInt8 := 0x08
def hmHmipGetSecurityCounter : UInt8 := 0x0a
def hmHmipSetMaxSentAttemps : UInt8 := 0x0d
def hmHmipGetLinkPartner : UInt8 := 0x12
def hmHmipGetNwkey : UInt8 := 0x13
def hmHmipSetNwkey : UInt8 := 0x14

/-- The bytes that `board_serial`, `radio_mac` and `firmware_version` set. -/
structure Parameters where
  boardSerial : List UInt8
  radioMac : List UInt8
  firmwareVersion : List UInt8
  serialSized : boardSerial.length = 10
  macSized : radioMac.length = 3
  versionSized : firmwareVersion.length = 3

/-- The command bytes of an answer; the longest one has 68. -/
abbrev Response := { octets : List UInt8 // octets.length ≤ 68 }

def systemIdentifyResponse : Response := ⟨
  [0x04, 0x02, 0x43, 0x6f, 0x5f, 0x43, 0x50, 0x55, 0x5f, 0x42, 0x4c], by decide⟩

def systemStartAppResponse : Response := ⟨[0x04, 0x01], by decide⟩

def commonIdentifyResponse : Response := ⟨
  [0x05, 0x01, 0x44, 0x75, 0x61, 0x6c, 0x43, 0x6f, 0x50, 0x72, 0x6f, 0x5f, 0x41, 0x70, 0x70], by decide⟩

def commonStartBlResponse : Response := ⟨[0x05, 0x01], by decide⟩

def commonGetSgtinResponse : Response := ⟨
  [0x05, 0x01, 0x30, 0x14, 0xf7, 0x11, 0xa0, 0x61, 0xa7, 0xd5, 0x69, 0x9d, 0xab, 0x52], by decide⟩

def hmipCmd19Response : Response := ⟨
  [0x06, 0x01, 0xe6, 0x3c, 0xd5, 0x60, 0x36, 0x4b, 0xab, 0xec, 0x8c, 0xc4, 0xe1, 0x2f, 0xf8, 0x19,
    0x81, 0x06, 0xe5], by decide⟩

def hmipGetNwkeyResponse : Response := ⟨
  [0x06, 0x01, 0xc2, 0x14, 0x22, 0xf3, 0xca, 0x9c, 0xbd, 0xa3, 0x5f, 0x71, 0x88, 0xa4, 0x73, 0xce,
    0x6f, 0x03, 0xa7, 0xa5, 0xca, 0x26, 0xba, 0xe8, 0xa2, 0x2a, 0x0d, 0x3d, 0x48, 0x97, 0xb6, 0xba,
    0x47, 0xf0, 0x1d, 0xca, 0xa7, 0x39, 0xb8, 0x4d, 0xb3, 0xfb, 0x13, 0x47, 0x02, 0x15, 0xe5, 0x37,
    0x52, 0xb9, 0x39, 0xdc, 0xba, 0x22, 0x89, 0x34, 0xca, 0x66, 0x66, 0x5b, 0xd3, 0x6f, 0xb3, 0xd5,
    0x51, 0xb6, 0x67, 0x98], by decide⟩

def acknowledged (status : UInt8) : Response := ⟨[status, 0x01], by simp⟩

def trxGetVersionResponse (parameters : Parameters) : Response :=
  ⟨[0x04, 0x01] ++ parameters.firmwareVersion ++ [0x01, 0x00, 0x03, 0x01, 0x14, 0x03], by
    simp [parameters.versionSized]⟩

def llmacGetSerialResponse (parameters : Parameters) : Response :=
  ⟨[0x01, 0x01] ++ parameters.boardSerial, by simp [parameters.serialSized]⟩

def llmacGetDefaultRfAddressResponse (parameters : Parameters) : Response :=
  ⟨[0x01, 0x01] ++ parameters.radioMac, by simp [parameters.macSized]⟩

def hmipGetDefaultRfAddressResponse (parameters : Parameters) : Response :=
  ⟨[0x06, 0x01] ++ parameters.radioMac, by simp [parameters.macSized]⟩

/-- The commands whose answer does not depend on the state of the module. -/
def responses (parameters : Parameters) : List ((UInt8 × UInt8) × Response) :=
  [((hmDstCommon, hmCommonGetSgtin), commonGetSgtinResponse),
    ((hmDstTrx, hmTrxGetVersion), trxGetVersionResponse parameters),
    ((hmDstTrx, hmTrxGetDutycycle), ⟨[0x04, 0x01, 0x00], by decide⟩),
    ((hmDstTrx, hmTrxSetDcutycycleLimit), acknowledged 0x04),
    ((hmDstTrx, hmTrxGetMcuType), ⟨[0x04, 0x01, 0x03], by decide⟩),
    ((hmDstLlmac, hmLlmacGetTimestamp), ⟨[0x01, 0x01, 0x2d, 0xea], by decide⟩),
    ((hmDstLlmac, hmLlmacRfdInit), ⟨[0x01, 0x01, 0x12, 0x34], by decide⟩),
    ((hmDstLlmac, hmLlmacGetSerial), llmacGetSerialResponse parameters),
    ((hmDstLlmac, hmLlmacGetDefaultRfAddr), llmacGetDefaultRfAddressResponse parameters),
    ((hmDstHmip, hmHmipSetRadioAddr), acknowledged 0x06),
    ((hmDstHmip, hmHmipGetDefaultRfAddr), hmipGetDefaultRfAddressResponse parameters),
    ((hmDstHmip, hmHmipGetSecurityCounter), ⟨[0x06, 0x01, 0x0c, 0xff, 0xff, 0xff], by decide⟩),
    ((hmDstHmip, hmHmipSetSecurityCounter), acknowledged 0x06),
    ((hmDstHmip, hmHmipSetMaxSentAttemps), acknowledged 0x06),
    ((hmDstHmip, 0x19), hmipCmd19Response),
    ((hmDstHmip, hmHmipGetNwkey), hmipGetNwkeyResponse),
    ((hmDstHmip, hmHmipGetLinkPartner), acknowledged 0x06),
    ((hmDstHmip, hmHmipSetNwkey), acknowledged 0x06),
    ((hmDstHmip, hmHmipAddLinkPartner), acknowledged 0x06),
    ((hmDstHmip, hmHmipSend), acknowledged 0x06)]

structure Device where
  parameters : Parameters
  isInBl : Bool
  rxbuf : CircRing UInt8
  formed : rxbuf.WellFormed bufSize

/-- The two `switch` statements: `is_in_bl` behind them and the answer. -/
def answer (device : Device) (dst command : UInt8) : Bool × Option Response :=
  if dst = hmDstSystem ∧ command = hmSystemIdentify then
    (device.isInBl, if device.isInBl then some systemIdentifyResponse else none)
  else if dst = hmDstSystem ∧ command = hmSystemStartApp then (false, some systemStartAppResponse)
  else if dst = hmDstCommon ∧ command = hmCommonIdentify then
    (device.isInBl, if device.isInBl then none else some commonIdentifyResponse)
  else if dst = hmDstCommon ∧ command = hmCommonStartBl then (true, some commonStartBlResponse)
  else (device.isInBl, (responses device.parameters).lookup (dst, command))

def addToBuffer (rxbuf : CircRing UInt8) : List UInt8 → Option (CircRing UInt8)
  | [] => some rxbuf
  | octet :: rest =>
      if circSpace rxbuf.head rxbuf.tail bufSize = 0 then addToBuffer rxbuf rest
      else do
        let buf ← store rxbuf.buf rxbuf.head octet
        let head := if rxbuf.head + 1 ≥ bufSize then 0 else rxbuf.head + 1
        addToBuffer { rxbuf with buf := buf, head := head } rest

theorem moved_formed {rxbuf : CircRing UInt8} (formed : rxbuf.WellFormed bufSize)
    {buf : List UInt8} (same : buf.length = rxbuf.buf.length) :
    CircRing.WellFormed ⟨buf, if rxbuf.head + 1 ≥ bufSize then 0 else rxbuf.head + 1, rxbuf.tail⟩
      bufSize := by
  refine ⟨same.trans formed.sized, ?_, formed.tail⟩
  dsimp only
  split
  · decide
  · omega

theorem addToBuffer_formed {rxbuf after : CircRing UInt8} {octets : List UInt8}
    (formed : rxbuf.WellFormed bufSize) (added : addToBuffer rxbuf octets = some after) :
    after.WellFormed bufSize := by
  induction octets generalizing rxbuf with
  | nil =>
      cases added
      exact formed
  | cons octet rest ih =>
      rw [addToBuffer] at added
      split at added
      · exact ih formed added
      · obtain ⟨buf, stored, added⟩ := Option.bind_eq_some_iff.mp added
        exact ih (moved_formed formed (store_length stored).1) added

def answerFrame (frame : HmFrame) (response : Response) : HmFrame where
  dst := frame.dst
  cnt := frame.cnt
  cmd := response
  fits := by
    have short := response.property
    omega

def respond (device : Device) (frameBuf rawBuf : List UInt8) (frame : HmFrame)
    (response : Response) : Option Device := do
  let escaped ← respondToFrame frameBuf (answerFrame frame response)
  let rawBuf ← memcpy rawBuf 0 escaped
  let sent ← loadRange rawBuf 0 escaped.length
  match added : addToBuffer device.rxbuf sent with
  | none => none
  | some rxbuf =>
      some { device with rxbuf := rxbuf, formed := addToBuffer_formed device.formed added }

/-- `fake_hmrf_write` with the device and the return value behind it. `faults` is
the outcome of `copy_from_user`; each iteration of the decoder reads a byte of
`raw_buf`, so as many iterations as it has bytes are enough. -/
def fakeHmrfWrite (device : Device) (buf : List UInt8) (faults : Bool) : Option (Device × Int) := do
  let rawBuf := List.replicate bufSize 0
  let frameBuf := List.replicate bufSize 0
  if buf.length > bufSize then return (device, -emsgsize)
  if faults then return (device, -efault)
  let rawBuf ← memcpy rawBuf 0 buf
  let (frameBuf, rawFrameLen) ← decodeLoop bufSize rawBuf 0 buf.length frameBuf 0
  -- all that `tryParseFrame` and `frame.cmd[0]` read
  let _ ← loadRange frameBuf 0 rawFrameLen
  match tryParseFrame frameBuf rawFrameLen with
  | none => return (device, -efault)
  | some frame =>
      let (isInBl, response) := answer device frame.dst (frame.cmd.getD 0 0)
      match response with
      | none => return ({ device with isInBl := isInBl }, buf.length)
      | some response => do
          let device ← respond { device with isInBl := isInBl } frameBuf rawBuf frame response
          return (device, buf.length)

theorem decodeFrameBuffer_zero (src : List UInt8) : decodeFrameBuffer src 0 = some ([], src) := by
  cases src <;> rfl

theorem decodeFrameBuffer_escape (next : UInt8) (src : List UInt8) (len : Nat) :
    decodeFrameBuffer (0xfc :: next :: src) (len + 1) =
      (decodeFrameBuffer src (sizeDec len)).map fun result =>
        ((next ||| 0x80) :: result.1, result.2) := by
  simp only [decodeFrameBuffer, ↓reduceIte]

theorem decodeFrameBuffer_nonempty {src : List UInt8} {len : Nat}
    {result : List UInt8 × List UInt8} (decoded : decodeFrameBuffer src (len + 1) = some result) :
    result.1 ≠ [] := by
  cases src with
  | nil => cases decoded
  | cons cur rest =>
      by_cases escape : cur = 0xfc
      · subst escape
        cases rest with
        | nil => simp [decodeFrameBuffer] at decoded
        | cons next rest =>
            rw [decodeFrameBuffer_escape] at decoded
            obtain ⟨inner, -, rfl⟩ := Option.map_eq_some_iff.mp decoded
            exact List.cons_ne_nil _ _
      · rw [decodeFrameBuffer_plain cur rest len escape] at decoded
        obtain ⟨inner, -, rfl⟩ := Option.map_eq_some_iff.mp decoded
        exact List.cons_ne_nil _ _

def written (fuel : Nat) (dst : List UInt8) (ret : Nat) (result : List UInt8 × List UInt8) :
    Option (List UInt8 × Nat) :=
  if result.1.length ≤ fuel then
    (memcpy dst ret result.1).map fun dst => (dst, ret + result.1.length)
  else none

theorem store_then (fuel : Nat) (dst : List UInt8) (ret : Nat) (octet : UInt8)
    (decoded : Option (List UInt8 × List UInt8)) :
    ((store dst ret octet).bind fun dst => decoded.bind (written fuel dst (ret + 1))) =
      (decoded.map fun result => (octet :: result.1, result.2)).bind (written (fuel + 1) dst ret) := by
  cases decoded with
  | none => cases store dst ret octet <;> rfl
  | some result =>
      simp only [written, Option.bind_some, Option.map_some, List.length_cons,
        Nat.add_le_add_iff_right]
      split
      · rw [memcpy_cons]
        cases store dst ret octet with
        | none => rfl
        | some dst => simp only [Option.bind_some, Nat.add_comm, Nat.add_left_comm]
      · cases store dst ret octet <;> rfl

theorem decodeLoop_done (fuel : Nat) (src : List UInt8) (position : Nat) (dst : List UInt8)
    (ret : Nat) (room : ret ≤ dst.length) :
    decodeLoop fuel src position 0 dst ret =
      (decodeFrameBuffer (src.drop position) 0).bind (written fuel dst ret) := by
  rw [decodeFrameBuffer_zero]
  cases fuel <;> simp [decodeLoop, written, memcpy, room]

/-- The loop writes what `decodeFrameBuffer` is modelled to write, if the
destination has room for it. -/
theorem decodeLoop_eq (fuel : Nat) (src : List UInt8) (position len : Nat) (dst : List UInt8)
    (ret : Nat) (room : ret ≤ dst.length) :
    decodeLoop fuel src position len dst ret =
      (decodeFrameBuffer (src.drop position) len).bind (written fuel dst ret) := by
  induction fuel generalizing position len dst ret with
  | zero =>
      cases len with
      | zero => exact decodeLoop_done 0 src position dst ret room
      | succ len =>
          rw [decodeLoop]
          cases decoded : decodeFrameBuffer (src.drop position) (len + 1) with
          | none => rfl
          | some result =>
              have some := decodeFrameBuffer_nonempty decoded
              simp [written, some]
  | succ fuel ih =>
      cases len with
      | zero => exact decodeLoop_done (fuel + 1) src position dst ret room
      | succ len =>
          rw [decodeLoop]
          -- The induction hypothesis needs a destination that the store has not left.
          have step : ∀ (octet : UInt8) (distance len : Nat),
              ((store dst ret octet).bind fun dst =>
                decodeLoop fuel src (position + distance) len dst (ret + 1)) =
              ((store dst ret octet).bind fun dst =>
                (decodeFrameBuffer (src.drop (position + distance)) len).bind
                  (written fuel dst (ret + 1))) := by
            intro octet distance len
            cases stored : store dst ret octet with
            | none => rfl
            | some after =>
                obtain ⟨same, inside⟩ := store_length stored
                rw [Option.bind_some, Option.bind_some, ih _ _ _ _ (by omega)]
          have first : load src position = (src.drop position)[0]? := by simp [load]
          have second : load src (position + 1) = (src.drop position)[1]? := by simp [load]
          have next : ∀ distance, src.drop (position + distance) = (src.drop position).drop distance :=
            fun distance => (List.drop_drop ..).symm
          simp only [Nat.add_one_ne_zero, ↓reduceIte, Nat.add_sub_cancel, Option.bind_eq_bind]
          rw [first, second]
          simp only [step, next]
          generalize src.drop position = rest
          cases rest with
          | nil => rfl
          | cons cur rest =>
              rw [List.getElem?_cons_zero, Option.bind_some]
              by_cases escape : cur = 0xfc
              · subst escape
                rw [if_pos rfl]
                cases rest with
                | nil => simp [decodeFrameBuffer]
                | cons follow rest =>
                    rw [decodeFrameBuffer_escape]
                    exact store_then fuel dst ret _ _
              · rw [if_neg escape, decodeFrameBuffer_plain cur rest len escape]
                exact store_then fuel dst ret _ _

def trailingEscapes (src : List UInt8) : Nat := (src.reverse.takeWhile (· == 0xfc)).length

def escapesPaired : List UInt8 → Bool
  | [] => true
  | [cur] => cur != 0xfc
  | cur :: next :: rest =>
      if cur = 0xfc then escapesPaired rest else escapesPaired (next :: rest)

theorem trailingEscapes_append (front back : List UInt8) :
    trailingEscapes (front ++ back) =
      if trailingEscapes back = back.length then back.length + trailingEscapes front
      else trailingEscapes back := by
  unfold trailingEscapes
  rw [List.reverse_append, List.takeWhile_append, List.length_reverse]
  split
  · rw [List.length_append, List.length_reverse]
  · rfl

theorem trailingEscapes_plain {cur : UInt8} (plain : cur ≠ 0xfc) (rest : List UInt8) :
    trailingEscapes (cur :: rest) = trailingEscapes rest := by
  have none : trailingEscapes [cur] = 0 := by simp [trailingEscapes, plain]
  have split := trailingEscapes_append [cur] rest
  rw [List.singleton_append, none] at split
  rw [split]
  by_cases all : trailingEscapes rest = rest.length
  · rw [if_pos all, all]
    rfl
  · rw [if_neg all]

theorem trailingEscapes_escape (next : UInt8) (rest : List UInt8) :
    trailingEscapes (0xfc :: next :: rest) % 2 = trailingEscapes rest % 2 := by
  have split := trailingEscapes_append [0xfc, next] rest
  rw [List.cons_append, List.singleton_append] at split
  rw [split]
  by_cases all : trailingEscapes rest = rest.length
  · rw [if_pos all, all]
    by_cases escape : next = 0xfc
    · subst escape
      have two : trailingEscapes [0xfc, 0xfc] = 2 := rfl
      omega
    · have none : trailingEscapes [0xfc, next] = 0 := by simp [trailingEscapes, escape]
      omega
  · rw [if_neg all]

theorem escapesPaired_iff (src : List UInt8) :
    escapesPaired src = true ↔ trailingEscapes src % 2 = 0 := by
  induction src using escapesPaired.induct with
  | case1 => decide
  | case2 cur =>
      by_cases escape : cur = 0xfc
      · subst escape
        decide
      · simp [escapesPaired, trailingEscapes, escape]
  | case3 next rest ih =>
      rw [trailingEscapes_escape, ← ih, escapesPaired, if_pos rfl]
  | case4 cur next rest plain ih =>
      rw [trailingEscapes_plain plain, ← ih, escapesPaired, if_neg plain]

theorem decodeFrameBuffer_paired (src : List UInt8) (small : src.length < 2 ^ 64)
    (paired : escapesPaired src = true) : ∃ out, out.length ≤ src.length ∧
      ∀ left, decodeFrameBuffer (src ++ left) src.length = some (out, left) := by
  induction src using escapesPaired.induct with
  | case1 => exact ⟨[], Nat.le_refl _, decodeFrameBuffer_zero⟩
  | case2 cur =>
      have plain : cur ≠ 0xfc := by simpa [escapesPaired] using paired
      refine ⟨[cur], Nat.le_refl _, ?_⟩
      intro left
      rw [List.singleton_append, List.length_singleton, decodeFrameBuffer_plain cur left 0 plain,
        decodeFrameBuffer_zero]
      rfl
  | case3 next rest ih =>
      simp only [List.length_cons] at small ⊢
      rw [escapesPaired, if_pos rfl] at paired
      obtain ⟨out, short, done⟩ := ih (by omega) paired
      refine ⟨(next ||| 0x80) :: out, by simp only [List.length_cons]; omega, ?_⟩
      intro left
      rw [List.cons_append, List.cons_append, decodeFrameBuffer_escape, sizeDec_succ _ (by omega),
        done]
      rfl
  | case4 cur next rest plain ih =>
      rw [List.length_cons] at small
      rw [escapesPaired, if_neg plain] at paired
      obtain ⟨out, short, done⟩ := ih (by omega) paired
      refine ⟨cur :: out, Nat.succ_le_succ short, ?_⟩
      intro left
      rw [List.cons_append, List.length_cons, decodeFrameBuffer_plain cur _ _ plain, done]
      rfl

theorem decodeFrameBuffer_overrun (src : List UInt8) (len : Nat) (beyond : src.length < len)
    (small : len < 2 ^ 64) : decodeFrameBuffer src len = none := by
  induction src using escapesPaired.induct generalizing len with
  | case1 =>
      cases len with
      | zero => cases beyond
      | succ len => rfl
  | case2 cur =>
      obtain ⟨len, rfl⟩ : ∃ rest, len = rest + 2 := ⟨len - 2, by simp at beyond; omega⟩
      by_cases escape : cur = 0xfc
      · simp [decodeFrameBuffer, escape]
      · rw [decodeFrameBuffer_plain cur [] _ escape]
        rfl
  | case3 next rest ih =>
      simp only [List.length_cons] at beyond
      obtain ⟨len, rfl⟩ : ∃ rest, len = rest + 2 := ⟨len - 2, by omega⟩
      rw [decodeFrameBuffer_escape, sizeDec_succ _ (by omega), ih len (by omega) (by omega)]
      rfl
  | case4 cur next rest plain ih =>
      rw [List.length_cons] at beyond
      obtain ⟨len, rfl⟩ : ∃ rest, len = rest + 1 := ⟨len - 1, by omega⟩
      rw [decodeFrameBuffer_plain cur _ _ plain, ih len (by omega) (by omega)]
      rfl

/-- An escape byte at the end takes the byte behind the input, and then the count
of zero is decremented. -/
theorem decodeFrameBuffer_unpaired (src left : List UInt8) (small : (src ++ left).length < 2 ^ 64)
    (unpaired : escapesPaired src = false) :
    decodeFrameBuffer (src ++ left) src.length = none := by
  induction src using escapesPaired.induct with
  | case1 => cases unpaired
  | case2 cur =>
      have escape : cur = 0xfc := by simpa [escapesPaired] using unpaired
      subst escape
      cases left with
      | nil => simp [decodeFrameBuffer]
      | cons next left =>
          simp only [List.singleton_append, List.length_cons] at small ⊢
          have wrapped : sizeDec 0 = 2 ^ 64 - 1 := by decide
          rw [List.length_nil, decodeFrameBuffer_escape, wrapped,
            decodeFrameBuffer_overrun left _ (by omega) (by omega)]
          rfl
  | case3 next rest ih =>
      simp only [List.cons_append, List.length_cons] at small ⊢
      rw [escapesPaired, if_pos rfl] at unpaired
      rw [List.length_append] at small
      rw [decodeFrameBuffer_escape, sizeDec_succ _ (by omega),
        ih (by rw [List.length_append]; omega) unpaired]
      rfl
  | case4 cur next rest plain ih =>
      rw [List.cons_append, List.length_cons] at small
      rw [escapesPaired, if_neg plain] at unpaired
      rw [List.cons_append, List.length_cons, decodeFrameBuffer_plain cur _ _ plain,
        ih (by omega) unpaired]
      rfl

theorem addToBuffer_total {rxbuf : CircRing UInt8} (octets : List UInt8)
    (formed : rxbuf.WellFormed bufSize) : ∃ after, addToBuffer rxbuf octets = some after := by
  induction octets generalizing rxbuf with
  | nil => exact ⟨rxbuf, rfl⟩
  | cons octet rest ih =>
      rw [addToBuffer]
      split
      · exact ih formed
      · have inside : rxbuf.head < rxbuf.buf.length := by
          rw [formed.sized]
          exact formed.head
        rw [store, if_pos inside]
        exact ih (moved_formed formed List.length_set)

theorem tailStuff_length_le (octets : List UInt8) :
    (tailStuff octets).length ≤ 2 * octets.length := by
  induction octets with
  | nil => exact Nat.le_refl 0
  | cons octet rest ih =>
      rw [tailStuff, List.length_append, List.length_cons]
      split
      · simp only [List.length_cons, List.length_nil]
        omega
      · simp only [List.length_cons, List.length_nil]
        omega

theorem decodeLoop_inside {src : List UInt8} (small : src.length < 2 ^ 64)
    (paired : escapesPaired src = true) (left dst : List UInt8) {fuel : Nat}
    (enough : src.length ≤ fuel) (room : src.length ≤ dst.length) :
    ∃ after ret, decodeLoop fuel (src ++ left) 0 src.length dst 0 = some (after, ret) ∧
      ret ≤ src.length ∧ after.length = dst.length := by
  obtain ⟨out, short, done⟩ := decodeFrameBuffer_paired src small paired
  refine ⟨out ++ dst.drop out.length, 0 + out.length, ?_, by omega, ?_⟩
  · have inside : out.length ≤ fuel := by omega
    have fits : out.length ≤ dst.length := by omega
    rw [decodeLoop_eq _ _ _ _ _ _ (Nat.zero_le _), List.drop_zero, done, Option.bind_some, written,
      if_pos inside, memcpy_front fits]
    rfl
  · rw [List.length_append, List.length_drop]
    omega

theorem decodeLoop_leaves (src left : List UInt8)
    (small : (src ++ left).length < 2 ^ 64) (unpaired : escapesPaired src = false) (fuel : Nat)
    (dst : List UInt8) : decodeLoop fuel (src ++ left) 0 src.length dst 0 = none := by
  rw [decodeLoop_eq _ _ _ _ _ _ (Nat.zero_le _), List.drop_zero,
    decodeFrameBuffer_unpaired src left small unpaired]
  rfl

theorem rawBuf_filled {buf : List UInt8} (fits : buf.length ≤ bufSize) :
    memcpy (List.replicate bufSize 0) 0 buf =
      some (buf ++ List.replicate (bufSize - buf.length) 0) := by
  rw [memcpy_front (by rwa [List.length_replicate]), List.drop_replicate]

/-- An answer fits into both buffers even if all of its bytes are escaped. -/
theorem respond_total (device : Device) {frameBuf rawBuf : List UInt8} (frame : HmFrame)
    (response : Response) (frameSized : frameBuf.length = bufSize)
    (rawSized : rawBuf.length = bufSize) :
    ∃ after, respond device frameBuf rawBuf frame response = some after := by
  have short := response.property
  have answered := respondToFrame_eq frameBuf (answerFrame frame response) frameSized
    (by change response.val.length ≤ 1017; omega)
  have escaped := tailStuff_length_le (answerFrame frame response).wire
  rw [HmFrame.wire_length] at escaped
  change _ ≤ 2 * (response.val.length + 7) at escaped
  have size : rawBuf.length = 1024 := rawSized
  have range : loadRange (tailStuff (answerFrame frame response).wire ++
      rawBuf.drop (tailStuff (answerFrame frame response).wire).length) 0
      (tailStuff (answerFrame frame response).wire).length =
        some (tailStuff (answerFrame frame response).wire) := by
    rw [loadRange, if_pos (by rw [List.length_append]; omega), List.drop_zero, List.take_left]
  obtain ⟨rxbuf, added⟩ := addToBuffer_total (tailStuff (answerFrame frame response).wire)
    device.formed
  unfold respond
  simp only [Option.bind_eq_bind]
  rw [answered, Option.bind_some, memcpy_front (by omega), Option.bind_some, range, Option.bind_some]
  split
  · rename_i refused
    rw [added] at refused
    cases refused
  · exact ⟨_, rfl⟩

theorem fakeHmrfWrite_paired (device : Device) (buf : List UInt8) (faults : Bool)
    (paired : escapesPaired buf = true) : (fakeHmrfWrite device buf faults).isSome = true := by
  unfold fakeHmrfWrite
  by_cases large : buf.length > bufSize
  · simp [large]
  · cases faults with
    | true => simp [large]
    | false =>
        have fits : buf.length ≤ bufSize := Nat.not_lt.mp large
        have bound : buf.length ≤ 1024 := fits
        obtain ⟨frameBuf, rawFrameLen, decoded, within, sized⟩ := decodeLoop_inside (by omega)
          paired (List.replicate (bufSize - buf.length) 0) (List.replicate bufSize 0) fits
          (by rwa [List.length_replicate])
        rw [List.length_replicate] at sized
        have parsed : loadRange frameBuf 0 rawFrameLen = some (frameBuf.take rawFrameLen) := by
          rw [loadRange, if_pos (by omega), List.drop_zero]
        have raw : (buf ++ List.replicate (bufSize - buf.length) 0).length = bufSize := by
          rw [List.length_append, List.length_replicate]
          omega
        simp only [large, ↓reduceIte, Bool.false_eq_true, rawBuf_filled fits, Option.bind_eq_bind,
          Option.bind_some, decoded, parsed]
        split
        · rfl
        · rename_i frame _
          split
          · rfl
          · rename_i response _
            obtain ⟨answered, done⟩ := respond_total { device with
              isInBl := (answer device frame.dst (frame.cmd.getD 0 0)).1 } frame response sized raw
            rw [done]
            rfl

theorem fakeHmrfWrite_unpaired (device : Device) {buf : List UInt8} (fits : buf.length ≤ bufSize)
    (unpaired : escapesPaired buf = false) : fakeHmrfWrite device buf false = none := by
  have bound : buf.length ≤ 1024 := fits
  have filled : (buf ++ List.replicate (bufSize - buf.length) 0).length < 2 ^ 64 := by
    rw [List.length_append, List.length_replicate]
    change buf.length + (1024 - buf.length) < 2 ^ 64
    omega
  unfold fakeHmrfWrite
  simp only [Nat.not_lt.mpr fits, ↓reduceIte, Bool.false_eq_true, rawBuf_filled fits,
    Option.bind_eq_bind, Option.bind_some, decodeLoop_leaves _ _ filled unpaired, Option.bind_none]

/-- What `decodeFrameBuffer` has to keep to on `src`: as many iterations as there
are bytes are enough, none of them leaves `src` or a destination of its size, and
a write of `src` stays in the buffers of `fake_hmrf_write`. -/
def Contained (src : List UInt8) : Prop :=
  (∀ dst : List UInt8, src.length ≤ dst.length → ∃ after ret,
    decodeLoop src.length src 0 src.length dst 0 = some (after, ret) ∧ ret ≤ src.length) ∧
  ∀ device faults, (fakeHmrfWrite device src faults).isSome = true

/-- The decoder stays inside exactly if an even number of escape bytes ends its
input; a write that fits into the buffer leaves it in every other case. -/
theorem unescape_contained_iff (src : List UInt8) (small : src.length < 2 ^ 64) :
    (Contained src ↔ trailingEscapes src % 2 = 0) ∧
      ∀ device, (fakeHmrfWrite device src false).isSome = true ↔
        (src.length ≤ bufSize → trailingEscapes src % 2 = 0) := by
  rw [← escapesPaired_iff]
  refine ⟨⟨?_, ?_⟩, ?_⟩
  · rintro ⟨decodes, -⟩
    by_contra unpaired
    obtain ⟨after, ret, decoded, -⟩ := decodes src (Nat.le_refl _)
    have leaves := decodeLoop_leaves src [] (by rwa [List.append_nil])
      (Bool.eq_false_iff.mpr unpaired) src.length src
    rw [List.append_nil, decoded] at leaves
    cases leaves
  · intro paired
    refine ⟨?_, fun device faults => fakeHmrfWrite_paired device src faults paired⟩
    intro dst room
    obtain ⟨after, ret, decoded, within, -⟩ := decodeLoop_inside small paired [] dst
      (Nat.le_refl _) room
    rw [List.append_nil] at decoded
    exact ⟨after, ret, decoded, within⟩
  · intro device
    constructor
    · intro stays fits
      by_contra unpaired
      rw [fakeHmrfWrite_unpaired device fits (Bool.eq_false_iff.mpr unpaired)] at stays
      cases stays
    · intro paired
      by_cases fits : src.length ≤ bufSize
      · exact fakeHmrfWrite_paired device src false (paired fits)
      · simp [fakeHmrfWrite, Nat.not_le.mp fits]

theorem unescape_contained_iff_doubled : trailingEscapes [0x01, 0xfc, 0xfc] % 2 = 0 ∧
    Contained [0x01, 0xfc, 0xfc] :=
  ⟨by decide, (unescape_contained_iff [0x01, 0xfc, 0xfc] (by decide)).1.mpr (by decide)⟩

def loaded : Device where
  parameters :=
    { boardSerial := [0x46, 0x4b, 0x45, 0x31, 0x32, 0x33, 0x34, 0x35, 0x36, 0x37]
      radioMac := [0x4f, 0x68, 0xf1]
      firmwareVersion := [0x02, 0x08, 0x06]
      serialSized := rfl
      macSized := rfl
      versionSized := rfl }
  isInBl := false
  rxbuf := ⟨List.replicate bufSize 0, 0, 0⟩
  formed := ⟨List.length_replicate, by decide, by decide⟩

/-- The shortest such write: the byte behind it is taken for the escaped one, and
the count of zero is decremented. -/
theorem lone_escape_leaves : ¬ Contained [0xfc] ∧ fakeHmrfWrite loaded [0xfc] false = none := by
  refine ⟨?_, fakeHmrfWrite_unpaired loaded (by decide) (by decide)⟩
  rintro ⟨-, stays⟩
  have stays := stays loaded false
  rw [fakeHmrfWrite_unpaired loaded (by decide) (by decide)] at stays
  cases stays

end PiVccu.FakeHmrfWrite
