import PiVccu.RadioModuleDetector

/-!
What a detection has found out. In each state of the dialogue the members hold
what the replies so far were for; a supported type comes early, the identity only
with the last reply.
-/

namespace PiVccu.RadioModuleDialogue
open ByteBuffer RadioModuleDetector Transition

inductive Handled (detector : Detector) (frame : HMFrame) : Detector → Prop where
  | ignored : Handled detector frame detector
  | bootloader (state : detector.detectState = .startBl) :
      Handled detector frame ({ detector with radioModuleType := .unknown }.proceed frame .startApp)
  | restart (destination command : UInt8) (state : detector.detectState = .startBl) :
      Handled detector frame
        ({ detector with radioModuleType := .unknown }.sendFrame destination command)
  | startApp (destination command : UInt8) (state : detector.detectState = .startApp) :
      Handled detector frame (detector.sendFrame destination command)
  | app (state : detector.detectState = .startApp) :
      Handled detector frame (detector.proceed frame .getMcuType)
  | legacyApp (sgtin : List UInt8) (state : detector.detectState = .startApp)
      (named : legacyApp frame = true) (written : sprintf detector.sgtin (ascii "n/a") = some sgtin) :
      Handled detector frame ({ detector with
        sgtin := sgtin, hmIPRadioMAC := 0, radioModuleType := .hmModRpiPcb }.proceed frame
          .legacyGetVersion)
  | mcuType (state : detector.detectState = .getMcuType)
      (acked : ackedWith hmDstTrx hmCmdTrxAck 2 1 frame = true) :
      Handled detector frame ({ detector with
        radioModuleType := .ofByte (frame.data.getD 1 0) }.proceed frame .getVersion)
  | version (version : List UInt8) (state : detector.detectState = .getVersion)
      (copied : memcpy detector.firmwareVersion 0 ((frame.data.drop 1).take 3) = some version) :
      Handled detector frame ({ detector with firmwareVersion := version }.proceed frame
        .getHmipRfAddress)
  | hmipRfAddress (state : detector.detectState = .getHmipRfAddress) :
      Handled detector frame ({ detector with
        hmIPRadioMAC := addressAt frame.data 1 }.proceed frame .getSgtin)
  | sgtinDerived (sgtin serial : List UInt8)
      (state : detector.detectState = .getSgtin) (length : frame.data.length = 13)
      (written : sprintf detector.sgtin (hexString (frame.data.drop 1)) = some sgtin)
      (numbered : sprintf detector.serial (hexString (frame.data.drop 8)) = some serial) :
      Handled detector frame ({ detector with
        sgtin := sgtin, serial := serial
        bidCosRadioMAC := derivedAddress frame.data }.proceed frame .getBidcosRfAddress)
  | sgtinFinished (sgtin serial : List UInt8)
      (state : detector.detectState = .getSgtin) (length : frame.data.length = 13)
      (written : sprintf detector.sgtin (hexString (frame.data.drop 1)) = some sgtin)
      (numbered : sprintf detector.serial (hexString (frame.data.drop 8)) = some serial)
      (type : detector.radioModuleType = .hmipRfusb)
      (old : detector.firmwareVersion.getD 0 0 < 4) :
      Handled detector frame ({ detector with
        sgtin := sgtin, serial := serial, bidCosRadioMAC := 0 }.proceed frame .finished)
  | sgtinOther (sgtin : List UInt8) (state : detector.detectState = .getSgtin)
      (length : frame.data.length = 13)
      (written : sprintf detector.sgtin (hexString (frame.data.drop 1)) = some sgtin)
      (mod : detector.radioModuleType ≠ .rpiRfMod) (usb : detector.radioModuleType ≠ .hmipRfusb) :
      Handled detector frame ({ detector with sgtin := sgtin }.proceed frame .getBidcosRfAddress)
  | bidcosRfAddress (mac : UInt32) (next : DetectState)
      (state : detector.detectState = .getBidcosRfAddress)
      (chosen : mac ≠ 0 ∧ mac &&& 0xffff ≠ 0xffff ∨ mac = detector.bidCosRadioMAC)
      (towards : next = .getSerial ∧ detector.radioModuleType = .hmModRpiPcb ∨
        next = .finished ∧ detector.radioModuleType ≠ .hmModRpiPcb) :
      Handled detector frame ({ detector with bidCosRadioMAC := mac }.proceed frame next)
  | bidcosRefused (next : DetectState)
      (state : detector.detectState = .getBidcosRfAddress)
      (towards : next = .getBidcosRfAddress ∨ next = .finished ∧
        (detector.radioModuleType = .rpiRfMod ∨ detector.radioModuleType = .hmipRfusb)) :
      Handled detector frame (detector.proceed frame next)
  | serial (serial : List UInt8)
      (state : detector.detectState = .getSerial ∨ detector.detectState = .legacyGetSerial)
      (length : frame.data.length = 11)
      (copied : memcpy detector.serial 0 ((frame.data.drop 1).take 10) = some serial) :
      Handled detector frame ({ detector with serial := serial }.proceed frame .finished)
  | legacyVersion (version : List UInt8)
      (state : detector.detectState = .legacyGetVersion)
      (copied : memcpy detector.firmwareVersion 0 ((frame.data.drop 4).take 3) = some version) :
      Handled detector frame ({ detector with firmwareVersion := version }.proceed frame
        .legacyGetBidcosRfAddress)
  | legacyBidcosRfAddress
      (state : detector.detectState = .legacyGetBidcosRfAddress) :
      Handled detector frame ({ detector with
        bidCosRadioMAC := addressAt frame.data 3 }.proceed frame .legacyGetSerial)

theorem acked_length {destination ack : UInt8} {length : Nat} {frame : HMFrame}
    (hit : acked destination ack length frame = true) : frame.data.length = length := by
  simp only [acked, Bool.and_eq_true, beq_iff_eq] at hit
  exact hit.2

theorem ackedWith_length {destination ack status : UInt8} {length : Nat} {frame : HMFrame}
    (hit : ackedWith destination ack length status frame = true) : frame.data.length = length := by
  simp only [ackedWith, Bool.and_eq_true] at hit
  exact acked_length hit.1

section Handlers
variable {detector after : Detector} {frame : HMFrame}

theorem handled_startBl (state : detector.detectState = .startBl) :
    Handled detector frame (detector.handleStartBl frame) := by
  unfold Detector.handleStartBl
  split
  · exact .bootloader state
  · split
    · exact .restart _ _ state
    · split
      · exact .restart _ _ state
      · exact .ignored

theorem handled_startApp (state : detector.detectState = .startApp)
    (done : detector.handleStartApp frame = some after) : Handled detector frame after := by
  unfold Detector.handleStartApp at done
  split at done
  · cases done
    exact .startApp _ _ state
  · split at done
    · cases done
      exact .startApp _ _ state
    · split at done
      · cases done
        exact .app state
      · split at done
        · rename_i named
          obtain ⟨sgtin, written, final⟩ := Option.bind_eq_some_iff.mp done
          cases final
          exact .legacyApp sgtin state named written
        · cases done
          exact .ignored

theorem handled_sgtin (state : detector.detectState = .getSgtin)
    (done : detector.handleSgtin frame = some after) : Handled detector frame after := by
  unfold Detector.handleSgtin at done
  split at done
  · rename_i hit
    have length := ackedWith_length hit
    obtain ⟨sgtin, written, done⟩ := Option.bind_eq_some_iff.mp done
    dsimp only at done
    split at done
    · obtain ⟨serial, numbered, final⟩ := Option.bind_eq_some_iff.mp done
      cases final
      exact .sgtinDerived sgtin serial state length written numbered
    · rename_i type
      obtain ⟨serial, numbered, done⟩ := Option.bind_eq_some_iff.mp done
      split at done
      · rename_i old
        cases done
        exact .sgtinFinished sgtin serial state length written numbered type old
      · cases done
        exact .sgtinDerived sgtin serial state length written numbered
    · rename_i mod usb
      cases done
      exact .sgtinOther sgtin state length written mod usb
  · cases done
    exact .ignored

theorem handled_bidcosRfAddress (state : detector.detectState = .getBidcosRfAddress) :
    Handled detector frame (detector.handleBidcosRfAddress frame) := by
  unfold Detector.handleBidcosRfAddress
  split
  · refine .bidcosRfAddress _ _ state ?_ ?_
    · split
      · rename_i valid
        exact .inl valid
      · exact .inr rfl
    · cases type : detector.radioModuleType <;> simp
  · split
    · refine .bidcosRefused _ state ?_
      cases type : detector.radioModuleType <;> simp [state]
    · exact .ignored

theorem handled_copySerial (accepted : Bool)
    (state : detector.detectState = .getSerial ∨ detector.detectState = .legacyGetSerial)
    (length : accepted = true → frame.data.length = 11)
    (done : detector.copySerial frame accepted = some after) : Handled detector frame after := by
  unfold Detector.copySerial at done
  split at done
  · rename_i hit
    obtain ⟨serial, copied, final⟩ := Option.bind_eq_some_iff.mp done
    cases final
    exact .serial serial state (length hit) copied
  · cases done
    exact .ignored

end Handlers

theorem handleFrame_handled {detector after : Detector} {buffer : List UInt8}
    (done : detector.handleFrame buffer = some after) :
    after = detector ∨ ∃ frame, HMFrame.tryParse buffer (UInt16.ofNat buffer.length) = some frame ∧
      Handled detector frame after := by
  unfold Detector.handleFrame at done
  split at done
  · cases done
    exact .inl rfl
  · rename_i frame parsed
    refine .inr ⟨frame, parsed, ?_⟩
    -- One handler for each state; the last one takes no frame.
    cases state : detector.detectState with
    | startBl =>
        simp only [state] at done
        cases done
        exact handled_startBl state
    | startApp =>
        simp only [state] at done
        exact handled_startApp state done
    | getMcuType =>
        simp only [state] at done
        cases done
        unfold Detector.handleMcuType
        split
        · rename_i hit
          exact .mcuType state hit
        · exact .ignored
    | getVersion =>
        simp only [state] at done
        unfold Detector.handleVersion at done
        split at done
        · obtain ⟨version, copied, final⟩ := Option.bind_eq_some_iff.mp done
          cases final
          exact .version version state copied
        · cases done
          exact .ignored
    | getHmipRfAddress =>
        simp only [state] at done
        cases done
        unfold Detector.handleHmipRfAddress
        split
        · exact .hmipRfAddress state
        · exact .ignored
    | getSgtin =>
        simp only [state] at done
        exact handled_sgtin state done
    | getBidcosRfAddress =>
        simp only [state] at done
        cases done
        exact handled_bidcosRfAddress state
    | getSerial =>
        simp only [state] at done
        exact handled_copySerial _ (.inl state) ackedWith_length done
    | legacyGetVersion =>
        simp only [state] at done
        unfold Detector.handleLegacyVersion at done
        split at done
        · obtain ⟨version, copied, final⟩ := Option.bind_eq_some_iff.mp done
          cases final
          exact .legacyVersion version state copied
        · cases done
          exact .ignored
    | legacyGetBidcosRfAddress =>
        simp only [state] at done
        cases done
        unfold Detector.handleLegacyBidcosRfAddress
        split
        · exact .legacyBidcosRfAddress state
        · exact .ignored
    | legacyGetSerial =>
        simp only [state] at done
        exact handled_copySerial _ (.inr state) ackedWith_length done
    | finished =>
        simp only [state] at done
        cases done
        exact .ignored

/-- An address that is neither missing nor the one of an empty flash. -/
def AddressSet (mac : UInt32) : Prop := mac ≠ 0 ∧ mac &&& 0xffff ≠ 0xffff

theorem derivedAddress_set (data : List UInt8) : AddressSet (derivedAddress data) := by
  have value : ((0xff0000 : UInt32) ||| ((data.getD 11 0).toUInt32 <<< 8) |||
      (data.getD 12 0).toUInt32).toNat =
        0xff0000 + ((data.getD 11 0).toNat * 256 + (data.getD 12 0).toNat) := by
    generalize data.getD 11 0 = high
    generalize data.getD 12 0 = low
    have highBound := high.toNat_lt
    have lowBound := low.toNat_lt
    have shifted : (high.toUInt32 <<< 8).toNat = high.toNat <<< 8 := by
      have eight : UInt32.toNat 8 % 32 = 8 := rfl
      rw [UInt32.toNat_shiftLeft, UInt8.toNat_toUInt32, eight, Nat.shiftLeft_eq]
      omega
    rw [UInt32.toNat_or, UInt32.toNat_or, shifted, UInt8.toNat_toUInt32, Nat.or_assoc,
      ← Nat.shiftLeft_add_eq_or_of_lt lowBound, show UInt32.toNat 0xff0000 = 0xff <<< 16 from rfl,
      ← Nat.shiftLeft_add_eq_or_of_lt (by rw [Nat.shiftLeft_eq]; omega)]
    simp only [Nat.shiftLeft_eq]
  unfold derivedAddress
  generalize (0xff0000 : UInt32) ||| ((data.getD 11 0).toUInt32 <<< 8) |||
    (data.getD 12 0).toUInt32 = address at value
  have highBound := (data.getD 11 0).toNat_lt
  have lowBound := (data.getD 12 0).toNat_lt
  dsimp only
  split
  · exact ⟨by decide, by decide⟩
  · rename_i empty
    constructor
    · intro zero
      rw [zero] at value
      change 0 = _ at value
      omega
    · intro flash
      apply empty
      have masked : address.toNat &&& 0xffff = 0xffff := by
        have same := congrArg UInt32.toNat flash
        rwa [UInt32.toNat_and] at same
      rw [show (0xffff : Nat) = 2 ^ 16 - 1 from rfl, Nat.and_two_pow_sub_one_eq_mod] at masked
      apply UInt32.toNat_inj.mp
      change address.toNat = 0xffffff
      omega

def HexSgtin (detector : Detector) : Prop :=
  ∃ frame, (.getSgtin, frame) ∈ detector.replies ∧ frame.data.length = 13 ∧
    detector.sgtin = hexString (frame.data.drop 1) ++ [0]

/-- The module named its legacy firmware, which has no SGTIN. -/
def LegacySgtin (detector : Detector) : Prop :=
  (∃ frame, (.startApp, frame) ∈ detector.replies ∧ legacyApp frame = true) ∧
    ascii "n/a" ++ [0] <+: detector.sgtin

def SerialFilled (detector : Detector) : Prop :=
  ∃ state frame characters, (state, frame) ∈ detector.replies ∧
    detector.serial = characters ++ [0] ∧ characters.length = 10 ∧
    (state = .getSgtin ∧ characters = hexString (frame.data.drop 8) ∨
      (state = .getSerial ∨ state = .legacyGetSerial) ∧ characters = frame.data.drop 1)

def HasBidcos (detector : Detector) : Prop :=
  detector.radioModuleType = .rpiRfMod ∨
    detector.radioModuleType = .hmipRfusb ∧ 4 ≤ detector.firmwareVersion.getD 0 0

/-- What is known in each state. The type can also be `none`: the first loop
resets it at any time. -/
def Known (detector : Detector) : Prop :=
  match detector.detectState with
  | .startBl | .startApp =>
      detector.radioModuleType = .none ∨ detector.radioModuleType = .unknown
  | .getMcuType | .getVersion | .getHmipRfAddress | .getSgtin => True
  | .getBidcosRfAddress => HexSgtin detector ∧
      (detector.radioModuleType = .rpiRfMod ∨ detector.radioModuleType = .hmipRfusb →
        SerialFilled detector ∧ AddressSet detector.bidCosRadioMAC)
  | .getSerial => HexSgtin detector ∧
      (detector.radioModuleType = .hmModRpiPcb ∨ detector.radioModuleType = .none)
  | .legacyGetVersion | .legacyGetBidcosRfAddress | .legacyGetSerial => LegacySgtin detector ∧
      (detector.radioModuleType = .hmModRpiPcb ∨ detector.radioModuleType = .none)
  | .finished => detector.radioModuleType.supported = true →
      SerialFilled detector ∧ (HexSgtin detector ∨ LegacySgtin detector) ∧
        (HasBidcos detector → AddressSet detector.bidCosRadioMAC)

structure Sized (detector : Detector) : Prop where
  serial : ∃ characters, detector.serial = characters ++ [0] ∧ characters.length = 10
  sgtin : detector.sgtin.length = 25
  version : detector.firmwareVersion.length = 3

theorem hexString_length (octets : List UInt8) : (hexString octets).length = 2 * octets.length := by
  induction octets with
  | nil => rfl
  | cons octet rest ih =>
      rw [hexString, List.flatMap_cons, List.length_append, ← hexString, ih, List.length_cons]
      change 2 + _ = _
      omega

theorem hexDigit_upper (nibble : UInt8) (small : nibble < 16) :
    48 ≤ hexDigit nibble ∧ hexDigit nibble ≤ 57 ∨ 65 ≤ hexDigit nibble ∧ hexDigit nibble ≤ 70 := by
  have all : ∀ value : Fin 16,
      48 ≤ hexDigit (UInt8.ofNat value) ∧ hexDigit (UInt8.ofNat value) ≤ 57 ∨
        65 ≤ hexDigit (UInt8.ofNat value) ∧ hexDigit (UInt8.ofNat value) ≤ 70 := by decide
  have bound : nibble.toNat < 16 := small
  have same : UInt8.ofNat nibble.toNat = nibble := UInt8.ofNat_toNat
  have here := all ⟨nibble.toNat, bound⟩
  rwa [same] at here

theorem memcpy_start {memory source after : List UInt8} (done : memcpy memory 0 source = some after) :
    after = source ++ memory.drop source.length ∧ source.length ≤ memory.length := by
  rw [memcpy] at done
  split at done
  · rename_i inside
    cases done
    simpa using inside
  · cases done

theorem sprintf_spec {memory text after : List UInt8} (done : sprintf memory text = some after) :
    after.length = memory.length ∧ text ++ [0] <+: after ∧
      (memory.length = text.length + 1 → after = text ++ [0]) := by
  obtain ⟨shape, fits⟩ := memcpy_start done
  have size : (text ++ [0]).length = text.length + 1 := by simp
  refine ⟨?_, ?_, ?_⟩
  · rw [shape, List.length_append, List.length_drop]
    omega
  · rw [shape]
    exact List.prefix_append _ _
  · intro whole
    rw [shape, List.drop_eq_nil_of_le (by omega), List.append_nil]

theorem HexSgtin.keep {detector after : Detector} (held : HexSgtin detector)
    (sgtin : after.sgtin = detector.sgtin)
    (replies : ∀ reply ∈ detector.replies, reply ∈ after.replies) : HexSgtin after := by
  obtain ⟨frame, member, length, digits⟩ := held
  exact ⟨frame, replies _ member, length, sgtin.trans digits⟩

theorem LegacySgtin.keep {detector after : Detector} (held : LegacySgtin detector)
    (sgtin : after.sgtin = detector.sgtin)
    (replies : ∀ reply ∈ detector.replies, reply ∈ after.replies) : LegacySgtin after := by
  obtain ⟨⟨frame, member, named⟩, text⟩ := held
  exact ⟨⟨frame, replies _ member, named⟩, by rw [sgtin]; exact text⟩

theorem SerialFilled.keep {detector after : Detector} (held : SerialFilled detector)
    (serial : after.serial = detector.serial)
    (replies : ∀ reply ∈ detector.replies, reply ∈ after.replies) : SerialFilled after := by
  obtain ⟨state, frame, characters, member, filled, length, source⟩ := held
  exact ⟨state, frame, characters, replies _ member, serial.trans filled, length, source⟩

theorem replies_proceed (detector : Detector) (frame : HMFrame) (next : DetectState) :
    ∀ reply ∈ detector.replies, reply ∈ (detector.proceed frame next).replies := by
  intro reply member
  exact List.mem_append_left _ member

theorem reply_newest (detector : Detector) (frame : HMFrame) {state : DetectState}
    (next : DetectState) (here : detector.detectState = state) :
    (state, frame) ∈ (detector.proceed frame next).replies := by
  rw [← here]
  exact List.mem_append_right _ (List.mem_singleton.mpr rfl)

theorem serial_derived {detector : Detector} {frame : HMFrame} {number : List UInt8}
    (sized : Sized detector) (length : frame.data.length = 13)
    (written : sprintf detector.serial (hexString (frame.data.drop 8)) = some number) :
    number = hexString (frame.data.drop 8) ++ [0] ∧
      (hexString (frame.data.drop 8)).length = 10 := by
  obtain ⟨characters, serial, ten⟩ := sized.serial
  have digits : (hexString (frame.data.drop 8)).length = 10 := by
    rw [hexString_length, List.length_drop, length]
  refine ⟨(sprintf_spec written).2.2 ?_, digits⟩
  rw [serial, digits, List.length_append, ten]
  rfl

theorem serial_copied {detector : Detector} {frame : HMFrame} {number : List UInt8}
    (sized : Sized detector) (length : frame.data.length = 11)
    (copied : memcpy detector.serial 0 ((frame.data.drop 1).take 10) = some number) :
    number = frame.data.drop 1 ++ [0] ∧ (frame.data.drop 1).length = 10 := by
  obtain ⟨characters, serial, ten⟩ := sized.serial
  have whole : (frame.data.drop 1).length = 10 := by rw [List.length_drop, length]
  rw [List.take_of_length_le (by omega)] at copied
  obtain ⟨shape, -⟩ := memcpy_start copied
  refine ⟨?_, whole⟩
  rw [shape, serial, whole, ← ten, List.drop_left]

theorem sized_handled {detector after : Detector} {frame : HMFrame} (sized : Sized detector)
    (handled : Handled detector frame after) : Sized after := by
  have copied : ∀ {version source : List UInt8}, source.length ≤ 3 →
      memcpy detector.firmwareVersion 0 source = some version → version.length = 3 := by
    intro version source small written
    obtain ⟨shape, -⟩ := memcpy_start written
    rw [shape, List.length_append, List.length_drop, sized.version]
    omega
  cases handled with
  | ignored | bootloader | restart | startApp | app | mcuType | hmipRfAddress | bidcosRfAddress
  | bidcosRefused | legacyBidcosRfAddress => exact ⟨sized.serial, sized.sgtin, sized.version⟩
  | legacyApp sgtin state named written =>
      exact ⟨sized.serial, (sprintf_spec written).1.trans sized.sgtin, sized.version⟩
  | version version state written =>
      exact ⟨sized.serial, sized.sgtin, copied (List.length_take_le _ _) written⟩
  | legacyVersion version state written =>
      exact ⟨sized.serial, sized.sgtin, copied (List.length_take_le _ _) written⟩
  | sgtinDerived sgtin number state size written numbered =>
      exact ⟨⟨_, serial_derived sized size numbered⟩, (sprintf_spec written).1.trans sized.sgtin,
        sized.version⟩
  | sgtinFinished sgtin number state size written numbered =>
      exact ⟨⟨_, serial_derived sized size numbered⟩, (sprintf_spec written).1.trans sized.sgtin,
        sized.version⟩
  | sgtinOther sgtin state size written =>
      exact ⟨sized.serial, (sprintf_spec written).1.trans sized.sgtin, sized.version⟩
  | serial number state size written =>
      exact ⟨⟨_, serial_copied sized size written⟩, sized.sgtin, sized.version⟩

theorem hexSgtin_reply {detector after : Detector} {frame : HMFrame} (sized : Sized detector)
    (length : frame.data.length = 13)
    (written : sprintf detector.sgtin (hexString (frame.data.drop 1)) = some after.sgtin)
    (member : (.getSgtin, frame) ∈ after.replies) : HexSgtin after := by
  refine ⟨frame, member, length, (sprintf_spec written).2.2 ?_⟩
  rw [sized.sgtin, hexString_length, List.length_drop, length]

theorem serialFilled_derived {detector after : Detector} {frame : HMFrame} (sized : Sized detector)
    (length : frame.data.length = 13)
    (written : sprintf detector.serial (hexString (frame.data.drop 8)) = some after.serial)
    (member : (.getSgtin, frame) ∈ after.replies) : SerialFilled after := by
  obtain ⟨shape, ten⟩ := serial_derived sized length written
  exact ⟨.getSgtin, frame, _, member, shape, ten, .inl ⟨rfl, rfl⟩⟩

theorem serialFilled_copied {detector after : Detector} {frame : HMFrame} {state : DetectState}
    (sized : Sized detector) (asked : state = .getSerial ∨ state = .legacyGetSerial)
    (length : frame.data.length = 11)
    (copied : memcpy detector.serial 0 ((frame.data.drop 1).take 10) = some after.serial)
    (member : (state, frame) ∈ after.replies) : SerialFilled after := by
  obtain ⟨shape, ten⟩ := serial_copied sized length copied
  exact ⟨state, frame, _, member, shape, ten, .inr ⟨asked, rfl⟩⟩

theorem supported_cases {type : RadioModuleType} (supported : type.supported = true)
    (other : type ≠ .hmModRpiPcb) : type = .rpiRfMod ∨ type = .hmipRfusb := by
  cases type with
  | rpiRfMod => exact .inl rfl
  | hmipRfusb => exact .inr rfl
  | hmModRpiPcb => exact absurd rfl other
  | none | unknown | other code => cases supported

theorem known_serial {detector : Detector} {frame : HMFrame} {number : List UInt8}
    (sized : Sized detector) (held : Known detector)
    (state : detector.detectState = .getSerial ∨ detector.detectState = .legacyGetSerial)
    (length : frame.data.length = 11)
    (copied : memcpy detector.serial 0 ((frame.data.drop 1).take 10) = some number) :
    Known ({ detector with serial := number }.proceed frame .finished) := by
  have keep := replies_proceed { detector with serial := number } frame .finished
  have member := reply_newest { detector with serial := number } frame .finished rfl
  have filled : SerialFilled ({ detector with serial := number }.proceed frame .finished) :=
    serialFilled_copied sized state length copied member
  have known : (HexSgtin detector ∨ LegacySgtin detector) ∧
      (detector.radioModuleType = .hmModRpiPcb ∨ detector.radioModuleType = .none) := by
    unfold Known at held
    rcases state with state | state
    · simp only [state] at held
      exact ⟨.inl held.1, held.2⟩
    · simp only [state] at held
      exact ⟨.inr held.1, held.2⟩
  obtain ⟨sgtin, type⟩ := known
  intro _
  refine ⟨filled, ?_, ?_⟩
  · rcases sgtin with hex | legacy
    · exact .inl (hex.keep rfl keep)
    · exact .inr (legacy.keep rfl keep)
  · -- The type of neither kind of module with a BidCos address leads here.
    rintro (mod | ⟨usb, -⟩)
    · rw [show detector.radioModuleType = .rpiRfMod from mod] at type
      simp at type
    · rw [show detector.radioModuleType = .hmipRfusb from usb] at type
      simp at type

theorem known_handled {detector after : Detector} {frame : HMFrame} (sized : Sized detector)
    (held : Known detector) (handled : Handled detector frame after) : Known after := by
  unfold Known at held
  cases handled with
  | ignored => exact held
  | bootloader state => exact .inr rfl
  | restart destination command state =>
      simp [Known, Detector.sendFrame, state]
  | startApp destination command state =>
      simp only [state] at held
      simpa [Known, Detector.sendFrame, state] using held
  | app state | mcuType state acked | version version state copied | hmipRfAddress state => trivial
  | legacyApp sgtin state named written =>
      have member := reply_newest { detector with
        sgtin := sgtin, hmIPRadioMAC := 0, radioModuleType := .hmModRpiPcb } frame
        .legacyGetVersion state
      exact ⟨⟨⟨frame, member, named⟩, (sprintf_spec written).2.1⟩, .inl rfl⟩
  | sgtinDerived sgtin serial state length written numbered =>
      have member := reply_newest { detector with
        sgtin := sgtin, serial := serial, bidCosRadioMAC := derivedAddress frame.data } frame
        .getBidcosRfAddress state
      exact ⟨hexSgtin_reply sized length written member, fun _ =>
        ⟨serialFilled_derived sized length numbered member, derivedAddress_set frame.data⟩⟩
  | sgtinFinished sgtin serial state length written numbered type old =>
      -- The one way to the end without a BidCos address, for an old HMIP-RFUSB only.
      have member := reply_newest { detector with
        sgtin := sgtin, serial := serial, bidCosRadioMAC := 0 } frame .finished state
      intro _
      refine ⟨serialFilled_derived sized length numbered member,
        .inl (hexSgtin_reply sized length written member), ?_⟩
      rintro (mod | ⟨-, new⟩)
      · rw [show detector.radioModuleType = .rpiRfMod from mod] at type
        cases type
      · exact absurd old (UInt8.not_lt.mpr new)
  | sgtinOther sgtin state length written mod usb =>
      have member := reply_newest { detector with sgtin := sgtin } frame .getBidcosRfAddress state
      refine ⟨hexSgtin_reply sized length written member, ?_⟩
      rintro (isMod | isUsb)
      · exact absurd isMod mod
      · exact absurd isUsb usb
  | bidcosRfAddress mac next state chosen towards =>
      simp only [state] at held
      obtain ⟨hex, filled⟩ := held
      have keep := replies_proceed { detector with bidCosRadioMAC := mac } frame next
      rcases towards with ⟨rfl, type⟩ | ⟨rfl, other⟩
      · exact ⟨hex.keep rfl keep, .inl type⟩
      · intro supported
        change detector.radioModuleType.supported = true at supported
        obtain ⟨serial, address⟩ := filled (supported_cases supported other)
        refine ⟨serial.keep rfl keep, .inl (hex.keep rfl keep), fun _ => ?_⟩
        rcases chosen with valid | same
        · exact valid
        · change AddressSet mac
          rw [same]
          exact address
  | bidcosRefused next state towards =>
      simp only [state] at held
      obtain ⟨hex, filled⟩ := held
      have keep := replies_proceed detector frame next
      rcases towards with rfl | ⟨rfl, type⟩
      · exact ⟨hex.keep rfl keep, fun type => ⟨(filled type).1.keep rfl keep, (filled type).2⟩⟩
      · obtain ⟨serial, address⟩ := filled type
        intro _
        exact ⟨serial.keep rfl keep, .inl (hex.keep rfl keep), fun _ => address⟩
  | serial number state length copied => exact known_serial sized held state length copied
  | legacyVersion version state copied =>
      simp only [state] at held
      have keep := replies_proceed { detector with firmwareVersion := version } frame
        .legacyGetBidcosRfAddress
      exact ⟨held.1.keep rfl keep, held.2⟩
  | legacyBidcosRfAddress state =>
      simp only [state] at held
      have keep := replies_proceed { detector with bidCosRadioMAC := addressAt frame.data 3 } frame
        .legacyGetSerial
      exact ⟨held.1.keep rfl keep, held.2⟩

/-- Everything a step of the main thread can do with the members: it counts,
sends and takes the semaphore, it resets the type before each round of the first
loop, and it gives up a dialogue that was never answered. -/
inductive MainEffect (detector : Detector) : Detector → Prop where
  | counted (retries messages semaphore : Nat) (sent : List Request) :
      MainEffect detector { detector with
        detectRetryCount := retries, detectMsgCounter := messages
        semaphore := semaphore, sent := sent }
  | reset (messages : Nat) (sent : List Request) :
      MainEffect detector { detector with
        radioModuleType := .none, detectMsgCounter := messages, sent := sent }
  | givenUp (state : detector.detectState = .startBl ∨ detector.detectState = .startApp) :
      MainEffect detector { detector with detectState := .finished }

theorem request_effect (detector : Detector) : MainEffect detector detector.request := by
  unfold Detector.request
  split
  case h_1 state => exact .givenUp (.inl state)
  case h_2 state => exact .givenUp (.inr state)
  all_goals exact .counted _ _ _ _

theorem taken_effect {detection after : Detection} {next : MainPhase}
    (done : detection.taken next = some after) : MainEffect detection.detector after.detector := by
  unfold Detection.taken at done
  split at done
  · cases done
  · cases done
    exact .counted _ _ _ _

theorem mainStep_effect {detection after : Detection} (done : detection.mainStep = some after) :
    MainEffect detection.detector after.detector := by
  have unchanged : MainEffect detection.detector detection.detector := .counted _ _ _ _
  unfold Detection.mainStep at done
  cases phase : detection.phase with
  | blCheck =>
      simp only [phase] at done
      split at done
      · cases done
        exact unchanged
      · cases done
        exact .counted _ _ _ _
  | blBody =>
      simp only [phase] at done
      cases done
      exact .reset _ _
  | appCheck =>
      simp only [phase] at done
      split at done
      · cases done
        exact unchanged
      · cases done
        exact unchanged
  | appBody =>
      simp only [phase] at done
      cases done
      exact .counted _ _ _ _
  | blWaitCommon | blWaitHmsystem | appWaitCommon | appWaitHmsystem | waiting =>
      simp only [phase] at done
      exact taken_effect done
  | switching =>
      simp only [phase] at done
      cases done
      exact request_effect detection.detector
  | checking =>
      simp only [phase] at done
      split at done
      · cases done
        exact unchanged
      · cases done
        exact unchanged
  | ended =>
      simp only [phase] at done
      cases done
      exact unchanged
  | returned =>
      simp only [phase] at done
      cases done

theorem timeoutStep_effect {detection after : Detection}
    (done : detection.timeoutStep = some after) :
    MainEffect detection.detector after.detector := by
  unfold Detection.timeoutStep at done
  dsimp only at done
  split at done
  · cases done
  · split at done
    case h_6 => cases done
    all_goals
      cases done
      exact .counted _ _ _ _

theorem sized_main {detector after : Detector} (sized : Sized detector)
    (effect : MainEffect detector after) : Sized after := by
  cases effect with
  | counted | reset | givenUp => exact ⟨sized.serial, sized.sgtin, sized.version⟩

theorem known_main {detector after : Detector} (held : Known detector)
    (effect : MainEffect detector after) : Known after := by
  cases effect with
  | counted => exact held
  | reset messages sent =>
      unfold Known at held ⊢
      cases state : detector.detectState with
      | startBl | startApp => exact .inl rfl
      | getMcuType | getVersion | getHmipRfAddress | getSgtin => trivial
      | getBidcosRfAddress =>
          simp only [state] at held
          exact ⟨held.1, by rintro (type | type) <;> cases type⟩
      | getSerial | legacyGetVersion | legacyGetBidcosRfAddress | legacyGetSerial =>
          simp only [state] at held
          exact ⟨held.1, .inr rfl⟩
      | finished =>
          intro supported
          cases supported
  | givenUp state =>
      -- Nobody named its application, so the type is not a supported one.
      intro supported
      change detector.radioModuleType.supported = true at supported
      have unnamed : detector.radioModuleType = .none ∨ detector.radioModuleType = .unknown := by
        unfold Known at held
        rcases state with state | state
        · simpa only [state] using held
        · simpa only [state] using held
      rcases unnamed with type | type
      · rw [type] at supported
        cases supported
      · rw [type] at supported
        cases supported

theorem memcpy_fits {memory source : List UInt8} (fits : source.length ≤ memory.length) :
    ∃ after, memcpy memory 0 source = some after := by
  unfold memcpy
  split
  · exact ⟨_, rfl⟩
  · rename_i outside
    rw [Nat.zero_add] at outside
    exact absurd fits outside

theorem Sized.serial_length {detector : Detector} (sized : Sized detector) :
    detector.serial.length = 11 := by
  obtain ⟨characters, serial, ten⟩ := sized.serial
  rw [serial, List.length_append, ten]
  rfl

theorem version_fits {detector : Detector} (sized : Sized detector) (source : List UInt8) :
    ∃ after, memcpy detector.firmwareVersion 0 (source.take 3) = some after := by
  apply memcpy_fits
  rw [sized.version]
  exact List.length_take_le _ _

theorem handleStartApp_total {detector : Detector} (sized : Sized detector) (frame : HMFrame) :
    ∃ after, detector.handleStartApp frame = some after := by
  have fits : (ascii "n/a" ++ [0]).length ≤ detector.sgtin.length := by
    rw [sized.sgtin]
    decide
  obtain ⟨text, done⟩ := memcpy_fits fits
  unfold Detector.handleStartApp
  rw [sprintf, done]
  split_ifs <;> exact ⟨_, rfl⟩

theorem handleVersion_total {detector : Detector} (sized : Sized detector) (frame : HMFrame) :
    ∃ after, detector.handleVersion frame = some after := by
  obtain ⟨numbers, done⟩ := version_fits sized (frame.data.drop 1)
  unfold Detector.handleVersion
  rw [done]
  split_ifs <;> exact ⟨_, rfl⟩

theorem handleLegacyVersion_total {detector : Detector} (sized : Sized detector)
    (frame : HMFrame) : ∃ after, detector.handleLegacyVersion frame = some after := by
  obtain ⟨numbers, done⟩ := version_fits sized (frame.data.drop 4)
  unfold Detector.handleLegacyVersion
  rw [done]
  split_ifs <;> exact ⟨_, rfl⟩

theorem handleSgtin_total {detector : Detector} (sized : Sized detector) (frame : HMFrame) :
    ∃ after, detector.handleSgtin frame = some after := by
  unfold Detector.handleSgtin
  split
  · rename_i hit
    have length := ackedWith_length hit
    have digits : (hexString (frame.data.drop 1) ++ [0]).length ≤ detector.sgtin.length := by
      rw [sized.sgtin, List.length_append, hexString_length, List.length_drop, length]
      decide
    have numbers : (hexString (frame.data.drop 8) ++ [0]).length ≤ detector.serial.length := by
      rw [sized.serial_length, List.length_append, hexString_length, List.length_drop, length]
      decide
    obtain ⟨text, done⟩ := memcpy_fits digits
    obtain ⟨number, numbered⟩ := memcpy_fits numbers
    simp only [sprintf, done, numbered, Option.bind_eq_bind, Option.bind_some]
    split
    · exact ⟨_, rfl⟩
    · split_ifs <;> exact ⟨_, rfl⟩
    · exact ⟨_, rfl⟩
  · exact ⟨_, rfl⟩

theorem copySerial_total {detector : Detector} (sized : Sized detector) (frame : HMFrame)
    (accepted : Bool) : ∃ after, detector.copySerial frame accepted = some after := by
  unfold Detector.copySerial
  split
  · have fits : ((frame.data.drop 1).take 10).length ≤ detector.serial.length := by
      rw [sized.serial_length, List.length_take]
      omega
    obtain ⟨number, done⟩ := memcpy_fits fits
    rw [done]
    exact ⟨_, rfl⟩
  · exact ⟨_, rfl⟩

/-- Every write stays in its array, whatever the frame holds. -/
theorem handleFrame_total {detector : Detector} (sized : Sized detector) (buffer : List UInt8) :
    ∃ after, detector.handleFrame buffer = some after := by
  unfold Detector.handleFrame
  split
  · exact ⟨_, rfl⟩
  · rename_i frame _
    cases detector.detectState with
    | startApp => exact handleStartApp_total sized frame
    | getVersion => exact handleVersion_total sized frame
    | getSgtin => exact handleSgtin_total sized frame
    | legacyGetVersion => exact handleLegacyVersion_total sized frame
    | getSerial | legacyGetSerial => exact copySerial_total sized frame _
    | _ => exact ⟨_, rfl⟩

theorem known_step {detection after : Detection} (act : DetectAct)
    (held : Sized detection.detector ∧ Known detection.detector)
    (taken : detection.step act = some after) : Sized after.detector ∧ Known after.detector := by
  cases act with
  | frame buffer =>
      rw [Detection.step] at taken
      split at taken
      · cases taken
      · obtain ⟨detector, done, rfl⟩ := Option.map_eq_some_iff.mp taken
        rcases handleFrame_handled done with rfl | ⟨frame, -, handled⟩
        · exact held
        · exact ⟨sized_handled held.1 handled, known_handled held.1 held.2 handled⟩
  | main =>
      have effect := mainStep_effect taken
      exact ⟨sized_main held.1 effect, known_main held.2 effect⟩
  | timeout =>
      have effect := timeoutStep_effect taken
      exact ⟨sized_main held.1 effect, known_main held.2 effect⟩

theorem known_started : Sized started.detector ∧ Known started.detector :=
  ⟨⟨⟨List.replicate 10 0, rfl, rfl⟩, rfl, rfl⟩, .inl rfl⟩

theorem known_reachable {detection : Detection}
    (reached : Reachable Detection.step (fun _ _ => True) (· = started) detection) :
    Sized detection.detector ∧ Known detection.detector := by
  induction reached with
  | start initial =>
      rw [initial]
      exact known_started
  | next act _ _ taken ih => exact known_step act ih taken

def UpperHex (character : UInt8) : Prop :=
  48 ≤ character ∧ character ≤ 57 ∨ 65 ≤ character ∧ character ≤ 70

theorem hexByte_upper (octet : UInt8) : ∀ character ∈ hexByte octet, UpperHex character := by
  intro character member
  have high : octet >>> 4 < 16 := by
    have bound := octet.toNat_lt
    have four : UInt8.toNat 4 % 8 = 4 := rfl
    rw [UInt8.lt_iff_toNat_lt, UInt8.toNat_shiftRight, four, Nat.shiftRight_eq_div_pow]
    change octet.toNat / 2 ^ 4 < 16
    omega
  have low : octet &&& 0xf < 16 := by
    rw [UInt8.lt_iff_toNat_lt, UInt8.toNat_and]
    exact Nat.lt_succ_of_le Nat.and_le_right
  rcases List.mem_cons.mp member with rfl | member
  · exact hexDigit_upper _ high
  · rw [List.mem_singleton.mp member]
    exact hexDigit_upper _ low

theorem hexString_upper (octets : List UInt8) :
    ∀ character ∈ hexString octets, UpperHex character := by
  intro character member
  obtain ⟨octet, -, inside⟩ := List.mem_flatMap.mp member
  exact hexByte_upper octet character inside

/-- In every state of every run a finished dialogue with a supported type has the
identity of the module, and every frame can be handled there. -/
theorem finished_identity {detection : Detection}
    (reached : Reachable Detection.step (fun _ _ => True) (· = started) detection) :
    (∀ buffer, ∃ after, detection.detector.handleFrame buffer = some after) ∧
    (detection.detector.detectState = .finished →
      detection.detector.radioModuleType.supported = true →
      SerialFilled detection.detector ∧
      ((∃ digits, detection.detector.sgtin = digits ++ [0] ∧ digits.length = 24 ∧
          (∀ digit ∈ digits, UpperHex digit) ∧ HexSgtin detection.detector) ∨
        LegacySgtin detection.detector) ∧
      (HasBidcos detection.detector → AddressSet detection.detector.bidCosRadioMAC)) := by
  obtain ⟨sized, held⟩ := known_reachable reached
  refine ⟨handleFrame_total sized, ?_⟩
  intro finished supported
  simp only [Known, finished] at held
  obtain ⟨serial, sgtin, address⟩ := held supported
  refine ⟨serial, ?_, address⟩
  rcases sgtin with hex | legacy
  · left
    obtain ⟨frame, member, length, digits⟩ := hex
    refine ⟨hexString (frame.data.drop 1), digits, ?_, hexString_upper _,
      frame, member, length, digits⟩
    rw [hexString_length, List.length_drop, length]
  · exact .inr legacy

def received (destination command : UInt8) (data : List UInt8) : DetectAct :=
  .frame (HmWire.plain destination 0 (command :: data))

def rpiRfModReplies : List DetectAct :=
  [received hmDstCommon 0 (ascii "HMIP_TRX_Bl"), received hmDstCommon 0 (ascii "DualCoPro_App"),
    received hmDstTrx hmCmdTrxAck [1, 4],
    received hmDstTrx hmCmdTrxAck [1, 4, 4, 16, 0, 0, 0, 0, 0, 0],
    received hmDstHmip hmCmdHmipAck [1, 0x10, 0x20, 0x30],
    received hmDstCommon hmCmdCommonAck
      [1, 0x30, 0x14, 0xf7, 0x11, 0xa0, 0, 0x1f, 0x58, 0xa9, 0xa7, 0xff, 0xff],
    received hmDstLlmac hmCmdLlmacAck [0]]

theorem finished_identity_rpiRfMod :
    ∃ detection, Reachable Detection.step (fun _ _ => True) (· = started) detection ∧
      HasBidcos detection.detector ∧ detection.detector.detectState = .finished ∧
      detection.detector.bidCosRadioMAC = 0xfffffe ∧
      AddressSet detection.detector.bidCosRadioMAC := by
  have ran : ((Transition.run Detection.step (fun _ _ => true) started rpiRfModReplies).map
      fun detection => (detection.detector.radioModuleType, detection.detector.detectState,
        detection.detector.bidCosRadioMAC)) = some (.rpiRfMod, .finished, 0xfffffe) := by
    decide +kernel
  obtain ⟨detection, taken, fields⟩ := Option.map_eq_some_iff.mp ran
  simp only [Prod.mk.injEq] at fields
  obtain ⟨type, finished, address⟩ := fields
  have reached : Reachable Detection.step (fun _ _ => True) (· = started) detection :=
    run_reachable (fun _ _ _ => trivial) rpiRfModReplies (.start rfl) taken
  have supported : detection.detector.radioModuleType.supported = true := by
    rw [type]
    rfl
  exact ⟨detection, reached, .inl type, finished, address,
    ((finished_identity reached).2 finished supported).2.2 (.inl type)⟩

end PiVccu.RadioModuleDialogue
