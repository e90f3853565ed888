import PiVccu.HmFrame
import PiVccu.Transition

/-!
`detect_radio_module/radiomoduledetector.cpp`: the dialogue that identifies a
radio module. The main thread sends a request for the current state and waits
three seconds for the semaphore; the reader thread handles each received frame
and moves the state on. One call of `handleFrame`, one evaluation of a loop
condition, one `switch` of the last loop and one `sem_take` are single steps.
Character arrays are accessed with checks; `none` is a write outside of one or a
step that is not possible.
-/

namespace PiVccu.RadioModuleDetector
open ByteBuffer

def hmDstHmsystem : UInt8 := 0x00
def hmDstTrx : UInt8 := 0x01
def hmDstHmip : UInt8 := 0x02
def hmDstLlmac : UInt8 := 0x03
def hmDstCommon : UInt8 := 0xfe

def hmCmdHmsystemIdentify : UInt8 := 0x00
def hmCmdHmsystemGetVersion : UInt8 := 0x02
def hmCmdHmsystemChangeApp : UInt8 := 0x03
def hmCmdHmsystemAck : UInt8 := 0x04
def hmCmdHmsystemGetSerial : UInt8 := 0x0b

def hmCmdTrxGetVersion : UInt8 := 0x02
def hmCmdTrxAck : UInt8 := 0x04
def hmCmdTrxGetMcuType : UInt8 := 0x09
def hmCmdTrxGetDefaultRfAddr : UInt8 := 0x10

def hmCmdHmipGetDefaultRfAddr : UInt8 := 0x01
def hmCmdHmipAck : UInt8 := 0x06

def hmCmdLlmacAck : UInt8 := 0x01
def hmCmdLlmacGetSerial : UInt8 := 0x07
def hmCmdLlmacGetDefaultRfAddr : UInt8 := 0x08

def hmCmdCommonIdentify : UInt8 := 0x01
def hmCmdCommonStartBl : UInt8 := 0x02
def hmCmdCommonStartApp : UInt8 := 0x03
def hmCmdCommonGetSgtin : UInt8 := 0x04
def hmCmdCommonAck : UInt8 := 0x05

/-- `radio_module_type_t`, with the values that only a cast from a byte gives. -/
inductive RadioModuleType where
  | none
  | hmipRfusb
  | hmModRpiPcb
  | rpiRfMod
  | unknown
  | other (code : UInt8)
deriving DecidableEq

def RadioModuleType.ofByte (code : UInt8) : RadioModuleType :=
  if code = 0 then .none
  else if code = 1 then .hmipRfusb
  else if code = 3 then .hmModRpiPcb
  else if code = 4 then .rpiRfMod
  else if code = 255 then .unknown
  else .other code

inductive DetectState where
  | startBl
  | startApp
  | getMcuType
  | getVersion
  | getHmipRfAddress
  | getSgtin
  | getBidcosRfAddress
  | getSerial
  | legacyGetVersion
  | legacyGetBidcosRfAddress
  | legacyGetSerial
  | finished
deriving DecidableEq

structure Request where
  counter : UInt8
  destination : UInt8
  command : UInt8
deriving DecidableEq

/-- The members of the class. `sent` records the requests and `replies` the
frames that were accepted, each with the state it was accepted in. -/
structure Detector where
  serial : List UInt8
  bidCosRadioMAC : UInt32
  hmIPRadioMAC : UInt32
  sgtin : List UInt8
  firmwareVersion : List UInt8
  radioModuleType : RadioModuleType
  detectState : DetectState
  detectRetryCount : Nat
  detectMsgCounter : Nat
  semaphore : Nat
  sent : List Request
  replies : List (DetectState × HMFrame)

def ascii (text : String) : List UInt8 := text.toList.map fun char => UInt8.ofNat char.toNat

/-- `sprintf` into an array, with the terminating zero. -/
def sprintf (memory text : List UInt8) : Option (List UInt8) := memcpy memory 0 (text ++ [0])

/-- `%02X`. -/
def hexDigit (nibble : UInt8) : UInt8 := if nibble < 10 then 48 + nibble else 55 + nibble

def hexByte (octet : UInt8) : List UInt8 := [hexDigit (octet >>> 4), hexDigit (octet &&& 0xf)]

def hexString (octets : List UInt8) : List UInt8 := octets.flatMap hexByte

/-- Comparing with `strncmp` over the length of a text without zeros. -/
def sameText (data : List UInt8) (text : String) : Bool :=
  data.take text.length == ascii text

/-- The two ways in which a module names its firmware: in an acknowledgement,
behind the status byte, and in a frame of its own. -/
def identified (destination ack status : UInt8) (text : String) (frame : HMFrame) : Bool :=
  (frame.destination == destination && frame.command == ack &&
    frame.data.length == text.length + 1 && frame.data.getD 0 0 == status &&
    sameText (frame.data.drop 1) text) ||
  (frame.destination == destination && frame.command == 0 &&
    frame.data.length == text.length && sameText frame.data text)

def trxBootloader : HMFrame → Bool := identified hmDstCommon hmCmdCommonAck 1 "HMIP_TRX_Bl"
def legacyBootloader : HMFrame → Bool := identified hmDstHmsystem hmCmdHmsystemAck 2 "Co_CPU_BL"
def dualCoProApp : HMFrame → Bool := identified hmDstCommon hmCmdCommonAck 1 "DualCoPro_App"
def hmipTrxApp : HMFrame → Bool := identified hmDstCommon hmCmdCommonAck 1 "HMIP_TRX_App"
def legacyApp : HMFrame → Bool := identified hmDstHmsystem hmCmdHmsystemAck 2 "Co_CPU_App"

def acked (destination ack : UInt8) (length : Nat) (frame : HMFrame) : Bool :=
  frame.destination == destination && frame.command == ack && frame.data.length == length

def ackedWith (destination ack : UInt8) (length : Nat) (status : UInt8) (frame : HMFrame) : Bool :=
  acked destination ack length frame && frame.data.getD 0 0 == status

def addressAt (data : List UInt8) (index : Nat) : UInt32 :=
  ((data.getD index 0).toUInt32 <<< 16) ||| ((data.getD (index + 1) 0).toUInt32 <<< 8) |||
    (data.getD (index + 2) 0).toUInt32

/-- The address that is derived from the last two bytes of the SGTIN. -/
def derivedAddress (data : List UInt8) : UInt32 :=
  let address := (0xff0000 : UInt32) ||| ((data.getD 11 0).toUInt32 <<< 8) ||| (data.getD 12 0).toUInt32
  if address = 0xffffff then 0xfffffe else address

namespace Detector

def sendFrame (detector : Detector) (destination command : UInt8) : Detector :=
  { detector with
    sent := detector.sent ++ [⟨UInt8.ofNat detector.detectMsgCounter, destination, command⟩]
    detectMsgCounter := detector.detectMsgCounter + 1 }

def proceed (detector : Detector) (frame : HMFrame) (next : DetectState) : Detector :=
  { detector with
    detectState := next
    semaphore := detector.semaphore + 1
    replies := detector.replies ++ [(detector.detectState, frame)] }

def handleStartBl (detector : Detector) (frame : HMFrame) : Detector :=
  if trxBootloader frame || legacyBootloader frame then
    { detector with radioModuleType := .unknown }.proceed frame .startApp
  else if dualCoProApp frame || hmipTrxApp frame then
    { detector with radioModuleType := .unknown }.sendFrame hmDstCommon hmCmdCommonStartBl
  else if legacyApp frame then
    { detector with radioModuleType := .unknown }.sendFrame hmDstHmsystem hmCmdHmsystemChangeApp
  else detector

def handleStartApp (detector : Detector) (frame : HMFrame) : Option Detector :=
  if trxBootloader frame then some (detector.sendFrame hmDstCommon hmCmdCommonStartApp)
  else if legacyBootloader frame then
    some (detector.sendFrame hmDstHmsystem hmCmdHmsystemChangeApp)
  else if dualCoProApp frame || hmipTrxApp frame then some (detector.proceed frame .getMcuType)
  else if legacyApp frame then do
    let sgtin ← sprintf detector.sgtin (ascii "n/a")
    return { detector with
      sgtin := sgtin, hmIPRadioMAC := 0, radioModuleType := .hmModRpiPcb }.proceed frame
        .legacyGetVersion
  else some detector

def handleMcuType (detector : Detector) (frame : HMFrame) : Detector :=
  if ackedWith hmDstTrx hmCmdTrxAck 2 1 frame then
    { detector with radioModuleType := .ofByte (frame.data.getD 1 0) }.proceed frame .getVersion
  else detector

def handleVersion (detector : Detector) (frame : HMFrame) : Option Detector :=
  if ackedWith hmDstTrx hmCmdTrxAck 10 1 frame then do
    let version ← memcpy detector.firmwareVersion 0 ((frame.data.drop 1).take 3)
    return { detector with firmwareVersion := version }.proceed frame .getHmipRfAddress
  else some detector

def handleHmipRfAddress (detector : Detector) (frame : HMFrame) : Detector :=
  if ackedWith hmDstHmip hmCmdHmipAck 4 1 frame then
    { detector with hmIPRadioMAC := addressAt frame.data 1 }.proceed frame .getSgtin
  else detector

def handleSgtin (detector : Detector) (frame : HMFrame) : Option Detector :=
  if ackedWith hmDstCommon hmCmdCommonAck 13 1 frame then do
    let sgtin ← sprintf detector.sgtin (hexString (frame.data.drop 1))
    let detector := { detector with sgtin := sgtin }
    match detector.radioModuleType with
    | .rpiRfMod =>
        let serial ← sprintf detector.serial (hexString (frame.data.drop 8))
        return { detector with
          serial := serial
          bidCosRadioMAC := derivedAddress frame.data }.proceed frame .getBidcosRfAddress
    | .hmipRfusb =>
        let serial ← sprintf detector.serial (hexString (frame.data.drop 8))
        if detector.firmwareVersion.getD 0 0 < 4 then
          return { detector with serial := serial, bidCosRadioMAC := 0 }.proceed frame .finished
        else
          return { detector with
            serial := serial
            bidCosRadioMAC := derivedAddress frame.data }.proceed frame .getBidcosRfAddress
    | _ => return detector.proceed frame .getBidcosRfAddress
  else some detector

def handleBidcosRfAddress (detector : Detector) (frame : HMFrame) : Detector :=
  if ackedWith hmDstLlmac hmCmdLlmacAck 4 1 frame then
    let radioMac := addressAt frame.data 1
    let mac := if radioMac ≠ 0 ∧ radioMac &&& 0xffff ≠ 0xffff then radioMac
      else detector.bidCosRadioMAC
    let next := match detector.radioModuleType with
      | .hmModRpiPcb => DetectState.getSerial
      | _ => .finished
    { detector with bidCosRadioMAC := mac }.proceed frame next
  else if ackedWith hmDstLlmac hmCmdLlmacAck 1 0 frame then
    let next := match detector.radioModuleType with
      | .rpiRfMod | .hmipRfusb => DetectState.finished
      | _ => detector.detectState
    detector.proceed frame next
  else detector

def copySerial (detector : Detector) (frame : HMFrame) (accepted : Bool) : Option Detector :=
  if accepted then do
    let serial ← memcpy detector.serial 0 ((frame.data.drop 1).take 10)
    return { detector with serial := serial }.proceed frame .finished
  else some detector

def handleSerial (detector : Detector) (frame : HMFrame) : Option Detector :=
  detector.copySerial frame (ackedWith hmDstLlmac hmCmdLlmacAck 11 1 frame)

def handleLegacyVersion (detector : Detector) (frame : HMFrame) : Option Detector :=
  if ackedWith hmDstHmsystem hmCmdHmsystemAck 7 2 frame then do
    let version ← memcpy detector.firmwareVersion 0 ((frame.data.drop 4).take 3)
    return { detector with firmwareVersion := version }.proceed frame .legacyGetBidcosRfAddress
  else some detector

-- Here the status byte is not looked at.
def handleLegacyBidcosRfAddress (detector : Detector) (frame : HMFrame) : Detector :=
  if acked hmDstTrx hmCmdTrxAck 6 frame then
    { detector with bidCosRadioMAC := addressAt frame.data 3 }.proceed frame .legacyGetSerial
  else detector

def handleLegacySerial (detector : Detector) (frame : HMFrame) : Option Detector :=
  detector.copySerial frame (ackedWith hmDstHmsystem hmCmdHmsystemAck 11 2 frame)

def handleFrame (detector : Detector) (buffer : List UInt8) : Option Detector :=
  match HMFrame.tryParse buffer (UInt16.ofNat buffer.length) with
  | none => some detector
  | some frame =>
      match detector.detectState with
      | .startBl => some (detector.handleStartBl frame)
      | .startApp => detector.handleStartApp frame
      | .getMcuType => some (detector.handleMcuType frame)
      | .getVersion => detector.handleVersion frame
      | .getHmipRfAddress => some (detector.handleHmipRfAddress frame)
      | .getSgtin => detector.handleSgtin frame
      | .getBidcosRfAddress => some (detector.handleBidcosRfAddress frame)
      | .getSerial => detector.handleSerial frame
      | .legacyGetVersion => detector.handleLegacyVersion frame
      | .legacyGetBidcosRfAddress => some (detector.handleLegacyBidcosRfAddress frame)
      | .legacyGetSerial => detector.handleLegacySerial frame
      | .finished => some detector

def request (detector : Detector) : Detector :=
  match detector.detectState with
  | .startBl | .startApp => { detector with detectState := .finished }
  | .getMcuType => detector.sendFrame hmDstTrx hmCmdTrxGetMcuType
  | .getVersion => detector.sendFrame hmDstTrx hmCmdTrxGetVersion
  | .getHmipRfAddress => detector.sendFrame hmDstHmip hmCmdHmipGetDefaultRfAddr
  | .getSgtin => detector.sendFrame hmDstCommon hmCmdCommonGetSgtin
  | .getBidcosRfAddress => detector.sendFrame hmDstLlmac hmCmdLlmacGetDefaultRfAddr
  | .getSerial => detector.sendFrame hmDstLlmac hmCmdLlmacGetSerial
  | .legacyGetVersion => detector.sendFrame hmDstHmsystem hmCmdHmsystemGetVersion
  | .legacyGetBidcosRfAddress => detector.sendFrame hmDstTrx hmCmdTrxGetDefaultRfAddr
  | .legacyGetSerial => detector.sendFrame hmDstHmsystem hmCmdHmsystemGetSerial
  | .finished => detector

end Detector

/-- Where `detectRadioModule` stands: in each of the first two loops at the
condition, in the body and at the two waits; in the last loop at the `switch`, at
the test for the final state and at the wait; behind the loop; and returned, with
the frame handler removed. -/
inductive MainPhase where
  | blCheck
  | blBody
  | blWaitCommon
  | blWaitHmsystem
  | appCheck
  | appBody
  | appWaitCommon
  | appWaitHmsystem
  | switching
  | checking
  | waiting
  | ended
  | returned
deriving DecidableEq

structure Detection where
  detector : Detector
  phase : MainPhase

inductive DetectAct where
  | frame (buffer : List UInt8)
  | main
  | timeout

namespace Detection

def taken (detection : Detection) (next : MainPhase) : Option Detection :=
  if detection.detector.semaphore = 0 then none
  else some ⟨{ detection.detector with semaphore := detection.detector.semaphore - 1 }, next⟩

def mainStep (detection : Detection) : Option Detection :=
  let detector := detection.detector
  match detection.phase with
  | .blCheck =>
      if detector.detectState = .startBl ∧ detector.detectRetryCount < 3 then
        some ⟨detector, .blBody⟩
      else some ⟨{ detector with detectRetryCount := 0 }, .appCheck⟩
  | .blBody =>
      some ⟨{ detector with radioModuleType := .none }.sendFrame hmDstCommon hmCmdCommonIdentify,
        .blWaitCommon⟩
  | .blWaitCommon | .blWaitHmsystem => detection.taken .blCheck
  | .appCheck =>
      if detector.detectState = .startApp ∧ detector.detectRetryCount < 3 then
        some ⟨detector, .appBody⟩
      else some ⟨detector, .switching⟩
  | .appBody => some ⟨detector.sendFrame hmDstCommon hmCmdCommonIdentify, .appWaitCommon⟩
  | .appWaitCommon | .appWaitHmsystem => detection.taken .appCheck
  | .switching => some ⟨detector.request, .checking⟩
  | .checking =>
      if detector.detectState = .finished then some ⟨detector, .ended⟩
      else some ⟨detector, .waiting⟩
  | .waiting => detection.taken .switching
  | .ended => some ⟨detector, .returned⟩
  | .returned => none

def timeoutStep (detection : Detection) : Option Detection :=
  let detector := detection.detector
  if detector.semaphore ≠ 0 then none
  else match detection.phase with
  | .blWaitCommon =>
      some ⟨detector.sendFrame hmDstHmsystem hmCmdHmsystemIdentify, .blWaitHmsystem⟩
  | .appWaitCommon =>
      some ⟨detector.sendFrame hmDstHmsystem hmCmdHmsystemIdentify, .appWaitHmsystem⟩
  | .blWaitHmsystem =>
      some ⟨{ detector with detectRetryCount := detector.detectRetryCount + 1 }, .blCheck⟩
  | .appWaitHmsystem =>
      some ⟨{ detector with detectRetryCount := detector.detectRetryCount + 1 }, .appCheck⟩
  | .waiting => some ⟨detector, .ended⟩
  | _ => none

def step (detection : Detection) : DetectAct → Option Detection
  | .frame buffer =>
      if detection.phase = .returned then none
      else (detection.detector.handleFrame buffer).map fun detector => ⟨detector, detection.phase⟩
  | .main => detection.mainStep
  | .timeout => detection.timeoutStep

end Detection

/-- The detector when `detectRadioModule` has installed its frame handler. -/
def started : Detection where
  detector :=
    { serial := List.replicate 11 0
      bidCosRadioMAC := 0
      hmIPRadioMAC := 0
      sgtin := List.replicate 25 0
      firmwareVersion := List.replicate 3 0
      radioModuleType := .none
      detectState := .startBl
      detectRetryCount := 0
      detectMsgCounter := 0
      semaphore := 0
      sent := []
      replies := [] }
  phase := .blCheck

inductive Report where
  | module (moduleType : String) (serial sgtin : List UInt8) (bidCosRadioMAC hmIPRadioMAC : UInt32)
      (firmwareVersion : List UInt8)
  | notDetected
  | notResponding
  | notSupported (code : UInt8)

def Report.exitCode : Report → Int
  | .module _ _ _ _ _ _ => 0
  | _ => -1

def cString (memory : List UInt8) : List UInt8 := memory.takeWhile (· ≠ 0)

def mainReport (detector : Detector) : Report :=
  let line moduleType := Report.module moduleType (cString detector.serial) (cString detector.sgtin)
    detector.bidCosRadioMAC detector.hmIPRadioMAC detector.firmwareVersion
  match detector.radioModuleType with
  | .hmipRfusb =>
      line (if ascii "3014F5AC" <+: cString detector.sgtin then "HMIP-RFUSB-TK" else "HMIP-RFUSB")
  | .hmModRpiPcb => line "HM-MOD-RPI-PCB"
  | .rpiRfMod => line "RPI-RF-MOD"
  | .none => .notDetected
  | .unknown => .notResponding
  | .other code => .notSupported code

def RadioModuleType.supported : RadioModuleType → Bool
  | .hmipRfusb | .hmModRpiPcb | .rpiRfMod => true
  | _ => false

theorem exitCode_zero_iff (detector : Detector) :
    (mainReport detector).exitCode = 0 ↔ detector.radioModuleType.supported = true := by
  cases type : detector.radioModuleType <;>
    simp [mainReport, type, Report.exitCode, RadioModuleType.supported]

end PiVccu.RadioModuleDetector
