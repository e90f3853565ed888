import PiVccu.AnswerStream
import PiVccu.RadioModuleOutcome

/-!
The dialogue of `detect_radio_module` with the module that `kernel/fake_hmrf.c`
simulates, seen from the detector: which answers its requests have, what each of them
does in each state, and what the members hold behind it.
-/

namespace PiVccu.FakeDialogue
open FakeHmrf FakeHmrfRead AnswerStream RadioModuleDetector RadioModuleDialogue
open FakeHmrfWrite hiding hmDstTrx hmDstHmip hmDstLlmac hmDstCommon

def identification : List (UInt8 × Response) :=
  [(hmDstSystem, systemIdentifyResponse),
    (hmDstSystem, systemStartAppResponse),
    (FakeHmrfWrite.hmDstCommon, commonIdentifyResponse),
    (FakeHmrfWrite.hmDstCommon, commonStartBlResponse)]

theorem mcuType_fits : ([0x04, 0x01, 0x03] : List UInt8).length ≤ 68 := by decide

def inquiries (parameters : Parameters) : List (UInt8 × Response) :=
  [(FakeHmrfWrite.hmDstTrx, ⟨[0x04, 0x01, 0x03], mcuType_fits⟩),
    (FakeHmrfWrite.hmDstTrx, trxGetVersionResponse parameters),
    (FakeHmrfWrite.hmDstHmip, hmipGetDefaultRfAddressResponse parameters),
    (FakeHmrfWrite.hmDstCommon, commonGetSgtinResponse),
    (FakeHmrfWrite.hmDstLlmac, llmacGetDefaultRfAddressResponse parameters),
    (FakeHmrfWrite.hmDstLlmac, llmacGetSerialResponse parameters)]

def identifies : List (UInt8 × UInt8) :=
  [(hmDstCommon, hmCmdCommonIdentify),
    (hmDstHmsystem, hmCmdHmsystemIdentify),
    (hmDstCommon, hmCmdCommonStartBl),
    (hmDstCommon, hmCmdCommonStartApp),
    (hmDstHmsystem, hmCmdHmsystemChangeApp)]

def inquires : List (UInt8 × UInt8) :=
  [(hmDstTrx, hmCmdTrxGetMcuType),
    (hmDstTrx, hmCmdTrxGetVersion),
    (hmDstHmip, hmCmdHmipGetDefaultRfAddr),
    (hmDstCommon, hmCmdCommonGetSgtin),
    (hmDstLlmac, hmCmdLlmacGetDefaultRfAddr),
    (hmDstLlmac, hmCmdLlmacGetSerial),
    (hmDstHmsystem, hmCmdHmsystemGetVersion),
    (hmDstTrx, hmCmdTrxGetDefaultRfAddr),
    (hmDstHmsystem, hmCmdHmsystemGetSerial)]

/-- No parameter holds the byte that starts a frame. -/
structure Clean (parameters : Parameters) : Prop where
  serial : 0xfd ∉ parameters.boardSerial
  mac : 0xfd ∉ parameters.radioMac
  version : 0xfd ∉ parameters.firmwareVersion

theorem identifies_answer (device : Device) {dst command : UInt8} {response : Response}
    (asked : (dst, command) ∈ identifies)
    (answered : (answer device dst command).2 = some response) :
    (dst, response) ∈ identification := by
  simp only [identifies, List.mem_cons, Prod.mk.injEq, List.not_mem_nil, or_false] at asked
  rcases asked with ⟨rfl, rfl⟩ | ⟨rfl, rfl⟩ | ⟨rfl, rfl⟩ | ⟨rfl, rfl⟩ | ⟨rfl, rfl⟩
  · have given : (if device.isInBl then none else some commonIdentifyResponse) = some response :=
      answered
    split at given
    · cases given
    · cases given
      exact .tail _ (.tail _ (.head _))
  · have given : (if device.isInBl then some systemIdentifyResponse else none) = some response :=
      answered
    split at given
    · cases given
      exact .head _
    · cases given
  · have given : some commonStartBlResponse = some response := answered
    cases given
    exact .tail _ (.tail _ (.tail _ (.head _)))
  · have given : none = some response := answered
    cases given
  · have given : some systemStartAppResponse = some response := answered
    cases given
    exact .tail _ (.head _)

theorem inquires_answer (device : Device) {dst command : UInt8} {response : Response}
    (asked : (dst, command) ∈ inquires)
    (answered : (answer device dst command).2 = some response) :
    (dst, response) ∈ inquiries device.parameters := by
  simp only [inquires, List.mem_cons, Prod.mk.injEq, List.not_mem_nil, or_false] at asked
  have only : ∀ {given : Response}, some given = some response →
      (dst, given) ∈ inquiries device.parameters →
      (dst, response) ∈ inquiries device.parameters := by
    intro given same member
    cases same
    exact member
  rcases asked with ⟨rfl, rfl⟩ | ⟨rfl, rfl⟩ | ⟨rfl, rfl⟩ | ⟨rfl, rfl⟩ | ⟨rfl, rfl⟩ | ⟨rfl, rfl⟩ |
    ⟨rfl, rfl⟩ | ⟨rfl, rfl⟩ | ⟨rfl, rfl⟩
  · exact only answered (.head _)
  · exact only answered (.tail _ (.head _))
  · exact only answered (.tail _ (.tail _ (.head _)))
  · exact only answered (.tail _ (.tail _ (.tail _ (.head _))))
  · exact only answered (.tail _ (.tail _ (.tail _ (.tail _ (.head _)))))
  · exact only answered (.tail _ (.tail _ (.tail _ (.tail _ (.tail _ (.head _))))))
  · have given : none = some response := answered
    cases given
  · have given : none = some response := answered
    cases given
  · have given : none = some response := answered
    cases given

theorem answers_plain {parameters : Parameters} (clean : Clean parameters) {dst : UInt8}
    {response : Response} (member : (dst, response) ∈ identification ++ inquiries parameters) :
    dst ≠ 0xfd ∧ Plain response.val := by
  have serial := clean.serial
  have mac := clean.mac
  have version := clean.version
  have short := response.property
  simp only [identification, inquiries, List.cons_append, List.nil_append, List.mem_cons,
    Prod.mk.injEq, List.not_mem_nil, or_false] at member
  rcases member with ⟨rfl, rfl⟩ | ⟨rfl, rfl⟩ | ⟨rfl, rfl⟩ | ⟨rfl, rfl⟩ | ⟨rfl, rfl⟩ | ⟨rfl, rfl⟩ |
    ⟨rfl, rfl⟩ | ⟨rfl, rfl⟩ | ⟨rfl, rfl⟩ | ⟨rfl, rfl⟩
  all_goals
    refine ⟨by decide, ⟨⟨_, _, _, rfl, by decide, by decide⟩, ?_, short⟩⟩
  · decide
  · decide
  · decide
  · decide
  · decide
  · simp [trxGetVersionResponse, version]
  · simp [hmipGetDefaultRfAddressResponse, mac]
  · decide
  · simp [llmacGetDefaultRfAddressResponse, mac]
  · simp [llmacGetSerialResponse, serial]

/-- What the detector may send: an inquiry in the last loop only. -/
def Permitted (asking : Prop) (request : Request) : Prop :=
  (request.destination, request.command) ∈ identifies ∨
    asking ∧ (request.destination, request.command) ∈ inquires

def ownAddress (parameters : Parameters) : UInt32 := addressAt (0x01 :: parameters.radioMac) 1

/-- An address that is not one is not taken over. -/
def ownBidCosAddress (parameters : Parameters) : UInt32 :=
  if ownAddress parameters ≠ 0 ∧ ownAddress parameters &&& 0xffff ≠ 0xffff then
    ownAddress parameters
  else 0

def ownSgtin : List UInt8 := hexString (commonGetSgtinResponse.val.drop 2)

/-- After `count` inquiries: the members asked for hold what the module has, the others
their first values. -/
structure KnownTo (parameters : Parameters) (count : Nat) (detector : Detector) : Prop where
  type : if 1 ≤ count then detector.radioModuleType = .hmModRpiPcb
    else detector.radioModuleType = .none ∨ detector.radioModuleType = .unknown
  version : detector.firmwareVersion =
    if 2 ≤ count then parameters.firmwareVersion else List.replicate 3 0
  hmip : detector.hmIPRadioMAC = if 3 ≤ count then ownAddress parameters else 0
  sgtin : detector.sgtin = if 4 ≤ count then ownSgtin ++ [0] else List.replicate 25 0
  bidCos : detector.bidCosRadioMAC = if 5 ≤ count then ownBidCosAddress parameters else 0
  serial : detector.serial =
    if 6 ≤ count then parameters.boardSerial ++ [0] else List.replicate 11 0

/-- How many inquiries have been answered in a state of the dialogue. A finished one has
been given up before the first or has got all of them. -/
def answered : DetectState → List Nat
  | .startBl | .startApp | .getMcuType => [0]
  | .getVersion => [1]
  | .getHmipRfAddress => [2]
  | .getSgtin => [3]
  | .getBidcosRfAddress => [4]
  | .getSerial => [5]
  | .finished => [0, 6]
  | .legacyGetVersion | .legacyGetBidcosRfAddress | .legacyGetSerial => []

def Learnt (parameters : Parameters) (detector : Detector) : Prop :=
  ∃ count ∈ answered detector.detectState, KnownTo parameters count detector

theorem Learnt.sized {parameters : Parameters} {detector : Detector} (learnt : Learnt parameters detector) :
    Sized detector := by
  obtain ⟨count, -, known⟩ := learnt
  refine ⟨?_, ?_, ?_⟩
  · rw [known.serial]
    split
    · exact ⟨parameters.boardSerial, rfl, parameters.serialSized⟩
    · exact ⟨List.replicate 10 0, rfl, rfl⟩
  · rw [known.sgtin]
    split
    · rfl
    · rfl
  · rw [known.version]
    split
    · exact parameters.versionSized
    · rfl

/-- What `main` prints for the module: all that its parameters say. -/
def ownReport (parameters : Parameters) : Report :=
  .module "HM-MOD-RPI-PCB" (cString (parameters.boardSerial ++ [0])) ownSgtin
    (ownBidCosAddress parameters) (ownAddress parameters) parameters.firmwareVersion

theorem cString_ownSgtin : cString (ownSgtin ++ [0]) = ownSgtin := by decide

def reportTo (parameters : Parameters) (count : Nat) : Report :=
  .module "HM-MOD-RPI-PCB" (if 6 ≤ count then cString (parameters.boardSerial ++ [0]) else [])
    (if 4 ≤ count then ownSgtin else []) (if 5 ≤ count then ownBidCosAddress parameters else 0)
    (if 3 ≤ count then ownAddress parameters else 0)
    (if 2 ≤ count then parameters.firmwareVersion else List.replicate 3 0)

theorem reportTo_all (parameters : Parameters) : reportTo parameters 6 = ownReport parameters := rfl

theorem KnownTo.report {parameters : Parameters} {count : Nat} {detector : Detector}
    (known : KnownTo parameters count detector) (some : 1 ≤ count) :
    mainReport detector = reportTo parameters count := by
  have type := known.type
  rw [if_pos some] at type
  have serial : cString detector.serial =
      if 6 ≤ count then cString (parameters.boardSerial ++ [0]) else [] := by
    rw [known.serial]
    split <;> rfl
  have sgtin : cString detector.sgtin = if 4 ≤ count then ownSgtin else [] := by
    rw [known.sgtin]
    split
    · exact cString_ownSgtin
    · rfl
  simp only [mainReport, type, serial, sgtin, known.version, known.hmip, known.bidCos, reportTo]

theorem KnownTo.unreported {parameters : Parameters} {detector : Detector}
    (known : KnownTo parameters 0 detector) :
    mainReport detector = .notDetected ∨ mainReport detector = .notResponding := by
  have type : detector.radioModuleType = .none ∨ detector.radioModuleType = .unknown := known.type
  rcases type with type | type
  · exact .inl (by rw [mainReport, type])
  · exact .inr (by rw [mainReport, type])

def Early (state : DetectState) : Prop := state = .startBl ∨ state = .startApp ∨ state = .getMcuType

def Asking (phase : MainPhase) : Prop := phase = .switching ∨ RadioModuleOutcome.Late phase

def Told (parameters : Parameters) (asking : Prop) (frame : HMFrame) : Prop :=
  ∃ response : Response, frame.cmd = response.val ∧
    ((frame.destination, response) ∈ identification ∨
      asking ∧ (frame.destination, response) ∈ inquiries parameters)

section Told
variable {parameters : Parameters} {asking : Prop} {frame : HMFrame}

theorem Told.cases (told : Told parameters asking frame) :
    (frame.destination = 0x00 ∧ frame.command = 0x04 ∧
        (frame.data = 0x02 :: ascii "Co_CPU_BL" ∨ frame.data = [0x01])) ∨
      (frame.destination = 0xfe ∧ frame.command = 0x05 ∧
        (frame.data = 0x01 :: ascii "DualCoPro_App" ∨ frame.data = [0x01])) ∨
      asking ∧
        (frame.destination = 0x01 ∧ frame.command = 0x04 ∧ (frame.data = [0x01, 0x03] ∨
            frame.data = 0x01 :: (parameters.firmwareVersion ++
              [0x01, 0x00, 0x03, 0x01, 0x14, 0x03])) ∨
          frame.destination = 0x02 ∧ frame.command = 0x06 ∧
            frame.data = 0x01 :: parameters.radioMac ∨
          frame.destination = 0xfe ∧ frame.command = 0x05 ∧
            frame.data = commonGetSgtinResponse.val.drop 1 ∨
          frame.destination = 0x03 ∧ frame.command = 0x01 ∧
            (frame.data = 0x01 :: parameters.radioMac ∨
              frame.data = 0x01 :: parameters.boardSerial)) := by
  obtain ⟨response, cmd, listed⟩ := told
  rw [HMFrame.cmd] at cmd
  simp only [identification, inquiries, List.mem_cons, Prod.mk.injEq, List.not_mem_nil,
    or_false] at listed
  rcases listed with (⟨dst, rfl⟩ | ⟨dst, rfl⟩ | ⟨dst, rfl⟩ | ⟨dst, rfl⟩) |
    ⟨late, ⟨dst, rfl⟩ | ⟨dst, rfl⟩ | ⟨dst, rfl⟩ | ⟨dst, rfl⟩ | ⟨dst, rfl⟩ | ⟨dst, rfl⟩⟩
  all_goals obtain ⟨command, data⟩ := List.cons.inj cmd
  · exact .inl ⟨dst, command, .inl data⟩
  · exact .inl ⟨dst, command, .inr data⟩
  · exact .inr (.inl ⟨dst, command, .inl data⟩)
  · exact .inr (.inl ⟨dst, command, .inr data⟩)
  · exact .inr (.inr ⟨late, .inl ⟨dst, command, .inl data⟩⟩)
  · exact .inr (.inr ⟨late, .inl ⟨dst, command, .inr data⟩⟩)
  · exact .inr (.inr ⟨late, .inr (.inl ⟨dst, command, data⟩)⟩)
  · exact .inr (.inr ⟨late, .inr (.inr (.inl ⟨dst, command, data⟩))⟩)
  · exact .inr (.inr ⟨late, .inr (.inr (.inr ⟨dst, command, .inl data⟩))⟩)
  · exact .inr (.inr ⟨late, .inr (.inr (.inr ⟨dst, command, .inr data⟩))⟩)

/-- Which answer an acknowledgement is, by its address and the number of its data bytes. -/
theorem Told.acked (told : Told parameters asking frame) {destination ack : UInt8} {length : Nat}
    (hit : acked destination ack length frame = true) (several : length ≠ 1)
    (named : length ≠ 10 ∨ destination ≠ 0x00) (spelled : length ≠ 14) :
    asking ∧
      (destination = 0x01 ∧ length = 2 ∧ frame.data = [0x01, 0x03] ∨
        destination = 0x01 ∧ length = 10 ∧ frame.data = 0x01 :: (parameters.firmwareVersion ++
          [0x01, 0x00, 0x03, 0x01, 0x14, 0x03]) ∨
        destination = 0x02 ∧ length = 4 ∧ frame.data = 0x01 :: parameters.radioMac ∨
        destination = 0xfe ∧ length = 13 ∧ frame.data = commonGetSgtinResponse.val.drop 1 ∨
        destination = 0x03 ∧ length = 4 ∧ frame.data = 0x01 :: parameters.radioMac ∨
        destination = 0x03 ∧ length = 11 ∧ frame.data = 0x01 :: parameters.boardSerial) := by
  simp only [RadioModuleDetector.acked, Bool.and_eq_true, beq_iff_eq] at hit
  obtain ⟨⟨address, -⟩, size⟩ := hit
  have macSized := parameters.macSized
  have serialSized := parameters.serialSized
  have versionSized := parameters.versionSized
  rcases told.cases with ⟨dst, -, data | data⟩ | ⟨dst, -, data | data⟩ | ⟨late, rest⟩
  · rw [data] at size
    rw [← address, dst] at named
    exact absurd size.symm (named.resolve_right (fun no => no rfl))
  · rw [data] at size
    exact absurd size.symm several
  · rw [data] at size
    exact absurd size.symm spelled
  · rw [data] at size
    exact absurd size.symm several
  · refine ⟨late, ?_⟩
    rcases rest with ⟨dst, -, data | data⟩ | ⟨dst, -, data⟩ | ⟨dst, -, data⟩ |
      ⟨dst, -, data | data⟩
    all_goals rw [dst] at address
    · exact .inl ⟨address.symm, by rw [← size, data]; rfl, data⟩
    · exact .inr (.inl ⟨address.symm, by rw [← size, data]; simp [versionSized], data⟩)
    · exact .inr (.inr (.inl ⟨address.symm, by rw [← size, data]; simp [macSized], data⟩))
    · exact .inr (.inr (.inr (.inl ⟨address.symm, by rw [← size, data]; rfl, data⟩)))
    · exact .inr (.inr (.inr (.inr (.inl ⟨address.symm, by rw [← size, data]; simp [macSized],
        data⟩))))
    · exact .inr (.inr (.inr (.inr (.inr ⟨address.symm, by rw [← size, data]; simp [serialSized],
        data⟩))))

/-- The module never names the application of the old firmware. -/
theorem Told.not_legacyApp (told : Told parameters asking frame) : legacyApp frame = false := by
  rw [legacyApp, identified]
  rcases told.cases with ⟨dst, command, data | data⟩ | ⟨dst, command, data | data⟩ | ⟨-, rest⟩
  · simp only [dst, command, data]
    decide
  · simp only [dst, command, data]
    decide
  · simp only [dst, command]
    rfl
  · simp only [dst, command]
    rfl
  · rcases rest with ⟨dst, command, -⟩ | ⟨dst, command, -⟩ | ⟨dst, command, -⟩ | ⟨dst, command, -⟩
    all_goals
      simp only [dst, command]
      rfl

end Told

/-- What a step does to the dialogue: it stays on what the module has said, reaches the
inquiries only in the last loop, and sends what is permitted there. -/
structure Progress (parameters : Parameters) (asking : Prop) (detector after : Detector) : Prop where
  learnt : Learnt parameters after
  early : ¬ asking → Early after.detectState
  sent : ∃ requests, after.sent = detector.sent ++ requests ∧
    ∀ request ∈ requests, Permitted asking request

section Handlers
variable {parameters : Parameters} {asking : Prop} {frame : HMFrame} {detector after : Detector}

theorem progress_unsent (learnt : Learnt parameters after)
    (early : ¬ asking → Early after.detectState) (same : after.sent = detector.sent) :
    Progress parameters asking detector after :=
  ⟨learnt, early, [], by rw [same, List.append_nil], nofun⟩

theorem progress_ignored (learnt : Learnt parameters detector)
    (early : ¬ asking → Early detector.detectState) :
    Progress parameters asking detector detector :=
  progress_unsent learnt early rfl

theorem Learnt.known {count : Nat} (learnt : Learnt parameters detector)
    (only : answered detector.detectState = [count]) : KnownTo parameters count detector := by
  obtain ⟨known, member, told⟩ := learnt
  rw [only, List.mem_singleton] at member
  rwa [member] at told

theorem progress_asked (known : KnownTo parameters 0 after) (early : Early after.detectState)
    {destination command : UInt8} (asked : (destination, command) ∈ identifies)
    (sent : ∃ counter, after.sent = detector.sent ++ [⟨counter, destination, command⟩]) :
    Progress parameters asking detector after := by
  obtain ⟨counter, sent⟩ := sent
  refine ⟨⟨0, ?_, known⟩, fun _ => early, _, sent, ?_⟩
  · rcases early with state | state | state
    all_goals
      rw [state]
      exact List.mem_singleton_self 0
  · intro request member
    cases List.mem_singleton.mp member
    exact .inl asked

theorem progress_startBl (state : detector.detectState = .startBl)
    (known : KnownTo parameters 0 detector) :
    Progress parameters asking detector (detector.handleStartBl frame) := by
  have early : Early detector.detectState := .inl state
  have unknown : KnownTo parameters 0 { detector with radioModuleType := .unknown } :=
    ⟨.inr rfl, known.version, known.hmip, known.sgtin, known.bidCos, known.serial⟩
  unfold Detector.handleStartBl
  split
  · refine progress_unsent ⟨0, List.mem_singleton_self 0, ?_⟩ (fun _ => .inr (.inl rfl)) rfl
    exact ⟨unknown.type, unknown.version, unknown.hmip, unknown.sgtin, unknown.bidCos,
      unknown.serial⟩
  · split
    · exact progress_asked ⟨unknown.type, unknown.version, unknown.hmip, unknown.sgtin,
        unknown.bidCos, unknown.serial⟩ early (by decide : (hmDstCommon, hmCmdCommonStartBl) ∈ _)
        ⟨_, rfl⟩
    · split
      · exact progress_asked ⟨unknown.type, unknown.version, unknown.hmip, unknown.sgtin,
          unknown.bidCos, unknown.serial⟩ early
          (by decide : (hmDstHmsystem, hmCmdHmsystemChangeApp) ∈ _) ⟨_, rfl⟩
      · exact progress_ignored ⟨0, by rw [state]; exact List.mem_singleton_self 0, known⟩
          fun _ => early

theorem progress_startApp (state : detector.detectState = .startApp)
    (known : KnownTo parameters 0 detector) (told : Told parameters asking frame)
    (done : detector.handleStartApp frame = some after) :
    Progress parameters asking detector after := by
  have early : Early detector.detectState := .inr (.inl state)
  have same : ∀ {other : Detector}, other.radioModuleType = detector.radioModuleType →
      other.firmwareVersion = detector.firmwareVersion →
      other.hmIPRadioMAC = detector.hmIPRadioMAC → other.sgtin = detector.sgtin →
      other.bidCosRadioMAC = detector.bidCosRadioMAC → other.serial = detector.serial →
      KnownTo parameters 0 other := by
    intro other type version hmip sgtin bidCos serial
    exact ⟨by rw [type]; exact known.type, version.trans known.version, hmip.trans known.hmip,
      sgtin.trans known.sgtin, bidCos.trans known.bidCos, serial.trans known.serial⟩
  unfold Detector.handleStartApp at done
  rw [told.not_legacyApp] at done
  split at done
  · cases done
    exact progress_asked (same rfl rfl rfl rfl rfl rfl) early
      (by decide : (hmDstCommon, hmCmdCommonStartApp) ∈ _) ⟨_, rfl⟩
  · split at done
    · cases done
      exact progress_asked (same rfl rfl rfl rfl rfl rfl) early
        (by decide : (hmDstHmsystem, hmCmdHmsystemChangeApp) ∈ _) ⟨_, rfl⟩
    · split at done
      · cases done
        exact progress_unsent ⟨0, List.mem_singleton_self 0, same rfl rfl rfl rfl rfl rfl⟩
          (fun _ => .inr (.inr rfl)) rfl
      · cases done
        exact progress_ignored ⟨0, by rw [state]; exact List.mem_singleton_self 0, known⟩
          fun _ => early

theorem progress_mcuType (state : detector.detectState = .getMcuType)
    (known : KnownTo parameters 0 detector) (told : Told parameters asking frame) :
    Progress parameters asking detector (detector.handleMcuType frame) := by
  unfold Detector.handleMcuType
  split
  · rename_i hit
    simp only [ackedWith, Bool.and_eq_true] at hit
    obtain ⟨late, data⟩ := told.acked hit.1 (by decide) (.inl (by decide)) (by decide)
    have data : frame.data = [0x01, 0x03] := by simpa [hmDstTrx] using data
    refine progress_unsent ⟨1, List.mem_singleton_self 1, ?_⟩ (fun no => absurd late no) rfl
    refine ⟨?_, known.version, known.hmip, known.sgtin, known.bidCos, known.serial⟩
    change RadioModuleType.ofByte (frame.data.getD 1 0) = .hmModRpiPcb
    rw [data]
    rfl
  · exact progress_ignored ⟨0, by rw [state]; exact List.mem_singleton_self 0, known⟩
      fun _ => .inr (.inr state)

theorem progress_version (state : detector.detectState = .getVersion)
    (known : KnownTo parameters 1 detector) (late : asking) (told : Told parameters asking frame)
    (done : detector.handleVersion frame = some after) :
    Progress parameters asking detector after := by
  unfold Detector.handleVersion at done
  split at done
  · rename_i hit
    simp only [ackedWith, Bool.and_eq_true] at hit
    obtain ⟨-, data⟩ := told.acked hit.1 (by decide) (.inr (by decide)) (by decide)
    have data : frame.data = 0x01 :: (parameters.firmwareVersion ++
        [0x01, 0x00, 0x03, 0x01, 0x14, 0x03]) := by simpa [hmDstTrx] using data
    obtain ⟨version, copied, final⟩ := Option.bind_eq_some_iff.mp done
    cases final
    refine progress_unsent ⟨2, List.mem_singleton_self 2, ?_⟩ (fun no => absurd late no) rfl
    refine ⟨known.type, ?_, known.hmip, known.sgtin, known.bidCos, known.serial⟩
    change version = parameters.firmwareVersion
    have sized := parameters.versionSized
    have taken : (frame.data.drop 1).take 3 = parameters.firmwareVersion := by
      rw [data, List.drop_succ_cons, List.drop_zero, ← sized, List.take_left]
    obtain ⟨shape, -⟩ := memcpy_start copied
    have before : detector.firmwareVersion = List.replicate 3 0 := known.version
    rw [shape, taken, sized, before, List.drop_eq_nil_of_le (by rw [List.length_replicate]),
      List.append_nil]
  · cases done
    exact progress_ignored ⟨1, by rw [state]; exact List.mem_singleton_self 1, known⟩
      fun no => absurd late no

theorem progress_hmipRfAddress (state : detector.detectState = .getHmipRfAddress)
    (known : KnownTo parameters 2 detector) (late : asking) (told : Told parameters asking frame) :
    Progress parameters asking detector (detector.handleHmipRfAddress frame) := by
  unfold Detector.handleHmipRfAddress
  split
  · rename_i hit
    simp only [ackedWith, Bool.and_eq_true] at hit
    obtain ⟨-, data⟩ := told.acked hit.1 (by decide) (.inl (by decide)) (by decide)
    have data : frame.data = 0x01 :: parameters.radioMac := by simpa [hmDstHmip] using data
    refine progress_unsent ⟨3, List.mem_singleton_self 3, ?_⟩ (fun no => absurd late no) rfl
    refine ⟨known.type, known.version, ?_, known.sgtin, known.bidCos, known.serial⟩
    change addressAt frame.data 1 = ownAddress parameters
    rw [data, ownAddress]
  · exact progress_ignored ⟨2, by rw [state]; exact List.mem_singleton_self 2, known⟩
      fun no => absurd late no

theorem progress_sgtin (state : detector.detectState = .getSgtin)
    (known : KnownTo parameters 3 detector) (late : asking) (told : Told parameters asking frame)
    (done : detector.handleSgtin frame = some after) :
    Progress parameters asking detector after := by
  unfold Detector.handleSgtin at done
  split at done
  · rename_i hit
    simp only [ackedWith, Bool.and_eq_true] at hit
    obtain ⟨-, data⟩ := told.acked hit.1 (by decide) (.inl (by decide)) (by decide)
    have data : frame.data = commonGetSgtinResponse.val.drop 1 := by
      simpa [hmDstCommon] using data
    obtain ⟨sgtin, written, final⟩ := Option.bind_eq_some_iff.mp done
    have type : detector.radioModuleType = .hmModRpiPcb := known.type
    simp only [type] at final
    cases final
    refine progress_unsent ⟨4, List.mem_singleton_self 4, ?_⟩ (fun no => absurd late no) rfl
    refine ⟨rfl, known.version, known.hmip, ?_, known.bidCos, known.serial⟩
    change sgtin = ownSgtin ++ [0]
    have before : detector.sgtin = List.replicate 25 0 := known.sgtin
    rw [data, List.drop_drop, ← ownSgtin] at written
    refine (sprintf_spec written).2.2 ?_
    rw [before]
    rfl
  · cases done
    exact progress_ignored ⟨3, by rw [state]; exact List.mem_singleton_self 3, known⟩
      fun no => absurd late no

theorem progress_bidcosRfAddress (state : detector.detectState = .getBidcosRfAddress)
    (known : KnownTo parameters 4 detector) (late : asking) (told : Told parameters asking frame) :
    Progress parameters asking detector (detector.handleBidcosRfAddress frame) := by
  have type : detector.radioModuleType = .hmModRpiPcb := known.type
  have before : detector.bidCosRadioMAC = 0 := known.bidCos
  unfold Detector.handleBidcosRfAddress
  split
  · rename_i hit
    simp only [ackedWith, Bool.and_eq_true] at hit
    obtain ⟨-, data⟩ := told.acked hit.1 (by decide) (.inl (by decide)) (by decide)
    have data : frame.data = 0x01 :: parameters.radioMac := by simpa [hmDstLlmac] using data
    rw [type]
    refine progress_unsent ⟨5, List.mem_singleton_self 5, ?_⟩ (fun no => absurd late no) rfl
    refine ⟨rfl, known.version, known.hmip, known.sgtin, ?_, known.serial⟩
    change (if addressAt frame.data 1 ≠ 0 ∧ addressAt frame.data 1 &&& 0xffff ≠ 0xffff then
      addressAt frame.data 1 else detector.bidCosRadioMAC) = ownBidCosAddress parameters
    rw [data, before, ownBidCosAddress, ownAddress]
  · split
    · -- A refusal has one byte, and the module sends none.
      rename_i hit
      simp only [ackedWith, acked, Bool.and_eq_true, beq_iff_eq] at hit
      obtain ⟨⟨⟨dst, -⟩, one⟩, status⟩ := hit
      exfalso
      have macSized := parameters.macSized
      have serialSized := parameters.serialSized
      rcases told.cases with ⟨other, -⟩ | ⟨other, -⟩ | ⟨-, rest⟩
      · exact absurd (dst.symm.trans other) (by decide)
      · exact absurd (dst.symm.trans other) (by decide)
      · rcases rest with ⟨other, -⟩ | ⟨other, -⟩ | ⟨other, -⟩ | ⟨-, -, data | data⟩
        · exact absurd (dst.symm.trans other) (by decide)
        · exact absurd (dst.symm.trans other) (by decide)
        · exact absurd (dst.symm.trans other) (by decide)
        · rw [data, List.length_cons] at one
          omega
        · rw [data, List.length_cons] at one
          omega
    · exact progress_ignored ⟨4, by rw [state]; exact List.mem_singleton_self 4, known⟩
        fun no => absurd late no

theorem progress_serial (state : detector.detectState = .getSerial)
    (known : KnownTo parameters 5 detector) (late : asking) (told : Told parameters asking frame)
    (done : detector.handleSerial frame = some after) :
    Progress parameters asking detector after := by
  unfold Detector.handleSerial Detector.copySerial at done
  split at done
  · rename_i hit
    simp only [ackedWith, Bool.and_eq_true] at hit
    obtain ⟨-, data⟩ := told.acked hit.1 (by decide) (.inl (by decide)) (by decide)
    have data : frame.data = 0x01 :: parameters.boardSerial := by simpa [hmDstLlmac] using data
    obtain ⟨serial, copied, final⟩ := Option.bind_eq_some_iff.mp done
    cases final
    refine progress_unsent ⟨6, .tail _ (.head _), ?_⟩ (fun no => absurd late no) rfl
    refine ⟨known.type, known.version, known.hmip, known.sgtin, known.bidCos, ?_⟩
    change serial = parameters.boardSerial ++ [0]
    have sized := parameters.serialSized
    have taken : (frame.data.drop 1).take 10 = parameters.boardSerial := by
      rw [data, List.drop_succ_cons, List.drop_zero, ← sized, List.take_length]
    obtain ⟨shape, -⟩ := memcpy_start copied
    have before : detector.serial = List.replicate 11 0 := known.serial
    rw [shape, taken, sized, before]
    rfl
  · cases done
    exact progress_ignored ⟨5, by rw [state]; exact List.mem_singleton_self 5, known⟩
      fun no => absurd late no

theorem progress_handleFrame (learnt : Learnt parameters detector)
    (early : ¬ asking → Early detector.detectState) (told : Told parameters asking frame)
    {buffer : List UInt8}
    (parsed : HMFrame.tryParse buffer (UInt16.ofNat buffer.length) = some frame)
    (done : detector.handleFrame buffer = some after) :
    Progress parameters asking detector after := by
  rw [Detector.handleFrame, parsed] at done
  -- Behind the first inquiry the last loop has been entered.
  have late : ¬ Early detector.detectState → asking := fun no =>
    Classical.byContradiction fun out => no (early out)
  have known : ∀ {count : Nat}, answered detector.detectState = [count] →
      KnownTo parameters count detector := learnt.known
  cases state : detector.detectState with
  | startBl =>
      simp only [state] at done known
      cases done
      exact progress_startBl state (known rfl)
  | startApp =>
      simp only [state] at done known
      exact progress_startApp state (known rfl) told done
  | getMcuType =>
      simp only [state] at done known
      cases done
      exact progress_mcuType state (known rfl) told
  | getVersion =>
      simp only [state] at done known
      exact progress_version state (known rfl) (late (by simp [Early, state])) told done
  | getHmipRfAddress =>
      simp only [state] at done known
      cases done
      exact progress_hmipRfAddress state (known rfl) (late (by simp [Early, state])) told
  | getSgtin =>
      simp only [state] at done known
      exact progress_sgtin state (known rfl) (late (by simp [Early, state])) told done
  | getBidcosRfAddress =>
      simp only [state] at done known
      cases done
      exact progress_bidcosRfAddress state (known rfl) (late (by simp [Early, state])) told
  | getSerial =>
      simp only [state] at done known
      exact progress_serial state (known rfl) (late (by simp [Early, state])) told done
  | legacyGetVersion | legacyGetBidcosRfAddress | legacyGetSerial =>
      obtain ⟨count, member, -⟩ := learnt
      rw [state] at member
      cases member
  | finished =>
      simp only [state] at done
      cases done
      exact progress_ignored learnt early

end Handlers

section Threads
variable {parameters : Parameters} {detection after : Detection}

theorem Learnt.counted {detector : Detector} (learnt : Learnt parameters detector)
    (retries messages semaphore : Nat) (sent : List Request) :
    Learnt parameters { detector with
      detectRetryCount := retries, detectMsgCounter := messages
      semaphore := semaphore, sent := sent } := by
  obtain ⟨count, member, known⟩ := learnt
  exact ⟨count, member, known.type, known.version, known.hmip, known.sgtin, known.bidCos,
    known.serial⟩

theorem Learnt.early {detector : Detector} (learnt : Learnt parameters detector)
    (early : Early detector.detectState) : KnownTo parameters 0 detector := by
  apply learnt.known
  rcases early with state | state | state
  all_goals
    rw [state]
    rfl

theorem progress_request {detector : Detector} (learnt : Learnt parameters detector)
    {asking : Prop} (late : asking) : Progress parameters asking detector detector.request := by
  have early : ∀ {state : DetectState}, ¬ asking → Early state := fun no => absurd late no
  have asked : ∀ {destination command : UInt8}, (destination, command) ∈ inquires →
      Progress parameters asking detector (detector.sendFrame destination command) := by
    intro destination command member
    refine ⟨learnt.counted _ _ _ _, early, _, rfl, ?_⟩
    intro request sent
    cases List.mem_singleton.mp sent
    exact .inr ⟨late, member⟩
  have givenUp : Early detector.detectState →
      Progress parameters asking detector { detector with detectState := .finished } := by
    intro state
    have known := learnt.early state
    exact progress_unsent ⟨0, .head _, known.type, known.version, known.hmip, known.sgtin,
      known.bidCos, known.serial⟩ early rfl
  unfold Detector.request
  cases state : detector.detectState with
  | startBl => exact givenUp (.inl state)
  | startApp => exact givenUp (.inr (.inl state))
  | getMcuType => exact asked (by decide)
  | getVersion => exact asked (by decide)
  | getHmipRfAddress => exact asked (by decide)
  | getSgtin => exact asked (by decide)
  | getBidcosRfAddress => exact asked (by decide)
  | getSerial => exact asked (by decide)
  | legacyGetVersion => exact asked (by decide)
  | legacyGetBidcosRfAddress => exact asked (by decide)
  | legacyGetSerial => exact asked (by decide)
  | finished => exact progress_ignored learnt early

theorem early_phases {phase : MainPhase} :
    ¬ Asking phase ↔ phase = .blCheck ∨ phase = .blBody ∨ phase = .blWaitCommon ∨
      phase = .blWaitHmsystem ∨ phase = .appCheck ∨ phase = .appBody ∨ phase = .appWaitCommon ∨
      phase = .appWaitHmsystem := by
  cases phase <;> simp [Asking, RadioModuleOutcome.Late]

theorem progress_counted {detector : Detector} {asking : Prop} (learnt : Learnt parameters detector)
    (early : ¬ asking → Early detector.detectState) (retries semaphore : Nat) :
    Progress parameters asking detector { detector with
      detectRetryCount := retries, semaphore := semaphore } :=
  ⟨learnt.counted _ _ _ _, early, [], by rw [List.append_nil], nofun⟩

theorem progress_identify {detector : Detector} {asking : Prop} (learnt : Learnt parameters detector)
    (early : Early detector.detectState) {destination command : UInt8}
    (asked : (destination, command) ∈ identifies) :
    Progress parameters asking detector (detector.sendFrame destination command) := by
  refine ⟨learnt.counted _ _ _ _, fun _ => early, _, rfl, ?_⟩
  intro request sent
  cases List.mem_singleton.mp sent
  exact .inl asked

/-- What a step of the main thread keeps. The last loop is not left for another one. -/
def Advances (parameters : Parameters) (detection after : Detection) : Prop :=
  Progress parameters (Asking after.phase) detection.detector after.detector ∧
    (Asking detection.phase → Asking after.phase)

theorem advances_taken {next : MainPhase} (learnt : Learnt parameters detection.detector)
    (early : ¬ Asking next → Early detection.detector.detectState)
    (later : Asking detection.phase → Asking next) (done : detection.taken next = some after) :
    Advances parameters detection after := by
  unfold Detection.taken at done
  split at done
  · cases done
  · cases done
    exact ⟨progress_counted learnt early _ _, later⟩

theorem advances_main (learnt : Learnt parameters detection.detector)
    (early : ¬ Asking detection.phase → Early detection.detector.detectState)
    (done : detection.mainStep = some after) : Advances parameters detection after := by
  have soon : detection.phase = .blCheck ∨ detection.phase = .blBody ∨
      detection.phase = .blWaitCommon ∨ detection.phase = .blWaitHmsystem ∨
      detection.phase = .appCheck ∨ detection.phase = .appBody ∨
      detection.phase = .appWaitCommon ∨ detection.phase = .appWaitHmsystem →
      Early detection.detector.detectState := fun phase => early (early_phases.mpr phase)
  unfold Detection.mainStep at done
  cases phase : detection.phase with
  | blCheck =>
      have state := soon (by simp [phase])
      simp only [phase] at done
      split at done
      · cases done
        exact ⟨progress_ignored learnt fun _ => state, by simp [phase, Asking,
          RadioModuleOutcome.Late]⟩
      · cases done
        exact ⟨progress_counted learnt (fun _ => state) 0 _, by simp [phase, Asking,
          RadioModuleOutcome.Late]⟩
  | blBody =>
      -- The reset of the type forgets nothing: none of the inquiries has been answered.
      have state := soon (by simp [phase])
      have known := learnt.early state
      simp only [phase] at done
      cases done
      refine ⟨progress_asked ⟨.inl rfl, known.version, known.hmip, known.sgtin, known.bidCos,
        known.serial⟩ state (by decide : (hmDstCommon, hmCmdCommonIdentify) ∈ _) ⟨_, rfl⟩,
        by simp [phase, Asking, RadioModuleOutcome.Late]⟩
  | blWaitCommon | blWaitHmsystem | appWaitCommon | appWaitHmsystem =>
      have state := soon (by simp [phase])
      simp only [phase] at done
      exact advances_taken learnt (fun _ => state)
        (by simp [phase, Asking, RadioModuleOutcome.Late]) done
  | appCheck =>
      have state := soon (by simp [phase])
      simp only [phase] at done
      split at done
      · cases done
        exact ⟨progress_ignored learnt fun _ => state, by simp [phase, Asking,
          RadioModuleOutcome.Late]⟩
      · cases done
        exact ⟨progress_ignored learnt fun _ => state, fun _ => .inl rfl⟩
  | appBody =>
      have state := soon (by simp [phase])
      simp only [phase] at done
      cases done
      exact ⟨progress_identify learnt state (by decide), by simp [phase, Asking,
        RadioModuleOutcome.Late]⟩
  | switching =>
      simp only [phase] at done
      cases done
      have late : Asking .checking := .inr (.inl rfl)
      exact ⟨progress_request learnt late, fun _ => late⟩
  | checking =>
      simp only [phase] at done
      split at done
      · cases done
        have late : Asking .ended := .inr (.inr (.inr (.inl rfl)))
        exact ⟨progress_ignored learnt fun no => absurd late no, fun _ => late⟩
      · cases done
        have late : Asking .waiting := .inr (.inr (.inl rfl))
        exact ⟨progress_ignored learnt fun no => absurd late no, fun _ => late⟩
  | waiting =>
      simp only [phase] at done
      exact advances_taken learnt (fun no => absurd (.inl rfl) no) (fun _ => .inl rfl) done
  | ended =>
      simp only [phase] at done
      cases done
      have late : Asking .returned := .inr (.inr (.inr (.inr rfl)))
      exact ⟨progress_ignored learnt fun no => absurd late no, fun _ => late⟩
  | returned =>
      simp only [phase] at done
      cases done

theorem advances_timeout (learnt : Learnt parameters detection.detector)
    (early : ¬ Asking detection.phase → Early detection.detector.detectState)
    (done : detection.timeoutStep = some after) : Advances parameters detection after := by
  unfold Detection.timeoutStep at done
  dsimp only at done
  split at done
  · cases done
  · split at done
    case h_1 phase | h_2 phase =>
      have state := early (by simp [phase, Asking, RadioModuleOutcome.Late])
      cases done
      exact ⟨progress_identify learnt state (by decide), by simp [phase, Asking,
        RadioModuleOutcome.Late]⟩
    case h_3 phase | h_4 phase =>
      have state := early (by simp [phase, Asking, RadioModuleOutcome.Late])
      cases done
      exact ⟨progress_counted learnt (fun _ => state) _ _, by simp [phase, Asking,
        RadioModuleOutcome.Late]⟩
    case h_5 =>
      cases done
      have late : Asking .ended := .inr (.inr (.inr (.inl rfl)))
      exact ⟨progress_ignored learnt fun no => absurd late no, fun _ => late⟩
    case h_6 => cases done

end Threads

end PiVccu.FakeDialogue
