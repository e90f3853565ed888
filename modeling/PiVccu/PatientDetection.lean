import PiVccu.FakeDetection
import PiVccu.PatientControl

/-!
Patient detections of the module in `kernel/fake_hmrf.c`: no wait times out while
something is to be read. If the escapes of the module happen to cover its answers, the
system follows its control, so it ends, and with all that the module is.
-/

namespace PiVccu.PatientDetection
open FakeDetection FakeDialogue FakeHmrf FakeHmrfRead PatientControl RadioModuleDetector
open RadioModuleDialogue StreamParser Transition
open FakeHmrfWrite hiding hmDstTrx hmDstHmip hmDstLlmac hmDstCommon

theorem response_fits (response : Response) : response.val.length + 7 < 2 ^ 31 := by
  have short := response.property
  omega

def kernelFrame (parameters : Parameters) (entry : Nat × Answer) : Hm.HmFrame :=
  ⟨entry.2.destination, UInt8.ofNat entry.1, (entry.2.response parameters).val,
    response_fits (entry.2.response parameters)⟩

def plainOf (parameters : Parameters) (entry : Nat × Answer) : List UInt8 :=
  HmWire.plain entry.2.destination (UInt8.ofNat entry.1) (entry.2.response parameters).val

/-- Each answer that is asked for can be unescaped by the receiver. -/
def Readable (parameters : Parameters) : Prop :=
  ∀ entry ∈ asked, Escapable (kernelFrame parameters entry)

def Proper : Ask → Prop
  | .inquiry answer => answer ∈ [Answer.mcuType, .version, .hmipRfAddress, .sgtin,
      .bidcosRfAddress, .serial]
  | _ => True

theorem response_short (parameters : Parameters) (answer : Answer) :
    (answer.response parameters).val.length ≤ 17 := by
  have macSized := parameters.macSized
  have serialSized := parameters.serialSized
  have versionSized := parameters.versionSized
  cases answer
  case version => simp [Answer.response, trxGetVersionResponse, versionSized]
  case hmipRfAddress => simp [Answer.response, hmipGetDefaultRfAddressResponse, macSized]
  case bidcosRfAddress => simp [Answer.response, llmacGetDefaultRfAddressResponse, macSized]
  case serial => simp [Answer.response, llmacGetSerialResponse, serialSized]
  all_goals exact Nat.le_of_ble_eq_true rfl

theorem answer_reply (device : Device) {ask : Ask} (proper : Proper ask) :
    answer device ask.destination ask.command =
      ((ask.reply device.isInBl).1,
        (ask.reply device.isInBl).2.map fun told => told.response device.parameters) := by
  cases ask with
  | commonIdentify =>
      change (device.isInBl, if device.isInBl then none else some commonIdentifyResponse) = _
      cases device.isInBl <;> rfl
  | systemIdentify =>
      change (device.isInBl, if device.isInBl then some systemIdentifyResponse else none) = _
      cases device.isInBl <;> rfl
  | startBl => rfl
  | changeApp => rfl
  | inquiry told =>
      simp only [Proper, List.mem_cons, List.not_mem_nil, or_false] at proper
      rcases proper with rfl | rfl | rfl | rfl | rfl | rfl
      all_goals rfl

theorem reply_destination {ask : Ask} {isInBl : Bool} {told : Answer}
    (given : (ask.reply isInBl).2 = some told) : told.destination = ask.destination := by
  cases ask with
  | commonIdentify | systemIdentify =>
      cases isInBl
      all_goals
        cases given
        try rfl
  | startBl | changeApp | inquiry =>
      cases given
      rfl

theorem escapable_iff (frame : Hm.HmFrame) :
    (BigEndian.lowByte (HmWire.lengthField frame.cmd) ≠ 0xfd ∧ frame.dst ≠ 0xfd ∧
      frame.cnt ≠ 0xfd ∧ 0xfd ∉ frame.cmd ∧
      BigEndian.lowByte (Hm.hmCrc (HmWire.covered frame.dst frame.cnt frame.cmd)
        (frame.cmd.length + 5)) ≠ 0xfd) ↔ Escapable frame :=
  ⟨fun ⟨length, dst, cnt, cmd, checksum⟩ => ⟨length, dst, cnt, cmd, checksum⟩,
    fun escapable => ⟨escapable.length, escapable.dst, escapable.cnt, escapable.cmd,
      escapable.checksum⟩⟩

instance (frame : Hm.HmFrame) : Decidable (Escapable frame) := decidable_of_iff _ (escapable_iff frame)

instance (parameters : Parameters) : Decidable (Readable parameters) :=
  inferInstanceAs (Decidable (∀ entry ∈ asked, Escapable (kernelFrame parameters entry)))

theorem readable_clean {parameters : Parameters} (readable : Readable parameters) :
    Clean parameters := by
  have version := (readable (8, .version) (by decide)).cmd
  have mac := (readable (9, .hmipRfAddress) (by decide)).cmd
  have serial := (readable (12, .serial) (by decide)).cmd
  constructor
  · intro member
    exact serial (List.mem_append_right _ member)
  · intro member
    exact mac (List.mem_append_right _ member)
  · intro member
    exact version (List.mem_append_left _ (List.mem_append_right _ member))

theorem answer_stuffed {parameters : Parameters} {entry : Nat × Answer}
    (escapable : Escapable (kernelFrame parameters entry)) :
    tailStuff (plainOf parameters entry) = HmWire.escaped entry.2.destination
      (UInt8.ofNat entry.1) (entry.2.response parameters).val := by
  have short := response_short parameters entry.2
  have placed := escapable_placed (kernelFrame parameters entry)
    (by change (entry.2.response parameters).val.length ≤ 1017; omega) escapable
  rw [plainOf, HmWire.plain, tailStuff_start _ (by rw [HmWire.body_length]; omega)]
  exact congrArg _ (tailStuff_placed _ placed)

section Send
variable {parameters : Parameters} {device : Device} {parser : StreamParser}
  {queue : List (Nat × Answer)} {counter : Nat} {ask : Ask}

theorem sendFrame_simulated (readable : Readable parameters)
    (own : device.parameters = parameters) (proper : Proper ask)
    (decoding : parser.decodeEscaped = true) (few : counter ≤ 12)
    (short : (pending device).length ≤ 48 * counter)
    (waiting : ∃ next, parser.appendAll (pending device) =
      some (next, queue.map (plainOf parameters)))
    (expected : ∀ told, (ask.reply device.isInBl).2 = some told → (counter, told) ∈ asked) :
    ∃ after, sendFrame device ⟨UInt8.ofNat counter, ask.destination, ask.command⟩ = some after ∧
      after.isInBl = (ask.reply device.isInBl).1 ∧
      (pending after).length ≤ (pending device).length + 48 ∧
      ∃ next, parser.appendAll (pending after) = some (next, (queue ++
        (ask.reply device.isInBl).2.toList.map fun told => (counter, told)).map
          (plainOf parameters)) := by
  let request : Request := ⟨UInt8.ofNat counter, ask.destination, ask.command⟩
  obtain ⟨after, written, -, mode, grown⟩ := fakeHmrfWrite_request device (requestFrame request)
    (Nat.zero_le _)
  have replied : answer device (requestFrame request).destination (requestFrame request).command =
      _ := answer_reply device proper
  rw [replied] at mode grown
  have sent : sendFrame device request = some after := by
    simp only [sendFrame, encoded_request, Option.bind_eq_bind, Option.bind_some, written]
    rfl
  obtain ⟨next, run⟩ := waiting
  refine ⟨after, sent, mode, ?_⟩
  cases given : (ask.reply device.isInBl).2 with
  | none =>
      rw [given, Option.map_none, Option.map_none, Option.getD_none, List.take_nil,
        List.append_nil] at grown
      rw [grown]
      exact ⟨by omega, next, by rw [run]; simp⟩
  | some told =>
      have escapable := readable (counter, told) (expected told given)
      have stuffed := answer_stuffed escapable
      have bounds := (HmWire.escaped_length_bounds told.destination (UInt8.ofNat counter)
        (told.response parameters).val).2
      have small := response_short parameters told
      have stream : answerStream (requestFrame request) (told.response device.parameters) =
          HmWire.escaped told.destination (UInt8.ofNat counter)
            (told.response parameters).val := by
        rw [← stuffed, own, answerStream, plainOf, reply_destination given]
        rfl
      rw [given, Option.map_some, Option.map_some, Option.getD_some, stream,
        List.take_of_length_le (by rw [bufSize]; omega)] at grown
      obtain ⟨final, whole, -, -⟩ := appendAll_escaped next told.destination
        (UInt8.ofNat counter) (told.response parameters).val (by omega)
        (appendAll_decoding run decoding)
      rw [grown]
      refine ⟨by rw [List.length_append]; omega, final, ?_⟩
      rw [appendAll_trans run whole]
      simp [plainOf]

end Send

/-- The dialogue stands where the control says. -/
structure Matches (detection : Detection) (control : Control) : Prop where
  phase : detection.phase = control.phase
  type : detection.detector.radioModuleType = control.type
  detectState : detection.detector.detectState = control.detectState
  retryCount : detection.detector.detectRetryCount = control.retryCount
  msgCounter : detection.detector.detectMsgCounter = control.msgCounter
  semaphore : detection.detector.semaphore = control.semaphore

inductive Effect (before after : Control) (sent later : List Request) : Prop where
  | silent (same : later = sent) (counter : after.msgCounter = before.msgCounter)
      (mode : after.isInBl = before.isInBl) (queue : after.queue = before.queue)
  | asks (ask : Ask) (proper : Proper ask)
      (added : later = sent ++ [⟨UInt8.ofNat before.msgCounter, ask.destination, ask.command⟩])
      (counter : after.msgCounter = before.msgCounter + 1)
      (mode : after.isInBl = (ask.reply before.isInBl).1)
      (queue : after.queue = before.queue ++
        (ask.reply before.isInBl).2.toList.map fun told => (before.msgCounter, told))

section Detection
variable {detection : Detection} {control next : Control}

theorem request_simulated {ask : Ask} (given : Ask.ofState detection.detector.detectState = some ask) :
    Proper ask ∧ detection.detector.request =
      detection.detector.sendFrame ask.destination ask.command := by
  unfold Detector.request
  cases state : detection.detector.detectState <;> rw [state] at given <;> cases given
  all_goals exact ⟨by simp [Proper], rfl⟩

theorem taken_simulated {phase : MainPhase} (matched : Matches detection control)
    (done : control.taken phase = some next) :
    ∃ after, detection.taken phase = some after ∧ Matches after next ∧
      Effect control next detection.detector.sent after.detector.sent := by
  rw [Control.taken, ← matched.semaphore] at done
  rw [Detection.taken]
  split at done
  · cases done
  · rename_i posted
    cases done
    rw [if_neg posted]
    exact ⟨_, rfl, ⟨rfl, matched.type, matched.detectState, matched.retryCount,
      matched.msgCounter, rfl⟩, .silent rfl rfl rfl rfl⟩

theorem sent_matches {phase : MainPhase} (ask : Ask) (matched : Matches detection control) :
    Matches ⟨detection.detector.sendFrame ask.destination ask.command, phase⟩
      ((control.send ask).enter phase) :=
  ⟨rfl, matched.type, matched.detectState, matched.retryCount,
    congrArg (· + 1) matched.msgCounter, matched.semaphore⟩

theorem sent_effect {phase : MainPhase} {ask : Ask} (proper : Proper ask)
    (matched : Matches detection control) :
    Effect control ((control.send ask).enter phase) detection.detector.sent
      (detection.detector.sendFrame ask.destination ask.command).sent := by
  refine .asks ask proper ?_ rfl rfl rfl
  rw [← matched.msgCounter]
  rfl

theorem entered {phase : MainPhase} (matched : Matches detection control) :
    Matches ⟨detection.detector, phase⟩ (control.enter phase) ∧
      Effect control (control.enter phase) detection.detector.sent detection.detector.sent :=
  ⟨⟨rfl, matched.type, matched.detectState, matched.retryCount, matched.msgCounter,
    matched.semaphore⟩, .silent rfl rfl rfl rfl⟩

theorem main_simulated (matched : Matches detection control) (done : control.main = some next) :
    ∃ after, detection.mainStep = some after ∧ Matches after next ∧
      Effect control next detection.detector.sent after.detector.sent := by
  unfold Control.main at done
  unfold Detection.mainStep
  rw [← matched.phase] at done
  cases phase : detection.phase with
  | blCheck =>
      simp only [phase, ← matched.detectState, ← matched.retryCount] at done ⊢
      split at done
      · rename_i again
        cases done
        rw [if_pos again]
        exact ⟨_, rfl, entered matched⟩
      · rename_i past
        cases done
        rw [if_neg past]
        exact ⟨_, rfl, ⟨rfl, matched.type, rfl, rfl, matched.msgCounter, matched.semaphore⟩,
          .silent rfl rfl rfl rfl⟩
  | blBody =>
      simp only [phase] at done ⊢
      cases done
      refine ⟨_, rfl, ⟨rfl, rfl, matched.detectState, matched.retryCount,
        congrArg (· + 1) matched.msgCounter, matched.semaphore⟩,
        .asks .commonIdentify trivial ?_ rfl rfl rfl⟩
      rw [← matched.msgCounter]
      rfl
  | blWaitCommon | blWaitHmsystem | appWaitCommon | appWaitHmsystem | waiting =>
      simp only [phase] at done ⊢
      exact taken_simulated matched done
  | appCheck =>
      simp only [phase, ← matched.detectState, ← matched.retryCount] at done ⊢
      split at done
      · rename_i again
        cases done
        rw [if_pos again]
        exact ⟨_, rfl, entered matched⟩
      · rename_i past
        cases done
        rw [if_neg past]
        exact ⟨_, rfl, entered matched⟩
  | appBody =>
      simp only [phase] at done ⊢
      cases done
      exact ⟨_, rfl, sent_matches .commonIdentify matched,
        sent_effect (show Proper .commonIdentify from trivial) matched⟩
  | switching =>
      simp only [phase, ← matched.detectState] at done ⊢
      cases given : Ask.ofState detection.detector.detectState with
      | some ask =>
          obtain ⟨proper, request⟩ := request_simulated given
          simp only [given] at done
          cases done
          rw [request]
          exact ⟨_, rfl, sent_matches _ matched, sent_effect proper matched⟩
      | none =>
          simp only [given] at done
          split at done
          · rename_i finished
            cases done
            rw [show detection.detector.request = detection.detector by
              rw [Detector.request, finished]]
            exact ⟨_, rfl, entered matched⟩
          · cases done
  | checking =>
      simp only [phase, ← matched.detectState] at done ⊢
      split at done
      · rename_i finished
        cases done
        rw [if_pos finished]
        exact ⟨_, rfl, entered matched⟩
      · rename_i unfinished
        cases done
        rw [if_neg unfinished]
        exact ⟨_, rfl, entered matched⟩
  | ended =>
      simp only [phase] at done ⊢
      cases done
      exact ⟨_, rfl, entered matched⟩
  | returned =>
      simp only [phase] at done
      cases done

theorem waits_simulated (matched : Matches detection control) (waits : control.waits = true) :
    detection.mainStep = none := by
  simp only [Control.waits, Bool.and_eq_true, Bool.or_eq_true, beq_iff_eq, ← matched.phase,
    ← matched.semaphore] at waits
  obtain ⟨zero, phase⟩ := waits
  unfold Detection.mainStep
  rcases phase with (((phase | phase) | phase) | phase) | phase
  all_goals
    simp only [phase]
    rw [Detection.taken, if_pos zero]

theorem timeout_possible (matched : Matches detection control) (waits : control.waits = true) :
    ∃ after, detection.timeoutStep = some after := by
  simp only [Control.waits, Bool.and_eq_true, Bool.or_eq_true, beq_iff_eq, ← matched.phase,
    ← matched.semaphore] at waits
  obtain ⟨zero, phase⟩ := waits
  unfold Detection.timeoutStep
  dsimp only
  rw [if_neg (not_not.mpr zero)]
  rcases phase with (((phase | phase) | phase) | phase) | phase
  all_goals
    simp only [phase]
    exact ⟨_, rfl⟩

theorem timeout_simulated (matched : Matches detection control) {after : Detection}
    (done : detection.timeoutStep = some after) :
    ∃ next, control.timeout = some next ∧ Matches after next ∧
      Effect control next detection.detector.sent after.detector.sent := by
  unfold Detection.timeoutStep at done
  unfold Control.timeout
  dsimp only at done
  rw [← matched.semaphore, ← matched.phase]
  split at done
  · cases done
  · rename_i zero
    rw [if_neg zero]
    cases phase : detection.phase with
    | blWaitCommon | appWaitCommon =>
        simp only [phase] at done
        cases done
        exact ⟨_, rfl, sent_matches .systemIdentify matched,
          sent_effect (show Proper .systemIdentify from trivial) matched⟩
    | blWaitHmsystem | appWaitHmsystem =>
        simp only [phase] at done
        cases done
        exact ⟨_, rfl, ⟨rfl, matched.type, matched.detectState,
          congrArg (· + 1) matched.retryCount, matched.msgCounter, rfl⟩,
          .silent rfl rfl rfl rfl⟩
    | waiting =>
        simp only [phase] at done
        cases done
        exact ⟨_, rfl, entered matched⟩
    | blCheck | blBody | appCheck | appBody | switching | checking | ended | returned =>
        simp only [phase] at done
        cases done

end Detection

theorem data_fits (response : Response) : (response.val.drop 1).length < 2 ^ 16 := by
  have short := response.property
  rw [List.length_drop]
  omega

def frameOf (parameters : Parameters) (entry : Nat × Answer) : HMFrame :=
  ⟨UInt8.ofNat entry.1, entry.2.destination, (entry.2.response parameters).val.getD 0 0,
    (entry.2.response parameters).val.drop 1, data_fits (entry.2.response parameters)⟩

theorem parsed_frameOf (parameters : Parameters) (entry : Nat × Answer) :
    HMFrame.tryParse (plainOf parameters entry)
      (UInt16.ofNat (plainOf parameters entry).length) = some (frameOf parameters entry) := by
  have same : plainOf parameters entry = (frameOf parameters entry).wire := by
    obtain ⟨counter, told⟩ := entry
    cases told <;> rfl
  have short := response_short parameters entry.2
  rw [same]
  refine FrameRoundTrip.tryParse_wire _ ?_
  change ((entry.2.response parameters).val.drop 1).length + 8 < 2 ^ 16
  rw [List.length_drop]
  omega

theorem acked_frameOf (parameters : Parameters) (counter : Nat) :
    ackedWith hmDstTrx hmCmdTrxAck 2 1 (frameOf parameters (counter, .mcuType)) = true ∧
    ackedWith hmDstTrx hmCmdTrxAck 10 1 (frameOf parameters (counter, .version)) = true ∧
    ackedWith hmDstHmip hmCmdHmipAck 4 1 (frameOf parameters (counter, .hmipRfAddress)) = true ∧
    ackedWith hmDstCommon hmCmdCommonAck 13 1 (frameOf parameters (counter, .sgtin)) = true ∧
    ackedWith hmDstLlmac hmCmdLlmacAck 4 1 (frameOf parameters (counter, .bidcosRfAddress)) = true ∧
    ackedWith hmDstLlmac hmCmdLlmacAck 11 1 (frameOf parameters (counter, .serial)) = true := by
  have macSized := parameters.macSized
  have serialSized := parameters.serialSized
  have versionSized := parameters.versionSized
  refine ⟨rfl, ?_, ?_, rfl, ?_, ?_⟩
  · simp [ackedWith, acked, frameOf, Answer.response, Answer.destination, hmDstTrx, hmCmdTrxAck,
      trxGetVersionResponse, versionSized]
  · simp [ackedWith, acked, frameOf, Answer.response, Answer.destination, hmDstHmip, hmCmdHmipAck,
      hmipGetDefaultRfAddressResponse, macSized]
  · simp [ackedWith, acked, frameOf, Answer.response, Answer.destination, hmDstLlmac,
      hmCmdLlmacAck, llmacGetDefaultRfAddressResponse, macSized]
  · simp [ackedWith, acked, frameOf, Answer.response, Answer.destination, hmDstLlmac,
      hmCmdLlmacAck, llmacGetSerialResponse, serialSized]

section Handle
variable {parameters : Parameters} {detection : Detection} {control next : Control}

theorem proceeds (matched : Matches detection control) {detector : Detector}
    {type : RadioModuleType} {state : DetectState} (named : detector.radioModuleType = type)
    (moved : detector.detectState = state)
    (retries : detector.detectRetryCount = detection.detector.detectRetryCount)
    (counter : detector.detectMsgCounter = detection.detector.detectMsgCounter)
    (posted : detector.semaphore = detection.detector.semaphore + 1)
    (sent : detector.sent = detection.detector.sent) :
    Matches ⟨detector, detection.phase⟩ ({ control with type := type }.proceed state) ∧
      Effect control ({ control with type := type }.proceed state) detection.detector.sent
        detector.sent :=
  ⟨⟨matched.phase, named, moved, retries.trans matched.retryCount,
    counter.trans matched.msgCounter, posted.trans (congrArg (· + 1) matched.semaphore)⟩,
    .silent sent rfl rfl rfl⟩

theorem handle_simulated (matched : Matches detection control) (sized : Sized detection.detector)
    {entry : Nat × Answer} (done : control.handle entry.2 = some next) :
    ∃ detector, detection.detector.handleFrame (plainOf parameters entry) = some detector ∧
      Matches ⟨detector, detection.phase⟩ next ∧
      Effect control next detection.detector.sent detector.sent := by
  obtain ⟨counter, told⟩ := entry
  obtain ⟨mcuType, version, hmip, sgtin, bidcos, serial⟩ := acked_frameOf parameters counter
  obtain ⟨detector, handled⟩ := handleFrame_total sized (plainOf parameters (counter, told))
  have state := matched.detectState
  refine ⟨detector, handled, ?_⟩
  rw [Detector.handleFrame, parsed_frameOf] at handled
  dsimp only at handled
  cases told with
  | commonIdentify =>
      rw [Control.handle, ← state] at done
      cases here : detection.detector.detectState <;> rw [here] at done <;> cases done
      · rw [here] at handled
        cases handled
        have identified : detection.detector.handleStartBl (frameOf parameters
            (counter, .commonIdentify)) = { detection.detector with
              radioModuleType := .unknown }.sendFrame hmDstCommon hmCmdCommonStartBl := rfl
        rw [identified]
        refine ⟨⟨matched.phase, rfl, here, matched.retryCount,
          congrArg (· + 1) matched.msgCounter, matched.semaphore⟩,
          .asks .startBl trivial ?_ rfl rfl rfl⟩
        rw [← matched.msgCounter]
        rfl
      · rw [here] at handled
        cases handled
        exact proceeds matched matched.type rfl rfl rfl rfl rfl
  | systemIdentify =>
      rw [Control.handle, ← state] at done
      cases here : detection.detector.detectState <;> rw [here] at done <;> cases done
      · rw [here] at handled
        cases handled
        exact proceeds matched rfl rfl rfl rfl rfl rfl
      · rw [here] at handled
        cases handled
        refine ⟨⟨matched.phase, matched.type, matched.detectState, matched.retryCount,
          congrArg (· + 1) matched.msgCounter, matched.semaphore⟩,
          .asks .changeApp trivial ?_ rfl rfl rfl⟩
        rw [← matched.msgCounter]
        rfl
  | commonStartBl | systemStartApp =>
      rw [Control.handle, ← state] at done
      split at done
      · rename_i here
        cases done
        rw [here] at handled
        cases handled
        exact ⟨matched, .silent rfl rfl rfl rfl⟩
      · cases done
  | mcuType =>
      rw [Control.handle, ← state] at done
      split at done
      · rename_i here
        cases done
        rw [here] at handled
        dsimp only at handled
        rw [Detector.handleMcuType, if_pos mcuType] at handled
        cases handled
        exact proceeds matched rfl rfl rfl rfl rfl rfl
      · cases done
  | version =>
      rw [Control.handle, ← state] at done
      split at done
      · rename_i here
        cases done
        rw [here] at handled
        dsimp only at handled
        rw [Detector.handleVersion, if_pos version] at handled
        obtain ⟨text, -, final⟩ := Option.bind_eq_some_iff.mp handled
        cases final
        exact proceeds matched matched.type rfl rfl rfl rfl rfl
      · cases done
  | hmipRfAddress =>
      rw [Control.handle, ← state] at done
      split at done
      · rename_i here
        cases done
        rw [here] at handled
        dsimp only at handled
        rw [Detector.handleHmipRfAddress, if_pos hmip] at handled
        cases handled
        exact proceeds matched matched.type rfl rfl rfl rfl rfl
      · cases done
  | sgtin =>
      rw [Control.handle, ← state] at done
      split at done
      · rename_i here
        have type : detection.detector.radioModuleType = .hmModRpiPcb := matched.type.trans here.2
        cases done
        rw [here.1] at handled
        dsimp only at handled
        rw [Detector.handleSgtin, if_pos sgtin] at handled
        obtain ⟨text, -, final⟩ := Option.bind_eq_some_iff.mp handled
        simp only [type] at final
        cases final
        exact proceeds matched here.2.symm rfl rfl rfl rfl rfl
      · cases done
  | bidcosRfAddress =>
      rw [Control.handle, ← state] at done
      split at done
      · rename_i here
        have type : detection.detector.radioModuleType = .hmModRpiPcb := matched.type.trans here.2
        cases done
        rw [here.1] at handled
        dsimp only at handled
        rw [Detector.handleBidcosRfAddress, if_pos bidcos] at handled
        simp only [type] at handled
        cases handled
        exact proceeds matched here.2.symm rfl rfl rfl rfl rfl
      · cases done
  | serial =>
      rw [Control.handle, ← state] at done
      split at done
      · rename_i here
        cases done
        rw [here] at handled
        dsimp only at handled
        rw [Detector.handleSerial, Detector.copySerial, if_pos serial] at handled
        obtain ⟨text, -, final⟩ := Option.bind_eq_some_iff.mp handled
        cases final
        exact proceeds matched matched.type rfl rfl rfl rfl rfl
      · cases done

end Handle

/-- The system follows its control: the answers that are on their way come out of the
parser one after the other. -/
structure Simulates (parameters : Parameters) (loop : Loop) (control : Control) : Prop where
  matched : Matches loop.detection control
  isInBl : loop.device.isInBl = control.isInBl
  decoding : control.phase ≠ .returned → loop.parser.decodeEscaped = true
  waiting : control.phase ≠ .returned → ∃ next, loop.parser.appendAll (pending loop.device) =
    some (next, control.queue.map (plainOf parameters))
  short : (pending loop.device).length ≤ 48 * control.msgCounter

section Simulation
variable {parameters : Parameters} {loop : Loop} {control next : Control}

theorem detect_simulated (readable : Readable parameters) (own : loop.device.parameters = parameters)
    (simulates : Simulates parameters loop control) {act : DetectAct} {after : Detection}
    (taken : loop.detection.step act = some after) (matched : Matches after next)
    (effect : Effect control next loop.detection.detector.sent after.detector.sent)
    (few : next.msgCounter ≤ 13) (expected : ∀ entry ∈ next.queue, entry ∈ asked) :
    ∃ later, loop.detect act = some later ∧ Simulates parameters later next ∧
      (pending later.device).length ≤ (pending loop.device).length + 48 := by
  have running : control.phase ≠ .returned := by
    rw [← simulates.matched.phase]
    exact step_running taken
  have decoding := simulates.decoding running
  have kept : next.phase ≠ .returned → (if after.phase = .returned then
      loop.parser.setDecodeEscaped false else loop.parser) = loop.parser := by
    intro going
    rw [if_neg (by rwa [matched.phase])]
  cases effect with
  | silent same counter mode queue =>
      refine ⟨⟨after, if after.phase = .returned then loop.parser.setDecodeEscaped false
        else loop.parser, loop.device⟩, ?_, ⟨matched, simulates.isInBl.trans mode.symm, ?_, ?_, ?_⟩,
        Nat.le_add_right _ _⟩
      · simp only [Loop.detect, taken, Option.bind_eq_bind, Option.bind_some, same,
          List.drop_length, List.foldlM_nil]
        rfl
      · intro going
        dsimp only
        rw [kept going]
        exact decoding
      · intro going
        dsimp only
        rw [kept going, queue]
        exact simulates.waiting running
      · rw [counter]
        exact simulates.short
  | asks ask proper added counter mode queue =>
      obtain ⟨device, sent, inBl, grown, waiting⟩ := sendFrame_simulated readable own proper decoding
        (by omega) simulates.short (simulates.waiting running) (by
          intro told given
          apply expected
          rw [queue, ← simulates.isInBl, given]
          exact List.mem_append_right _ (List.mem_singleton_self _))
      refine ⟨⟨after, if after.phase = .returned then loop.parser.setDecodeEscaped false
        else loop.parser, device⟩, ?_, ⟨matched, ?_, ?_, ?_, ?_⟩, ?_⟩
      · simp only [Loop.detect, taken, Option.bind_eq_bind, Option.bind_some, added,
          List.drop_left, List.foldlM_cons, sent, List.foldlM_nil]
        rfl
      · rw [mode, ← simulates.isInBl]
        exact inBl
      · intro going
        dsimp only
        rw [kept going]
        exact decoding
      · intro going
        dsimp only
        rw [kept going, queue, ← simulates.isInBl]
        exact waiting
      · have short := simulates.short
        rw [counter]
        dsimp only
        omega
      · exact grown

theorem nothing_waits (simulates : Simulates parameters loop control)
    (running : control.phase ≠ .returned) (empty : pending loop.device = []) :
    control.queue = [] := by
  obtain ⟨next, run⟩ := simulates.waiting running
  rw [empty] at run
  simp only [StreamParser.appendAll, Option.some.injEq, Prod.mk.injEq, List.nil_eq,
    List.map_eq_nil_iff] at run
  exact run.2

theorem receive_simulated (readable : Readable parameters) (sound : Sound parameters loop)
    (simulates : Simulates parameters loop control) (running : control.phase ≠ .returned)
    (some : pending loop.device ≠ [])
    (handled : ∀ entry queue, control.queue = entry :: queue →
      ∃ next, { control with queue := queue }.handle entry.2 = Option.some next ∧
        next.msgCounter ≤ 13 ∧ ∀ entry ∈ next.queue, entry ∈ asked) :
    ∃ later, loop.receive = Option.some later ∧
      (Simulates parameters later control ∧
          (pending later.device).length + 1 = (pending loop.device).length ∨
        ∃ entry queue next, control.queue = entry :: queue ∧
          { control with queue := queue }.handle entry.2 = Option.some next ∧
          Simulates parameters later next ∧
          (pending later.device).length ≤ (pending loop.device).length + 47) := by
  obtain ⟨device, octet, read, split, own⟩ := read_byte loop.device some
  have mode : device.isInBl = loop.device.isInBl := by
    obtain ⟨after, octets, read', -, -, -, -, same⟩ :=
      fakeHmrfRead_data loop.device false (by decide : 1 ≤ RawUartRx.intMax) some
    cases read.symm.trans read'
    exact same
  obtain ⟨final, run⟩ := simulates.waiting running
  have short := simulates.short
  rw [split, StreamParser.appendAll] at run
  obtain ⟨⟨parser, call⟩, appended, run⟩ := Option.bind_eq_some_iff.mp run
  obtain ⟨⟨last, calls⟩, rest, same⟩ := Option.bind_eq_some_iff.mp run
  simp only [Option.some.injEq, Prod.mk.injEq] at same rest
  have decoding : parser.decodeEscaped = true :=
    (append_bounded appended _ (Nat.le_refl _) (simulates.decoding running)).1
  have size : (pending loop.device).length = (pending device).length + 1 := by
    rw [split, List.length_cons]
  rw [Loop.receive, read]
  simp only [Option.bind_eq_bind, Option.bind_some, appended]
  cases call with
  | none =>
      refine ⟨_, rfl, .inl ⟨⟨simulates.matched, mode.trans simulates.isInBl, fun _ => decoding,
        fun _ => ⟨last, ?_⟩, ?_⟩, size.symm⟩⟩
      · rw [rest, ← same.2]
        rfl
      · dsimp only
        omega
  | some buffer =>
      cases shape : control.queue with
      | nil =>
          rw [shape] at same
          cases same.2
      | cons entry queue =>
          rw [shape] at same
          obtain ⟨rfl, others⟩ := List.cons.inj same.2
          obtain ⟨next, done, few, expected⟩ := handled entry queue shape
          have phase : loop.detection.phase ≠ .returned := by rwa [simulates.matched.phase]
          let between : Loop := { loop with device := device, parser := parser }
          have middle : Simulates parameters between { control with queue := queue } := by
            refine ⟨⟨simulates.matched.phase, simulates.matched.type,
              simulates.matched.detectState, simulates.matched.retryCount,
              simulates.matched.msgCounter, simulates.matched.semaphore⟩,
              mode.trans simulates.isInBl, fun _ => decoding, fun _ => ⟨last, ?_⟩, ?_⟩
            · dsimp only [between]
              rw [rest]
              exact congrArg _ (congrArg _ others)
            · dsimp only [between]
              omega
          obtain ⟨detector, told, matched, effect⟩ :=
            handle_simulated middle.matched sound.learnt.sized done
          have taken : between.detection.step (.frame (plainOf parameters entry)) =
              Option.some ⟨detector, between.detection.phase⟩ := by
            rw [Detection.step, if_neg phase, told]
            rfl
          obtain ⟨later, detected, kept, grown⟩ := detect_simulated readable
            (own.trans sound.own) middle taken matched effect few expected
          refine ⟨later, ?_, .inr ⟨entry, queue, next, rfl, done, kept, ?_⟩⟩
          · change between.handleFrame (plainOf parameters entry) = _
            rw [Loop.handleFrame, if_neg phase]
            exact detected
          · have grown : (pending later.device).length ≤ (pending device).length + 48 := grown
            omega

end Simulation

/-- A step of a patient run: `detectRadioModule` has not returned, and nobody times out
while there is something to read. -/
def patientStep (loop : Loop) (act : LoopAct) : Option Loop :=
  if loop.detection.phase = .returned ∨ act = .timeout ∧ pending loop.device ≠ [] then none
  else loop.step act

structure Ends (parameters : Parameters) (bound : Nat) (loop : Loop) : Prop where
  sound : Sound parameters loop
  follows : ∃ fuel control, settles fuel control = true ∧ Simulates parameters loop control ∧
    49 * fuel + (pending loop.device).length ≤ bound

section Ends
variable {parameters : Parameters} {bound : Nat} {loop next : Loop}

theorem ends_step (readable : Readable parameters) (ends : Ends parameters (bound + 1) loop)
    {act : LoopAct} (taken : patientStep loop act = some next) : Ends parameters bound next := by
  obtain ⟨sound, fuel, control, settled, simulates, enough⟩ := ends
  rw [patientStep] at taken
  split at taken
  · cases taken
  · rename_i allowed
    rw [not_or] at allowed
    have running : control.phase ≠ .returned := by
      rw [← simulates.matched.phase]
      exact allowed.1
    refine ⟨sound_step (readable_clean readable) sound act taken, ?_⟩
    obtain ⟨left, rfl, goes⟩ := settles_running settled running
    -- A step of the detection has one outcome, and the control has it too.
    have detected : ∀ {act : DetectAct} {after : Detection} {later : Control},
        loop.detection.step act = some after → loop.detect act = some next →
        Matches after later →
        Effect control later loop.detection.detector.sent after.detector.sent →
        settles left later = true →
        ∃ fuel control, settles fuel control = true ∧ Simulates parameters next control ∧
          49 * fuel + (pending next.device).length ≤ bound := by
      intro act after later stepped done matched effect settled
      obtain ⟨few, expected⟩ := settles_expected settled
      obtain ⟨other, same, kept, grown⟩ :=
        detect_simulated readable sound.own simulates stepped matched effect few expected
      cases same.symm.trans done
      exact ⟨left, later, settled, kept, by omega⟩
    cases act with
    | main =>
        rw [Loop.step] at taken
        obtain ⟨after, stepped, -⟩ := Option.bind_eq_some_iff.mp taken
        cases main : control.main with
        | none =>
            have blocked : loop.detection.mainStep = some after := stepped
            rw [waits_simulated simulates.matched (goes.blocked main)] at blocked
            cases blocked
        | some later =>
            obtain ⟨other, same, matched, effect⟩ := main_simulated simulates.matched main
            have stepped' : loop.detection.mainStep = some after := stepped
            cases same.symm.trans stepped'
            exact detected stepped taken matched effect (goes.main later main)
    | timeout =>
        rw [Loop.step] at taken
        obtain ⟨after, stepped, -⟩ := Option.bind_eq_some_iff.mp taken
        have empty : pending loop.device = [] :=
          Classical.byContradiction fun some => allowed.2 ⟨rfl, some⟩
        obtain ⟨later, timeout, matched, effect⟩ := timeout_simulated simulates.matched stepped
        exact detected stepped taken matched effect
          (goes.timeout (nothing_waits simulates running empty) later timeout)
    | receive =>
        have some : pending loop.device ≠ [] := by
          intro none
          rw [Loop.step, Loop.receive, read_blocks loop.device none] at taken
          cases taken
        obtain ⟨other, same, progress⟩ := receive_simulated readable sound simulates running some
          (by
            intro entry queue shape
            obtain ⟨later, done, settled⟩ := goes.handle entry queue shape
            exact ⟨later, done, settles_expected settled⟩)
        cases same.symm.trans taken
        rcases progress with ⟨kept, shorter⟩ | ⟨entry, queue, later, shape, done, kept, grown⟩
        · exact ⟨left + 1, control, settled, kept, by omega⟩
        · obtain ⟨other, same, settled⟩ := goes.handle entry queue shape
          cases same.symm.trans done
          exact ⟨left, later, settled, kept, by omega⟩

theorem ends_open (readable : Readable parameters) (ends : Ends parameters bound loop) :
    loop.detection.phase = .returned ∧ mainReport loop.detection.detector = ownReport parameters ∨
      1 ≤ bound ∧ ∃ act next, patientStep loop act = some next := by
  obtain ⟨sound, fuel, control, settled, simulates, enough⟩ := ends
  by_cases returned : loop.detection.phase = .returned
  · obtain ⟨finished, type⟩ :=
      settles_returned settled (simulates.matched.phase.symm.trans returned)
    refine .inl ⟨returned, ?_⟩
    obtain ⟨count, member, known⟩ := sound.learnt
    rw [simulates.matched.detectState, finished] at member
    rcases List.mem_cons.mp member with rfl | last
    · have none : loop.detection.detector.radioModuleType = .none ∨
          loop.detection.detector.radioModuleType = .unknown := known.type
      rw [simulates.matched.type, type] at none
      rcases none with none | none <;> cases none
    · cases List.mem_singleton.mp last
      exact (known.report (by decide)).trans (reportTo_all parameters)
  · have running : control.phase ≠ .returned := by rwa [← simulates.matched.phase]
    obtain ⟨left, rfl, goes⟩ := settles_running settled running
    refine .inr ⟨by omega, ?_⟩
    by_cases empty : pending loop.device = []
    · cases main : control.main with
      | some later =>
          obtain ⟨after, stepped, matched, effect⟩ := main_simulated simulates.matched main
          obtain ⟨few, expected⟩ := settles_expected (goes.main later main)
          obtain ⟨next, done, -⟩ := detect_simulated readable sound.own simulates
            (show loop.detection.step .main = some after from stepped) matched effect few expected
          exact ⟨.main, next, by rw [patientStep, if_neg (by simp [returned])]; exact done⟩
      | none =>
          obtain ⟨after, stepped⟩ := timeout_possible simulates.matched (goes.blocked main)
          obtain ⟨later, timeout, matched, effect⟩ := timeout_simulated simulates.matched stepped
          obtain ⟨few, expected⟩ := settles_expected
            (goes.timeout (nothing_waits simulates running empty) later timeout)
          obtain ⟨next, done, -⟩ := detect_simulated readable sound.own simulates
            (show loop.detection.step .timeout = some after from stepped) matched effect few expected
          exact ⟨.timeout, next, by rw [patientStep, if_neg (by simp [returned, empty])]; exact done⟩
    · obtain ⟨next, received, -⟩ :=
        sound_receive (readable_clean readable) sound returned empty
      exact ⟨.receive, next, by rw [patientStep, if_neg (by simp [returned])]; exact received⟩

theorem ends_run (readable : Readable parameters) (acts : List LoopAct)
    (ends : Ends parameters bound loop) {final : Loop}
    (ran : runAll patientStep loop acts = some final) :
    acts.length ≤ bound ∧ Ends parameters (bound - acts.length) final := by
  induction acts generalizing bound loop with
  | nil =>
      cases ran
      exact ⟨Nat.zero_le _, ends⟩
  | cons act rest ih =>
      rw [runAll_cons] at ran
      obtain ⟨middle, taken, later⟩ := Option.bind_eq_some_iff.mp ran
      obtain ⟨bound, rfl⟩ : ∃ less, bound = less + 1 := by
        rcases ends_open readable ends with ⟨returned, -⟩ | ⟨positive, -⟩
        · rw [patientStep, if_pos (.inl returned)] at taken
          cases taken
        · exact ⟨bound - 1, by omega⟩
      obtain ⟨short, kept⟩ := ih (ends_step readable ends taken) later
      rw [List.length_cons]
      exact ⟨by omega, by rwa [Nat.add_sub_add_right]⟩

theorem ends_started (start : Started parameters loop) : Ends parameters 2303 loop := by
  refine ⟨sound_started start, 47, initial loop.device.isInBl, initial_settles _, ?_, ?_⟩
  · obtain ⟨memory, parser⟩ := start.parser
    have detection := start.detection
    refine ⟨?_, rfl, ?_, ?_, ?_⟩
    · rw [detection]
      exact ⟨rfl, rfl, rfl, rfl, rfl, rfl⟩
    · intro _
      rw [parser]
      rfl
    · intro _
      rw [start.silent]
      exact ⟨_, rfl⟩
    · rw [start.silent]
      exact Nat.zero_le _
  · rw [start.silent]
    decide

end Ends

theorem ends_reached {parameters : Parameters} (readable : Readable parameters) {bound : Nat}
    {loop : Loop} (ends : Ends parameters bound loop) :
    ∃ acts final, runAll patientStep loop acts = some final ∧
      final.detection.phase = .returned := by
  induction bound generalizing loop with
  | zero =>
      rcases ends_open readable ends with ⟨returned, -⟩ | ⟨positive, -⟩
      · exact ⟨[], loop, rfl, returned⟩
      · cases positive
  | succ bound ih =>
      rcases ends_open readable ends with ⟨returned, -⟩ | ⟨-, act, next, taken⟩
      · exact ⟨[], loop, rfl, returned⟩
      · obtain ⟨acts, final, ran, returned⟩ := ih (ends_step readable ends taken)
        refine ⟨act :: acts, final, ?_, returned⟩
        rw [runAll_cons, taken]
        exact ran

theorem defaultParameters_readable : Readable FakeHmrfParameters.defaultParameters := by
  decide +kernel

theorem ownReport_default : ownReport FakeHmrfParameters.defaultParameters =
    .module "HM-MOD-RPI-PCB" (ascii "FKE1234567") (ascii "3014F711A061A7D5699DAB52") 0x4f68f1
      0x4f68f1 [2, 8, 6] := by
  have serial : cString (FakeHmrfParameters.defaultParameters.boardSerial ++ [0]) =
      ascii "FKE1234567" := by decide
  have sgtin : ownSgtin = ascii "3014F711A061A7D5699DAB52" := by decide
  have address : ownAddress FakeHmrfParameters.defaultParameters = 0x4f68f1 := by decide
  have bidCos : ownBidCosAddress FakeHmrfParameters.defaultParameters = 0x4f68f1 := by decide
  rw [ownReport, serial, sgtin, address, bidCos]
  rfl

end PiVccu.PatientDetection
