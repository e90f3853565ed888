import PiVccu.RadioModuleDialogue

/-!
The exit code of `detect_radio_module`. `main` looks only at the type, which the
dialogue sets long before its last reply; the last loop also ends at a request
that is not answered in time. In the runs where that happens only before the type
is set, a zero exit code is a finished dialogue.
-/

namespace PiVccu.RadioModuleOutcome
open RadioModuleDetector RadioModuleDialogue Transition

/-- No request times out once the type is a supported one, and no reply brings a
supported type between the last timeout and the removal of the frame handler. -/
def Answered (detection : Detection) : DetectAct → Prop
  | .main => True
  | .timeout => detection.phase = .waiting → detection.detector.radioModuleType.supported = false
  | .frame buffer => detection.phase = .ended → detection.detector.detectState = .getMcuType →
      ∀ frame, HMFrame.tryParse buffer (UInt16.ofNat buffer.length) = some frame →
        ackedWith hmDstTrx hmCmdTrxAck 2 1 frame = true →
        (RadioModuleType.ofByte (frame.data.getD 1 0)).supported = false

def Late (phase : MainPhase) : Prop :=
  phase = .checking ∨ phase = .waiting ∨ phase = .ended ∨ phase = .returned

def Left (phase : MainPhase) : Prop := phase = .ended ∨ phase = .returned

structure Settled (detection : Detection) : Prop where
  begun : Late detection.phase →
    detection.detector.detectState ≠ .startBl ∧ detection.detector.detectState ≠ .startApp
  complete : Left detection.phase → detection.detector.radioModuleType.supported = true →
    detection.detector.detectState = .finished

theorem Left.late {phase : MainPhase} (left : Left phase) : Late phase := by
  rcases left with ended | returned
  · exact .inr (.inr (.inl ended))
  · exact .inr (.inr (.inr returned))

theorem handled_begun {detector after : Detector} {frame : HMFrame}
    (handled : Handled detector frame after)
    (begun : detector.detectState ≠ .startBl ∧ detector.detectState ≠ .startApp) :
    after.detectState ≠ .startBl ∧ after.detectState ≠ .startApp := by
  cases handled with
  | ignored => exact begun
  | bootloader state => exact absurd state begun.1
  | restart destination command state => exact absurd state begun.1
  | startApp destination command state => exact absurd state begun.2
  | app state => exact absurd state begun.2
  | legacyApp sgtin state => exact absurd state begun.2
  | bidcosRfAddress mac next state chosen towards =>
      rcases towards with ⟨rfl, -⟩ | ⟨rfl, -⟩
      · exact ⟨nofun, nofun⟩
      · exact ⟨nofun, nofun⟩
  | bidcosRefused next state towards =>
      rcases towards with rfl | ⟨rfl, -⟩
      · exact ⟨nofun, nofun⟩
      · exact ⟨nofun, nofun⟩
  | mcuType | version | hmipRfAddress | sgtinDerived | sgtinFinished | sgtinOther | serial
  | legacyVersion | legacyBidcosRfAddress => exact ⟨nofun, nofun⟩

theorem handled_complete {detector after : Detector} {frame : HMFrame}
    (handled : Handled detector frame after)
    (begun : detector.detectState ≠ .startBl ∧ detector.detectState ≠ .startApp)
    (unnamed : detector.detectState = .getMcuType → ackedWith hmDstTrx hmCmdTrxAck 2 1 frame = true →
      (RadioModuleType.ofByte (frame.data.getD 1 0)).supported = false)
    (complete : detector.radioModuleType.supported = true → detector.detectState = .finished)
    (supported : after.radioModuleType.supported = true) : after.detectState = .finished := by
  have other : ∀ {state : DetectState}, detector.detectState = state → state ≠ .finished →
      detector.radioModuleType.supported = true → after.detectState = .finished := by
    intro state here unfinished supported
    rw [complete supported] at here
    exact absurd here.symm unfinished
  -- A reply names a supported type only with the final state, or leaves the type as it was.
  cases handled with
  | ignored => exact complete supported
  | bootloader state => exact absurd state begun.1
  | restart destination command state => exact absurd state begun.1
  | startApp destination command state => exact absurd state begun.2
  | app state => exact absurd state begun.2
  | legacyApp sgtin state => exact absurd state begun.2
  | mcuType state hit =>
      have missing := unnamed state hit
      rw [show (RadioModuleType.ofByte (frame.data.getD 1 0)).supported = true from supported]
        at missing
      cases missing
  | version version state => exact other state nofun supported
  | hmipRfAddress state => exact other state nofun supported
  | sgtinDerived sgtin serial state => exact other state nofun supported
  | sgtinFinished => rfl
  | sgtinOther sgtin state => exact other state nofun supported
  | bidcosRfAddress mac next state => exact other state nofun supported
  | bidcosRefused next state => exact other state nofun supported
  | serial => rfl
  | legacyVersion version state => exact other state nofun supported
  | legacyBidcosRfAddress state => exact other state nofun supported

theorem settled_early {detection : Detection} (early : ¬ Late detection.phase) :
    Settled detection :=
  ⟨fun late => absurd late early, fun left => absurd left.late early⟩

theorem settled_taken {detection after : Detection} {next : MainPhase} (early : ¬ Late next)
    (done : detection.taken next = some after) : Settled after := by
  unfold Detection.taken at done
  split at done
  · cases done
  · cases done
    exact settled_early early

theorem request_begun (detector : Detector) :
    detector.request.detectState ≠ .startBl ∧ detector.request.detectState ≠ .startApp := by
  unfold Detector.request
  cases state : detector.detectState with
  | startBl | startApp => exact ⟨nofun, nofun⟩
  | getMcuType | getVersion | getHmipRfAddress | getSgtin | getBidcosRfAddress | getSerial
  | legacyGetVersion | legacyGetBidcosRfAddress | legacyGetSerial | finished =>
      simp [Detector.sendFrame, state]

theorem settled_main {detection after : Detection} (held : Settled detection)
    (done : detection.mainStep = some after) : Settled after := by
  unfold Detection.mainStep at done
  cases phase : detection.phase with
  | blCheck =>
      simp only [phase] at done
      split at done
      · cases done
        exact settled_early (by simp [Late])
      · cases done
        exact settled_early (by simp [Late])
  | blBody | appBody =>
      simp only [phase] at done
      cases done
      exact settled_early (by simp [Late])
  | blWaitCommon | blWaitHmsystem | appWaitCommon | appWaitHmsystem | waiting =>
      simp only [phase] at done
      exact settled_taken (by simp [Late]) done
  | appCheck =>
      simp only [phase] at done
      split at done
      · cases done
        exact settled_early (by simp [Late])
      · cases done
        exact settled_early (by simp [Late])
  | switching =>
      simp only [phase] at done
      cases done
      exact ⟨fun _ => request_begun detection.detector, by simp [Left]⟩
  | checking =>
      simp only [phase] at done
      have begun := held.begun (.inl phase)
      split at done
      · rename_i finished
        cases done
        exact ⟨fun _ => begun, fun _ _ => finished⟩
      · cases done
        exact ⟨fun _ => begun, by simp [Left]⟩
  | ended =>
      simp only [phase] at done
      cases done
      exact ⟨fun _ => held.begun (.inr (.inr (.inl phase))), fun _ => held.complete (.inl phase)⟩
  | returned =>
      simp only [phase] at done
      cases done

theorem settled_timeout {detection after : Detection} (held : Settled detection)
    (answered : Answered detection .timeout) (done : detection.timeoutStep = some after) :
    Settled after := by
  unfold Detection.timeoutStep at done
  dsimp only at done
  split at done
  · cases done
  · split at done
    case h_5 phase =>
      cases done
      refine ⟨fun _ => held.begun (.inr (.inl phase)), fun _ supported => ?_⟩
      have missing := answered phase
      rw [show detection.detector.radioModuleType.supported = true from supported] at missing
      cases missing
    case h_6 => cases done
    all_goals
      cases done
      exact settled_early (by simp [Late])

theorem settled_frame {detection : Detection} {buffer : List UInt8} {detector : Detector}
    (held : Settled detection) (answered : Answered detection (.frame buffer))
    (running : detection.phase ≠ .returned)
    (done : detection.detector.handleFrame buffer = some detector) :
    Settled ⟨detector, detection.phase⟩ := by
  rcases handleFrame_handled done with rfl | ⟨frame, parsed, handled⟩
  · exact held
  · refine ⟨fun late => handled_begun handled (held.begun late), ?_⟩
    intro left supported
    have ended : detection.phase = .ended := left.resolve_right running
    exact handled_complete handled (held.begun left.late)
      (fun state => answered ended state frame parsed) (held.complete left) supported

theorem settled_step {detection after : Detection} (act : DetectAct) (held : Settled detection)
    (answered : Answered detection act) (taken : detection.step act = some after) :
    Settled after := by
  cases act with
  | frame buffer =>
      rw [Detection.step] at taken
      split at taken
      · cases taken
      · rename_i running
        obtain ⟨detector, done, rfl⟩ := Option.map_eq_some_iff.mp taken
        exact settled_frame held answered running done
  | main => exact settled_main held taken
  | timeout => exact settled_timeout held answered taken

theorem settled_reachable {detection : Detection}
    (reached : Reachable Detection.step Answered (· = started) detection) : Settled detection := by
  induction reached with
  | start initial =>
      rw [initial]
      exact settled_early (by simp [Late, started])
  | next act _ answered taken ih => exact settled_step act ih answered taken

/-- If every request is answered once the type is known, a detection that `main`
reports with a zero exit code is a finished one. -/
theorem exit_zero_finished {detection : Detection}
    (reached : Reachable Detection.step Answered (· = started) detection)
    (returned : detection.phase = .returned)
    (zero : (mainReport detection.detector).exitCode = 0) :
    detection.detector.detectState = .finished := by
  have settled := settled_reachable reached
  exact settled.complete (.inr returned) ((exitCode_zero_iff _).mp zero)

def legacyIdentified : List DetectAct :=
  [.main, .main, received hmDstHmsystem 0 (ascii "Co_CPU_BL"), .main, .main, .main, .main,
    received hmDstHmsystem 0 (ascii "Co_CPU_App"), .main, .main, .main, .main]

def legacyAnswers : List DetectAct :=
  [received hmDstHmsystem hmCmdHmsystemAck [2, 0, 0, 0, 2, 8, 6], .main, .main, .main,
    received hmDstTrx hmCmdTrxAck [1, 0, 0, 0x4f, 0x31, 0x7a], .main, .main, .main,
    received hmDstHmsystem hmCmdHmsystemAck (2 :: ascii "NEQ1234567"), .main, .main, .main, .main]

def answeredGuard (detection : Detection) : DetectAct → Bool
  | .main => true
  | .timeout => detection.phase ≠ .waiting
  | .frame _ => detection.phase ≠ .ended

theorem answeredGuard_sound (detection : Detection) (act : DetectAct)
    (passed : answeredGuard detection act = true) : Answered detection act := by
  cases act with
  | main => trivial
  | timeout =>
      intro waiting
      exact absurd waiting (of_decide_eq_true passed)
  | frame buffer =>
      intro ended
      exact absurd ended (of_decide_eq_true passed)

theorem exit_zero_finished_legacy :
    ∃ detection, Reachable Detection.step Answered (· = started) detection ∧
      detection.phase = .returned ∧ (mainReport detection.detector).exitCode = 0 ∧
      detection.detector.detectState = .finished := by
  have ran : ((run Detection.step answeredGuard started (legacyIdentified ++ legacyAnswers)).map
      fun detection => (detection.phase, (mainReport detection.detector).exitCode)) =
        some (.returned, 0) := by
    decide +kernel
  obtain ⟨detection, taken, fields⟩ := Option.map_eq_some_iff.mp ran
  obtain ⟨returned, zero⟩ := Prod.mk.inj fields
  have reached : Reachable Detection.step Answered (· = started) detection :=
    run_reachable answeredGuard_sound _ (.start rfl) taken
  exact ⟨detection, reached, returned, zero, exit_zero_finished reached returned zero⟩

/-- The version request is not answered: the exit code is zero, with an empty
serial number. -/
theorem unanswered_exit_zero :
    ¬ ∀ detection, Reachable Detection.step (fun _ _ => True) (· = started) detection →
      detection.phase = .returned → (mainReport detection.detector).exitCode = 0 →
      detection.detector.detectState = .finished := by
  intro claimed
  have ran : ((run Detection.step (fun _ _ => true) started
      (legacyIdentified ++ [.timeout, .main])).map
      fun detection => (detection.phase, (mainReport detection.detector).exitCode,
        detection.detector.detectState, cString detection.detector.serial)) =
        some (.returned, 0, .legacyGetVersion, []) := by
    decide +kernel
  obtain ⟨detection, taken, fields⟩ := Option.map_eq_some_iff.mp ran
  simp only [Prod.mk.injEq] at fields
  obtain ⟨returned, zero, state, -⟩ := fields
  have reached : Reachable Detection.step (fun _ _ => True) (· = started) detection :=
    run_reachable (fun _ _ _ => trivial) _ (.start rfl) taken
  have finished := claimed detection reached returned zero
  rw [state] at finished
  cases finished

end PiVccu.RadioModuleOutcome
