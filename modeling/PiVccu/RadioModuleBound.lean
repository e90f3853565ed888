import PiVccu.RadioModuleDialogue

/-!
How long a detection can take. Every reply that is accepted moves the dialogue
forward, with one exception: a refused BidCos address leaves a module of another
type where it is and still wakes the main thread, which asks again.
-/

namespace PiVccu.RadioModuleBound
open RadioModuleDetector RadioModuleDialogue Transition

def rank : DetectState → Nat
  | .startBl => 0
  | .startApp => 1
  | .getMcuType => 2
  | .getVersion => 3
  | .getHmipRfAddress => 4
  | .getSgtin => 5
  | .getBidcosRfAddress => 6
  | .getSerial => 7
  | .legacyGetVersion => 2
  | .legacyGetBidcosRfAddress => 3
  | .legacyGetSerial => 4
  | .finished => 8

theorem rank_le (state : DetectState) : rank state ≤ 8 := by
  cases state <;> decide

/-- A frame that refuses the BidCos address to a module whose dialogue does not end
with it. -/
def Stalls (detection : Detection) : DetectAct → Prop
  | .frame buffer => detection.detector.detectState = .getBidcosRfAddress ∧
      detection.detector.radioModuleType ≠ .rpiRfMod ∧
      detection.detector.radioModuleType ≠ .hmipRfusb ∧
      ∃ frame, HMFrame.tryParse buffer (UInt16.ofNat buffer.length) = some frame ∧
        ackedWith hmDstLlmac hmCmdLlmacAck 1 0 frame = true
  | .main => False
  | .timeout => False

/-- What a frame does to the dialogue: nothing, or a step forward that gives the
semaphore. -/
inductive Advance (detector after : Detector) : Prop where
  | stays (state : after.detectState = detector.detectState)
      (semaphore : after.semaphore = detector.semaphore)
      (replies : after.replies = detector.replies)
      (retries : after.detectRetryCount = detector.detectRetryCount)
  | moves (frame : HMFrame) (forward : rank detector.detectState < rank after.detectState)
      (semaphore : after.semaphore = detector.semaphore + 1)
      (replies : after.replies = detector.replies ++ [(detector.detectState, frame)])
      (retries : after.detectRetryCount = detector.detectRetryCount)

theorem Advance.proceed {detector base : Detector} (frame : HMFrame) {next : DetectState}
    (forward : rank detector.detectState < rank next)
    (state : base.detectState = detector.detectState)
    (semaphore : base.semaphore = detector.semaphore) (replies : base.replies = detector.replies)
    (retries : base.detectRetryCount = detector.detectRetryCount) :
    Advance detector (base.proceed frame next) := by
  refine .moves frame forward ?_ ?_ retries
  · exact congrArg (· + 1) semaphore
  · change base.replies ++ [(base.detectState, frame)] = _
    rw [replies, state]

theorem advance_handled {detector after : Detector} {frame : HMFrame}
    (handled : Handled detector frame after)
    (other : detector.detectState ≠ .getBidcosRfAddress) : Advance detector after := by
  cases handled with
  | ignored | restart | startApp => exact .stays rfl rfl rfl rfl
  | bidcosRfAddress mac next state => exact absurd state other
  | bidcosRefused next state => exact absurd state other
  | serial number state =>
      refine .proceed frame ?_ rfl rfl rfl rfl
      rcases state with state | state
      · rw [state]
        decide
      · rw [state]
        decide
  | bootloader state | app state | legacyApp _ state | mcuType state | version _ state
  | hmipRfAddress state | sgtinDerived _ _ state | sgtinFinished _ _ state | sgtinOther _ state
  | legacyVersion _ state | legacyBidcosRfAddress state =>
      refine .proceed frame ?_ rfl rfl rfl rfl
      rw [state]
      decide

theorem advance_bidcos {detector : Detector} {frame : HMFrame}
    (state : detector.detectState = .getBidcosRfAddress)
    (ends : ackedWith hmDstLlmac hmCmdLlmacAck 1 0 frame = true →
      detector.radioModuleType = .rpiRfMod ∨ detector.radioModuleType = .hmipRfusb) :
    Advance detector (detector.handleBidcosRfAddress frame) := by
  unfold Detector.handleBidcosRfAddress
  split
  · refine .proceed frame ?_ rfl rfl rfl rfl
    rw [state]
    split <;> decide
  · split
    · rename_i refused
      refine .proceed frame ?_ rfl rfl rfl rfl
      rw [state]
      rcases ends refused with type | type
      · rw [type]
        decide
      · rw [type]
        decide
    · exact .stays rfl rfl rfl rfl

theorem advance_frame {detection : Detection} {buffer : List UInt8} {after : Detector}
    (kept : ¬ Stalls detection (.frame buffer))
    (done : detection.detector.handleFrame buffer = some after) :
    Advance detection.detector after := by
  rcases handleFrame_handled done with same | ⟨frame, parsed, handled⟩
  · rw [same]
    exact .stays rfl rfl rfl rfl
  · by_cases state : detection.detector.detectState = .getBidcosRfAddress
    -- `Handled` forgets which of the two answers it was, so the handler is looked at itself.
    · unfold Detector.handleFrame at done
      simp only [parsed, state] at done
      cases done
      refine advance_bidcos state ?_
      intro refused
      by_contra type
      rw [not_or] at type
      exact kept ⟨state, type.1, type.2, frame, parsed, refused⟩
    · exact advance_handled handled state

/-- What is left to the main thread until it returns, if the semaphore is not given
any more. -/
def position : MainPhase → Nat → Nat
  | .blCheck, retries => 18 + 5 * (3 - retries) + 4
  | .blBody, retries => 18 + 5 * (3 - retries) + 3
  | .blWaitCommon, retries => 18 + 5 * (3 - retries) + 2
  | .blWaitHmsystem, retries => 18 + 5 * (3 - retries) + 1
  | .appCheck, retries => 2 + 5 * (3 - retries) + 4
  | .appBody, retries => 2 + 5 * (3 - retries) + 3
  | .appWaitCommon, retries => 2 + 5 * (3 - retries) + 2
  | .appWaitHmsystem, retries => 2 + 5 * (3 - retries) + 1
  | .switching, _ => 5
  | .checking, _ => 4
  | .waiting, _ => 3
  | .ended, _ => 2
  | .returned, _ => 0

/-- A successful wait sets the main thread back by at most three places. Every state
that the dialogue has left gives the semaphore at most once. -/
def remaining (detection : Detection) : Nat :=
  4 * (detection.detector.semaphore + (8 - rank detection.detector.detectState)) +
    position detection.phase detection.detector.detectRetryCount

def inRound : MainPhase → Bool
  | .blBody | .blWaitCommon | .blWaitHmsystem | .appBody | .appWaitCommon | .appWaitHmsystem => true
  | _ => false

structure Paced (detection : Detection) : Prop where
  round : inRound detection.phase = true → detection.detector.detectRetryCount < 3
  earlier : ∀ reply ∈ detection.detector.replies,
    rank reply.1 < rank detection.detector.detectState
  ordered : (detection.detector.replies.map fun reply => rank reply.1).Pairwise (· < ·)
  given : detection.detector.semaphore ≤ detection.detector.replies.length

/-- Everything a step of the main thread can do: it comes closer to its end, or it
takes the semaphore. -/
inductive Moved (detection after : Detection) : Prop where
  | turns
      (closer : position after.phase after.detector.detectRetryCount <
        position detection.phase detection.detector.detectRetryCount)
      (state : after.detector.detectState = detection.detector.detectState ∨
        after.detector.detectState = .finished)
      (semaphore : after.detector.semaphore = detection.detector.semaphore)
      (replies : after.detector.replies = detection.detector.replies)
      (round : inRound after.phase = true → after.detector.detectRetryCount < 3)
      (sent : after.detector.sent.length ≤ detection.detector.sent.length + 1)
  | wakes
      (back : position after.phase after.detector.detectRetryCount ≤
        position detection.phase detection.detector.detectRetryCount + 3)
      (state : after.detector.detectState = detection.detector.detectState)
      (semaphore : after.detector.semaphore + 1 = detection.detector.semaphore)
      (replies : after.detector.replies = detection.detector.replies)
      (round : inRound after.phase = false)
      (sent : after.detector.sent = detection.detector.sent)

theorem sendFrame_sent (detector : Detector) (destination command : UInt8) :
    (detector.sendFrame destination command).sent.length ≤ detector.sent.length + 1 := by
  simp [Detector.sendFrame]

theorem moved_taken {detection after : Detection} {next : MainPhase}
    (done : detection.taken next = some after) (outside : inRound next = false)
    (back : position next detection.detector.detectRetryCount ≤
      position detection.phase detection.detector.detectRetryCount + 3) :
    Moved detection after := by
  unfold Detection.taken at done
  split at done
  · cases done
  · rename_i given
    cases done
    exact .wakes back rfl (Nat.sub_add_cancel (Nat.one_le_iff_ne_zero.mpr given)) rfl outside rfl

theorem request_fields (detector : Detector) :
    (detector.request.detectState = detector.detectState ∨
        detector.request.detectState = .finished) ∧
      detector.request.semaphore = detector.semaphore ∧
      detector.request.replies = detector.replies ∧
      detector.request.sent.length ≤ detector.sent.length + 1 := by
  unfold Detector.request
  split
  case h_1 => exact ⟨.inr rfl, rfl, rfl, Nat.le_succ _⟩
  case h_2 => exact ⟨.inr rfl, rfl, rfl, Nat.le_succ _⟩
  case h_12 => exact ⟨.inl rfl, rfl, rfl, Nat.le_succ _⟩
  all_goals exact ⟨.inl rfl, rfl, rfl, sendFrame_sent _ _ _⟩

theorem Moved.turn {detection : Detection} {here next : MainPhase} (retries : Nat)
    (phase : detection.phase = here)
    (closer : position next retries < position here detection.detector.detectRetryCount)
    (round : inRound next = true → retries < 3) :
    Moved detection ⟨{ detection.detector with detectRetryCount := retries }, next⟩ := by
  refine .turns ?_ (.inl rfl) rfl rfl round (Nat.le_succ _)
  rw [phase]
  exact closer

theorem Moved.identifies {detection : Detection} {here next : MainPhase} {type : RadioModuleType}
    (destination command : UInt8) (paced : Paced detection) (phase : detection.phase = here)
    (inside : inRound here = true)
    (closer : position next detection.detector.detectRetryCount <
      position here detection.detector.detectRetryCount) :
    Moved detection
      ⟨{ detection.detector with radioModuleType := type }.sendFrame destination command, next⟩ := by
  have round := paced.round
  rw [phase] at round
  refine .turns ?_ (.inl rfl) rfl rfl (fun _ => round inside) (sendFrame_sent _ _ _)
  rw [phase]
  exact closer

theorem moved_main {detection after : Detection} (paced : Paced detection)
    (done : detection.mainStep = some after) : Moved detection after := by
  unfold Detection.mainStep at done
  -- The measure falls in the loops over the retries by their counter, elsewhere by the phase.
  cases phase : detection.phase with
  | blCheck =>
      simp only [phase] at done
      split at done
      · rename_i again
        cases done
        exact .turn _ phase (Nat.lt_succ_self _) fun _ => again.2
      · cases done
        refine .turn 0 phase ?_ nofun
        simp only [position]
        omega
  | blBody =>
      simp only [phase] at done
      cases done
      exact .identifies _ _ paced phase rfl (Nat.lt_succ_self _)
  | blWaitCommon | blWaitHmsystem =>
      simp only [phase] at done
      refine moved_taken done rfl ?_
      rw [phase]
      simp only [position]
      omega
  | appCheck =>
      simp only [phase] at done
      split at done
      · rename_i again
        cases done
        exact .turn _ phase (Nat.lt_succ_self _) fun _ => again.2
      · cases done
        refine .turn _ phase ?_ nofun
        simp only [position]
        omega
  | appBody =>
      simp only [phase] at done
      cases done
      exact .identifies _ _ paced phase rfl (Nat.lt_succ_self _)
  | appWaitCommon | appWaitHmsystem =>
      simp only [phase] at done
      refine moved_taken done rfl ?_
      rw [phase]
      simp only [position]
      omega
  | switching =>
      simp only [phase] at done
      cases done
      obtain ⟨state, semaphore, replies, sent⟩ := request_fields detection.detector
      refine .turns ?_ state semaphore replies nofun sent
      rw [phase]
      exact Nat.lt_succ_self 4
  | checking =>
      simp only [phase] at done
      split at done
      · cases done
        exact .turn _ phase (show 2 < 4 by decide) nofun
      · cases done
        exact .turn _ phase (Nat.lt_succ_self 3) nofun
  | waiting =>
      simp only [phase] at done
      refine moved_taken done rfl ?_
      rw [phase]
      change 5 ≤ 3 + 3
      decide
  | ended =>
      simp only [phase] at done
      cases done
      exact .turn _ phase (show 0 < 2 by decide) nofun
  | returned =>
      simp only [phase] at done
      cases done

theorem moved_timeout {detection after : Detection} (paced : Paced detection)
    (done : detection.timeoutStep = some after) : Moved detection after := by
  have round := paced.round
  unfold Detection.timeoutStep at done
  dsimp only at done
  split at done
  · cases done
  · split at done
    · rename_i phase
      cases done
      exact .identifies _ _ paced phase rfl (Nat.lt_succ_self _)
    · rename_i phase
      cases done
      exact .identifies _ _ paced phase rfl (Nat.lt_succ_self _)
    -- The round has failed, and the count of the failed ones grows.
    · rename_i phase
      cases done
      rw [phase] at round
      have few := round rfl
      refine .turn _ phase ?_ nofun
      simp only [position]
      omega
    · rename_i phase
      cases done
      rw [phase] at round
      have few := round rfl
      refine .turn _ phase ?_ nofun
      simp only [position]
      omega
    · rename_i phase
      cases done
      exact .turn _ phase (Nat.lt_succ_self 2) nofun
    · cases done

theorem rank_forward {before after : DetectState} (state : after = before ∨ after = .finished) :
    rank before ≤ rank after := by
  rcases state with rfl | rfl
  · exact Nat.le_refl _
  · exact rank_le before

theorem paced_moved {detection after : Detection} (paced : Paced detection)
    (moved : Moved detection after) : Paced after := by
  cases moved with
  | turns closer state semaphore replies round sent =>
      refine ⟨round, ?_, by rw [replies]; exact paced.ordered, by
        rw [semaphore, replies]; exact paced.given⟩
      intro reply member
      rw [replies] at member
      exact Nat.lt_of_lt_of_le (paced.earlier reply member) (rank_forward state)
  | wakes back state semaphore replies round sent =>
      refine ⟨fun inside => ?_, ?_, by rw [replies]; exact paced.ordered, ?_⟩
      · rw [round] at inside
        cases inside
      · rw [state, replies]
        exact paced.earlier
      · have given := paced.given
        rw [replies]
        omega

theorem paced_advance {detection : Detection} {after : Detector} (paced : Paced detection)
    (advance : Advance detection.detector after) : Paced ⟨after, detection.phase⟩ := by
  cases advance with
  | stays state semaphore replies retries =>
      refine ⟨?_, ?_, ?_, ?_⟩
      · rw [retries]
        exact paced.round
      · rw [replies, state]
        exact paced.earlier
      · rw [replies]
        exact paced.ordered
      · rw [semaphore, replies]
        exact paced.given
  | moves frame forward semaphore replies retries =>
      refine ⟨?_, ?_, ?_, ?_⟩
      · rw [retries]
        exact paced.round
      · intro reply member
        rw [replies, List.mem_append, List.mem_singleton] at member
        rcases member with old | rfl
        · exact Nat.lt_trans (paced.earlier reply old) forward
        · exact forward
      · rw [replies, List.map_append, List.pairwise_append]
        refine ⟨paced.ordered, List.pairwise_singleton _ _, ?_⟩
        intro old member new newest
        obtain ⟨reply, there, rfl⟩ := List.mem_map.mp member
        cases List.mem_singleton.mp newest
        exact paced.earlier reply there
      · have given := paced.given
        rw [semaphore, replies, List.length_append, List.length_singleton]
        omega

def mainRequests (before : Detection) (act : DetectAct) (after : Detection) : Nat :=
  match act with
  | .frame _ => 0
  | _ => after.detector.sent.length - before.detector.sent.length

def mainSteps (_ : Detection) (act : DetectAct) (_ : Detection) : Nat :=
  match act with
  | .frame _ => 0
  | _ => 1

/-- The waits that succeed: each takes the semaphore once. -/
def successfulWaits (before : Detection) (act : DetectAct) (after : Detection) : Nat :=
  match act with
  | .frame _ => 0
  | _ => before.detector.semaphore - after.detector.semaphore

theorem step_moves {detection after : Detection} {act : DetectAct} (paced : Paced detection)
    (kept : ¬ Stalls detection act) (done : detection.step act = some after) :
    (∃ buffer, act = .frame buffer ∧ after.phase = detection.phase ∧
        Advance detection.detector after.detector) ∨
      ((act = .main ∨ act = .timeout) ∧ Moved detection after) := by
  cases act with
  | frame buffer =>
      rw [Detection.step] at done
      split at done
      · cases done
      · obtain ⟨detector, handled, rfl⟩ := Option.map_eq_some_iff.mp done
        exact .inl ⟨buffer, rfl, rfl, advance_frame kept handled⟩
  | main => exact .inr ⟨.inl rfl, moved_main paced done⟩
  | timeout => exact .inr ⟨.inr rfl, moved_timeout paced done⟩

theorem paced_step {detection after : Detection} {act : DetectAct} (paced : Paced detection)
    (kept : ¬ Stalls detection act) (done : detection.step act = some after) : Paced after := by
  rcases step_moves paced kept done with ⟨buffer, rfl, phase, advance⟩ | ⟨-, moved⟩
  · have same := paced_advance paced advance
    rwa [← phase] at same
  · exact paced_moved paced moved

theorem remaining_advance {detection after : Detection} (phase : after.phase = detection.phase)
    (advance : Advance detection.detector after.detector) :
    remaining after ≤ remaining detection := by
  unfold remaining
  rw [phase]
  cases advance with
  | stays state semaphore replies retries => rw [state, semaphore, retries]
  | moves frame forward semaphore replies retries =>
      have bound := rank_le after.detector.detectState
      rw [semaphore, retries]
      omega

theorem remaining_moved {detection after : Detection} (moved : Moved detection after) :
    remaining after < remaining detection ∧
      after.detector.sent.length ≤ detection.detector.sent.length + 1 := by
  unfold remaining
  cases moved with
  | turns closer state semaphore replies round sent =>
      have forward := rank_forward state
      rw [semaphore]
      exact ⟨by omega, sent⟩
  | wakes back state semaphore replies round sent =>
      rw [state, sent, ← semaphore]
      exact ⟨by omega, Nat.le_succ _⟩

theorem main_goes_on (detection : Detection) (running : detection.phase ≠ .returned) :
    ∃ act after, (act = .main ∨ act = .timeout) ∧ detection.step act = some after := by
  have waits : ∀ {next : MainPhase}, detection.mainStep = detection.taken next →
      (detection.detector.semaphore = 0 → ∃ after, detection.timeoutStep = some after) →
      ∃ act after, (act = .main ∨ act = .timeout) ∧ detection.step act = some after := by
    intro next main timeout
    by_cases given : detection.detector.semaphore = 0
    · obtain ⟨after, done⟩ := timeout given
      exact ⟨.timeout, after, .inr rfl, done⟩
    · exact ⟨.main, _, .inl rfl, main.trans (if_neg given)⟩
  cases phase : detection.phase with
  | blCheck | appCheck | checking =>
      refine ⟨.main, ?_⟩
      simp only [true_or, true_and, Detection.step, Detection.mainStep, phase]
      split <;> exact ⟨_, rfl⟩
  | blBody | appBody | switching | ended =>
      refine ⟨.main, ?_⟩
      simp only [true_or, true_and, Detection.step, Detection.mainStep, phase]
      exact ⟨_, rfl⟩
  | blWaitCommon | blWaitHmsystem | appWaitCommon | appWaitHmsystem | waiting =>
      refine waits (by simp only [Detection.mainStep, phase]; rfl) ?_
      intro empty
      simp only [Detection.timeoutStep, phase, empty, ne_eq, not_true_eq_false, ↓reduceIte]
      exact ⟨_, rfl⟩
  | returned => exact absurd phase running

def requestBound : Nat := 69

theorem started_paced : Paced started := ⟨nofun, nofun, List.Pairwise.nil, Nat.le_refl _⟩

theorem paced_kept (detection : Detection) (act : DetectAct) (after : Detection)
    (paced : Paced detection) (kept : ¬ Stalls detection act)
    (done : detection.step act = some after) : Paced after :=
  paced_step paced kept done

theorem mainSteps_falls (detection : Detection) (act : DetectAct) (after : Detection)
    (paced : Paced detection) (kept : ¬ Stalls detection act)
    (done : detection.step act = some after) :
    mainSteps detection act after + remaining after ≤ remaining detection := by
  rcases step_moves paced kept done with ⟨buffer, rfl, phase, advance⟩ | ⟨own, moved⟩
  · have falls := remaining_advance phase advance
    exact Nat.le_trans (Nat.le_of_eq (Nat.zero_add _)) falls
  · have falls := (remaining_moved moved).1
    rcases own with rfl | rfl
    · exact Nat.le_trans (Nat.le_of_eq (Nat.add_comm _ _)) falls
    · exact Nat.le_trans (Nat.le_of_eq (Nat.add_comm _ _)) falls

theorem mainRequests_falls (detection : Detection) (act : DetectAct) (after : Detection)
    (paced : Paced detection) (kept : ¬ Stalls detection act)
    (done : detection.step act = some after) :
    mainRequests detection act after + remaining after ≤ remaining detection := by
  -- A step sends at most one request, so the bound on the steps is one on the requests.
  have steps := mainSteps_falls detection act after paced kept done
  have fewer : mainRequests detection act after ≤ mainSteps detection act after := by
    rcases step_moves paced kept done with ⟨buffer, rfl, -, -⟩ | ⟨own, moved⟩
    · exact Nat.le_refl 0
    · have sent := (remaining_moved moved).2
      rcases own with rfl | rfl
      · exact Nat.sub_le_of_le_add (Nat.le_trans sent (Nat.le_of_eq (Nat.add_comm _ _)))
      · exact Nat.sub_le_of_le_add (Nat.le_trans sent (Nat.le_of_eq (Nat.add_comm _ _)))
  omega

def answeredReplies (detection : Detection) : Nat :=
  detection.detector.replies.length - detection.detector.semaphore

theorem successfulWaits_rises (detection : Detection) (act : DetectAct) (after : Detection)
    (paced : Paced detection) (kept : ¬ Stalls detection act)
    (done : detection.step act = some after) :
    answeredReplies detection + successfulWaits detection act after = answeredReplies after := by
  have given := paced.given
  unfold answeredReplies
  rcases step_moves paced kept done with ⟨buffer, rfl, phase, advance⟩ | ⟨own, moved⟩
  · change _ + 0 = _
    cases advance with
    | stays state semaphore replies retries => rw [semaphore, replies, Nat.add_zero]
    | moves frame forward semaphore replies retries =>
        rw [semaphore, replies, List.length_append, List.length_singleton]
        omega
  · have weight : successfulWaits detection act after =
        detection.detector.semaphore - after.detector.semaphore := by
      rcases own with rfl | rfl <;> rfl
    rw [weight]
    cases moved with
    | turns closer state semaphore replies round sent => rw [semaphore, replies, Nat.sub_self, Nat.add_zero]
    | wakes back state semaphore replies round sent =>
        rw [replies]
        omega

/-- A detection in which no refusal stalls the dialogue: the main thread makes a
bounded number of steps and requests, it can always go on until it has returned, and
each wait that succeeds belongs to a reply in a state of its own. -/
theorem dialogue_bounded (acts : List DetectAct) (final : Detection)
    (kept : Meets Detection.step (fun detection act => ¬ Stalls detection act) started acts)
    (ran : runAll Detection.step started acts = some final) :
    tally Detection.step mainRequests started acts ≤ requestBound ∧
    tally Detection.step mainSteps started acts ≤ requestBound ∧
    (final.phase ≠ .returned →
      ∃ act after, (act = .main ∨ act = .timeout) ∧ final.step act = some after) ∧
    tally Detection.step successfulWaits started acts + final.detector.semaphore =
      final.detector.replies.length ∧
    (final.detector.replies.map Prod.fst).Nodup := by
  have requests := tally_le_measure paced_kept mainRequests_falls acts started_paced kept ran
  have steps := tally_le_measure paced_kept mainSteps_falls acts started_paced kept ran
  have waits := tally_eq_potential paced_kept successfulWaits_rises acts started_paced kept ran
  have paced := runAll_admitted paced_kept acts started_paced kept ran
  have begin' : remaining started = requestBound := by decide
  rw [begin'] at requests steps
  refine ⟨by omega, by omega, main_goes_on final, ?_, ?_⟩
  · have given := paced.given
    have none : answeredReplies started = 0 := rfl
    rw [none, Nat.zero_add, answeredReplies] at waits
    omega
  · refine List.pairwise_map.mpr ((List.pairwise_map.mp paced.ordered).imp ?_)
    intro first second less same
    rw [same] at less
    exact Nat.lt_irrefl _ less

/-- A module of a legacy type behind a new application, up to the request for its
BidCos address. -/
def pcbReplies : List DetectAct :=
  [.main, .main, received hmDstCommon 0 (ascii "HMIP_TRX_Bl"), .main, .main, .main, .main,
    received hmDstCommon 0 (ascii "DualCoPro_App"), .main, .main, .main, .main,
    received hmDstTrx hmCmdTrxAck [1, 3], .main, .main, .main,
    received hmDstTrx hmCmdTrxAck [1, 2, 8, 6, 0, 0, 0, 0, 0, 0], .main, .main, .main,
    received hmDstHmip hmCmdHmipAck [1, 0x10, 0x20, 0x30], .main, .main, .main,
    received hmDstCommon hmCmdCommonAck
      [1, 0x30, 0x14, 0xf7, 0x11, 0xa0, 0, 0x1f, 0x58, 0xa9, 0xa7, 0x12, 0x34], .main]

def answeredRun : List DetectAct :=
  pcbReplies ++ [.main, .main, received hmDstLlmac hmCmdLlmacAck [1, 0x4f, 0x68, 0xf1], .main, .main,
    .main, received hmDstLlmac hmCmdLlmacAck (1 :: ascii "KEQ1234567"), .main, .main, .main, .main]

def refuses : DetectAct → Bool
  | .frame buffer => (HMFrame.tryParse buffer (UInt16.ofNat buffer.length)).any fun frame =>
      ackedWith hmDstLlmac hmCmdLlmacAck 1 0 frame
  | _ => false

theorem dialogue_bounded_answered : ∃ final,
    runAll Detection.step started answeredRun = some final ∧ final.phase = .returned ∧
      tally Detection.step successfulWaits started answeredRun = 8 ∧
      final.detector.replies.length = 8 ∧ (final.detector.replies.map Prod.fst).Nodup := by
  have ran : ((runAll Detection.step started answeredRun).map fun final =>
      (final.phase, final.detector.semaphore)) = some (.returned, 0) := by
    decide +kernel
  obtain ⟨final, done, facts⟩ := Option.map_eq_some_iff.mp ran
  obtain ⟨returned, taken⟩ := Prod.mk.inj facts
  have accepts : ∀ act ∈ answeredRun, refuses act = false := by decide +kernel
  have kept : Meets Detection.step (fun detection act => ¬ Stalls detection act) started
      answeredRun := by
    refine meets_of_forall ?_ started
    intro detection act member stalls
    cases act with
    | frame buffer =>
        obtain ⟨-, -, -, frame, parsed, refused⟩ := stalls
        have accepted := accepts _ member
        rw [refuses, parsed, Option.any_some, refused] at accepted
        cases accepted
    | main | timeout => exact stalls
  have waits : tally Detection.step successfulWaits started answeredRun = 8 := by decide +kernel
  obtain ⟨-, -, -, replies, apart⟩ := dialogue_bounded answeredRun final kept done
  rw [waits, taken, Nat.add_zero] at replies
  exact ⟨final, done, returned, waits, replies.symm, apart⟩

def refusal : List UInt8 := HmWire.plain hmDstLlmac 0 [hmCmdLlmacAck, 0]

def refusedRound : List DetectAct := [.main, .main, .frame refusal, .main]

structure Stuck (detection : Detection) : Prop where
  phase : detection.phase = .switching
  state : detection.detector.detectState = .getBidcosRfAddress
  type : detection.detector.radioModuleType = .hmModRpiPcb

theorem refusal_parsed : ∃ frame,
    HMFrame.tryParse refusal (UInt16.ofNat refusal.length) = some frame ∧
      ackedWith hmDstLlmac hmCmdLlmacAck 4 1 frame = false ∧
      ackedWith hmDstLlmac hmCmdLlmacAck 1 0 frame = true := by
  have read : ((HMFrame.tryParse refusal (UInt16.ofNat refusal.length)).map fun frame =>
      (ackedWith hmDstLlmac hmCmdLlmacAck 4 1 frame,
        ackedWith hmDstLlmac hmCmdLlmacAck 1 0 frame)) = some (false, true) := by
    decide +kernel
  obtain ⟨frame, parsed, both⟩ := Option.map_eq_some_iff.mp read
  obtain ⟨other, refused⟩ := Prod.mk.inj both
  exact ⟨frame, parsed, other, refused⟩

theorem handleFrame_refusal (detector : Detector)
    (state : detector.detectState = .getBidcosRfAddress)
    (type : detector.radioModuleType = .hmModRpiPcb) : ∃ frame,
    detector.handleFrame refusal = some (detector.proceed frame .getBidcosRfAddress) := by
  obtain ⟨frame, parsed, other, refused⟩ := refusal_parsed
  refine ⟨frame, ?_⟩
  rw [Detector.handleFrame]
  simp only [parsed, state]
  rw [Detector.handleBidcosRfAddress]
  simp only [other, refused, type, state, Bool.false_eq_true, ↓reduceIte]

theorem request_bidcos {detector : Detector} (state : detector.detectState = .getBidcosRfAddress) :
    detector.request = detector.sendFrame hmDstLlmac hmCmdLlmacGetDefaultRfAddr := by
  unfold Detector.request
  rw [state]

/-- One round sends a request and is at its beginning again. -/
theorem stuck_round {detection : Detection} (stuck : Stuck detection) : ∃ after,
    runAll Detection.step detection refusedRound = some after ∧ Stuck after ∧
      tally Detection.step mainRequests detection refusedRound = 1 := by
  obtain ⟨detector, phase⟩ := detection
  obtain ⟨rfl, state, type⟩ := stuck
  let asked := detector.sendFrame hmDstLlmac hmCmdLlmacGetDefaultRfAddr
  obtain ⟨frame, handled⟩ := handleFrame_refusal asked state type
  let woken := asked.proceed frame .getBidcosRfAddress
  let again : Detector := { woken with semaphore := asked.semaphore }
  have asks : Detection.step ⟨detector, .switching⟩ .main = some ⟨asked, .checking⟩ := by
    change some (Detection.mk detector.request .checking) = _
    rw [request_bidcos state]
  have checks : Detection.step ⟨asked, .checking⟩ .main = some ⟨asked, .waiting⟩ := by
    refine if_neg ?_
    rw [show asked.detectState = .getBidcosRfAddress from state]
    intro same
    cases same
  have answers : Detection.step ⟨asked, .waiting⟩ (.frame refusal) = some ⟨woken, .waiting⟩ := by
    have busy : MainPhase.waiting ≠ .returned := by
      intro same
      cases same
    rw [Detection.step, if_neg busy, handled]
    rfl
  have wakes : Detection.step ⟨woken, .waiting⟩ .main = some ⟨again, .switching⟩ := rfl
  -- The semaphore is given and taken again; the type is nowhere written.
  refine ⟨⟨again, .switching⟩, ?_, ⟨rfl, rfl, type⟩, ?_⟩
  · rw [refusedRound, runAll_cons, asks, Option.bind_some, runAll_cons, checks, Option.bind_some,
      runAll_cons, answers, Option.bind_some, runAll_cons, wakes]
    rfl
  · rw [refusedRound, tally_cons asks, tally_cons checks, tally_cons answers, tally_cons wakes]
    have first : asked.sent.length - detector.sent.length = 1 := by
      simp [asked, Detector.sendFrame]
    change (asked.sent.length - detector.sent.length) + ((asked.sent.length - asked.sent.length) +
      (0 + ((asked.sent.length - asked.sent.length) + 0))) = 1
    rw [first, Nat.sub_self]

theorem stuck_rounds (rounds : Nat) {detection : Detection} (stuck : Stuck detection) :
    ∃ acts final, runAll Detection.step detection acts = some final ∧
      tally Detection.step mainRequests detection acts = rounds := by
  induction rounds generalizing detection with
  | zero => exact ⟨[], detection, rfl, rfl⟩
  | succ rounds ih =>
      obtain ⟨after, one, still, sends⟩ := stuck_round stuck
      obtain ⟨acts, final, ran, sent⟩ := ih still
      refine ⟨refusedRound ++ acts, final, ?_, ?_⟩
      · rw [runAll_append, one]
        exact ran
      · rw [tally_append refusedRound acts one, sends, sent, Nat.add_comm]

/-- A module that refuses its address forever keeps the detection running: no number
bounds the requests of all runs. -/
theorem refusals_unbounded : ¬ ∃ bound, ∀ acts final,
    runAll Detection.step started acts = some final →
      tally Detection.step mainRequests started acts ≤ bound := by
  rintro ⟨bound, all⟩
  have reads : ((runAll Detection.step started pcbReplies).map fun detection =>
      (detection.phase, detection.detector.detectState, detection.detector.radioModuleType)) =
        some (.switching, .getBidcosRfAddress, .hmModRpiPcb) := by
    decide +kernel
  obtain ⟨middle, reached, fields⟩ := Option.map_eq_some_iff.mp reads
  obtain ⟨phase, rest⟩ := Prod.mk.inj fields
  obtain ⟨state, type⟩ := Prod.mk.inj rest
  obtain ⟨acts, final, ran, sent⟩ := stuck_rounds (bound + 1) ⟨phase, state, type⟩
  have bounded := all (pcbReplies ++ acts) final (by rw [runAll_append, reached]; exact ran)
  rw [tally_append pcbReplies acts reached, sent] at bounded
  omega

end PiVccu.RadioModuleBound
