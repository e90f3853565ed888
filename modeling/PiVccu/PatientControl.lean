import PiVccu.FakeDialogue

/-!
The control of a detection of the module in `kernel/fake_hmrf.c`: where the two threads
stand, whether the module is in its bootloader, and which answers are on their way. In a
patient run nobody times out while an answer is. That every such run ends with all
inquiries answered is checked by going through them.
-/

namespace PiVccu.PatientControl
open FakeDialogue RadioModuleDetector
open FakeHmrfWrite hiding hmDstTrx hmDstHmip hmDstLlmac hmDstCommon

inductive Answer where
  | systemIdentify
  | systemStartApp
  | commonIdentify
  | commonStartBl
  | mcuType
  | version
  | hmipRfAddress
  | sgtin
  | bidcosRfAddress
  | serial
deriving DecidableEq

namespace Answer

def destination : Answer → UInt8
  | systemIdentify | systemStartApp => hmDstHmsystem
  | commonIdentify | commonStartBl | sgtin => hmDstCommon
  | mcuType | version => hmDstTrx
  | hmipRfAddress => hmDstHmip
  | bidcosRfAddress | serial => hmDstLlmac

def response (parameters : Parameters) : Answer → Response
  | systemIdentify => systemIdentifyResponse
  | systemStartApp => systemStartAppResponse
  | commonIdentify => commonIdentifyResponse
  | commonStartBl => commonStartBlResponse
  | mcuType => ⟨[0x04, 0x01, 0x03], mcuType_fits⟩
  | version => trxGetVersionResponse parameters
  | hmipRfAddress => hmipGetDefaultRfAddressResponse parameters
  | sgtin => commonGetSgtinResponse
  | bidcosRfAddress => llmacGetDefaultRfAddressResponse parameters
  | serial => llmacGetSerialResponse parameters

end Answer

/-- The requests that the module knows, and the one that it does not answer. -/
inductive Ask where
  | commonIdentify
  | systemIdentify
  | startBl
  | changeApp
  | inquiry (answer : Answer)
deriving DecidableEq

namespace Ask

def destination : Ask → UInt8
  | commonIdentify | startBl => hmDstCommon
  | systemIdentify | changeApp => hmDstHmsystem
  | inquiry answer => answer.destination

def command : Ask → UInt8
  | commonIdentify => hmCmdCommonIdentify
  | systemIdentify => hmCmdHmsystemIdentify
  | startBl => hmCmdCommonStartBl
  | changeApp => hmCmdHmsystemChangeApp
  | inquiry .mcuType => hmCmdTrxGetMcuType
  | inquiry .version => hmCmdTrxGetVersion
  | inquiry .hmipRfAddress => hmCmdHmipGetDefaultRfAddr
  | inquiry .sgtin => hmCmdCommonGetSgtin
  | inquiry .bidcosRfAddress => hmCmdLlmacGetDefaultRfAddr
  | inquiry .serial => hmCmdLlmacGetSerial
  | inquiry _ => 0

def reply (isInBl : Bool) : Ask → Bool × Option Answer
  | commonIdentify => (isInBl, if isInBl then none else some .commonIdentify)
  | systemIdentify => (isInBl, if isInBl then some .systemIdentify else none)
  | startBl => (true, some .commonStartBl)
  | changeApp => (false, some .systemStartApp)
  | inquiry answer => (isInBl, some answer)

def ofState : DetectState → Option Ask
  | .getMcuType => some (.inquiry .mcuType)
  | .getVersion => some (.inquiry .version)
  | .getHmipRfAddress => some (.inquiry .hmipRfAddress)
  | .getSgtin => some (.inquiry .sgtin)
  | .getBidcosRfAddress => some (.inquiry .bidcosRfAddress)
  | .getSerial => some (.inquiry .serial)
  | _ => none

end Ask

structure Control where
  phase : MainPhase
  type : RadioModuleType
  detectState : DetectState
  retryCount : Nat
  msgCounter : Nat
  semaphore : Nat
  isInBl : Bool
  queue : List (Nat × Answer)
deriving DecidableEq

namespace Control

def send (control : Control) (ask : Ask) : Control :=
  { control with
    msgCounter := control.msgCounter + 1
    isInBl := (ask.reply control.isInBl).1
    queue := control.queue ++
      (ask.reply control.isInBl).2.toList.map fun answer => (control.msgCounter, answer) }

def enter (control : Control) (phase : MainPhase) : Control := { control with phase := phase }

def proceed (control : Control) (next : DetectState) : Control :=
  { control with detectState := next, semaphore := control.semaphore + 1 }

def taken (control : Control) (next : MainPhase) : Option Control :=
  if control.semaphore = 0 then none
  else some { control with semaphore := control.semaphore - 1, phase := next }

def main (control : Control) : Option Control :=
  match control.phase with
  | .blCheck =>
      if control.detectState = .startBl ∧ control.retryCount < 3 then some (control.enter .blBody)
      else some { control with retryCount := 0, phase := .appCheck }
  | .blBody => some (({ control with type := .none }.send .commonIdentify).enter .blWaitCommon)
  | .blWaitCommon | .blWaitHmsystem => control.taken .blCheck
  | .appCheck =>
      if control.detectState = .startApp ∧ control.retryCount < 3 then some (control.enter .appBody)
      else some (control.enter .switching)
  | .appBody => some ((control.send .commonIdentify).enter .appWaitCommon)
  | .appWaitCommon | .appWaitHmsystem => control.taken .appCheck
  | .switching =>
      match Ask.ofState control.detectState with
      | some ask => some ((control.send ask).enter .checking)
      | none => if control.detectState = .finished then some (control.enter .checking) else none
  | .checking =>
      if control.detectState = .finished then some (control.enter .ended)
      else some (control.enter .waiting)
  | .waiting => control.taken .switching
  | .ended => some (control.enter .returned)
  | .returned => none

def timeout (control : Control) : Option Control :=
  if control.semaphore ≠ 0 then none
  else match control.phase with
  | .blWaitCommon => some ((control.send .systemIdentify).enter .blWaitHmsystem)
  | .appWaitCommon => some ((control.send .systemIdentify).enter .appWaitHmsystem)
  | .blWaitHmsystem =>
      some { control with retryCount := control.retryCount + 1, phase := .blCheck }
  | .appWaitHmsystem =>
      some { control with retryCount := control.retryCount + 1, phase := .appCheck }
  | .waiting => some (control.enter .ended)
  | _ => none

def handle (control : Control) : Answer → Option Control
  | .commonIdentify =>
      match control.detectState with
      | .startBl => some ({ control with type := .unknown }.send .startBl)
      | .startApp => some (control.proceed .getMcuType)
      | _ => none
  | .systemIdentify =>
      match control.detectState with
      | .startBl => some ({ control with type := .unknown }.proceed .startApp)
      | .startApp => some (control.send .changeApp)
      | _ => none
  | .commonStartBl => if control.detectState = .startBl then some control else none
  | .systemStartApp => if control.detectState = .startApp then some control else none
  | .mcuType =>
      if control.detectState = .getMcuType then
        some ({ control with type := .hmModRpiPcb }.proceed .getVersion)
      else none
  | .version =>
      if control.detectState = .getVersion then some (control.proceed .getHmipRfAddress) else none
  | .hmipRfAddress =>
      if control.detectState = .getHmipRfAddress then some (control.proceed .getSgtin) else none
  | .sgtin =>
      if control.detectState = .getSgtin ∧ control.type = .hmModRpiPcb then
        some (control.proceed .getBidcosRfAddress)
      else none
  | .bidcosRfAddress =>
      if control.detectState = .getBidcosRfAddress ∧ control.type = .hmModRpiPcb then
        some (control.proceed .getSerial)
      else none
  | .serial =>
      if control.detectState = .getSerial then some (control.proceed .finished) else none

def waits (control : Control) : Bool := control.semaphore == 0 &&
  (control.phase == .blWaitCommon || control.phase == .blWaitHmsystem ||
    control.phase == .appWaitCommon || control.phase == .appWaitHmsystem ||
    control.phase == .waiting)

end Control

/-- The answers that a patient detection gets, with the counters of their requests: of
a module that runs its application and of one that is in its bootloader. -/
def asked : List (Nat × Answer) :=
  [(0, .commonIdentify), (1, .commonStartBl), (2, .systemIdentify), (4, .systemIdentify),
    (5, .systemStartApp), (6, .commonIdentify), (7, .mcuType), (8, .version),
    (9, .hmipRfAddress), (10, .sgtin), (11, .bidcosRfAddress), (12, .serial),
    (1, .systemIdentify), (3, .systemIdentify), (4, .systemStartApp), (5, .commonIdentify),
    (6, .mcuType), (7, .version), (8, .hmipRfAddress), (9, .sgtin), (10, .bidcosRfAddress),
    (11, .serial)]

/-- Whatever the threads do first, at most `fuel` steps later the dialogue is finished. -/
def settles : Nat → Control → Bool
  | 0, _ => false
  | fuel + 1, control =>
      control.queue.all (asked.contains ·) && control.msgCounter ≤ 13 &&
      if control.phase = .returned then
        control.detectState == .finished && control.type == .hmModRpiPcb
      else
        (match control.main with
          | some next => settles fuel next
          | none => control.waits) &&
        (match control.queue with
          | [] => (match control.timeout with
            | some next => settles fuel next
            | none => true)
          | (_, answer) :: queue =>
            (match { control with queue := queue }.handle answer with
            | some next => settles fuel next
            | none => false))

def initial (isInBl : Bool) : Control where
  phase := .blCheck
  type := .none
  detectState := .startBl
  retryCount := 0
  msgCounter := 0
  semaphore := 0
  isInBl := isInBl
  queue := []

theorem initial_settles (isInBl : Bool) : settles 47 (initial isInBl) = true := by
  cases isInBl <;> decide +kernel

section Settles
variable {fuel : Nat} {control : Control}

theorem settles_expected (settled : settles fuel control = true) :
    control.msgCounter ≤ 13 ∧ ∀ entry ∈ control.queue, entry ∈ asked := by
  cases fuel with
  | zero => cases settled
  | succ fuel =>
      simp only [settles, Bool.and_eq_true, List.all_eq_true, List.contains_eq_mem,
        decide_eq_true_eq] at settled
      exact ⟨settled.1.2, settled.1.1⟩

theorem settles_returned (settled : settles fuel control = true)
    (returned : control.phase = .returned) :
    control.detectState = .finished ∧ control.type = .hmModRpiPcb := by
  cases fuel with
  | zero => cases settled
  | succ fuel =>
      rw [settles, if_pos returned] at settled
      simp only [Bool.and_eq_true, beq_iff_eq] at settled
      exact settled.2

structure GoesOn (fuel : Nat) (control : Control) : Prop where
  main : ∀ next, control.main = some next → settles fuel next = true
  blocked : control.main = none → control.waits = true
  timeout : control.queue = [] → ∀ next, control.timeout = some next → settles fuel next = true
  handle : ∀ entry queue, control.queue = entry :: queue →
    ∃ next, { control with queue := queue }.handle entry.2 = some next ∧ settles fuel next = true

theorem settles_running (settled : settles fuel control = true)
    (running : control.phase ≠ .returned) : ∃ left, fuel = left + 1 ∧ GoesOn left control := by
  cases fuel with
  | zero => cases settled
  | succ fuel =>
      refine ⟨fuel, rfl, ?_⟩
      rw [settles, if_neg running] at settled
      simp only [Bool.and_eq_true] at settled
      obtain ⟨-, main, replies⟩ := settled
      refine ⟨?_, ?_, ?_, ?_⟩
      · intro next done
        rwa [done] at main
      · intro blocked
        rwa [blocked] at main
      · intro empty next done
        rw [empty] at replies
        simp only [done] at replies
        exact replies
      · intro entry queue shape
        rw [shape] at replies
        dsimp only at replies
        split at replies
        · rename_i next done
          exact ⟨next, done, replies⟩
        · cases replies

end Settles

end PiVccu.PatientControl
