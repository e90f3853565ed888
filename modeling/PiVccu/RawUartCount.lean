import PiVccu.RawUartFiles

/-!
The number of open connections. `open_count` and the hardware are changed only
with `instance->sem` held, so that in every run the hardware runs exactly while
the count is not zero. The count itself is the number of open files and of the
closes that returned early: `down_interruptible` in `generic_raw_uart_close` gives
up before the count is lowered, and nobody calls it again.
-/

namespace PiVccu.RawUartCount
open Census RawUartFiles Transition

inductive Called (world : World) (index : Nat) : Outcome → World → Prop where
  | refused (found : world.files[index]? = some .entering) (going : world.going = true) :
      Called world index .proceeds (world.touch.move index .failed)
  | admitted (found : world.files[index]? = some .entering) :
      Called world index .proceeds
        ({ world.touch with moduleRefs := world.moduleRefs + 1 }.move index .waiting)
  | openInterrupted (found : world.files[index]? = some .waiting) :
      Called world index .interrupted (world.touch.move index .failed)
  | openLocked (found : world.files[index]? = some .waiting) (free : world.sem = false) :
      Called world index .proceeds ({ world.touch with sem := true }.move index .checking)
  | rejected (found : world.files[index]? = some .checking) :
      Called world index .proceeds ({ world.touch with sem := false }.move index .failed)
  | first (found : world.files[index]? = some .checking) (state : world.connectionState = true)
      (zero : world.openCount = 0) :
      Called world index .proceeds (world.touch.move index .starting)
  | further (found : world.files[index]? = some .checking) (state : world.connectionState = true)
      (positive : world.openCount ≠ 0) (room : world.openCount < maxConnections) :
      Called world index .proceeds (world.touch.move index .counting)
  | started (found : world.files[index]? = some .starting) :
      Called world index .proceeds (world.touch.startConnection.move index .counting)
  | startFailed (found : world.files[index]? = some .starting)
      (driver : world.driver = .platform) :
      Called world index .startFails ({ world.touch with
        calls := world.calls ++ [DriverCall.startFailed], sem := false }.move index .failed)
  | counted (found : world.files[index]? = some .counting) :
      Called world index .proceeds ({ world.touch with
        openCount := world.openCount + 1, sem := false }.move index .opened)
  | connInterrupted (found : world.files[index]? = some .closing) :
      Called world index .interrupted (world.move index .abandoned)
  | connFreed (found : world.files[index]? = some .closing) :
      Called world index .proceeds (world.move index .freed)
  | closeInterrupted (found : world.files[index]? = some .freed) :
      Called world index .interrupted (world.touch.move index .abandoned)
  | closeLocked (found : world.files[index]? = some .freed) (free : world.sem = false) :
      Called world index .proceeds ({ world.touch with sem := true }.move index .releasing)
  | lastReleased (found : world.files[index]? = some .releasing)
      (last : world.openCount - 1 = 0) :
      Called world index .proceeds ({ world.touch with
        openCount := world.openCount - 1 }.move index .stopping)
  | released (found : world.files[index]? = some .releasing)
      (others : world.openCount - 1 ≠ 0) :
      Called world index .proceeds ({ world.touch with
        openCount := world.openCount - 1 }.move index .unlocking)
  | stopped (found : world.files[index]? = some .stopping) :
      Called world index .proceeds (world.touch.stopConnection.move index .unlocking)
  | unlocked (found : world.files[index]? = some .unlocking) :
      Called world index .proceeds ({ world.touch with sem := false }.move index .putting)
  | putBack (found : world.files[index]? = some .putting) :
      Called world index .proceeds
        ({ world.touch with moduleRefs := world.moduleRefs - 1 }.move index .closed)

section Calls
variable {world after : World} {index : Nat} {outcome : Outcome}

theorem called_open {phase : FilePhase} (found : world.files[index]? = some phase)
    (done : world.genericRawUartOpen index phase outcome = some after) :
    Called world index outcome after := by
  unfold World.genericRawUartOpen at done
  split at done
  · dsimp only at done
    split at done
    · rename_i going
      cases done
      exact .refused found going
    · cases done
      exact .admitted found
  · cases done
    exact .openInterrupted found
  · split at done
    · cases done
    · rename_i free
      cases done
      exact .openLocked found (Bool.eq_false_iff.mpr free)
  · dsimp only at done
    split at done
    · cases done
      exact .rejected found
    · rename_i room
      split at done
      · cases done
        exact .rejected found
      · rename_i state
        have connected : world.connectionState = true := by
          simpa [World.touch] using state
        split at done
        · rename_i zero
          cases done
          exact .first found connected zero
        · rename_i positive
          cases done
          exact .further found connected positive (Nat.lt_of_not_le room)
  · cases done
    exact .started found
  · split at done
    · rename_i driver
      cases done
      exact .startFailed found driver
    · cases done
  · cases done
    exact .counted found
  · cases done

theorem called_close {phase : FilePhase} (found : world.files[index]? = some phase)
    (done : world.genericRawUartClose index phase outcome = some after) :
    Called world index outcome after := by
  unfold World.genericRawUartClose at done
  split at done
  · cases done
    exact .connInterrupted found
  · cases done
    exact .connFreed found
  · cases done
    exact .closeInterrupted found
  · split at done
    · cases done
    · rename_i free
      cases done
      exact .closeLocked found (Bool.eq_false_iff.mpr free)
  · dsimp only at done
    split at done
    · rename_i last
      cases done
      exact .lastReleased found last
    · rename_i others
      cases done
      exact .released found others
  · cases done
    exact .stopped found
  · cases done
    exact .unlocked found
  · cases done
    exact .putBack found
  · cases done

theorem step_called (done : world.step (.call index outcome) = some after) :
    Called world index outcome after := by
  obtain ⟨phase, found, done⟩ := Option.bind_eq_some_iff.mp done
  cases opened : world.genericRawUartOpen index phase outcome with
  | some result =>
      rw [opened] at done
      cases done
      exact called_open found opened
  | none =>
      rw [opened] at done
      exact called_close found done

end Calls

def locked : FilePhase → Nat
  | .checking | .starting | .counting | .releasing | .stopping | .unlocking => 1
  | _ => 0

/-- The file is in the count: its `open` has raised it and no `close` lowered it. -/
def counted : FilePhase → Nat
  | .opened | .closing | .freed | .releasing | .abandoned => 1
  | _ => 0

def raising : FilePhase → Nat
  | .counting => 1
  | _ => 0

def powered : FilePhase → Nat
  | .counting | .stopping => 1
  | _ => 0

def empty : FilePhase → Nat
  | .starting | .stopping => 1
  | _ => 0

theorem raising_le_locked (phase : FilePhase) : raising phase ≤ locked phase := by
  cases phase <;> decide

theorem powered_le_locked (phase : FilePhase) : powered phase ≤ locked phase := by
  cases phase <;> decide

theorem empty_le_locked (phase : FilePhase) : empty phase ≤ locked phase := by
  cases phase <;> decide

structure Counted (openCount : Nat) (sem : Bool) (files : List FilePhase)
    (calls : List DriverCall) : Prop where
  exclusive : total locked files = sem.toNat
  complete : total counted files = openCount
  room : openCount + total raising files ≤ maxConnections
  empty : 0 < total empty files → openCount = 0
  power : hardware calls = some (decide (0 < openCount + total powered files))

section Moves
variable {openCount : Nat} {sem : Bool} {files : List FilePhase} {calls : List DriverCall}
  {index : Nat} {phase : FilePhase}

theorem Counted.outside (held : Counted openCount sem files calls)
    (found : files[index]? = some phase) (next : FilePhase) (before : locked phase = 0)
    (after : locked next = 0) (same : counted next = counted phase) :
    Counted openCount sem (files.set index next) calls := by
  have zero : ∀ (weight : FilePhase → Nat), (∀ phase, weight phase ≤ locked phase) →
      total weight (files.set index next) = total weight files := by
    intro weight smaller
    have moved := total_set weight files index next found
    have phaseZero := smaller phase
    have nextZero := smaller next
    omega
  have counts := total_set counted files index next found
  refine ⟨?_, ?_, ?_, ?_, ?_⟩
  · rw [zero locked fun _ => Nat.le_refl _]
    exact held.exclusive
  · have complete := held.complete
    omega
  · rw [zero raising raising_le_locked]
    exact held.room
  · rw [zero RawUartCount.empty empty_le_locked]
    exact held.empty
  · rw [zero powered powered_le_locked]
    exact held.power

theorem Counted.lock (held : Counted openCount false files calls)
    (found : files[index]? = some phase) (next : FilePhase) (before : locked phase = 0)
    (after : locked next = 1) (same : counted next = counted phase) (noRaise : raising next = 0)
    (noPower : powered next = 0) (noEmpty : RawUartCount.empty next = 0) :
    Counted openCount true (files.set index next) calls := by
  have zero : ∀ (weight : FilePhase → Nat), (∀ phase, weight phase ≤ locked phase) →
      weight next = 0 → total weight (files.set index next) = total weight files := by
    intro weight smaller light
    have moved := total_set weight files index next found
    have phaseZero := smaller phase
    omega
  have counts := total_set counted files index next found
  have locks := total_set locked files index next found
  have free := held.exclusive
  refine ⟨?_, ?_, ?_, ?_, ?_⟩
  · simp only [Bool.toNat_false, Bool.toNat_true] at free ⊢
    omega
  · have complete := held.complete
    omega
  · rw [zero raising raising_le_locked noRaise]
    exact held.room
  · rw [zero RawUartCount.empty empty_le_locked noEmpty]
    exact held.empty
  · rw [zero powered powered_le_locked noPower]
    exact held.power

theorem Counted.taken (held : Counted openCount sem files calls)
    (found : files[index]? = some phase) (before : locked phase = 1) : 1 = sem.toNat := by
  have here := le_total locked (List.mem_of_getElem? found)
  rw [before, held.exclusive] at here
  cases sem with
  | false => cases here
  | true => rfl

theorem Counted.alone (held : Counted openCount sem files calls)
    (found : files[index]? = some phase) (before : locked phase = 1) {weight : FilePhase → Nat}
    (smaller : ∀ phase, weight phase ≤ locked phase) : total weight files = weight phase := by
  have single : total locked files ≤ 1 := by
    rw [held.exclusive]
    exact Bool.toNat_le sem
  exact total_alone smaller single (List.mem_of_getElem? found) before

theorem Counted.zero (held : Counted openCount sem files calls)
    (found : files[index]? = some phase) (seen : RawUartCount.empty phase = 1) :
    openCount = 0 := by
  have here := le_total RawUartCount.empty (List.mem_of_getElem? found)
  rw [seen] at here
  exact held.empty here

theorem Counted.positive (held : Counted openCount sem files calls)
    (found : files[index]? = some phase) (member : RawUartCount.counted phase = 1) :
    0 < openCount := by
  have here := le_total RawUartCount.counted (List.mem_of_getElem? found)
  rw [member, held.complete] at here
  exact here

theorem Counted.off (held : Counted openCount sem files calls)
    (found : files[index]? = some .starting) : hardware calls = some false := by
  rw [held.power, held.zero found rfl, held.alone found rfl powered_le_locked]
  rfl

theorem Counted.on (held : Counted openCount sem files calls)
    (found : files[index]? = some .stopping) : hardware calls = some true := by
  rw [held.power, held.alone found rfl powered_le_locked]
  exact congrArg some (decide_eq_true (Nat.succ_pos _))

theorem Counted.inside (held : Counted openCount sem files calls)
    (found : files[index]? = some phase) (before : locked phase = 1) {openCount' : Nat}
    {sem' : Bool} {calls' : List DriverCall} (next : FilePhase)
    (lock : locked next = sem'.toNat)
    (count : openCount + counted next = openCount' + counted phase)
    (room : openCount + raising phase ≤ maxConnections →
      openCount' + raising next ≤ maxConnections)
    (zero : 0 < RawUartCount.empty next → openCount' = 0)
    (power : hardware calls' = some (decide (0 < openCount' + powered next))) :
    Counted openCount' sem' (files.set index next) calls' := by
  have alone : ∀ (weight : FilePhase → Nat), (∀ phase, weight phase ≤ locked phase) →
      total weight (files.set index next) = weight next := by
    intro weight smaller
    have here := held.alone found before smaller
    have moved := total_set weight files index next found
    omega
  have counts := total_set counted files index next found
  refine ⟨?_, ?_, ?_, ?_, ?_⟩
  · rw [alone locked fun _ => Nat.le_refl _]
    exact lock
  · have complete := held.complete
    omega
  · rw [alone raising raising_le_locked]
    apply room
    rw [← held.alone found before raising_le_locked]
    exact held.room
  · rw [alone RawUartCount.empty empty_le_locked]
    exact zero
  · rw [alone powered powered_le_locked]
    exact power

theorem Counted.power_inside (held : Counted openCount sem files calls)
    (found : files[index]? = some phase) (before : locked phase = 1) :
    hardware calls = some (decide (0 < openCount + powered phase)) := by
  rw [held.power, held.alone found before powered_le_locked]

end Moves

theorem hardware_started {calls : List DriverCall} (off : hardware calls = some false) :
    hardware (calls ++ [.started]) = some true := by
  rw [hardware, List.foldl_append, ← hardware, off]
  rfl

theorem hardware_startFailed {calls : List DriverCall} (off : hardware calls = some false) :
    hardware (calls ++ [.startFailed]) = some false := by
  rw [hardware, List.foldl_append, ← hardware, off]
  rfl

theorem hardware_stopped {calls : List DriverCall} (on : hardware calls = some true) :
    hardware (calls ++ [.stopped]) = some false := by
  rw [hardware, List.foldl_append, ← hardware, on]
  rfl

def Tracked (world : World) : Prop :=
  Counted world.openCount world.sem world.files world.calls

section Effects
variable (world : World)

theorem krefPut_tracked : world.krefPut.openCount = world.openCount ∧
    world.krefPut.sem = world.sem ∧ world.krefPut.files = world.files ∧
    world.krefPut.calls = world.calls := by
  unfold World.krefPut
  split
  · exact ⟨rfl, rfl, rfl, rfl⟩
  · exact ⟨rfl, rfl, rfl, rfl⟩
  · exact ⟨rfl, rfl, rfl, rfl⟩

theorem startConnection_tracked : world.startConnection.openCount = world.openCount ∧
    world.startConnection.sem = world.sem ∧ world.startConnection.files = world.files ∧
    world.startConnection.calls = world.calls ++ [.started] := by
  unfold World.startConnection
  split
  all_goals exact ⟨rfl, rfl, rfl, rfl⟩

theorem stopConnection_tracked : world.stopConnection.openCount = world.openCount ∧
    world.stopConnection.sem = world.sem ∧ world.stopConnection.files = world.files ∧
    world.stopConnection.calls = world.calls ++ [.stopped] := by
  unfold World.stopConnection
  split
  · exact krefPut_tracked { world with calls := world.calls ++ [DriverCall.stopped] }
  · exact krefPut_tracked { world with calls := world.calls ++ [DriverCall.stopped] }
  · exact ⟨rfl, rfl, rfl, rfl⟩
  · exact ⟨rfl, rfl, rfl, rfl⟩

end Effects

theorem tracked_called {world after : World} {index : Nat} {outcome : Outcome}
    (held : Tracked world) (called : Called world index outcome after) : Tracked after := by
  unfold Tracked at held
  cases called with
  | refused found | admitted found | openInterrupted found | connInterrupted found
  | connFreed found | closeInterrupted found | putBack found =>
      exact held.outside found _ rfl rfl rfl
  | openLocked found free | closeLocked found free =>
      rw [free] at held
      exact held.lock found _ rfl rfl rfl rfl rfl rfl
  | rejected found =>
      have power := held.power_inside found rfl
      exact held.inside found rfl .failed rfl rfl (fun room => room) nofun power
  | first found state zero =>
      have power := held.power_inside found rfl
      exact held.inside found rfl .starting (held.taken found rfl) rfl (fun room => room)
        (fun _ => zero) power
  | further found state positive room =>
      refine held.inside found rfl .counting (held.taken found rfl) rfl (fun _ => room) nofun ?_
      have running : 0 < world.openCount := Nat.pos_of_ne_zero positive
      refine (held.power_inside found rfl).trans ?_
      simp [running, powered]
  | started found =>
      -- The task has seen the count at zero, so the hardware is off and there is room.
      obtain ⟨openCount, sem, files, calls⟩ := startConnection_tracked world.touch
      unfold Tracked World.move
      dsimp only
      rw [openCount, sem, files, calls]
      refine held.inside found rfl .counting (held.taken found rfl) rfl ?_ nofun ?_
      · intro room
        change world.openCount + 1 ≤ maxConnections
        rw [held.zero found rfl]
        decide
      · exact hardware_started (held.off found)
  | startFailed found driver =>
      refine held.inside found rfl .failed rfl rfl (fun room => room) nofun ?_
      change hardware (world.calls ++ [.startFailed]) = some (decide (0 < world.openCount + 0))
      rw [held.zero found rfl]
      exact hardware_startFailed (held.off found)
  | counted found =>
      have power := held.power_inside found rfl
      exact held.inside found rfl .opened rfl rfl (fun room => room) nofun power
  | lastReleased found last =>
      -- The hardware goes on until `stop_connection`, with the count at zero already.
      have positive := held.positive found rfl
      refine held.inside found rfl .stopping (held.taken found rfl) ?_ (fun _ => ?_)
        (fun _ => last) ?_
      · exact (Nat.sub_add_cancel positive).symm
      · change world.openCount - 1 + 0 ≤ maxConnections
        rw [last]
        decide
      · refine (held.power_inside found rfl).trans ?_
        simp [positive, powered]
  | released found others =>
      have positive := held.positive found rfl
      refine held.inside found rfl .unlocking (held.taken found rfl) ?_ (fun room => ?_) nofun ?_
      · exact (Nat.sub_add_cancel positive).symm
      · exact Nat.le_trans (Nat.sub_le _ _) room
      · have remaining : 0 < world.openCount - 1 := Nat.pos_of_ne_zero others
        refine (held.power_inside found rfl).trans ?_
        change some (decide (0 < world.openCount + 0)) = some (decide (0 < world.openCount - 1 + 0))
        simp [positive, remaining]
  | stopped found =>
      obtain ⟨openCount, sem, files, calls⟩ := stopConnection_tracked world.touch
      unfold Tracked World.move
      dsimp only
      rw [openCount, sem, files, calls]
      refine held.inside found rfl .unlocking (held.taken found rfl) rfl (fun room => room) nofun ?_
      change hardware _ = some (decide (0 < world.openCount + 0))
      rw [held.zero found rfl]
      exact hardware_stopped (held.on found)
  | unlocked found =>
      have power := held.power_inside found rfl
      exact held.inside found rfl .putting rfl rfl (fun room => room) nofun power

structure Still (world after : World) : Prop where
  openCount : after.openCount = world.openCount
  sem : after.sem = world.sem
  files : after.files = world.files
  calls : after.calls = world.calls

theorem Still.tracked {world after : World} (still : Still world after) (held : Tracked world) :
    Tracked after := by
  unfold Tracked
  rw [still.openCount, still.sem, still.files, still.calls]
  exact held

section Others
variable {world after : World}

theorem still_usbDisconnect (done : world.usbDisconnect = some after) : Still world after := by
  unfold World.usbDisconnect at done
  split at done
  · cases done
    exact ⟨rfl, rfl, rfl, rfl⟩
  · cases done
    exact ⟨rfl, rfl, rfl, rfl⟩
  · cases done
    obtain ⟨openCount, sem, files, calls⟩ := krefPut_tracked world
    exact ⟨openCount, sem, files, calls⟩
  · cases done

theorem still_hbRfEthDisconnect (world : World) : Still world world.hbRfEthDisconnect := by
  unfold World.hbRfEthDisconnect
  dsimp only
  split
  · exact ⟨rfl, rfl, rfl, rfl⟩
  · exact ⟨rfl, rfl, rfl, rfl⟩

theorem still_disconnect (done : world.disconnect = some after) : Still world after := by
  unfold World.disconnect at done
  split at done
  · exact still_usbDisconnect done
  · exact still_usbDisconnect done
  · unfold World.hbRfEthExit at done
    split at done
    · cases done
      exact ⟨rfl, rfl, rfl, rfl⟩
    · cases done
      obtain ⟨openCount, sem, files, calls⟩ := still_hbRfEthDisconnect world
      exact ⟨openCount, sem, files, calls⟩
    · cases done
  · cases done

theorem still_exit (done : world.exit = some after) : Still world after := by
  unfold World.exit at done
  split at done
  · cases done
  · split at done
    case h_4 => cases done
    all_goals
      cases done
      exact ⟨rfl, rfl, rfl, rfl⟩

theorem still_ethStep {act : Act} (done : world.ethStep act = some after) : Still world after := by
  unfold World.ethStep at done
  split at done
  · split at done
    · cases done
    · cases done
      exact ⟨rfl, rfl, rfl, rfl⟩
  · split at done
    · cases done
    · cases done
      exact still_hbRfEthDisconnect world
  · split at done
    · cases done
      exact ⟨rfl, rfl, rfl, rfl⟩
    · cases done
  · split at done
    · cases done
      exact ⟨rfl, rfl, rfl, rfl⟩
    · cases done
  · cases done

/-- A step opens a file, begins to close one, goes on with a call, or leaves the
files alone. -/
theorem step_cases {act : Act} (done : world.step act = some after) :
    (act = .openFile ∧ world.alive = true ∧
        after = { world with files := world.files ++ [.entering] }) ∨
      (∃ index, act = .closeFile index ∧ world.files[index]? = some .opened ∧
        after = world.move index .closing) ∨
      (∃ index outcome, act = .call index outcome ∧ Called world index outcome after) ∨
      Still world after := by
  have eth : ∀ act, (if world.driver = .hbRfEth then world.ethStep act else none) = some after →
      Still world after := by
    intro act done
    split at done
    · exact still_ethStep done
    · cases done
  -- The count of openings changes in calls alone.
  cases act with
  | openFile =>
      rw [World.step] at done
      split at done
      · rename_i alive
        cases done
        exact .inl ⟨rfl, alive, rfl⟩
      · cases done
  | closeFile index =>
      rw [World.step] at done
      split at done
      · rename_i found
        cases done
        exact .inr (.inl ⟨index, rfl, found, rfl⟩)
      · cases done
  | call index outcome => exact .inr (.inr (.inl ⟨index, outcome, rfl, step_called done⟩))
  | operate index =>
      rw [World.step] at done
      split at done
      · cases done
        exact .inr (.inr (.inr ⟨rfl, rfl, rfl, rfl⟩))
      · cases done
  | received =>
      rw [World.step] at done
      split at done
      · cases done
        exact .inr (.inr (.inr ⟨rfl, rfl, rfl, rfl⟩))
      · cases done
  | disconnect => exact .inr (.inr (.inr (still_disconnect done)))
  | exit => exact .inr (.inr (.inr (still_exit done)))
  | connect => exact .inr (.inr (.inr (eth _ done)))
  | unlink => exact .inr (.inr (.inr (eth _ done)))
  | linkLost reconnecting => exact .inr (.inr (.inr (eth _ done)))
  | reconnect => exact .inr (.inr (.inr (eth _ done)))

end Others

theorem tracked_step {world after : World} {act : Act} (held : Tracked world)
    (done : world.step act = some after) : Tracked after := by
  obtain ⟨-, -, rfl⟩ | ⟨index, -, found, rfl⟩ | ⟨index, outcome, -, called⟩ | still :=
    step_cases done
  · -- A new file weighs nothing.
    unfold Tracked at held ⊢
    refine ⟨?_, ?_, ?_, ?_, ?_⟩
    · exact (total_new _ _ _).trans held.exclusive
    · exact (total_new _ _ _).trans held.complete
    · rw [total_new]
      exact held.room
    · rw [total_new]
      exact held.empty
    · rw [total_new]
      exact held.power
  · exact Counted.outside held found .closing rfl rfl rfl
  · exact tracked_called held called
  · exact still.tracked held

def Probed (world : World) : Prop := ∃ driver, world = probed driver

theorem tracked_probed (driver : Driver) : Tracked (probed driver) :=
  ⟨rfl, rfl, Nat.zero_le _, nofun, rfl⟩

theorem tracked_reachable {admitted : World → Act → Prop} {world : World}
    (reached : Reachable World.step admitted Probed world) : Tracked world := by
  induction reached with
  | start initial =>
      obtain ⟨driver, rfl⟩ := initial
      exact tracked_probed driver
  | next act _ _ taken ih => exact tracked_step ih taken

def openFiles (world : World) : Nat := world.files.count .opened

def closingFiles (world : World) : Nat :=
  world.files.count .closing + world.files.count .freed + world.files.count .releasing

theorem total_counted (files : List FilePhase) :
    total counted files = files.count .opened +
      (files.count .closing + files.count .freed + files.count .releasing) +
      files.count .abandoned := by
  induction files with
  | nil => rfl
  | cons phase rest ih =>
      simp only [total_cons, List.count_cons, ih]
      cases phase <;> simp [counted] <;> omega

/-- The count is the number of open files and of closes in progress, it is at most
three, and the calls of the driver alternate so that the hardware runs exactly
while the count is not zero; inside of the semaphore the two change one after the
other. -/
structure ConnectionLaw (world : World) : Prop where
  count : world.openCount = openFiles world + closingFiles world
  settled : closingFiles world = 0 → world.openCount = openFiles world
  bounded : world.openCount ≤ maxConnections
  alternating : ∃ running, hardware world.calls = some running ∧
    (world.sem = false → (running = true ↔ 0 < world.openCount))

def Uninterrupted (world : World) : Act → Prop
  | .call index .interrupted => world.files[index]? = some .waiting
  | _ => True

theorem abandoned_called {world after : World} {index : Nat} {outcome : Outcome}
    (called : Called world index outcome after)
    (uninterrupted : Uninterrupted world (.call index outcome))
    (held : .abandoned ∉ world.files) : .abandoned ∉ after.files := by
  have moved : ∀ phase, phase ≠ .abandoned → .abandoned ∉ world.files.set index phase := by
    intro phase other member
    rcases List.mem_or_eq_of_mem_set member with old | new
    · exact held old
    · exact other new.symm
  cases called with
  | connInterrupted found | closeInterrupted found =>
      rw [Uninterrupted, found] at uninterrupted
      cases uninterrupted
  | started found =>
      obtain ⟨-, -, files, -⟩ := startConnection_tracked world.touch
      rw [World.move, files]
      exact moved .counting nofun
  | stopped found =>
      obtain ⟨-, -, files, -⟩ := stopConnection_tracked world.touch
      rw [World.move, files]
      exact moved .unlocking nofun
  | refused | admitted | openInterrupted | openLocked | rejected | first | further | startFailed
  | counted | connFreed | closeLocked | lastReleased | released | unlocked | putBack =>
      exact moved _ nofun

theorem abandoned_step {world after : World} {act : Act} (done : world.step act = some after)
    (uninterrupted : Uninterrupted world act) (held : .abandoned ∉ world.files) :
    .abandoned ∉ after.files := by
  obtain ⟨-, -, rfl⟩ | ⟨index, -, found, rfl⟩ | ⟨index, outcome, rfl, called⟩ | still :=
    step_cases done
  · intro member
    rcases List.mem_append.mp member with old | new
    · exact held old
    · cases List.mem_singleton.mp new
  · intro member
    rcases List.mem_or_eq_of_mem_set member with old | new
    · exact held old
    · cases new
  · exact abandoned_called called uninterrupted held
  · rw [still.files]
    exact held

theorem abandoned_reachable {world : World}
    (reached : Reachable World.step Uninterrupted Probed world) : .abandoned ∉ world.files := by
  induction reached with
  | start initial =>
      obtain ⟨driver, rfl⟩ := initial
      exact List.not_mem_nil
  | next act _ uninterrupted taken ih => exact abandoned_step taken uninterrupted ih

theorem Counted.alternating {openCount : Nat} {sem : Bool} {files : List FilePhase}
    {calls : List DriverCall} (held : Counted openCount sem files calls) :
    ∃ running, hardware calls = some running ∧
      (sem = false → (running = true ↔ 0 < openCount)) := by
  refine ⟨_, held.power, ?_⟩
  intro free
  have unlocked := total_le files powered_le_locked
  rw [held.exclusive, free] at unlocked
  rw [Nat.le_zero.mp unlocked, Nat.add_zero, decide_eq_true_iff]

/-- In every run in which no close is interrupted, the count is exact. -/
theorem open_count_exact {world : World}
    (reached : Reachable World.step Uninterrupted Probed world) : ConnectionLaw world := by
  have tracked : Counted world.openCount world.sem world.files world.calls :=
    tracked_reachable reached
  have complete := tracked.complete
  rw [total_counted, List.count_eq_zero_of_not_mem (abandoned_reachable reached)] at complete
  have count : world.openCount = openFiles world + closingFiles world := complete.symm
  refine ⟨count, ?_, ?_, tracked.alternating⟩
  · intro settled
    rw [count, settled]
    rfl
  · exact Nat.le_trans (Nat.le_add_right _ _) tracked.room

def openAll (index : Nat) : List Act := .openFile :: List.replicate 5 (.call index .proceeds)

def closeAll (index : Nat) : List Act :=
  .closeFile index :: List.replicate 5 (.call index .proceeds)

def failedStartRun : List Act :=
  [.openFile, .call 0 .proceeds, .call 0 .proceeds, .call 0 .proceeds, .call 0 .startFails] ++
    openAll 1 ++ [.openFile] ++ List.replicate 4 (.call 2 .proceeds) ++ closeAll 1

def uninterrupted (_ : World) : Act → Bool
  | .call _ .interrupted => false
  | _ => true

theorem uninterrupted_sound (world : World) (act : Act)
    (passed : uninterrupted world act = true) : Uninterrupted world act := by
  unfold uninterrupted at passed
  unfold Uninterrupted
  split at passed
  · cases passed
  · trivial

theorem open_count_exact_failedStart :
    ∃ world, Reachable World.step Uninterrupted Probed world ∧ ConnectionLaw world ∧
      world.openCount = 1 ∧ openFiles world = 1 := by
  have ran : ((run World.step uninterrupted (probed .platform) failedStartRun).map fun world =>
      (world.openCount, openFiles world)) = some (1, 1) := by
    decide +kernel
  obtain ⟨world, taken, fields⟩ := Option.map_eq_some_iff.mp ran
  obtain ⟨count, files⟩ := Prod.mk.inj fields
  have reached : Reachable World.step Uninterrupted Probed world :=
    run_reachable uninterrupted_sound _ (.start ⟨_, rfl⟩) taken
  exact ⟨world, reached, open_count_exact reached, count, files⟩

/-- While the second file is being opened, the first one is closed and a signal
arrives. -/
def signalledRun : List Act :=
  openAll 0 ++ [.openFile, .call 1 .proceeds, .call 1 .proceeds] ++
    [.closeFile 0, .call 0 .proceeds, .call 0 .interrupted] ++
    List.replicate 2 (.call 1 .proceeds)

/-- One file is open, no call is in progress, and the count is two. -/
theorem interrupted_close_counted :
    ¬ ∀ world, Reachable World.step (fun _ _ => True) Probed world → ConnectionLaw world := by
  intro claimed
  have ran : ((run World.step (fun _ _ => true) (probed .platform) signalledRun).map fun world =>
      (world.openCount, openFiles world, closingFiles world)) = some (2, 1, 0) := by
    decide +kernel
  obtain ⟨world, taken, fields⟩ := Option.map_eq_some_iff.mp ran
  simp only [Prod.mk.injEq] at fields
  obtain ⟨count, files, closing⟩ := fields
  have reached : Reachable World.step (fun _ _ => True) Probed world :=
    run_reachable (fun _ _ _ => trivial) _ (.start ⟨_, rfl⟩) taken
  have equal := (claimed world reached).settled closing
  rw [count, files] at equal
  cases equal

end PiVccu.RawUartCount
