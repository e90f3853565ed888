import PiVccu.RawUartCount

/-!
The life of the instance. The USB drivers release it through a reference count,
which `hb_rf_usb_disconnect` and the last `stop_connection` lower; the last one is
called by `generic_raw_uart_close`, which still uses the instance afterwards.
`hb_rf_eth_exit` removes it first and only then stops its threads and its link.
Where a device is released only when nobody uses it, the instance is safe.
-/

namespace PiVccu.RawUartLifetime
open Census RawUartFiles RawUartCount Transition

/-- The interface is released only while no file is open and no call is in
progress; `hb_rf_eth` is unloaded without a link and a receiver thread, while no
call of `open` has begun, and nobody connects it while it is being unloaded. -/
def Orderly (world : World) : Act → Prop
  | .disconnect => world.driver ≠ .hbRfEth → world.bus = .detaching → world.busy = false
  | .exit => world.driver = .hbRfEth →
      .entering ∉ world.files ∧ world.linked = false ∧ world.receiver = false
  | .connect => world.bus = .bound
  | _ => True

def holding : FilePhase → Nat
  | .entering | .failed | .closed | .abandoned => 0
  | _ => 1

def early : FilePhase → Bool
  | .entering | .waiting | .checking | .failed | .closed | .abandoned => true
  | _ => false

def Usb (driver : Driver) : Prop := driver = .hbRfUsb ∨ driver = .hbRfUsb2

/-- Before the release the driver holds one reference and a running connection
another one; afterwards no file can be opened any more. -/
structure UsbLife (world : World) : Prop where
  referenced : world.bus ≠ .gone → world.alive = true ∧
    world.kref = 1 + (decide (hardware world.calls = some true)).toNat
  down : world.bus = .detaching ∨ world.bus = .gone → world.connectionState = false
  quiet : world.bus = .gone → ∀ phase ∈ world.files, early phase = true

/-- The instance lives until the exit, and then the link is gone. -/
structure EthLife (world : World) : Prop where
  bound : world.bus = .bound → world.alive = true
  unlinked : world.bus ≠ .bound → world.linked = false ∧ world.receiver = false
  unloading : world.bus ≠ .bound → world.going = true

structure Safe (world : World) : Prop where
  clean : world.faults = []
  unused : world.alive = false →
    (∀ phase ∈ world.files, phase.busy = false) ∧ world.receiving = false
  pinned : total holding world.files ≤ world.moduleRefs
  usb : Usb world.driver → UsbLife world
  eth : world.driver = .hbRfEth → EthLife world

theorem touch_alive {world : World} (alive : world.alive = true) : world.touch = world := by
  unfold World.touch
  rw [if_pos alive]

theorem Safe.alive {world : World} (safe : Safe world) {index : Nat} {phase : FilePhase}
    (found : world.files[index]? = some phase) (busy : phase.busy = true) :
    world.alive = true := by
  cases dead : world.alive with
  | true => rfl
  | false =>
      have idle := (safe.unused dead).1 phase (List.mem_of_getElem? found)
      rw [busy] at idle
      cases idle

theorem Safe.move {world : World} (safe : Safe world) {index : Nat} {phase : FilePhase}
    (found : world.files[index]? = some phase) (busy : phase.busy = true) (next : FilePhase)
    (openCount moduleRefs : Nat) (sem : Bool)
    (refs : world.moduleRefs + holding next ≤ moduleRefs + holding phase)
    (gone : Usb world.driver → world.bus = .gone → early phase = true → early next = true) :
    Safe ({ world with
      openCount := openCount, moduleRefs := moduleRefs, sem := sem }.move index next) := by
  have alive := safe.alive found busy
  refine ⟨safe.clean, ?_, ?_, ?_, ?_⟩
  · intro dead
    rw [show world.alive = false from dead] at alive
    cases alive
  · have moved := total_set holding world.files index next found
    have pinned := safe.pinned
    change total holding (world.files.set index next) ≤ moduleRefs
    omega
  · intro usb
    have life := safe.usb usb
    refine ⟨life.referenced, life.down, ?_⟩
    -- Behind the disconnect only the file that moves can leave the early phases.
    intro out other member
    rcases List.mem_or_eq_of_mem_set member with old | rfl
    · exact life.quiet out other old
    · exact gone usb out (life.quiet out phase (List.mem_of_getElem? found))
  · intro eth
    have life := safe.eth eth
    exact ⟨life.bound, life.unlinked, life.unloading⟩

theorem krefPut_more {world : World} {rest : Nat} (more : world.kref = rest + 2) :
    world.krefPut = { world with kref := rest + 1 } := by
  unfold World.krefPut
  rw [more]

theorem krefPut_last {world : World} (last : world.kref = 1) :
    world.krefPut = { world with kref := 0 }.genericRawUartRemove := by
  unfold World.krefPut
  rw [last]

section Hardware
variable {world : World} {index : Nat}

theorem UsbLife.present {phase : FilePhase} (life : UsbLife world)
    (found : world.files[index]? = some phase) (late : early phase = false) :
    world.bus ≠ .gone := by
  intro gone
  have quiet := life.quiet gone phase (List.mem_of_getElem? found)
  rw [late] at quiet
  cases quiet

theorem Safe.calls (safe : Safe world) {phase : FilePhase}
    (found : world.files[index]? = some phase) (late : early phase = false) (next : FilePhase)
    (kref : Nat) (calls : List DriverCall) (sem : Bool) (refs : holding next ≤ holding phase)
    (references : Usb world.driver → world.bus ≠ .gone →
      kref = 1 + (decide (hardware calls = some true)).toNat) :
    Safe ({ world with kref := kref, calls := calls, sem := sem }.move index next) := by
  have busy : phase.busy = true := by
    cases phase <;> first | rfl | cases late
  have alive := safe.alive found busy
  refine ⟨safe.clean, ?_, ?_, ?_, ?_⟩
  · intro dead
    rw [show world.alive = false from dead] at alive
    cases alive
  · have moved := total_set holding world.files index next found
    have pinned := safe.pinned
    change total holding (world.files.set index next) ≤ world.moduleRefs
    omega
  · intro usb
    have life := safe.usb usb
    have present := life.present found late
    exact ⟨fun _ => ⟨alive, references usb present⟩, life.down, fun gone => absurd gone present⟩
  · intro eth
    have life := safe.eth eth
    exact ⟨life.bound, life.unlinked, life.unloading⟩

instance (driver : Driver) : Decidable (Usb driver) :=
  inferInstanceAs (Decidable (driver = .hbRfUsb ∨ driver = .hbRfUsb2))

theorem startConnection_eq (world : World) : world.startConnection =
    if Usb world.driver then world.usbStartConnection
    else { world with calls := world.calls ++ [DriverCall.started] } := by
  unfold World.startConnection Usb
  split
  · rename_i driver
    exact (if_pos (.inl driver)).symm
  · rename_i driver
    exact (if_pos (.inr driver)).symm
  · rename_i driver
    exact (if_neg (by simp [driver])).symm
  · rename_i driver
    exact (if_neg (by simp [driver])).symm

theorem stopConnection_eq (world : World) : world.stopConnection =
    if Usb world.driver then world.usbStopConnection
    else { world with calls := world.calls ++ [DriverCall.stopped] } := by
  unfold World.stopConnection Usb
  split
  · rename_i driver
    exact (if_pos (.inl driver)).symm
  · rename_i driver
    exact (if_pos (.inr driver)).symm
  · rename_i driver
    exact (if_neg (by simp [driver])).symm
  · rename_i driver
    exact (if_neg (by simp [driver])).symm

theorem Safe.start (safe : Safe world) (tracked : Tracked world)
    (found : world.files[index]? = some .starting) :
    Safe (world.startConnection.move index .counting) := by
  rw [startConnection_eq]
  split
  · refine safe.calls found rfl .counting _ _ _ (Nat.le_refl _) ?_
    intro usb present
    rw [((safe.usb usb).referenced present).2, tracked.off found,
      hardware_started (tracked.off found)]
    rfl
  · rename_i other
    exact safe.calls found rfl .counting _ _ _ (Nat.le_refl _) fun usb => absurd usb other

theorem Safe.stop (safe : Safe world) (tracked : Tracked world)
    (found : world.files[index]? = some .stopping) :
    Safe (world.stopConnection.move index .unlocking) := by
  rw [stopConnection_eq]
  split
  · rename_i usb
    have present := (safe.usb usb).present found rfl
    -- One reference of the driver and one of the running hardware.
    have two : world.kref = 0 + 2 := by
      rw [((safe.usb usb).referenced present).2, tracked.on found]
      rfl
    have shape : world.usbStopConnection =
        { world with kref := 1, calls := world.calls ++ [DriverCall.stopped] } :=
      krefPut_more two
    rw [shape]
    refine safe.calls found rfl .unlocking _ _ _ (Nat.le_refl _) ?_
    intro _ _
    rw [hardware_stopped (tracked.on found)]
    rfl
  · rename_i other
    exact safe.calls found rfl .unlocking _ _ _ (Nat.le_refl _) fun usb => absurd usb other

end Hardware

theorem safe_called {world after : World} {index : Nat} {outcome : Outcome} (safe : Safe world)
    (tracked : Tracked world) (called : Called world index outcome after) : Safe after := by
  have kept : ∀ {phase : FilePhase}, world.files[index]? = some phase → phase.busy = true →
      world.touch = world := fun found busy => touch_alive (safe.alive found busy)
  -- The phases that only a present device allows.
  have late : ∀ {phase next : FilePhase}, early phase = false → Usb world.driver →
      world.bus = .gone → early phase = true → early next = true := by
    intro phase next late _ _ quiet
    rw [late] at quiet
    cases quiet
  have connected : ∀ {phase next : FilePhase}, world.connectionState = true → Usb world.driver →
      world.bus = .gone → early phase = true → early next = true := by
    intro phase next state usb gone
    rw [(safe.usb usb).down (.inr gone)] at state
    cases state
  cases called with
  | refused found =>
      rw [kept found rfl]
      exact safe.move found rfl .failed _ _ _ (Nat.le_refl _) fun _ _ _ => rfl
  | admitted found =>
      rw [kept found rfl]
      exact safe.move found rfl .waiting _ _ _ (Nat.le_refl _) fun _ _ _ => rfl
  | openInterrupted found =>
      rw [kept found rfl]
      exact safe.move found rfl .failed _ _ _ (Nat.le_add_right _ _) fun _ _ _ => rfl
  | openLocked found =>
      rw [kept found rfl]
      exact safe.move found rfl .checking _ _ _ (Nat.le_refl _) fun _ _ _ => rfl
  | rejected found =>
      rw [kept found rfl]
      exact safe.move found rfl .failed _ _ _ (Nat.le_add_right _ _) fun _ _ _ => rfl
  | first found state =>
      rw [kept found rfl]
      exact safe.move found rfl .starting _ _ _ (Nat.le_refl _) (connected state)
  | further found state =>
      rw [kept found rfl]
      exact safe.move found rfl .counting _ _ _ (Nat.le_refl _) (connected state)
  | started found =>
      rw [kept found rfl]
      exact safe.start tracked found
  | startFailed found driver =>
      rw [kept found rfl]
      refine safe.calls found rfl .failed _ _ _ (Nat.zero_le _) ?_
      intro usb
      rw [driver] at usb
      exact absurd usb (by decide)
  | counted found =>
      rw [kept found rfl]
      exact safe.move found rfl .opened _ _ _ (Nat.le_refl _) (late rfl)
  | connInterrupted found =>
      exact safe.move found rfl .abandoned _ _ _ (Nat.le_add_right _ _) (late rfl)
  | connFreed found => exact safe.move found rfl .freed _ _ _ (Nat.le_refl _) (late rfl)
  | closeInterrupted found =>
      rw [kept found rfl]
      exact safe.move found rfl .abandoned _ _ _ (Nat.le_add_right _ _) (late rfl)
  | closeLocked found =>
      rw [kept found rfl]
      exact safe.move found rfl .releasing _ _ _ (Nat.le_refl _) (late rfl)
  | lastReleased found =>
      rw [kept found rfl]
      exact safe.move found rfl .stopping _ _ _ (Nat.le_refl _) (late rfl)
  | released found =>
      rw [kept found rfl]
      exact safe.move found rfl .unlocking _ _ _ (Nat.le_refl _) (late rfl)
  | stopped found =>
      rw [kept found rfl]
      exact safe.stop tracked found
  | unlocked found =>
      rw [kept found rfl]
      exact safe.move found rfl .putting _ _ _ (Nat.le_refl _) (late rfl)
  | putBack found =>
      rw [kept found rfl]
      refine safe.move found rfl .closed _ _ _ ?_ (late rfl)
      exact Nat.le_add_of_sub_le (Nat.le_refl _)

theorem busy_false {world : World} (idle : world.busy = false) :
    ∀ phase ∈ world.files, phase.busy = false := by
  intro phase member
  exact Bool.eq_false_iff.mpr (List.any_eq_false.mp idle phase member)

theorem early_of_idle {phase : FilePhase} (idle : phase.busy = false) : early phase = true := by
  cases phase <;> first | rfl | cases idle

theorem remove_idle {world : World} (alive : world.alive = true) (idle : world.busy = false) :
    world.genericRawUartRemove = { world with connectionState := false, alive := false } := by
  have unused : ¬ { world with connectionState := false }.busy = true := by
    change ¬ world.busy = true
    rw [idle]
    decide
  unfold World.genericRawUartRemove World.genericRawUartSetConnectionState
  rw [touch_alive alive]
  dsimp only
  rw [if_neg unused]

section Bus
variable {world after : World}

theorem Usb.not_eth {driver : Driver} (usb : Usb driver) : driver ≠ .hbRfEth := by
  rintro rfl
  exact absurd usb (by decide)

theorem Usb.receiving (usb : Usb world.driver) :
    world.receiving = decide (hardware world.calls = some true) := by
  unfold World.receiving
  split
  · rename_i driver
    exact absurd driver usb.not_eth
  · rfl

/-- The put of `disconnect` takes the reference of the driver. -/
theorem Safe.detach (safe : Safe world) (usb : Usb world.driver) (bus : world.bus = .detaching)
    (idle : world.busy = false) : Safe { world.krefPut with bus := .gone } := by
  have life := safe.usb usb
  have present : world.bus ≠ .gone := by
    rw [bus]
    nofun
  obtain ⟨alive, kref⟩ := life.referenced present
  have state := life.down (.inl bus)
  have quiet := busy_false idle
  by_cases running : hardware world.calls = some true
  · -- The reference of an abandoned connection is never put back.
    have two : world.kref = 0 + 2 := by
      rw [kref, decide_eq_true running]
      rfl
    rw [krefPut_more two]
    refine ⟨safe.clean, ?_, safe.pinned, ?_, fun eth => absurd eth usb.not_eth⟩
    · intro dead
      rw [show world.alive = false from dead] at alive
      cases alive
    · intro _
      exact ⟨fun here => absurd rfl here, fun _ => state,
        fun _ phase member => early_of_idle (quiet phase member)⟩
  · -- The last reference: the instance is removed here, with nobody left in it.
    have one : world.kref = 1 := by
      rw [kref, decide_eq_false running]
      rfl
    have removed : { world with kref := 0 }.genericRawUartRemove =
        { world with kref := 0, connectionState := false, alive := false } :=
      remove_idle alive idle
    rw [krefPut_last one, removed]
    refine ⟨safe.clean, ?_, safe.pinned, ?_, fun eth => absurd eth usb.not_eth⟩
    · intro _
      exact ⟨quiet, (Usb.receiving usb).trans (decide_eq_false running)⟩
    · intro _
      exact ⟨fun here => absurd rfl here, fun _ => rfl,
        fun _ phase member => early_of_idle (quiet phase member)⟩

theorem Safe.usbDisconnect (safe : Safe world) (usb : Usb world.driver)
    (orderly : world.bus = .detaching → world.busy = false)
    (done : world.usbDisconnect = some after) : Safe after := by
  have life := safe.usb usb
  have notEth : world.driver ≠ .hbRfEth := usb.not_eth
  unfold World.usbDisconnect at done
  split at done
  · rename_i bus
    cases done
    refine ⟨safe.clean, safe.unused, safe.pinned, ?_, fun eth => absurd eth notEth⟩
    intro _
    refine ⟨fun _ => life.referenced (by rw [bus]; nofun), ?_, nofun⟩
    rintro (detaching | gone)
    · cases detaching
    · cases gone
  · rename_i bus
    have alive := (life.referenced (by rw [bus]; nofun)).1
    cases done
    unfold World.genericRawUartSetConnectionState
    rw [touch_alive alive]
    refine ⟨safe.clean, safe.unused, safe.pinned, ?_, fun eth => absurd eth notEth⟩
    intro _
    exact ⟨fun _ => life.referenced (by rw [bus]; nofun), fun _ => rfl, nofun⟩
  · rename_i bus
    cases done
    exact safe.detach usb bus (orderly bus)
  · cases done

theorem Safe.idle (safe : Safe world) (free : world.moduleRefs = 0)
    (notEntering : .entering ∉ world.files) : world.busy = false := by
  apply List.any_eq_false.mpr
  intro phase member
  have weight := Nat.le_trans (le_total holding member) safe.pinned
  rw [free] at weight
  cases phase with
  | entering => exact absurd member notEntering
  | failed | closed | abandoned => nofun
  | waiting | checking | starting | counting | opened | closing | freed | releasing | stopping
  | unlocking | putting => exact absurd weight (by decide)

theorem Safe.exit (safe : Safe world) (orderly : Orderly world .exit)
    (done : world.exit = some after) : Safe after := by
  have going : Usb world.driver → Safe { world with going := true } := by
    intro usb
    have life := safe.usb usb
    exact ⟨safe.clean, safe.unused, safe.pinned,
      fun _ => ⟨life.referenced, life.down, life.quiet⟩, fun eth => absurd eth usb.not_eth⟩
  unfold World.exit at done
  split at done
  · cases done
  · rename_i free
    rw [not_or, not_not] at free
    split at done
    · rename_i driver
      cases done
      exact going (.inl driver)
    · rename_i driver
      cases done
      exact going (.inr driver)
    · -- `hb_rf_eth` removes the instance before it ends its own link.
      rename_i driver
      have life := safe.eth driver
      obtain ⟨notEntering, unlinked, stopped⟩ := orderly driver
      have idle : world.busy = false := safe.idle free.1 notEntering
      have alive : world.alive = true := by
        by_cases bus : world.bus = .bound
        · exact life.bound bus
        · exact absurd (life.unloading bus) free.2
      have removed : { world with going := true }.genericRawUartRemove =
          { world with going := true, connectionState := false, alive := false } :=
        remove_idle alive idle
      cases done
      rw [removed]
      refine ⟨safe.clean, ?_, safe.pinned, fun usb => absurd driver usb.not_eth, ?_⟩
      · intro _
        refine ⟨busy_false idle, ?_⟩
        unfold World.receiving
        dsimp only
        rw [driver, stopped]
        rfl
      · intro _
        exact ⟨nofun, fun _ => ⟨unlinked, stopped⟩, fun _ => rfl⟩
    · cases done

theorem EthLife.alive (life : EthLife world) (used : world.linked = true ∨ world.receiver = true) :
    world.alive = true ∧ world.bus = .bound := by
  by_cases bus : world.bus = .bound
  · exact ⟨life.bound bus, bus⟩
  · obtain ⟨unlinked, stopped⟩ := life.unlinked bus
    rcases used with linked | running
    · rw [linked] at unlinked
      cases unlinked
    · rw [running] at stopped
      cases stopped

theorem Safe.relink (safe : Safe world) (driver : world.driver = .hbRfEth)
    (alive : world.alive = true) (bus : world.bus = .bound) (state linked receiver : Bool) :
    Safe { world.genericRawUartSetConnectionState state with
      linked := linked, receiver := receiver } := by
  unfold World.genericRawUartSetConnectionState
  rw [touch_alive alive]
  refine ⟨safe.clean, ?_, safe.pinned, fun usb => absurd driver usb.not_eth, ?_⟩
  · intro dead
    rw [show world.alive = false from dead] at alive
    cases alive
  · intro _
    exact ⟨fun _ => alive, fun out => absurd bus out, fun out => absurd bus out⟩

theorem Safe.hbRfEthDisconnect (safe : Safe world) (driver : world.driver = .hbRfEth) :
    Safe world.hbRfEthDisconnect := by
  have life := safe.eth driver
  unfold World.hbRfEthDisconnect
  dsimp only
  split
  · rename_i linked
    obtain ⟨alive, bus⟩ := life.alive (.inl linked)
    exact safe.relink driver alive bus false false false
  · rename_i unlinked
    refine ⟨safe.clean, ?_, safe.pinned, fun usb => absurd driver usb.not_eth, ?_⟩
    · intro dead
      refine ⟨(safe.unused dead).1, ?_⟩
      unfold World.receiving
      dsimp only
      rw [driver]
      rfl
    · intro _
      exact ⟨life.bound, fun out => ⟨(life.unlinked out).1, rfl⟩, life.unloading⟩

theorem Safe.hbRfEthExit (safe : Safe world) (driver : world.driver = .hbRfEth)
    (done : world.hbRfEthExit = some after) : Safe after := by
  have next : ∀ {world : World} (bus : BusPhase), Safe world → world.driver = .hbRfEth →
      world.bus ≠ .bound → bus ≠ .bound → Safe { world with bus := bus } := by
    intro world bus safe driver out other
    have life := safe.eth driver
    exact ⟨safe.clean, safe.unused, safe.pinned, fun usb => absurd driver usb.not_eth,
      fun _ => ⟨fun bound => absurd bound other, fun _ => life.unlinked out,
        fun _ => life.unloading out⟩⟩
  unfold World.hbRfEthExit at done
  split at done
  · rename_i bus
    cases done
    exact next .detaching safe driver (by rw [bus]; nofun) nofun
  · rename_i bus
    cases done
    have kept : world.hbRfEthDisconnect.driver = world.driver ∧
        world.hbRfEthDisconnect.bus = world.bus := by
      unfold World.hbRfEthDisconnect
      dsimp only
      split
      · exact ⟨rfl, rfl⟩
      · exact ⟨rfl, rfl⟩
    exact next .gone (safe.hbRfEthDisconnect driver) (kept.1.trans driver)
      (by rw [kept.2, bus]; nofun) nofun
  · cases done

theorem Safe.ethStep {act : Act} (safe : Safe world) (driver : world.driver = .hbRfEth)
    (orderly : Orderly world act) (done : world.ethStep act = some after) : Safe after := by
  have life := safe.eth driver
  unfold World.ethStep at done
  split at done
  · split at done
    · cases done
    · cases done
      exact safe.relink driver (life.bound orderly) orderly true true true
  · split at done
    · cases done
    · cases done
      exact safe.hbRfEthDisconnect driver
  · split at done
    · rename_i up
      obtain ⟨alive, bus⟩ := life.alive (.inl up.1)
      cases done
      exact safe.relink driver alive bus false false _
    · cases done
  · split at done
    · rename_i retrying
      obtain ⟨alive, bus⟩ := life.alive (.inr retrying.1)
      cases done
      exact safe.relink driver alive bus true true true
    · cases done
  · cases done

theorem Safe.disconnect (safe : Safe world) (orderly : Orderly world .disconnect)
    (done : world.disconnect = some after) : Safe after := by
  unfold World.disconnect at done
  split at done
  · rename_i driver
    exact safe.usbDisconnect (.inl driver) (orderly (by rw [driver]; nofun)) done
  · rename_i driver
    exact safe.usbDisconnect (.inr driver) (orderly (by rw [driver]; nofun)) done
  · rename_i driver
    exact safe.hbRfEthExit driver done
  · cases done

theorem Safe.openFile (safe : Safe world) (alive : world.alive = true) :
    Safe { world with files := world.files ++ [.entering] } := by
  refine ⟨safe.clean, ?_, ?_, ?_, ?_⟩
  · intro dead
    rw [show world.alive = false from dead] at alive
    cases alive
  · rw [total_new]
    exact safe.pinned
  · intro usb
    have life := safe.usb usb
    refine ⟨life.referenced, life.down, ?_⟩
    intro gone phase member
    rcases List.mem_append.mp member with old | new
    · exact life.quiet gone phase old
    · rw [List.mem_singleton.mp new]
      rfl
  · intro eth
    have life := safe.eth eth
    exact ⟨life.bound, life.unlinked, life.unloading⟩

end Bus

theorem safe_step {world after : World} {act : Act} (safe : Safe world) (tracked : Tracked world)
    (orderly : Orderly world act) (done : world.step act = some after) : Safe after := by
  have eth : (if world.driver = .hbRfEth then world.ethStep act else none) = some after →
      Safe after := by
    intro done
    split at done
    · rename_i driver
      exact safe.ethStep driver orderly done
    · cases done
  cases act with
  | openFile =>
      rw [World.step] at done
      split at done
      · rename_i alive
        cases done
        exact safe.openFile alive
      · cases done
  | closeFile index =>
      rw [World.step] at done
      split at done
      · rename_i found
        cases done
        refine safe.move found rfl .closing _ _ _ (Nat.le_refl _) ?_
        intro _ _ quiet
        cases quiet
      · cases done
  | call index outcome => exact safe_called safe tracked (step_called done)
  | operate index =>
      rw [World.step] at done
      split at done
      · rename_i found
        cases done
        rw [touch_alive (safe.alive found rfl)]
        exact safe
      · cases done
  | received =>
      rw [World.step] at done
      split at done
      · rename_i receiving
        have alive : world.alive = true := by
          cases dead : world.alive with
          | true => rfl
          | false =>
              rw [(safe.unused dead).2] at receiving
              cases receiving
        cases done
        rw [touch_alive alive]
        exact safe
      · cases done
  | disconnect => exact safe.disconnect orderly done
  | exit => exact safe.exit orderly done
  | connect | unlink | linkLost | reconnect => exact eth done

def Plugged (world : World) : Prop := ∃ driver, driver ≠ .platform ∧ world = probed driver

theorem safe_probed (driver : Driver) : Safe (probed driver) := by
  refine ⟨rfl, nofun, Nat.le_refl _, ?_, ?_⟩
  · intro _
    refine ⟨fun _ => ⟨rfl, rfl⟩, ?_, nofun⟩
    rintro (detaching | gone)
    · cases detaching
    · cases gone
  · intro _
    exact ⟨fun _ => rfl, fun out => absurd rfl out, fun out => absurd rfl out⟩

theorem safe_reachable {world : World}
    (reached : Reachable World.step Orderly Plugged world) : Safe world ∧ Tracked world := by
  induction reached with
  | start initial =>
      obtain ⟨driver, -, rfl⟩ := initial
      exact ⟨safe_probed driver, tracked_probed driver⟩
  | next act _ orderly taken ih =>
      exact ⟨safe_step ih.1 ih.2 orderly taken, tracked_step ih.2 taken⟩

def orderlyGuard (world : World) : Act → Bool
  | .disconnect => !world.busy
  | .exit => world.driver ≠ .hbRfEth
  | .connect => false
  | _ => true

theorem orderlyGuard_sound (world : World) (act : Act)
    (passed : orderlyGuard world act = true) : Orderly world act := by
  cases act with
  | disconnect =>
      intro _ _
      simpa [orderlyGuard] using passed
  | exit =>
      intro eth
      exact absurd eth (of_decide_eq_true passed)
  | connect => cases passed
  | openFile | closeFile | call | operate | received | unlink | linkLost | reconnect => trivial

def pulledRun : List Act :=
  openAll 0 ++ [.received, .operate 0, .closeFile 0] ++ List.replicate 6 (.call 0 .proceeds) ++
    [.disconnect, .disconnect, .disconnect, .exit]

def pulledOpenRun : List Act :=
  openAll 0 ++ [.disconnect, .disconnect, .disconnect, .closeFile 0] ++
    List.replicate 5 (.call 0 .proceeds)

end PiVccu.RawUartLifetime
