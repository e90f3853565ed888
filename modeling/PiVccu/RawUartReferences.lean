import PiVccu.CircBuf
import PiVccu.RawUartLifetime

/-!
The references on the driver's module. `generic_raw_uart_open` takes one before
anything else and `generic_raw_uart_close` gives it back at its end; a failure
behind `try_module_get` gives nothing back. `driver->owner` is `THIS_MODULE` in all
drivers, so there is a module to be counted. The receive ring is added to the
device here: `open` empties it behind a successful `start_connection`.
-/

namespace PiVccu.RawUartReferences
open Census CircBuf RawUartCount RawUartFiles RawUartLifetime Transition

structure Device where
  world : World
  rxbuf : CircRing UInt8

namespace Device

/-- A reader and the receive interrupt can leave the ring in any state; a call of
`open` resets it with the hardware that it has started. -/
def ringAfter (device : Device) (left : CircRing UInt8) : Act → CircRing UInt8
  | .operate _ => left
  | .received => left
  | .call index .proceeds =>
      if device.world.files[index]? = some .starting then { device.rxbuf with head := 0, tail := 0 }
      else device.rxbuf
  | _ => device.rxbuf

def step (device : Device) (label : Act × CircRing UInt8) : Option Device :=
  (device.world.step label.1).map fun world =>
    { world := world, rxbuf := device.ringAfter label.2 label.1 }

def openCall (device : Device) (outcomes : List Outcome) : Option Device :=
  runAll step device ((.openFile, device.rxbuf) ::
    outcomes.map fun outcome => (.call device.world.files.length outcome, device.rxbuf))

end Device

def Failed (before after : Device) : Prop :=
  after.world.files[before.world.files.length]? = some .failed

structure Traceless (before after : Device) : Prop where
  references : after.world.moduleRefs = before.world.moduleRefs
  openCount : after.world.openCount = before.world.openCount
  rxbuf : after.rxbuf = before.rxbuf

/-- How a call of `open` that is alone has changed the device when its file is in
this phase. -/
def Progress (before device : Device) : FilePhase → Prop
  | .entering => Traceless before device ∧ device.world.going = before.world.going
  | .waiting | .checking | .starting =>
      device.world.moduleRefs = before.world.moduleRefs + 1 ∧ before.world.going = false ∧
        device.world.openCount = before.world.openCount ∧ device.rxbuf = before.rxbuf
  | .failed =>
      device.world.openCount = before.world.openCount ∧ device.rxbuf = before.rxbuf ∧
        (device.world.moduleRefs = before.world.moduleRefs ∧ before.world.going = true ∨
          device.world.moduleRefs = before.world.moduleRefs + 1 ∧ before.world.going = false)
  | .counting | .opened => True
  | _ => False

theorem entering_going {world after : World} {index : Nat} {outcome : Outcome}
    (found : world.files[index]? = some .entering) (going : world.going = true)
    (done : world.step (.call index outcome) = some after) :
    after.moduleRefs = world.moduleRefs := by
  cases outcome with
  | proceeds =>
      have admitted : world.touch.going = true := going
      simp only [World.step, found, World.genericRawUartOpen, Option.bind_eq_bind,
        Option.bind_some] at done
      rw [if_pos admitted] at done
      cases done
      rfl
  | interrupted | startFails =>
      simp [World.step, found, World.genericRawUartOpen, World.genericRawUartClose] at done

theorem checking_passes {world after : World} {index : Nat}
    (found : world.files[index]? = some .checking) (room : world.openCount < maxConnections)
    (state : world.connectionState = true) (done : world.step (.call index .proceeds) = some after) :
    after = world.touch.move index .starting ∨ after = world.touch.move index .counting := by
  have few : ¬ world.touch.openCount ≥ maxConnections := Nat.not_le.mpr room
  have present : ¬ (!world.touch.connectionState) = true := by
    rw [show world.touch.connectionState = true from state]
    decide
  simp only [World.step, found, World.genericRawUartOpen, Option.bind_eq_bind,
    Option.bind_some] at done
  rw [if_neg few, if_neg present] at done
  split at done
  · exact .inl (Option.some.inj done).symm
  · exact .inr (Option.some.inj done).symm

theorem startConnection_refs (world : World) : world.startConnection.moduleRefs = world.moduleRefs := by
  rw [startConnection_eq]
  split <;> rfl

theorem krefPut_refs (world : World) : world.krefPut.moduleRefs = world.moduleRefs := by
  unfold World.krefPut
  split <;> rfl

theorem stopConnection_refs (world : World) : world.stopConnection.moduleRefs = world.moduleRefs := by
  rw [stopConnection_eq]
  split
  · exact krefPut_refs _
  · rfl

theorem move_found {world : World} {index : Nat} {phase : FilePhase}
    (found : world.files[index]? = some phase) (next : FilePhase) :
    (world.move index next).files[index]? = some next := by
  obtain ⟨inside, -⟩ := List.getElem?_eq_some_iff.mp found
  simp [World.move, inside]

theorem progress_step {before device next : Device} {index : Nat} {phase : FilePhase}
    {outcome : Outcome} {left : CircRing UInt8} (found : device.world.files[index]? = some phase)
    (progress : Progress before device phase)
    (done : device.step (.call index outcome, left) = some next) :
    ∃ after, next.world.files[index]? = some after ∧ Progress before next after := by
  obtain ⟨world, stepped, rfl⟩ := Option.map_eq_some_iff.mp done
  -- The ring is touched in one phase only.
  have ring : phase ≠ .starting → device.ringAfter left (.call index outcome) = device.rxbuf := by
    intro other
    cases outcome with
    | proceeds =>
        refine if_neg ?_
        rw [found]
        exact fun same => other (Option.some.inj same)
    | interrupted | startFails => rfl
  have here : ∀ {other : FilePhase}, device.world.files[index]? = some other → phase = other :=
    fun same => Option.some.inj (found.symm.trans same)
  cases step_called stepped with
  | refused same going =>
      cases here same
      obtain ⟨⟨references, openCount, rxbuf⟩, kept⟩ := progress
      exact ⟨.failed, move_found same .failed, openCount, (ring nofun).trans rxbuf,
        .inl ⟨references, kept.symm.trans going⟩⟩
  | admitted same =>
      cases here same
      obtain ⟨⟨references, openCount, rxbuf⟩, kept⟩ := progress
      have resident : before.world.going = false := by
        rw [← kept, Bool.eq_false_iff]
        intro going
        exact Nat.succ_ne_self _ (entering_going same going stepped)
      exact ⟨.waiting, move_found same .waiting, congrArg (· + 1) references, resident, openCount,
        (ring nofun).trans rxbuf⟩
  | openInterrupted same =>
      cases here same
      obtain ⟨references, resident, openCount, rxbuf⟩ := progress
      exact ⟨.failed, move_found same .failed, openCount, rxbuf, .inr ⟨references, resident⟩⟩
  | openLocked same =>
      cases here same
      obtain ⟨references, resident, openCount, rxbuf⟩ := progress
      exact ⟨.checking, move_found same .checking, references, resident, openCount,
        (ring nofun).trans rxbuf⟩
  | rejected same =>
      cases here same
      obtain ⟨references, resident, openCount, rxbuf⟩ := progress
      exact ⟨.failed, move_found same .failed, openCount, (ring nofun).trans rxbuf,
        .inr ⟨references, resident⟩⟩
  | first same =>
      cases here same
      obtain ⟨references, resident, openCount, rxbuf⟩ := progress
      exact ⟨.starting, move_found same .starting, references, resident, openCount,
        (ring nofun).trans rxbuf⟩
  | further same => exact ⟨.counting, move_found same .counting, trivial⟩
  | started same =>
      obtain ⟨-, -, files, -⟩ := startConnection_tracked device.world.touch
      have kept : device.world.touch.startConnection.files[index]? = some .starting := by
        rw [files]
        exact same
      exact ⟨.counting, move_found kept .counting, trivial⟩
  | startFailed same =>
      cases here same
      obtain ⟨references, resident, openCount, rxbuf⟩ := progress
      exact ⟨.failed, move_found same .failed, openCount, rxbuf, .inr ⟨references, resident⟩⟩
  | counted same => exact ⟨.opened, move_found same .opened, trivial⟩
  | connInterrupted same | connFreed same | closeInterrupted same | closeLocked same
  | lastReleased same | released same | stopped same | unlocked same | putBack same =>
      cases here same
      cases progress

theorem progress_calls {before : Device} (index : Nat) (left : CircRing UInt8)
    (outcomes : List Outcome) {device after : Device} {phase : FilePhase}
    (found : device.world.files[index]? = some phase) (progress : Progress before device phase)
    (ran : runAll Device.step device (outcomes.map fun outcome => (.call index outcome, left)) =
      some after) :
    ∃ last, after.world.files[index]? = some last ∧ Progress before after last := by
  induction outcomes generalizing device phase with
  | nil =>
      cases ran
      exact ⟨phase, found, progress⟩
  | cons outcome rest ih =>
      obtain ⟨next, one, others⟩ := Option.bind_eq_some_iff.mp ran
      obtain ⟨now, there, moved⟩ := progress_step found progress one
      exact ih there moved others

/-- A failed call leaves the count and the ring alone, and the references exactly if
it did not get one. -/
theorem failed_call {before after : Device} {outcomes : List Outcome}
    (called : before.openCall outcomes = some after) (failed : Failed before after) :
    after.world.openCount = before.world.openCount ∧ after.rxbuf = before.rxbuf ∧
      (Traceless before after ↔ before.world.going = true) := by
  obtain ⟨entered, one, others⟩ := Option.bind_eq_some_iff.mp called
  obtain ⟨world, stepped, rfl⟩ := Option.map_eq_some_iff.mp one
  rw [World.step] at stepped
  split at stepped
  · cases stepped
    have found : (before.world.files ++ [FilePhase.entering])[before.world.files.length]? =
        some .entering := by simp
    have entered : Progress before
        ⟨{ before.world with files := before.world.files ++ [.entering] }, before.rxbuf⟩ .entering :=
      ⟨⟨rfl, rfl, rfl⟩, rfl⟩
    obtain ⟨last, there, progress⟩ := progress_calls _ _ outcomes found entered others
    cases Option.some.inj (there.symm.trans failed)
    obtain ⟨openCount, rxbuf, ⟨references, going⟩ | ⟨references, resident⟩⟩ := progress
    · exact ⟨openCount, rxbuf, iff_of_true ⟨references, openCount, rxbuf⟩ going⟩
    · refine ⟨openCount, rxbuf, iff_of_false ?_ (by rw [resident]; decide)⟩
      intro traceless
      rw [traceless.references] at references
      omega
  · cases stepped

/-- An `open` that fails although the module was there, or a `close` that is
interrupted. -/
def Leaks (world : World) : Act → Prop
  | .call _ .interrupted => True
  | .call _ .startFails => True
  | .call index .proceeds => world.files[index]? = some .checking ∧
      (maxConnections ≤ world.openCount ∨ world.connectionState = false)
  | _ => False

structure ReferenceLaw (world : World) : Prop where
  held : world.moduleRefs = total holding world.files
  settled : (∀ phase ∈ world.files, phase.busy = true → phase = .opened) →
    world.moduleRefs = openFiles world

theorem total_holding {files : List FilePhase}
    (settled : ∀ phase ∈ files, phase.busy = true → phase = .opened) :
    total holding files = files.count .opened := by
  induction files with
  | nil => rfl
  | cons phase rest ih =>
      rw [total_cons, List.count_cons, ih fun other member =>
        settled other (List.mem_cons_of_mem _ member), Nat.add_comm]
      have first := settled phase List.mem_cons_self
      cases phase with
      | opened | failed | closed | abandoned => rfl
      | entering | waiting | checking | starting | counting | closing | freed | releasing
      | stopping | unlocking | putting => cases first rfl

theorem held_move {world : World} {index : Nat} {phase : FilePhase}
    (held : world.moduleRefs = total holding world.files)
    (found : world.files[index]? = some phase) (next : FilePhase) {refs : Nat}
    (changed : refs + holding phase = world.moduleRefs + holding next) :
    refs = total holding (world.files.set index next) := by
  have moved := total_set holding world.files index next found
  omega

theorem held_called {world after : World} {index : Nat} {outcome : Outcome}
    (held : world.moduleRefs = total holding world.files)
    (done : world.step (.call index outcome) = some after)
    (kept : ¬ Leaks world (.call index outcome)) :
    after.moduleRefs = total holding after.files := by
  cases step_called done with
  | refused found => exact held_move held found .failed rfl
  | admitted found => exact held_move held found .waiting rfl
  | openInterrupted | startFailed | connInterrupted | closeInterrupted => exact absurd trivial kept
  | openLocked found => exact held_move held found .checking rfl
  | rejected found =>
      -- Both checks would have to pass.
      have passed : world.openCount < maxConnections ∧ world.connectionState = true := by
        have checked : ¬ (maxConnections ≤ world.openCount ∨ world.connectionState = false) :=
          fun reason => kept ⟨found, reason⟩
        rw [not_or, Nat.not_le, Bool.not_eq_false] at checked
        exact checked
      rcases checking_passes found passed.1 passed.2 done with next | next
      · rw [next]
        exact held_move held found .starting rfl
      · rw [next]
        exact held_move held found .counting rfl
  | first found => exact held_move held found .starting rfl
  | further found => exact held_move held found .counting rfl
  | started found =>
      obtain ⟨-, -, files, -⟩ := startConnection_tracked world.touch
      change world.touch.startConnection.moduleRefs =
        total holding (world.touch.startConnection.files.set index .counting)
      rw [startConnection_refs, files]
      exact held_move held found .counting rfl
  | counted found => exact held_move held found .opened rfl
  | connFreed found => exact held_move held found .freed rfl
  | closeLocked found => exact held_move held found .releasing rfl
  | lastReleased found => exact held_move held found .stopping rfl
  | released found => exact held_move held found .unlocking rfl
  | stopped found =>
      obtain ⟨-, -, files, -⟩ := stopConnection_tracked world.touch
      change world.touch.stopConnection.moduleRefs =
        total holding (world.touch.stopConnection.files.set index .unlocking)
      rw [stopConnection_refs, files]
      exact held_move held found .unlocking rfl
  | unlocked found => exact held_move held found .putting rfl
  | putBack found =>
      have own := le_total holding (List.mem_of_getElem? found)
      rw [← held] at own
      exact held_move held found .closed (Nat.sub_add_cancel own)

theorem disconnect_refs {world after : World} (done : world.disconnect = some after) :
    after.moduleRefs = world.moduleRefs := by
  have usb : world.usbDisconnect = some after → after.moduleRefs = world.moduleRefs := by
    intro done
    unfold World.usbDisconnect at done
    split at done
    · cases done
      rfl
    · cases done
      rfl
    · cases done
      exact krefPut_refs world
    · cases done
  unfold World.disconnect at done
  split at done
  · exact usb done
  · exact usb done
  · unfold World.hbRfEthExit at done
    split at done
    · cases done
      rfl
    · cases done
      unfold World.hbRfEthDisconnect
      dsimp only
      split <;> rfl
    · cases done
  · cases done

theorem exit_refs {world after : World} (done : world.exit = some after) :
    after.moduleRefs = world.moduleRefs := by
  unfold World.exit at done
  split at done
  · cases done
  · split at done
    · cases done
      rfl
    · cases done
      rfl
    · cases done
      rfl
    · cases done

theorem ethStep_refs {world after : World} {act : Act} (done : world.ethStep act = some after) :
    after.moduleRefs = world.moduleRefs := by
  unfold World.ethStep at done
  split at done
  · split at done
    · cases done
    · cases done
      rfl
  · split at done
    · cases done
    · cases done
      unfold World.hbRfEthDisconnect
      dsimp only
      split <;> rfl
  · split at done
    · cases done
      rfl
    · cases done
  · split at done
    · cases done
      rfl
    · cases done
  · cases done

theorem step_refs {world after : World} {act : Act} (done : world.step act = some after)
    (other : ∀ index outcome, act ≠ .call index outcome) : after.moduleRefs = world.moduleRefs := by
  have eth : ∀ act, (if world.driver = .hbRfEth then world.ethStep act else none) = some after →
      after.moduleRefs = world.moduleRefs := by
    intro act done
    split at done
    · exact ethStep_refs done
    · cases done
  cases act with
  | openFile | closeFile | operate | received =>
      rw [World.step] at done
      split at done
      · cases done
        rfl
      · cases done
  | call index outcome => exact absurd rfl (other index outcome)
  | disconnect => exact disconnect_refs done
  | exit => exact exit_refs done
  | connect | unlink | linkLost | reconnect => exact eth _ done

theorem held_step {world after : World} {act : Act}
    (held : world.moduleRefs = total holding world.files) (done : world.step act = some after)
    (kept : ¬ Leaks world act) : after.moduleRefs = total holding after.files := by
  by_cases call : ∃ index outcome, act = .call index outcome
  · obtain ⟨index, outcome, rfl⟩ := call
    exact held_called held done kept
  · have other : ∀ index outcome, act ≠ .call index outcome :=
      fun index outcome same => call ⟨index, outcome, same⟩
    rw [step_refs done other, held]
    obtain ⟨-, -, rfl⟩ | ⟨index, -, found, rfl⟩ | ⟨index, outcome, same, -⟩ | still :=
      step_cases done
    · exact (total_new holding world.files .entering).symm
    · have moved := total_set holding world.files index .closing found
      exact (Nat.add_right_cancel moved).symm
    · exact absurd same (other index outcome)
    · rw [still.files]

def Fresh (device : Device) : Prop := Probed device.world

theorem held_reachable {device : Device}
    (reached : Reachable Device.step (fun device label => ¬ Leaks device.world label.1) Fresh device) :
    device.world.moduleRefs = total holding device.world.files := by
  induction reached with
  | start initial =>
      obtain ⟨driver, fresh⟩ := initial
      rw [fresh]
      rfl
  | next label _ kept taken ih =>
      obtain ⟨world, stepped, rfl⟩ := Option.map_eq_some_iff.mp taken
      exact held_step ih stepped kept

/-- A failed `open` leaves no trace exactly if it failed to get the module; in a run
without any other failure the references are exact. -/
theorem failed_open_traceless (before after : Device) (outcomes : List Outcome)
    (called : Device.openCall before outcomes = some after) (failed : Failed before after) :
    (Traceless before after ↔ before.world.going = true) ∧
    ∀ device, Reachable Device.step (fun device label => ¬ Leaks device.world label.1) Fresh device →
      ReferenceLaw device.world := by
  constructor
  · exact (failed_call called failed).2.2
  · intro device reached
    have held := held_reachable reached
    exact ⟨held, fun settled => held.trans (total_holding settled)⟩

def plugged (driver : Driver) : Device := ⟨probed driver, ⟨List.replicate 1024 0, 0, 0⟩⟩

/-- An `open` of a driver that is being unloaded. -/
theorem failed_open_traceless_unloading : ∃ before after,
    Device.openCall before [.proceeds] = some after ∧ Failed before after ∧ Traceless before after := by
  have called : ((Device.openCall ⟨{ probed .hbRfUsb with going := true },
      (plugged .hbRfUsb).rxbuf⟩ [.proceeds]).map fun after => after.world.files) =
        some [.failed] := rfl
  obtain ⟨after, ran, files⟩ := Option.map_eq_some_iff.mp called
  have failed : Failed ⟨{ probed .hbRfUsb with going := true }, (plugged .hbRfUsb).rxbuf⟩ after := by
    rw [Failed, files]
    rfl
  exact ⟨_, after, ran, failed, (failed_open_traceless _ after _ ran failed).1.mpr rfl⟩

/-- A signal while the first `open` waits for the semaphore: no file is open and the
module stays referenced. -/
theorem interrupted_open_leaks : ∃ before after, Reachable Device.step (fun _ _ => True) Fresh before ∧
    Device.openCall before [.proceeds, .interrupted] = some after ∧ Failed before after ∧
    ¬ Traceless before after ∧ ¬ ReferenceLaw after.world := by
  have called : ((Device.openCall (plugged .platform) [.proceeds, .interrupted]).map fun after =>
      (after.world.moduleRefs, after.world.files)) = some (1, [.failed]) := rfl
  obtain ⟨after, ran, fields⟩ := Option.map_eq_some_iff.mp called
  obtain ⟨references, files⟩ := Prod.mk.inj fields
  refine ⟨plugged .platform, after, .start ⟨.platform, rfl⟩, ran, ?_, ?_, ?_⟩
  · rw [Failed, files]
    rfl
  · intro traceless
    have same := traceless.references
    rw [references] at same
    cases same
  · intro law
    have same := law.held
    rw [references, files] at same
    cases same

end PiVccu.RawUartReferences
