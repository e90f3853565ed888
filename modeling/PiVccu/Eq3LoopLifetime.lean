import Mathlib.Data.List.Count
import Mathlib.Data.List.FinRange
import PiVccu.Eq3Loop

/-!
The life of the four channel slots of `kernel/eq3_char_loop.c`. A slot is taken
as free when `created` is 0, although the slave file of its last life may still
be open, and `eq3loop_create_slave_dev` clears the slot before it is used again.
-/

namespace PiVccu.Eq3LoopLifetime
open Eq3Loop Transition

def einval : Int := 22

/-- An open slave file: the slot behind `conn->channel` and, for the record, the
life of the slot in which it was opened. -/
structure SlaveFile where
  id : Nat
  slot : Fin 4
  incarnation : Nat
deriving DecidableEq

/-- `struct eq3loop_control_data` with the open files. Every clearing of a slot
begins a new incarnation. -/
structure Control where
  channels : Fin 4 → Channel
  incarnation : Fin 4 → Nat
  slaves : List SlaveFile
  masters : List (Fin 4)
  nextFile : Nat

def clearedChannel : Channel := { createdChannel with created := false }

def freeSlot (channels : Fin 4 → Channel) : Option (Fin 4) :=
  (List.finRange 4).find? fun slot => !(channels slot).created

/-- `deviceCreated` and `allocated` are the outcomes of the tests of
`device_create` and `kzalloc` for `NULL`; the first reports its failures by error
pointers, which pass. -/
def createSlaveDev (control : Control) (lockInterrupted deviceCreated allocated : Bool) :
    Control × Int :=
  if lockInterrupted then (control, -erestartsys)
  else
    match freeSlot control.channels with
    | none => (control, -einval)
    | some slot =>
        let cleared := { control with
          channels := Function.update control.channels slot clearedChannel
          incarnation := Function.update control.incarnation slot (control.incarnation slot + 1) }
        if !deviceCreated then (cleared, -ebusy)
        else if !allocated then (cleared, -enomem)
        else
          ({ cleared with
              channels := Function.update control.channels slot createdChannel
              masters := slot :: control.masters },
            0)

/-- `eq3loop_close_master`, with the outcomes of its two semaphores. The VFS
drops the file in any case. -/
def closeMaster (control : Control) (slot : Fin 4) (channelInterrupted controlInterrupted : Bool) :
    Control × Int :=
  let dropped := { control with masters := control.masters.erase slot }
  if channelInterrupted || controlInterrupted then (dropped, -erestartsys)
  else
    ({ dropped with
        channels := Function.update control.channels slot
          { control.channels slot with created := false } },
      0)

/-- `eq3loop_open_slave` through the device node of a slot. -/
def openSlaveFile (control : Control) (slot : Fin 4) (lockInterrupted allocated : Bool) :
    Control × Reply :=
  let result := openSlave (control.channels slot) lockInterrupted allocated
  let entered := { control with channels := Function.update control.channels slot result.1 }
  if result.2 = .returned 0 [] then
    ({ entered with
        slaves := ⟨control.nextFile, slot, control.incarnation slot⟩ :: control.slaves
        nextFile := control.nextFile + 1 },
      result.2)
  else (entered, result.2)

def closeSlaveFile (control : Control) (file : SlaveFile) (lockInterrupted : Bool) : Control :=
  { control with
    channels := Function.update control.channels file.slot
      (closeSlave (control.channels file.slot) lockInterrupted).1
    slaves := control.slaves.erase file }

inductive Action where
  | createSlaveDev (lockInterrupted deviceCreated allocated : Bool)
  | closeMaster (slot : Fin 4) (channelInterrupted controlInterrupted : Bool)
  | openSlave (slot : Fin 4) (lockInterrupted allocated : Bool)
  | closeSlave (file : SlaveFile) (lockInterrupted : Bool)
deriving DecidableEq

def step (control : Control) : Action → Option Control
  | .createSlaveDev lockInterrupted deviceCreated allocated =>
      some (createSlaveDev control lockInterrupted deviceCreated allocated).1
  | .closeMaster slot channelInterrupted controlInterrupted =>
      if slot ∈ control.masters then
        some (closeMaster control slot channelInterrupted controlInterrupted).1
      else none
  | .openSlave slot lockInterrupted allocated =>
      some (openSlaveFile control slot lockInterrupted allocated).1
  | .closeSlave file lockInterrupted =>
      if file ∈ control.slaves then some (closeSlaveFile control file lockInterrupted) else none

def openFiles (control : Control) (slot : Fin 4) : Nat :=
  control.slaves.countP fun file => file.slot = slot

structure Exclusive (control : Control) : Prop where
  counted : ∀ slot, (control.channels slot).slaveOpenCount = openFiles control slot
  single : ∀ slot, openFiles control slot ≤ 1
  current : ∀ file ∈ control.slaves, file.incarnation = control.incarnation file.slot

/-- A slot is cleared only without a slave, and no close of a slave file is
interrupted while it waits for the channel. -/
def Undisturbed (control : Control) : Action → Prop
  | .createSlaveDev lockInterrupted _ _ =>
      lockInterrupted = false → ∀ slot, freeSlot control.channels = some slot →
        (control.channels slot).slaveOpenCount = 0
  | .closeSlave _ lockInterrupted => lockInterrupted = false
  | _ => True

theorem exclusive_clear {control : Control} (exclusive : Exclusive control) {slot : Fin 4}
    (unused : (control.channels slot).slaveOpenCount = 0) (channel : Channel)
    (zero : channel.slaveOpenCount = 0) (masters : List (Fin 4)) :
    Exclusive { control with
      channels := Function.update control.channels slot channel
      incarnation := Function.update control.incarnation slot (control.incarnation slot + 1)
      masters := masters } := by
  have none : openFiles control slot = 0 := by
    rw [← exclusive.counted slot]
    exact unused
  refine ⟨?_, exclusive.single, ?_⟩
  · intro other
    by_cases same : other = slot
    · subst same
      dsimp only
      rw [Function.update_self, zero]
      exact none.symm
    · dsimp only
      rw [Function.update_of_ne same]
      exact exclusive.counted other
  · intro file member
    have differs : file.slot ≠ slot := by
      intro same
      have positive : 0 < openFiles control slot :=
        List.countP_pos_iff.mpr ⟨file, member, by simpa using same⟩
      omega
    dsimp only
    rw [Function.update_of_ne differs]
    exact exclusive.current file member

theorem exclusive_create {control : Control} (exclusive : Exclusive control)
    (lockInterrupted deviceCreated allocated : Bool)
    (undisturbed : Undisturbed control (.createSlaveDev lockInterrupted deviceCreated allocated)) :
    Exclusive (createSlaveDev control lockInterrupted deviceCreated allocated).1 := by
  unfold createSlaveDev
  split
  · exact exclusive
  · rename_i unlocked
    split
    · exact exclusive
    · rename_i slot free
      have unused := undisturbed (by simpa using unlocked) slot free
      split
      · exact exclusive_clear exclusive unused clearedChannel rfl control.masters
      · split
        · exact exclusive_clear exclusive unused clearedChannel rfl control.masters
        · exact exclusive_clear exclusive unused createdChannel rfl (slot :: control.masters)

theorem exclusive_update {control : Control} (exclusive : Exclusive control) {slot : Fin 4}
    (channel : Channel) (same : channel.slaveOpenCount = (control.channels slot).slaveOpenCount)
    (masters : List (Fin 4)) :
    Exclusive { control with
      channels := Function.update control.channels slot channel
      masters := masters } := by
  refine ⟨?_, exclusive.single, exclusive.current⟩
  intro other
  by_cases here : other = slot
  · subst here
    dsimp only
    rw [Function.update_self, same]
    exact exclusive.counted other
  · dsimp only
    rw [Function.update_of_ne here]
    exact exclusive.counted other

theorem exclusive_closeMaster {control : Control} (exclusive : Exclusive control) (slot : Fin 4)
    (channelInterrupted controlInterrupted : Bool) :
    Exclusive (closeMaster control slot channelInterrupted controlInterrupted).1 := by
  unfold closeMaster
  dsimp only
  split
  · exact ⟨exclusive.counted, exclusive.single, exclusive.current⟩
  · exact exclusive_update exclusive { control.channels slot with created := false } rfl
      (control.masters.erase slot)

theorem openSlave_count (channel : Channel) (lockInterrupted allocated : Bool) :
    ((openSlave channel lockInterrupted allocated).2 = .returned 0 [] ∧
        channel.slaveOpenCount = 0 ∧
        (openSlave channel lockInterrupted allocated).1.slaveOpenCount = 1) ∨
      ((openSlave channel lockInterrupted allocated).2 ≠ .returned 0 [] ∧
        (openSlave channel lockInterrupted allocated).1 = channel) := by
  have failed : ∀ errno, 0 < errno → Reply.returned (-errno) [] ≠ .returned 0 [] := by
    intro errno positive same
    have zero := (Reply.returned.inj same).1
    omega
  unfold openSlave
  split
  · exact .inr ⟨failed erestartsys (by decide), rfl⟩
  · split
    · exact .inr ⟨failed enodev (by decide), rfl⟩
    · split
      · exact .inr ⟨failed ebusy (by decide), rfl⟩
      · rename_i unused
        have zero : channel.slaveOpenCount = 0 := Classical.not_not.mp unused
        split
        · exact .inr ⟨failed enomem (by decide), rfl⟩
        · refine .inl ⟨rfl, zero, ?_⟩
          dsimp only
          rw [zero]

theorem exclusive_openSlave {control : Control} (exclusive : Exclusive control) (slot : Fin 4)
    (lockInterrupted allocated : Bool) :
    Exclusive (openSlaveFile control slot lockInterrupted allocated).1 := by
  unfold openSlaveFile
  dsimp only
  rcases openSlave_count (control.channels slot) lockInterrupted allocated with
    ⟨success, zero, one⟩ | ⟨failure, same⟩
  · rw [if_pos success]
    have none : openFiles control slot = 0 := by
      rw [← exclusive.counted slot]
      exact zero
    refine ⟨?_, ?_, ?_⟩
    · intro other
      by_cases here : other = slot
      · subst here
        simpa [openFiles, one] using none
      · have away : slot ≠ other := fun same => here same.symm
        simp only [Function.update_of_ne here, openFiles, List.countP_cons, away, decide_false,
          Bool.false_eq_true, ↓reduceIte]
        exact exclusive.counted other
    · intro other
      by_cases here : other = slot
      · subst here
        simpa [openFiles] using none
      · have away : slot ≠ other := fun same => here same.symm
        simp only [openFiles, List.countP_cons, away, decide_false, Bool.false_eq_true, ↓reduceIte]
        exact exclusive.single other
    · intro file member
      rcases List.mem_cons.mp member with rfl | older
      · rfl
      · exact exclusive.current file older
  · rw [if_neg failure]
    exact exclusive_update exclusive _ (by rw [same]) control.masters

theorem exclusive_closeSlave {control : Control} (exclusive : Exclusive control) (file : SlaveFile)
    (opened : file ∈ control.slaves) : Exclusive (closeSlaveFile control file false) := by
  have counted : ∀ slot, openFiles (closeSlaveFile control file false) slot =
      openFiles control slot - if file.slot = slot then 1 else 0 := by
    intro slot
    simp [openFiles, closeSlaveFile, List.countP_erase, opened]
  refine ⟨?_, ?_, ?_⟩
  · intro slot
    rw [counted, ← exclusive.counted slot]
    by_cases here : slot = file.slot
    · subst here
      simp [closeSlaveFile, closeSlave]
    · have away : file.slot ≠ slot := fun same => here same.symm
      simp [closeSlaveFile, here, away]
  · intro slot
    have bounded := exclusive.single slot
    rw [counted]
    omega
  · intro other member
    exact exclusive.current other (List.mem_of_mem_erase member)

theorem exclusive_step {before after : Control} {action : Action} (exclusive : Exclusive before)
    (undisturbed : Undisturbed before action) (taken : step before action = some after) :
    Exclusive after := by
  cases action with
  | createSlaveDev lockInterrupted deviceCreated allocated =>
      cases taken
      exact exclusive_create exclusive lockInterrupted deviceCreated allocated undisturbed
  | closeMaster slot channelInterrupted controlInterrupted =>
      simp only [step] at taken
      split at taken <;> cases taken
      exact exclusive_closeMaster exclusive slot channelInterrupted controlInterrupted
  | openSlave slot lockInterrupted allocated =>
      cases taken
      exact exclusive_openSlave exclusive slot lockInterrupted allocated
  | closeSlave file lockInterrupted =>
      simp only [step] at taken
      split at taken
      · rename_i opened
        cases taken
        cases lockInterrupted with
        | true => cases undisturbed
        | false => exact exclusive_closeSlave exclusive file opened
      · cases taken

def initialControl : Control where
  channels _ := clearedChannel
  incarnation _ := 0
  slaves := []
  masters := []
  nextFile := 0

theorem exclusive_initial : Exclusive initialControl :=
  ⟨fun _ => rfl, fun _ => Nat.zero_le 1, fun _ member => absurd member List.not_mem_nil⟩

/-- In every undisturbed run the count of each channel is the number of its open
slave files, at most one, and they all belong to its present incarnation. -/
theorem slave_exclusive (control : Control)
    (reached : Reachable step Undisturbed (· = initialControl) control) : Exclusive control := by
  induction reached with
  | start initial =>
      rw [initial]
      exact exclusive_initial
  | next action _ undisturbed taken ih => exact exclusive_step ih undisturbed taken

def orderlyRun : List Action :=
  [.createSlaveDev false true true, .openSlave 0 false true, .closeMaster 0 false false,
    .closeSlave ⟨0, 0, 1⟩ false, .createSlaveDev false true true, .openSlave 0 false true]

def undisturbed (control : Control) : Action → Bool
  | .createSlaveDev lockInterrupted _ _ =>
      lockInterrupted || (freeSlot control.channels).all fun slot =>
        (control.channels slot).slaveOpenCount = 0
  | .closeSlave _ lockInterrupted => !lockInterrupted
  | _ => true

theorem undisturbed_sound (control : Control) (action : Action)
    (passed : undisturbed control action = true) : Undisturbed control action := by
  cases action with
  | createSlaveDev lockInterrupted deviceCreated allocated =>
      intro unlocked slot free
      simpa [undisturbed, unlocked, free] using passed
  | closeSlave file lockInterrupted => simpa [undisturbed, Undisturbed] using passed
  | closeMaster => trivial
  | openSlave => trivial

theorem slave_exclusive_orderly :
    ∃ control, run step undisturbed initialControl orderlyRun = some control ∧
      control.slaves = [⟨1, 0, 2⟩] ∧ Exclusive control := by
  refine ⟨_, rfl, rfl, ?_⟩
  exact slave_exclusive _ (run_reachable undisturbed_sound orderlyRun (.start rfl) rfl)

/-- Slot 0 is created again while the slave file of its first life is open; then
a second slave opens it. -/
def recreatedRun : List Action :=
  [.createSlaveDev false true true, .openSlave 0 false true, .closeMaster 0 false false,
    .createSlaveDev false true true, .openSlave 0 false true]

theorem recreatedRun_reachable {control : Control}
    (taken : run step (fun _ _ => true) initialControl recreatedRun = some control) :
    Reachable step (fun _ _ => True) (· = initialControl) control :=
  run_reachable (fun _ _ _ => trivial) recreatedRun (.start rfl) taken

/-- Two slave files are open on one channel, which counts one, and the older of
them points to an incarnation it was not opened on. -/
theorem slave_of_recreated_slot :
    ¬ ∀ control, Reachable step (fun _ _ => True) (· = initialControl) control →
      Exclusive control := by
  intro claim
  have exclusive := claim _ (recreatedRun_reachable rfl)
  have single : 2 ≤ 1 := exclusive.single 0
  omega

end PiVccu.Eq3LoopLifetime
