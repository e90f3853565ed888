import PiVccu.Census
import PiVccu.Transition

/-!
`generic_raw_uart_open`, `generic_raw_uart_close` and `generic_raw_uart_remove` of
`kernel/generic_raw_uart.c` with the drivers that own the instance: `hb_rf_usb.c`,
`hb_rf_usb_2.c`, `hb_rf_eth.c` and the UARTs of a SoC. Every file has a phase: the
place in the two functions where its task stands. A step runs one task to the next
place at which another one can come between. The instance is accessed with checks:
an access after its `kfree` and a removal during use are recorded as faults.
-/

namespace PiVccu.RawUartFiles

def maxConnections : Nat := 3

/-- `platform` stands for the UARTs of a SoC: their `start_connection` can fail;
their removal is not part of this model. -/
inductive Driver where
  | hbRfUsb
  | hbRfUsb2
  | hbRfEth
  | platform
deriving DecidableEq

inductive FilePhase where
  /-- `open` is called; the driver's module is not referenced yet. -/
  | entering
  | waiting
  | checking
  | starting
  | counting
  | opened
  | failed
  /-- `close` is called, before `conn->sem`. -/
  | closing
  | freed
  | releasing
  | stopping
  | unlocking
  | putting
  | closed
  /-- `close` returned early; the VFS does not look at its result. -/
  | abandoned
deriving DecidableEq

def FilePhase.busy : FilePhase → Bool
  | .failed | .closed | .abandoned => false
  | _ => true

inductive DriverCall where
  | started
  | startFailed
  | stopped
deriving DecidableEq

inductive Fault where
  | removedInUse
  | usedAfterRemove
deriving DecidableEq

/-- How far the release of the device has come. For USB: before `disconnect`,
before `set_connection_state`, before `kref_put`, and over; for `hb_rf_eth`: before
`generic_raw_uart_remove`, before the removal of the sysfs files, before
`hb_rf_eth_disconnect`, and over. -/
inductive BusPhase where
  | bound
  | disconnecting
  | detaching
  | gone
deriving DecidableEq

/-- `sem` is `true` while the semaphore is taken. `linked` and `receiver` are
`_sock` and `k_recv_thread` of `hb_rf_eth`; `going` is a module that is being
unloaded. `calls` and `faults` record. -/
structure World where
  driver : Driver
  alive : Bool
  openCount : Nat
  connectionState : Bool
  sem : Bool
  files : List FilePhase
  calls : List DriverCall
  kref : Nat
  moduleRefs : Nat
  going : Bool
  bus : BusPhase
  linked : Bool
  receiver : Bool
  faults : List Fault

/-- Whether the hardware runs after these calls; `none` if it was started twice or
stopped without a start. -/
def hardware (calls : List DriverCall) : Option Bool :=
  calls.foldl (fun running call =>
    match running, call with
    | some false, .started => some true
    | some false, .startFailed => some false
    | some true, .stopped => some false
    | _, _ => none) (some false)

namespace World

def busy (world : World) : Bool := world.files.any FilePhase.busy

def move (world : World) (index : Nat) (phase : FilePhase) : World :=
  { world with files := world.files.set index phase }

def touch (world : World) : World :=
  { world with
    faults := if world.alive then world.faults else world.faults ++ [.usedAfterRemove] }

def genericRawUartSetConnectionState (world : World) (state : Bool) : World :=
  { world.touch with connectionState := state }

def genericRawUartRemove (world : World) : World :=
  let world := world.genericRawUartSetConnectionState false
  { world with
    alive := false
    faults := if world.busy then world.faults ++ [.removedInUse] else world.faults }

/-- `kref_put` with `hb_rf_usb_delete` or `hb_rf_usb_2_delete`, which remove the
instance first. -/
def krefPut (world : World) : World :=
  match world.kref with
  | 0 => world
  | 1 => { world with kref := 0 }.genericRawUartRemove
  | rest + 2 => { world with kref := rest + 1 }

/-- What the two USB drivers do for the port they share with the instance. -/
def usbStartConnection (world : World) : World :=
  { world with kref := world.kref + 1, calls := world.calls ++ [.started] }

def usbStopConnection (world : World) : World :=
  { world with calls := world.calls ++ [DriverCall.stopped] }.krefPut

def hbRfUsbStartConnection : World → World := usbStartConnection
def hbRfUsb2StartConnection : World → World := usbStartConnection
def hbRfUsbStopConnection : World → World := usbStopConnection
def hbRfUsb2StopConnection : World → World := usbStopConnection

def hbRfEthStartConnection (world : World) : World :=
  { world with calls := world.calls ++ [.started] }

def hbRfEthStopConnection (world : World) : World :=
  { world with calls := world.calls ++ [.stopped] }

def startConnection (world : World) : World :=
  match world.driver with
  | .hbRfUsb => world.hbRfUsbStartConnection
  | .hbRfUsb2 => world.hbRfUsb2StartConnection
  | .hbRfEth => world.hbRfEthStartConnection
  | .platform => { world with calls := world.calls ++ [.started] }

def stopConnection (world : World) : World :=
  match world.driver with
  | .hbRfUsb => world.hbRfUsbStopConnection
  | .hbRfUsb2 => world.hbRfUsb2StopConnection
  | .hbRfEth => world.hbRfEthStopConnection
  | .platform => { world with calls := world.calls ++ [.stopped] }

end World

inductive Outcome where
  | proceeds
  | interrupted
  | startFails
deriving DecidableEq

namespace World

def genericRawUartOpen (world : World) (index : Nat) : FilePhase → Outcome → Option World
  | .entering, .proceeds =>
      let world := world.touch
      if world.going then some (world.move index .failed)
      else some ({ world with moduleRefs := world.moduleRefs + 1 }.move index .waiting)
  -- The reference on the module is not given back, here and in the other failures.
  | .waiting, .interrupted => some (world.touch.move index .failed)
  | .waiting, .proceeds =>
      if world.sem then none else some ({ world.touch with sem := true }.move index .checking)
  | .checking, .proceeds =>
      let world := world.touch
      if world.openCount ≥ maxConnections then some ({ world with sem := false }.move index .failed)
      else if !world.connectionState then some ({ world with sem := false }.move index .failed)
      else if world.openCount = 0 then some (world.move index .starting)
      else some (world.move index .counting)
  | .starting, .proceeds => some (world.touch.startConnection.move index .counting)
  | .starting, .startFails =>
      if world.driver = .platform then
        some ({ world.touch with
          calls := world.calls ++ [DriverCall.startFailed], sem := false }.move index .failed)
      else none
  | .counting, .proceeds =>
      some ({ world.touch with
        openCount := world.openCount + 1, sem := false }.move index .opened)
  | _, _ => none

def genericRawUartClose (world : World) (index : Nat) : FilePhase → Outcome → Option World
  | .closing, .interrupted => some (world.move index .abandoned)
  | .closing, .proceeds => some (world.move index .freed)
  | .freed, .interrupted => some (world.touch.move index .abandoned)
  | .freed, .proceeds =>
      if world.sem then none else some ({ world.touch with sem := true }.move index .releasing)
  | .releasing, .proceeds =>
      let world := { world.touch with openCount := world.openCount - 1 }
      if world.openCount = 0 then some (world.move index .stopping)
      else some (world.move index .unlocking)
  | .stopping, .proceeds => some (world.touch.stopConnection.move index .unlocking)
  | .unlocking, .proceeds => some ({ world.touch with sem := false }.move index .putting)
  | .putting, .proceeds =>
      some ({ world.touch with moduleRefs := world.moduleRefs - 1 }.move index .closed)
  | _, _ => none

end World

/-- `operate` is a call of `read`, `write`, `poll` or `ioctl`; `received` a driver
that delivers data; `disconnect` a step of the release of the device; `exit` the
unloading of the driver's module. The last four are the network link of
`hb_rf_eth`: a request to connect or to disconnect, and a link that the receiver
thread gives up, with or without trying to reconnect, or restores. -/
inductive Act where
  | openFile
  | closeFile (index : Nat)
  | call (index : Nat) (outcome : Outcome)
  | operate (index : Nat)
  | received
  | disconnect
  | exit
  | connect
  | unlink
  | linkLost (reconnecting : Bool)
  | reconnect
deriving DecidableEq

namespace World

def usbDisconnect (world : World) : Option World :=
  match world.bus with
  | .bound => some { world with bus := .disconnecting }
  | .disconnecting => some { world.genericRawUartSetConnectionState false with bus := .detaching }
  | .detaching => some { world.krefPut with bus := .gone }
  | .gone => none

def hbRfUsbDisconnect : World → Option World := usbDisconnect
def hbRfUsb2Disconnect : World → Option World := usbDisconnect

def hbRfEthDisconnect (world : World) : World :=
  let world := { world with receiver := false }
  if world.linked then { world.genericRawUartSetConnectionState false with linked := false }
  else world

/-- `hb_rf_eth_exit` after its first call. -/
def hbRfEthExit (world : World) : Option World :=
  match world.bus with
  | .disconnecting => some { world with bus := .detaching }
  | .detaching => some { world.hbRfEthDisconnect with bus := .gone }
  | _ => none

def disconnect (world : World) : Option World :=
  match world.driver with
  | .hbRfUsb => world.hbRfUsbDisconnect
  | .hbRfUsb2 => world.hbRfUsb2Disconnect
  | .hbRfEth => world.hbRfEthExit
  | .platform => none

/-- A module is unloaded only when nobody references it. For the USB drivers
`usb_deregister` then disconnects the interface. -/
def exit (world : World) : Option World :=
  if world.moduleRefs ≠ 0 ∨ world.going then none
  else match world.driver with
  | .hbRfUsb | .hbRfUsb2 => some { world with going := true }
  | .hbRfEth =>
      some { { world with going := true }.genericRawUartRemove with bus := .disconnecting }
  | .platform => none

/-- Between `start_connection` and `stop_connection` a transfer can complete; the
receiver thread of `hb_rf_eth` runs with every link. -/
def receiving (world : World) : Bool :=
  match world.driver with
  | .hbRfEth => world.receiver && world.linked
  | _ => hardware world.calls = some true

def link (world : World) : World :=
  { world.genericRawUartSetConnectionState true with linked := true, receiver := true }

def ethStep (world : World) : Act → Option World
  | .connect =>
      if world.bus = .gone ∨ world.linked ∨ world.receiver then none else some world.link
  | .unlink => if world.bus = .gone then none else some world.hbRfEthDisconnect
  | .linkLost reconnecting =>
      if world.linked ∧ world.receiver then
        some { world.genericRawUartSetConnectionState false with
          linked := false, receiver := reconnecting }
      else none
  | .reconnect => if world.receiver ∧ ¬ world.linked then some world.link else none
  | _ => none

def step (world : World) : Act → Option World
  -- The character device is registered as long as the instance exists.
  | .openFile =>
      if world.alive then some { world with files := world.files ++ [.entering] } else none
  | .closeFile index =>
      if world.files[index]? = some .opened then some (world.move index .closing) else none
  | .call index outcome => do
      let phase ← world.files[index]?
      world.genericRawUartOpen index phase outcome <|> world.genericRawUartClose index phase outcome
  | .operate index => if world.files[index]? = some .opened then some world.touch else none
  | .received => if world.receiving then some world.touch else none
  | .disconnect => world.disconnect
  | .exit => world.exit
  | act => if world.driver = .hbRfEth then world.ethStep act else none

end World

def probed (driver : Driver) : World where
  driver := driver
  alive := true
  openCount := 0
  connectionState := driver ≠ .hbRfEth
  sem := false
  files := []
  calls := []
  kref := 1
  moduleRefs := 0
  going := false
  bus := .bound
  linked := false
  receiver := false
  faults := []

end PiVccu.RawUartFiles
