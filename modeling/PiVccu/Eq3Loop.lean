import PiVccu.CircBuf
import PiVccu.Transition

/-!
`kernel/eq3_char_loop.c`: one channel with its two rings. Every operation runs
under `channel->sem`; a call that has to wait releases it, so an attempt that
would sleep changes nothing and is made again later. The VFS passes counts of at
most `INT_MAX`, for which the casts to `int` keep the value.
-/

namespace PiVccu.Eq3Loop
open ByteBuffer CircBuf Transition

def bufsize : Nat := 1024
def erestartsys : Int := 512
def eagain : Int := 11
def enomem : Int := 12
def efault : Int := 14
def ebusy : Int := 16
def enodev : Int := 19

structure PendingEvents where
  slaveOpened : Bool
  slaveClosed : Bool
  stateSlaveOpened : Bool
deriving DecidableEq

/-- `struct eq3loop_channel_data` without the device node, name and termios. -/
structure Channel where
  master2slave : CircRing UInt8
  slave2master : CircRing UInt8
  pendingEvents : PendingEvents
  slaveOpenCount : Nat
  created : Bool
deriving DecidableEq

/-- How the waits of a call end: a signal while taking the semaphore, a file
opened with `O_NONBLOCK`, a signal while sleeping. -/
structure Wait where
  lockInterrupted : Bool
  nonblock : Bool
  sleepInterrupted : Bool
deriving DecidableEq

inductive Reply where
  | asleep
  | returned (ret : Int) (data : List UInt8)
deriving DecidableEq

/-- The common part of `eq3loop_read_slave` and `eq3loop_read_master` on their
ring; the flags are the outcomes of the two `copy_to_user` calls. -/
def readRing (ring : CircRing UInt8) (count : Nat) (firstFaults secondFaults : Bool) :
    Option (CircRing UInt8 × Int × List UInt8) := do
  let count := min count (circCnt ring.head ring.tail bufsize)
  let countToEnd := min count (circCntToEnd ring.head ring.tail bufsize)
  let first ← loadRange ring.buf ring.tail countToEnd
  if firstFaults then
    return (ring, -efault, [])
  let tail := (ring.tail + countToEnd) % bufsize
  let second ← loadRange ring.buf tail (count - countToEnd)
  if secondFaults then
    return (ring, -efault, [])
  return ({ ring with tail := (tail + (count - countToEnd)) % bufsize }, count, first ++ second)

/-- The common part of `eq3loop_write_slave` and `eq3loop_write_master`. A fault
of `copy_from_user` comes with what it leaves in the range to be filled. -/
def writeRing (ring : CircRing UInt8) (buffer : List UInt8)
    (firstFault secondFault : Option (List UInt8)) : Option (CircRing UInt8 × Int) := do
  let count := buffer.length
  if circSpace ring.head ring.tail bufsize < count then
    return (ring, -efault)
  let countToEnd := min count (circSpaceToEnd ring.head ring.tail bufsize)
  match firstFault with
  | some left =>
      let buf ← memcpy ring.buf ring.head (left.take countToEnd)
      return ({ ring with buf := buf }, -efault)
  | none =>
      let buf ← memcpy ring.buf ring.head (buffer.take countToEnd)
      let head := (ring.head + countToEnd) % bufsize
      match secondFault with
      | some left =>
          let buf ← memcpy buf head (left.take (count - countToEnd))
          return ({ ring with buf := buf }, -efault)
      | none =>
          let buf ← memcpy buf head (buffer.drop countToEnd)
          return ({ ring with buf := buf, head := (head + (count - countToEnd)) % bufsize }, count)

def sleep (channel : Channel) (wait : Wait) : Channel × Reply :=
  if wait.nonblock then (channel, .returned (-eagain) [])
  else if wait.sleepInterrupted then (channel, .returned (-erestartsys) [])
  else (channel, .asleep)

def readSlave (channel : Channel) (wait : Wait) (count : Nat) (firstFaults secondFaults : Bool) :
    Option (Channel × Reply) :=
  if wait.lockInterrupted then some (channel, .returned (-erestartsys) [])
  else if !channel.created then some (channel, .returned (-enodev) [])
  else if circCnt channel.master2slave.head channel.master2slave.tail bufsize = 0 then
    some (sleep channel wait)
  else
    (readRing channel.master2slave count firstFaults secondFaults).map fun result =>
      ({ channel with master2slave := result.1 }, .returned result.2.1 result.2.2)

/-- Without a slave there is nothing to wait for and nothing is read. -/
def readMaster (channel : Channel) (wait : Wait) (count : Nat) (firstFaults secondFaults : Bool) :
    Option (Channel × Reply) :=
  if wait.lockInterrupted then some (channel, .returned (-erestartsys) [])
  else if channel.slaveOpenCount = 0 then some (channel, .returned 0 [])
  else if circCnt channel.slave2master.head channel.slave2master.tail bufsize = 0 then
    some (sleep channel wait)
  else
    (readRing channel.slave2master count firstFaults secondFaults).map fun result =>
      ({ channel with slave2master := result.1 }, .returned result.2.1 result.2.2)

def writeSlave (channel : Channel) (wait : Wait) (buffer : List UInt8)
    (firstFault secondFault : Option (List UInt8)) : Option (Channel × Reply) :=
  if wait.lockInterrupted then some (channel, .returned (-erestartsys) [])
  else if circSpace channel.slave2master.head channel.slave2master.tail bufsize = 0 then
    some (sleep channel wait)
  else if !channel.created then some (channel, .returned (-enodev) [])
  else
    (writeRing channel.slave2master buffer firstFault secondFault).map fun result =>
      ({ channel with slave2master := result.1 }, .returned result.2 [])

def writeMaster (channel : Channel) (wait : Wait) (buffer : List UInt8)
    (firstFault secondFault : Option (List UInt8)) : Option (Channel × Reply) :=
  if wait.lockInterrupted then some (channel, .returned (-erestartsys) [])
  else if circSpace channel.master2slave.head channel.master2slave.tail bufsize = 0 then
    some (sleep channel wait)
  else
    (writeRing channel.master2slave buffer firstFault secondFault).map fun result =>
      ({ channel with master2slave := result.1 }, .returned result.2 [])

/-- `allocated` is the outcome of `kzalloc`. -/
def openSlave (channel : Channel) (lockInterrupted allocated : Bool) : Channel × Reply :=
  if lockInterrupted then (channel, .returned (-erestartsys) [])
  else if !channel.created then (channel, .returned (-enodev) [])
  else if channel.slaveOpenCount ≠ 0 then (channel, .returned (-ebusy) [])
  else if !allocated then (channel, .returned (-enomem) [])
  else
    ({ channel with
        slaveOpenCount := channel.slaveOpenCount + 1
        pendingEvents :=
          { channel.pendingEvents with slaveOpened := true, stateSlaveOpened := true }
        master2slave := { channel.master2slave with head := 0, tail := 0 } },
      .returned 0 [])

def closeSlave (channel : Channel) (lockInterrupted : Bool) : Channel × Reply :=
  if lockInterrupted then (channel, .returned (-erestartsys) [])
  else
    ({ channel with
        slaveOpenCount := channel.slaveOpenCount - 1
        pendingEvents :=
          { channel.pendingEvents with slaveClosed := true, stateSlaveOpened := false } },
      .returned 0 [])

/-- The calls on a channel between its creation and its master's close. -/
inductive Operation where
  | readSlave (wait : Wait) (count : Nat) (firstFaults secondFaults : Bool)
  | readMaster (wait : Wait) (count : Nat) (firstFaults secondFaults : Bool)
  | writeSlave (wait : Wait) (buffer : List UInt8) (firstFault secondFault : Option (List UInt8))
  | writeMaster (wait : Wait) (buffer : List UInt8) (firstFault secondFault : Option (List UInt8))
  | openSlave (lockInterrupted allocated : Bool)
  | closeSlave (lockInterrupted : Bool)

def perform (channel : Channel) : Operation → Option (Channel × Reply)
  | .readSlave wait count first second => readSlave channel wait count first second
  | .readMaster wait count first second => readMaster channel wait count first second
  | .writeSlave wait buffer first second => writeSlave channel wait buffer first second
  | .writeMaster wait buffer first second => writeMaster channel wait buffer first second
  | .openSlave lockInterrupted allocated => some (openSlave channel lockInterrupted allocated)
  | .closeSlave lockInterrupted => some (closeSlave channel lockInterrupted)

def createdChannel : Channel where
  master2slave := ⟨List.replicate bufsize 0, 0, 0⟩
  slave2master := ⟨List.replicate bufsize 0, 0, 0⟩
  pendingEvents := ⟨false, false, false⟩
  slaveOpenCount := 0
  created := true

end PiVccu.Eq3Loop
