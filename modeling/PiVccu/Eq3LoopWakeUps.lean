import PiVccu.Eq3LoopFifo
import PiVccu.Eq3LoopWaits
import PiVccu.WakeUps

/-!
The two wait queues of a channel of `kernel/eq3_char_loop.c`: who sleeps on which of them and
which calls wake them, from the creation of the channel on. A call changes the channel under
`channel->sem` and makes its wake-up behind `up`.
-/

namespace PiVccu.Eq3LoopWakeUps
open CircBuf Eq3Loop Eq3LoopWaits Transition WakeUps

inductive Queue where
  | master2slaveq
  | slave2masterq
deriving DecidableEq

/-- The bits of a mask that the two polls look at or set. -/
structure Events where
  pollIn : Bool
  pollRdNorm : Bool
  pollOut : Bool
  pollWrNorm : Bool
  pollPri : Bool
  pollErr : Bool
deriving DecidableEq

def Events.meets (mask requested : Events) : Bool :=
  mask.pollIn && requested.pollIn || mask.pollRdNorm && requested.pollRdNorm ||
    mask.pollOut && requested.pollOut || mask.pollWrNorm && requested.pollWrNorm ||
    mask.pollPri && requested.pollPri || mask.pollErr && requested.pollErr

/-- `poll_requested_events` of a `poll` or an `epoll`, which always ask for errors. -/
structure Request where
  events : Events
  errors : events.pollErr = true

def masterMask (channel : Channel) : Events :=
  let space := channel.slaveOpenCount != 0 &&
    circSpace channel.master2slave.head channel.master2slave.tail bufsize != 0
  let count := channel.slaveOpenCount != 0 &&
    circCnt channel.slave2master.head channel.slave2master.tail bufsize != 0
  { pollIn := count
    pollRdNorm := count
    pollOut := space
    pollWrNorm := space
    pollPri := channel.pendingEvents.slaveOpened || channel.pendingEvents.slaveClosed
    pollErr := false }

def slaveMask (channel : Channel) : Events :=
  let count := circCnt channel.master2slave.head channel.master2slave.tail bufsize != 0
  let space := circSpace channel.slave2master.head channel.slave2master.tail bufsize != 0
  { pollIn := count
    pollRdNorm := count
    pollOut := space
    pollWrNorm := space
    pollPri := false
    pollErr := !channel.created }

/-- `POLLRDNORM` and `POLLWRNORM` put nobody in a queue. -/
def masterQueues (requested : Events) : List Queue :=
  (if requested.pollIn || requested.pollPri || requested.pollErr then [.slave2masterq] else []) ++
    if requested.pollOut then [.master2slaveq] else []

def slaveQueues (requested : Events) : List Queue :=
  (if requested.pollIn then [.master2slaveq] else []) ++
    if requested.pollOut then [.slave2masterq] else []

inductive Waiter where
  | call (call : Call)
  | pollMaster (request : Request)
  | pollSlave (request : Request)

def Waiter.queues : Waiter → List Queue
  | .call .readSlave | .call .writeMaster => [.master2slaveq]
  | .call .readMaster | .call .writeSlave => [.slave2masterq]
  | .pollMaster request => masterQueues request.events
  | .pollSlave request => slaveQueues request.events

def Waiter.condition : Waiter → Channel → Bool
  | .call kind, channel => (loopOf kind).condition channel
  | .pollMaster request, channel => (masterMask channel).meets request.events
  | .pollSlave request, channel => (slaveMask channel).meets request.events

/-- The calls that change a channel. `seen` is what a write of the master finds in the ring
behind `up`. `EQ3LOOP_IOCGEVENTS` takes the two events one after the other and, when
`__put_user` fails, assigns all bits. -/
inductive Change where
  | operate (operation : Operation) (seen : Bool)
  | closeMaster (channelInterrupted controlInterrupted : Bool)
  | takeOpened
  | takeClosed
  | restoreEvents (events : PendingEvents)

def Reply.ret : Reply → Int
  | .asleep => 0
  | .returned ret _ => ret

/-- The wake-ups behind a call. A write of the master that fails at the ring, and not before,
looks for data once more. -/
def wakes (operation : Operation) (ret : Int) (seen : Bool) : List Queue :=
  match operation with
  | .readSlave .. => if ret > 0 then [.master2slaveq] else []
  | .readMaster .. => if ret > 0 then [.slave2masterq] else []
  | .writeSlave .. => if ret > 0 then [.slave2masterq] else []
  | .writeMaster .. =>
      if ret > 0 ∨ (ret = 0 ∨ ret = -efault) ∧ seen then [.master2slaveq] else []
  | .openSlave .. => if ret = 0 then [.slave2masterq] else []
  | .closeSlave .. => if ret = 0 then [.slave2masterq] else []

/-- `eq3loop_close_master` as far as the channel is concerned. -/
def closeMaster (channel : Channel) (channelInterrupted controlInterrupted : Bool) :
    Channel × List Queue :=
  if channelInterrupted then (channel, [])
  else if controlInterrupted then (channel, [.master2slaveq])
  else ({ channel with created := false }, [.master2slaveq])

def change (channel : Channel) : Change → Option (Channel × List Queue)
  | .operate operation seen =>
      match perform channel operation with
      | some (after, .returned ret _) => some (after, wakes operation ret seen)
      | _ => none
  | .closeMaster channelInterrupted controlInterrupted =>
      some (closeMaster channel channelInterrupted controlInterrupted)
  | .takeOpened => some
      ({ channel with pendingEvents := { channel.pendingEvents with slaveOpened := false } }, [])
  | .takeClosed => some
      ({ channel with pendingEvents := { channel.pendingEvents with slaveClosed := false } }, [])
  | .restoreEvents events => some ({ channel with pendingEvents := events }, [])

/-- A call that waits keeps its file, so a waiter only leaves by itself. -/
def eq3loop : System Channel Change Waiter Queue where
  change := change
  queues := Waiter.queues
  condition := Waiter.condition
  present _ _ := true

abbrev Scene := WakeUps.Scene Channel Waiter Queue
abbrev Act := WakeUps.Act Change Waiter Queue

def Passes (channel : Channel) (operation : Operation) : Prop :=
  ∃ after ret data, perform channel operation = some (after, .returned ret data) ∧ 0 < ret

/-- The ways to be left asleep. Three are polls for `POLLWRNORM` or `POLLRDNORM` that a read or
a write of the other side meets. The others are a write of the master when the slave closes, a
write of the slave or a poll without `POLLIN` when the master closes, and a poll for events that
`EQ3LOOP_IOCGEVENTS` puts back. -/
def Forsakes (scene : Scene) : Act → Prop
  | .change (.operate (.readSlave wait count first second) _) => scene.state.slaveOpenCount ≠ 0 ∧
      Passes scene.state (.readSlave wait count first second) ∧
      ∃ request, request.events.pollWrNorm = true ∧ request.events.pollOut = false ∧
        Waits eq3loop scene (.pollMaster request)
  | .change (.operate (.readMaster wait count first second) _) =>
      Passes scene.state (.readMaster wait count first second) ∧
      ∃ request, request.events.pollWrNorm = true ∧ request.events.pollOut = false ∧
        Waits eq3loop scene (.pollSlave request)
  | .change (.operate (.writeMaster wait buffer first second) _) =>
      Passes scene.state (.writeMaster wait buffer first second) ∧
      ∃ request, request.events.pollRdNorm = true ∧ request.events.pollIn = false ∧
        Waits eq3loop scene (.pollSlave request)
  | .change (.operate (.closeSlave false) _) =>
      scene.state.slaveOpenCount = 1 ∧ Waits eq3loop scene (.call .writeMaster)
  | .change (.closeMaster false false) => scene.state.created = true ∧
      (Waits eq3loop scene (.call .writeSlave) ∨
        ∃ request, request.events.pollIn = false ∧ Waits eq3loop scene (.pollSlave request))
  | .change (.restoreEvents events) => (events.slaveOpened || events.slaveClosed) = true ∧
      ∃ request, request.events.pollPri = true ∧ Waits eq3loop scene (.pollMaster request)
  | _ => False

structure View where
  toSlave : Bool
  roomToSlave : Bool
  toMaster : Bool
  roomToMaster : Bool
  opened : Bool
  created : Bool
  event : Bool

def view (channel : Channel) : View where
  toSlave := circCnt channel.master2slave.head channel.master2slave.tail bufsize != 0
  roomToSlave := circSpace channel.master2slave.head channel.master2slave.tail bufsize != 0
  toMaster := circCnt channel.slave2master.head channel.slave2master.tail bufsize != 0
  roomToMaster := circSpace channel.slave2master.head channel.slave2master.tail bufsize != 0
  opened := channel.slaveOpenCount != 0
  created := channel.created
  event := channel.pendingEvents.slaveOpened || channel.pendingEvents.slaveClosed

def Waiter.met : Waiter → View → Bool
  | .call .readSlave, view => !view.created || view.toSlave
  | .call .readMaster, view => !view.opened || view.toMaster
  | .call .writeSlave, view => !view.created || view.roomToMaster
  | .call .writeMaster, view => !view.opened || view.roomToSlave
  | .pollMaster request, view =>
      view.opened && view.toMaster && (request.events.pollIn || request.events.pollRdNorm) ||
      view.opened && view.roomToSlave && (request.events.pollOut || request.events.pollWrNorm) ||
      view.event && request.events.pollPri
  | .pollSlave request, view =>
      view.toSlave && (request.events.pollIn || request.events.pollRdNorm) ||
      view.roomToMaster && (request.events.pollOut || request.events.pollWrNorm) || !view.created

theorem condition_view (waiter : Waiter) (channel : Channel) :
    waiter.condition channel = waiter.met (view channel) := by
  cases waiter with
  | call kind =>
      cases kind with
      | readSlave | writeSlave => rfl
      | readMaster | writeMaster =>
          simp only [Waiter.condition, Waiter.met, view, loopOf, readMasterLoop, writeMasterLoop]
          cases channel.slaveOpenCount <;> rfl
  | pollMaster request =>
      simp only [Waiter.condition, Waiter.met, view, Events.meets, masterMask, Bool.and_or_distrib_left]
      simp [Bool.or_assoc]
  | pollSlave request =>
      simp only [Waiter.condition, Waiter.met, view, Events.meets, slaveMask, request.errors,
        Bool.and_or_distrib_left]
      simp [Bool.or_assoc]

section Effects
variable {channel after : Channel}

theorem ring_shown {ring other : CircRing UInt8} (formed : ring.WellFormed bufsize)
    (formed' : other.WellFormed bufsize) (same : other.contents = ring.contents) :
    circCnt other.head other.tail bufsize = circCnt ring.head ring.tail bufsize ∧
      circSpace other.head other.tail bufsize = circSpace ring.head ring.tail bufsize := by
  have count : circCnt other.head other.tail bufsize = circCnt ring.head ring.tail bufsize := by
    rw [← contents_length formed', ← contents_length formed, same]
  rw [circSpace_eq formed'.head formed'.tail, circSpace_eq formed.head formed.tail, count]
  exact ⟨rfl, rfl⟩

theorem ring_drained {ring other : CircRing UInt8} (formed : ring.WellFormed bufsize)
    (formed' : other.WellFormed bufsize) {data : List UInt8} (some : data ≠ [])
    (split : data ++ other.contents = ring.contents) :
    (circCnt other.head other.tail bufsize ≠ 0 → circCnt ring.head ring.tail bufsize ≠ 0) ∧
      circSpace other.head other.tail bufsize ≠ 0 := by
  have length := congrArg List.length split
  have positive := List.length_pos_of_ne_nil some
  have bound : circCnt ring.head ring.tail bufsize < bufsize := Nat.mod_lt _ (by decide)
  rw [List.length_append, contents_length formed, contents_length formed'] at length
  rw [circSpace_eq formed'.head formed'.tail]
  omega

theorem ring_filled {ring other : CircRing UInt8} (formed : ring.WellFormed bufsize)
    (formed' : other.WellFormed bufsize) {buffer : List UInt8} (some : buffer ≠ [])
    (appended : other.contents = ring.contents ++ buffer) :
    circCnt other.head other.tail bufsize ≠ 0 ∧
      (circSpace other.head other.tail bufsize ≠ 0 →
        circSpace ring.head ring.tail bufsize ≠ 0) := by
  have length := congrArg List.length appended
  have positive := List.length_pos_of_ne_nil some
  rw [List.length_append, contents_length formed, contents_length formed'] at length
  rw [circSpace_eq formed'.head formed'.tail, circSpace_eq formed.head formed.tail]
  omega

theorem sleep_channel {wait : Wait} {reply : Reply}
    (done : some (sleep channel wait) = some (after, reply)) : after = channel := by
  unfold sleep at done
  split at done
  · cases done
    rfl
  · split at done <;> cases done <;> rfl

theorem readSlave_frame {wait : Wait} {count : Nat} {first second : Bool} {reply : Reply}
    (done : readSlave channel wait count first second = some (after, reply)) :
    ∃ ring, after = { channel with master2slave := ring } := by
  unfold readSlave at done
  split at done
  · cases done
    exact ⟨_, rfl⟩
  · split at done
    · cases done
      exact ⟨_, rfl⟩
    · split at done
      · exact ⟨_, sleep_channel done⟩
      · obtain ⟨result, -, same⟩ := Option.map_eq_some_iff.mp done
        cases same
        exact ⟨_, rfl⟩

theorem readMaster_frame {wait : Wait} {count : Nat} {first second : Bool} {reply : Reply}
    (done : readMaster channel wait count first second = some (after, reply)) :
    ∃ ring, after = { channel with slave2master := ring } := by
  unfold readMaster at done
  split at done
  · cases done
    exact ⟨_, rfl⟩
  · split at done
    · cases done
      exact ⟨_, rfl⟩
    · split at done
      · exact ⟨_, sleep_channel done⟩
      · obtain ⟨result, -, same⟩ := Option.map_eq_some_iff.mp done
        cases same
        exact ⟨_, rfl⟩

theorem writeSlave_frame {wait : Wait} {buffer : List UInt8} {first second : Option (List UInt8)}
    {reply : Reply} (done : writeSlave channel wait buffer first second = some (after, reply)) :
    ∃ ring, after = { channel with slave2master := ring } := by
  unfold writeSlave at done
  split at done
  · cases done
    exact ⟨_, rfl⟩
  · split at done
    · exact ⟨_, sleep_channel done⟩
    · split at done
      · cases done
        exact ⟨_, rfl⟩
      · obtain ⟨result, -, same⟩ := Option.map_eq_some_iff.mp done
        cases same
        exact ⟨_, rfl⟩

theorem writeMaster_frame {wait : Wait} {buffer : List UInt8} {first second : Option (List UInt8)}
    {reply : Reply} (done : writeMaster channel wait buffer first second = some (after, reply)) :
    ∃ ring, after = { channel with master2slave := ring } := by
  unfold writeMaster at done
  split at done
  · cases done
    exact ⟨_, rfl⟩
  · split at done
    · exact ⟨_, sleep_channel done⟩
    · obtain ⟨result, -, same⟩ := Option.map_eq_some_iff.mp done
      cases same
      exact ⟨_, rfl⟩

/-- What a call shows to the waiters, and whom it wakes. -/
inductive Effect (channel after : Channel) (ret : Int) (wakes : List Queue) : Operation → Prop where
  | same (operation : Operation) (shown : view after = view channel) (idle : ¬ 0 < ret) :
      Effect channel after ret wakes operation
  | readSlave (wait : Wait) (count : Nat) (first second : Bool) (data : Bool)
      (shown : view after = { view channel with toSlave := data, roomToSlave := true })
      (fewer : data = true → (view channel).toSlave = true) (passed : 0 < ret)
      (woken : wakes = [.master2slaveq]) :
      Effect channel after ret wakes (.readSlave wait count first second)
  | readMaster (wait : Wait) (count : Nat) (first second : Bool) (data : Bool)
      (shown : view after = { view channel with toMaster := data, roomToMaster := true })
      (fewer : data = true → (view channel).toMaster = true) (passed : 0 < ret)
      (woken : wakes = [.slave2masterq]) :
      Effect channel after ret wakes (.readMaster wait count first second)
  | writeSlave (wait : Wait) (buffer : List UInt8) (first second : Option (List UInt8)) (room : Bool)
      (shown : view after = { view channel with toMaster := true, roomToMaster := room })
      (less : room = true → (view channel).roomToMaster = true) (passed : 0 < ret)
      (woken : wakes = [.slave2masterq]) :
      Effect channel after ret wakes (.writeSlave wait buffer first second)
  | writeMaster (wait : Wait) (buffer : List UInt8) (first second : Option (List UInt8)) (room : Bool)
      (shown : view after = { view channel with toSlave := true, roomToSlave := room })
      (less : room = true → (view channel).roomToSlave = true) (passed : 0 < ret)
      (woken : wakes = [.master2slaveq]) :
      Effect channel after ret wakes (.writeMaster wait buffer first second)
  | opened (interrupted allocated : Bool)
      (shown : view after = { view channel with
        toSlave := false, roomToSlave := true, opened := true, event := true })
      (unused : (view channel).opened = false) (created : (view channel).created = true)
      (woken : wakes = [.slave2masterq]) :
      Effect channel after ret wakes (.openSlave interrupted allocated)
  | closed (shown : view after = { view channel with
        opened := channel.slaveOpenCount - 1 != 0, event := true })
      (woken : wakes = [.slave2masterq]) : Effect channel after ret wakes (.closeSlave false)

variable (formed : Eq3LoopFifo.WellFormed channel) (formed' : Eq3LoopFifo.WellFormed after)

include formed formed' in
theorem toSlave_shown {ring : CircRing UInt8} (frame : after = { channel with master2slave := ring })
    (same : after.master2slave.contents = channel.master2slave.contents) :
    view after = view channel := by
  subst frame
  obtain ⟨count, space⟩ := ring_shown formed.master2slave formed'.master2slave same
  simp only [view] at count space ⊢
  rw [count, space]

include formed formed' in
theorem toMaster_shown {ring : CircRing UInt8} (frame : after = { channel with slave2master := ring })
    (same : after.slave2master.contents = channel.slave2master.contents) :
    view after = view channel := by
  subst frame
  obtain ⟨count, space⟩ := ring_shown formed.slave2master formed'.slave2master same
  simp only [view] at count space ⊢
  rw [count, space]

end Effects

section Waiters
variable {waiter : Waiter} {shown : View} (unmet : waiter.met shown = false)

include unmet in
theorem met_readSlave (apart : Queue.master2slaveq ∉ waiter.queues) {data : Bool}
    (fewer : data = true → shown.toSlave = true)
    (met : waiter.met { shown with toSlave := data, roomToSlave := true } = true) :
    shown.opened = true ∧ ∃ request, request.events.pollWrNorm = true ∧
      request.events.pollOut = false ∧ waiter = .pollMaster request := by
  cases waiter with
  | call kind => cases kind <;> simp_all [Waiter.queues, Waiter.met]
  | pollMaster request =>
      have silent : request.events.pollOut = false := by
        simpa [Waiter.queues, masterQueues] using apart
      grind [Waiter.met]
  | pollSlave request => grind [Waiter.met]

include unmet in
theorem met_readMaster (apart : Queue.slave2masterq ∉ waiter.queues) {data : Bool}
    (met : waiter.met { shown with toMaster := data, roomToMaster := true } = true) :
    ∃ request, request.events.pollWrNorm = true ∧ request.events.pollOut = false ∧
      waiter = .pollSlave request := by
  cases waiter with
  | call kind => cases kind <;> simp_all [Waiter.queues, Waiter.met]
  | pollMaster request => simp [Waiter.queues, masterQueues, request.errors] at apart
  | pollSlave request =>
      have silent : request.events.pollOut = false := by
        simpa [Waiter.queues, slaveQueues] using apart
      grind [Waiter.met]

include unmet in
theorem met_writeMaster (apart : Queue.master2slaveq ∉ waiter.queues) {room : Bool}
    (less : room = true → shown.roomToSlave = true)
    (met : waiter.met { shown with toSlave := true, roomToSlave := room } = true) :
    ∃ request, request.events.pollRdNorm = true ∧ request.events.pollIn = false ∧
      waiter = .pollSlave request := by
  cases waiter with
  | call kind => cases kind <;> simp_all [Waiter.queues, Waiter.met]
  | pollMaster request =>
      have silent : request.events.pollOut = false := by
        simpa [Waiter.queues, masterQueues] using apart
      grind [Waiter.met]
  | pollSlave request =>
      have silent : request.events.pollIn = false := by
        simpa [Waiter.queues, slaveQueues] using apart
      grind [Waiter.met]

include unmet in
theorem met_writeSlave (apart : Queue.slave2masterq ∉ waiter.queues) {room : Bool}
    (less : room = true → shown.roomToMaster = true) :
    waiter.met { shown with toMaster := true, roomToMaster := room } = false := by
  cases waiter with
  | call kind => cases kind <;> simp_all [Waiter.queues, Waiter.met]
  | pollMaster request => simp [Waiter.queues, masterQueues, request.errors] at apart
  | pollSlave request =>
      have silent : request.events.pollOut = false := by
        simpa [Waiter.queues, slaveQueues] using apart
      grind [Waiter.met]

include unmet in
theorem met_opened (apart : Queue.slave2masterq ∉ waiter.queues) (unused : shown.opened = false)
    (created : shown.created = true) :
    waiter.met { shown with toSlave := false, roomToSlave := true, opened := true, event := true } =
      false := by
  cases waiter with
  | call kind => cases kind <;> simp_all [Waiter.queues, Waiter.met]
  | pollMaster request => simp_all [Waiter.queues, masterQueues, request.errors]
  | pollSlave request => simp_all [Waiter.queues, Waiter.met, slaveQueues]

include unmet in
theorem met_closed (apart : Queue.slave2masterq ∉ waiter.queues) {opened : Bool}
    (met : waiter.met { shown with opened := opened, event := true } = true) :
    waiter = .call .writeMaster ∧ shown.opened = true ∧ opened = false := by
  cases waiter with
  | call kind => cases kind <;> simp_all [Waiter.queues, Waiter.met]
  | pollMaster request => simp_all [Waiter.queues, masterQueues, request.errors]
  | pollSlave request => exact absurd (unmet.symm.trans met) Bool.false_ne_true

include unmet in
theorem met_destroyed (apart : Queue.master2slaveq ∉ waiter.queues)
    (met : waiter.met { shown with created := false } = true) :
    shown.created = true ∧ (waiter = .call .writeSlave ∨
      ∃ request, request.events.pollIn = false ∧ waiter = .pollSlave request) := by
  cases waiter with
  | call kind => cases kind <;> simp_all [Waiter.queues, Waiter.met]
  | pollMaster request => exact absurd (unmet.symm.trans met) Bool.false_ne_true
  | pollSlave request => simp_all [Waiter.queues, Waiter.met, slaveQueues]

include unmet in
theorem met_event {event : Bool} (met : waiter.met { shown with event := event } = true) :
    shown.event = false ∧ event = true ∧
      ∃ request, request.events.pollPri = true ∧ waiter = .pollMaster request := by
  cases waiter with
  | call kind => cases kind <;> exact absurd (unmet.symm.trans met) Bool.false_ne_true
  | pollMaster request => grind [Waiter.met]
  | pollSlave request => exact absurd (unmet.symm.trans met) Bool.false_ne_true

end Waiters

theorem positive_length {data : List UInt8} (present : data ≠ []) : (data.length : Int) > 0 :=
  Int.natCast_pos.mpr (List.length_pos_of_ne_nil present)

theorem openSlave_effect {channel after : Channel} {interrupted allocated : Bool} {ret : Int}
    {data : List UInt8}
    (done : openSlave channel interrupted allocated = (after, .returned ret data)) (seen : Bool) :
    Effect channel after ret (wakes (.openSlave interrupted allocated) ret seen)
      (.openSlave interrupted allocated) := by
  unfold openSlave at done
  split at done
  · cases done
    exact .same _ rfl (by decide)
  · split at done
    · cases done
      exact .same _ rfl (by decide)
    · rename_i present
      split at done
      · cases done
        exact .same _ rfl (by decide)
      · rename_i unused
        split at done
        · cases done
          exact .same _ rfl (by decide)
        · cases done
          refine .opened interrupted allocated ?_ ?_ ?_ rfl
          · simp [view, circCnt, circSpace, bufsize]
          · simpa [view] using unused
          · simpa [view] using present

theorem closeSlave_effect {channel after : Channel} {interrupted : Bool} {ret : Int}
    {data : List UInt8} (done : closeSlave channel interrupted = (after, .returned ret data))
    (seen : Bool) :
    Effect channel after ret (wakes (.closeSlave interrupted) ret seen) (.closeSlave interrupted) := by
  unfold closeSlave at done
  split at done
  · cases done
    exact .same _ rfl (by decide)
  · rename_i lock
    cases Bool.eq_false_iff.mpr lock
    cases done
    refine .closed ?_ rfl
    simp [view]

theorem failed_idle {ret : Int} {data : List UInt8}
    (error : Reply.returned ret data = .asleep ∨ ∃ ret' < 0, Reply.returned ret data = .returned ret' []) :
    ¬ 0 < ret := by
  rcases error with asleep | ⟨other, negative, same⟩
  · cases asleep
  · cases same
    exact Int.not_lt.mpr (Int.le_of_lt negative)

theorem idle_length {data : List UInt8} (empty : data = []) : ¬ 0 < (data.length : Int) := by
  rw [empty]
  exact Int.lt_irrefl 0

theorem operate_effect {channel after : Channel} (formed : Eq3LoopFifo.WellFormed channel)
    {operation : Operation} {ret : Int} {data : List UInt8}
    (done : perform channel operation = some (after, .returned ret data)) (seen : Bool) :
    Eq3LoopFifo.WellFormed after ∧
      Effect channel after ret (wakes operation ret seen) operation := by
  obtain ⟨after', reply, performed, formed', outcome⟩ :=
    Eq3LoopFifo.perform_spec formed operation
  cases done.symm.trans performed
  refine ⟨formed', ?_⟩
  cases operation with
  | readSlave wait count first second =>
      obtain ⟨ring, frame⟩ := readSlave_frame done
      cases outcome with
      | nothing _ _ _ same _ error =>
          exact .same _ (toSlave_shown formed formed' frame same.2.2) (failed_idle error)
      | readSlave _ _ _ _ ring _ split =>
          by_cases empty : data = []
          · rw [empty, List.nil_append] at split
            exact .same _ (toSlave_shown formed formed' rfl split) (idle_length empty)
          · obtain ⟨fewer, room⟩ :=
              ring_drained formed.master2slave formed'.master2slave empty split
            refine .readSlave wait count first second
              (circCnt ring.head ring.tail bufsize != 0) ?_ ?_ (positive_length empty) ?_
            · simpa [view] using room
            · simpa [view] using fewer
            · rw [wakes, if_pos (positive_length empty)]
  | readMaster wait count first second =>
      obtain ⟨ring, frame⟩ := readMaster_frame done
      cases outcome with
      | nothing _ _ _ _ same error =>
          exact .same _ (toMaster_shown formed formed' frame same.2.2) (failed_idle error)
      | readMaster _ _ _ _ ring _ split =>
          by_cases empty : data = []
          · rw [empty, List.nil_append] at split
            exact .same _ (toMaster_shown formed formed' rfl split) (idle_length empty)
          · obtain ⟨fewer, room⟩ :=
              ring_drained formed.slave2master formed'.slave2master empty split
            refine .readMaster wait count first second
              (circCnt ring.head ring.tail bufsize != 0) ?_ ?_ (positive_length empty) ?_
            · simpa [view] using room
            · simpa [view] using fewer
            · rw [wakes, if_pos (positive_length empty)]
  | writeSlave wait buffer first second =>
      obtain ⟨ring, frame⟩ := writeSlave_frame done
      cases outcome with
      | nothing _ _ _ _ same error =>
          exact .same _ (toMaster_shown formed formed' frame same.2.2) (failed_idle error)
      | writeSlave _ _ _ _ ring appended =>
          by_cases empty : buffer = []
          · rw [empty, List.append_nil] at appended
            exact .same _ (toMaster_shown formed formed' rfl appended) (idle_length empty)
          · obtain ⟨count, less⟩ :=
              ring_filled formed.slave2master formed'.slave2master empty appended
            refine .writeSlave wait buffer first second
              (circSpace ring.head ring.tail bufsize != 0) ?_ ?_ (positive_length empty) ?_
            · simpa [view] using count
            · simpa [view] using less
            · rw [wakes, if_pos (positive_length empty)]
  | writeMaster wait buffer first second =>
      obtain ⟨ring, frame⟩ := writeMaster_frame done
      cases outcome with
      | nothing _ _ _ same _ error =>
          exact .same _ (toSlave_shown formed formed' frame same.2.2) (failed_idle error)
      | writeMaster _ _ _ _ ring appended =>
          by_cases empty : buffer = []
          · rw [empty, List.append_nil] at appended
            exact .same _ (toSlave_shown formed formed' rfl appended) (idle_length empty)
          · obtain ⟨count, less⟩ :=
              ring_filled formed.master2slave formed'.master2slave empty appended
            refine .writeMaster wait buffer first second
              (circSpace ring.head ring.tail bufsize != 0) ?_ ?_ (positive_length empty) ?_
            · simpa [view] using count
            · simpa [view] using less
            · rw [wakes, if_pos (.inl (positive_length empty))]
  | openSlave interrupted allocated => exact openSlave_effect (Option.some.inj done) seen
  | closeSlave interrupted => exact closeSlave_effect (Option.some.inj done) seen

theorem change_operate {channel after : Channel} {operation : Operation} {seen : Bool}
    {woken : List Queue} (changed : change channel (.operate operation seen) = some (after, woken)) :
    ∃ ret data, perform channel operation = some (after, .returned ret data) ∧
      woken = wakes operation ret seen := by
  rw [change] at changed
  split at changed
  · rename_i ret data done
    cases changed
    exact ⟨ret, data, done, rfl⟩
  · cases changed

section Steps
variable {scene next : Scene} (formed : Eq3LoopFifo.WellFormed scene.state)
  (attended : Attended eq3loop scene)

include attended in
theorem unmet_view {waiter : Waiter} (waits : Waits eq3loop scene waiter) :
    waiter.met (view scene.state) = false := by
  rw [← condition_view]
  exact attended waiter waits

include formed attended in
theorem operate_overlooks {operation : Operation} {seen : Bool} {waiter : Waiter} :
    Overlooks eq3loop scene waiter (.change (.operate operation seen)) →
      Forsakes scene (.change (.operate operation seen)) := by
  rintro ⟨after, woken, changed, waits, -, met, apart⟩
  have unmet := unmet_view attended waits
  have met : waiter.met (view after) = true := condition_view waiter after ▸ met
  obtain ⟨ret, data, done, rfl⟩ := change_operate changed
  obtain ⟨-, effect⟩ := operate_effect formed done seen
  have elsewhere : ∀ {queue : Queue}, wakes operation ret seen = [queue] →
      queue ∉ waiter.queues := by
    intro queue called member
    exact apart queue member (called ▸ List.mem_singleton_self queue)
  have passed : ∀ {passing : Operation}, operation = passing → 0 < ret →
      Passes scene.state passing := by
    rintro _ rfl positive
    exact ⟨after, ret, data, done, positive⟩
  cases effect with
  | same _ shown _ =>
      rw [shown, unmet] at met
      cases met
  | readSlave wait count first second data shown fewer positive called =>
      rw [shown] at met
      obtain ⟨opened, request, asked, unasked, rfl⟩ :=
        met_readSlave unmet (elsewhere called) fewer met
      refine ⟨?_, passed rfl positive, request, asked, unasked, waits⟩
      simpa [view] using opened
  | readMaster wait count first second data shown fewer positive called =>
      rw [shown] at met
      obtain ⟨request, asked, unasked, rfl⟩ := met_readMaster unmet (elsewhere called) met
      exact ⟨passed rfl positive, request, asked, unasked, waits⟩
  | writeSlave wait buffer first second room shown less positive called =>
      rw [shown, met_writeSlave unmet (elsewhere called) less] at met
      cases met
  | writeMaster wait buffer first second room shown less positive called =>
      rw [shown] at met
      obtain ⟨request, asked, unasked, rfl⟩ := met_writeMaster unmet (elsewhere called) less met
      exact ⟨passed rfl positive, request, asked, unasked, waits⟩
  | opened interrupted allocated shown unused created called =>
      rw [shown, met_opened unmet (elsewhere called) unused created] at met
      cases met
  | closed shown called =>
      rw [shown] at met
      obtain ⟨rfl, used, unused⟩ := met_closed unmet (elsewhere called) met
      refine ⟨?_, waits⟩
      simp only [view, bne_iff_ne, ne_eq, bne_eq_false_iff_eq] at used unused
      omega

include attended in
theorem closeMaster_overlooks {channelInterrupted controlInterrupted : Bool} {waiter : Waiter} :
    Overlooks eq3loop scene waiter (.change (.closeMaster channelInterrupted controlInterrupted)) →
      Forsakes scene (.change (.closeMaster channelInterrupted controlInterrupted)) := by
  rintro ⟨after, woken, changed, waits, -, met, apart⟩
  have unmet := unmet_view attended waits
  have met : waiter.met (view after) = true := condition_view waiter after ▸ met
  have changed : closeMaster scene.state channelInterrupted controlInterrupted = (after, woken) :=
    Option.some.inj changed
  cases channelInterrupted with
  | true =>
      cases changed
      rw [unmet] at met
      cases met
  | false =>
      cases controlInterrupted with
      | true =>
          cases changed
          rw [unmet] at met
          cases met
      | false =>
          cases changed
          have elsewhere : Queue.master2slaveq ∉ waiter.queues :=
            fun member => apart _ member (List.mem_singleton_self _)
          obtain ⟨created, rfl | ⟨request, silent, rfl⟩⟩ := met_destroyed unmet elsewhere met
          · exact ⟨created, .inl waits⟩
          · exact ⟨created, .inr ⟨request, silent, waits⟩⟩

include attended in
/-- Taking an event makes nobody's condition true; putting one back does, unasked. -/
theorem events_overlooked {events : PendingEvents} {waiter : Waiter}
    (waits : Waits eq3loop scene waiter)
    (met : waiter.condition { scene.state with pendingEvents := events } = true) :
    (view scene.state).event = false ∧ (events.slaveOpened || events.slaveClosed) = true ∧
      ∃ request, request.events.pollPri = true ∧ waiter = .pollMaster request := by
  rw [condition_view] at met
  exact met_event (unmet_view attended waits) met

include formed attended in
theorem overlooks_forsakes {act : Act} {waiter : Waiter}
    (overlooked : Overlooks eq3loop scene waiter act) : Forsakes scene act := by
  cases act with
  | wake queue | sleep waiter | leave index => exact overlooked.elim
  | change call =>
      cases call with
      | operate operation seen => exact operate_overlooks formed attended overlooked
      | closeMaster channelInterrupted controlInterrupted =>
          exact closeMaster_overlooks attended overlooked
      | takeOpened =>
          obtain ⟨after, woken, changed, waits, -, met, -⟩ := overlooked
          cases changed
          obtain ⟨none, some, -⟩ := events_overlooked attended waits met
          simp only [view, Bool.or_eq_false_iff] at none
          rw [Bool.false_or, none.2] at some
          cases some
      | takeClosed =>
          obtain ⟨after, woken, changed, waits, -, met, -⟩ := overlooked
          cases changed
          obtain ⟨none, some, -⟩ := events_overlooked attended waits met
          simp only [view, Bool.or_eq_false_iff] at none
          rw [Bool.or_false, none.1] at some
          cases some
      | restoreEvents events =>
          obtain ⟨after, woken, changed, waits, -, met, -⟩ := overlooked
          cases changed
          obtain ⟨-, some, request, asked, rfl⟩ := events_overlooked attended waits met
          exact ⟨some, request, asked, waits⟩

include formed in
theorem passes_effect {operation : Operation} (seen : Bool) (passes : Passes scene.state operation) :
    ∃ after ret, 0 < ret ∧ Effect scene.state after ret (wakes operation ret seen) operation ∧
      change scene.state (.operate operation seen) = some (after, wakes operation ret seen) := by
  obtain ⟨after, ret, data, done, positive⟩ := passes
  exact ⟨after, ret, positive, (operate_effect formed done seen).2, by rw [change, done]⟩

include formed in
theorem readSlave_forsakes {wait : Wait} {count : Nat} {first second seen : Bool}
    (forsaken : Forsakes scene (.change (.operate (.readSlave wait count first second) seen))) :
    ∃ waiter, Overlooks eq3loop scene waiter
      (.change (.operate (.readSlave wait count first second) seen)) := by
  obtain ⟨opened, passes, request, asked, unasked, waits⟩ := forsaken
  obtain ⟨after, ret, positive, effect, changed⟩ := passes_effect formed seen passes
  cases effect with
  | same _ _ idle => exact absurd positive idle
  | readSlave _ _ _ _ data shown _ _ called =>
      refine ⟨_, after, _, changed, waits, rfl, ?_, ?_⟩
      · change (Waiter.pollMaster request).condition after = true
        have used : (view scene.state).opened = true := by simpa [view] using opened
        rw [condition_view, shown]
        simp [Waiter.met, used, asked]
      · simp [eq3loop, Waiter.queues, masterQueues, unasked, called]

include formed in
theorem readMaster_forsakes {wait : Wait} {count : Nat} {first second seen : Bool}
    (forsaken : Forsakes scene (.change (.operate (.readMaster wait count first second) seen))) :
    ∃ waiter, Overlooks eq3loop scene waiter
      (.change (.operate (.readMaster wait count first second) seen)) := by
  obtain ⟨passes, request, asked, unasked, waits⟩ := forsaken
  obtain ⟨after, ret, positive, effect, changed⟩ := passes_effect formed seen passes
  cases effect with
  | same _ _ idle => exact absurd positive idle
  | readMaster _ _ _ _ data shown _ _ called =>
      refine ⟨_, after, _, changed, waits, rfl, ?_, ?_⟩
      · change (Waiter.pollSlave request).condition after = true
        rw [condition_view, shown]
        simp [Waiter.met, asked]
      · simp [eq3loop, Waiter.queues, slaveQueues, unasked, called]

include formed in
theorem writeMaster_forsakes {wait : Wait} {buffer : List UInt8}
    {first second : Option (List UInt8)} {seen : Bool}
    (forsaken : Forsakes scene (.change (.operate (.writeMaster wait buffer first second) seen))) :
    ∃ waiter, Overlooks eq3loop scene waiter
      (.change (.operate (.writeMaster wait buffer first second) seen)) := by
  obtain ⟨passes, request, asked, unasked, waits⟩ := forsaken
  obtain ⟨after, ret, positive, effect, changed⟩ := passes_effect formed seen passes
  cases effect with
  | same _ _ idle => exact absurd positive idle
  | writeMaster _ _ _ _ room shown _ _ called =>
      refine ⟨_, after, _, changed, waits, rfl, ?_, ?_⟩
      · change (Waiter.pollSlave request).condition after = true
        rw [condition_view, shown]
        simp [Waiter.met, asked]
      · simp [eq3loop, Waiter.queues, slaveQueues, unasked, called]

theorem closeSlave_forsakes {seen : Bool}
    (forsaken : Forsakes scene (.change (.operate (.closeSlave false) seen))) :
    ∃ waiter, Overlooks eq3loop scene waiter (.change (.operate (.closeSlave false) seen)) := by
  obtain ⟨single, waits⟩ := forsaken
  refine ⟨_, (closeSlave scene.state false).1, [.slave2masterq], rfl, waits, rfl, ?_, ?_⟩
  · simp [eq3loop, condition_view, Waiter.met, view, closeSlave, single]
  · simp [eq3loop, Waiter.queues]

theorem closeMaster_forsakes
    (forsaken : Forsakes scene (.change (.closeMaster false false))) :
    ∃ waiter, Overlooks eq3loop scene waiter (.change (.closeMaster false false)) := by
  obtain ⟨-, waits | ⟨request, silent, waits⟩⟩ := forsaken
  · refine ⟨_, _, _, rfl, waits, rfl, ?_, ?_⟩
    · simp [eq3loop, condition_view, Waiter.met, view]
    · simp [eq3loop, Waiter.queues]
  · refine ⟨_, _, _, rfl, waits, rfl, ?_, ?_⟩
    · simp [eq3loop, condition_view, Waiter.met, view]
    · simp [eq3loop, Waiter.queues, slaveQueues, silent]

theorem restoreEvents_forsakes {events : PendingEvents}
    (forsaken : Forsakes scene (.change (.restoreEvents events))) :
    ∃ waiter, Overlooks eq3loop scene waiter (.change (.restoreEvents events)) := by
  obtain ⟨some, request, asked, waits⟩ := forsaken
  refine ⟨_, _, _, rfl, waits, rfl, ?_, fun _ _ => List.not_mem_nil⟩
  simp [eq3loop, condition_view, Waiter.met, view, some, asked]

include formed in
theorem forsakes_overlooks {act : Act} (forsaken : Forsakes scene act) :
    ∃ waiter, Overlooks eq3loop scene waiter act := by
  cases act with
  | wake queue | sleep waiter | leave index => exact forsaken.elim
  | change call =>
      cases call with
      | operate operation seen =>
          cases operation with
          | closeSlave interrupted =>
              cases interrupted with
              | true => exact forsaken.elim
              | false => exact closeSlave_forsakes forsaken
          | readSlave wait count first second => exact readSlave_forsakes formed forsaken
          | readMaster wait count first second => exact readMaster_forsakes formed forsaken
          | writeMaster wait buffer first second => exact writeMaster_forsakes formed forsaken
          | writeSlave wait buffer first second => exact forsaken.elim
          | openSlave interrupted allocated => exact forsaken.elim
      | closeMaster channelInterrupted controlInterrupted =>
          cases channelInterrupted with
          | true => exact forsaken.elim
          | false =>
              cases controlInterrupted with
              | true => exact forsaken.elim
              | false => exact closeMaster_forsakes forsaken
      | takeOpened | takeClosed => exact forsaken.elim
      | restoreEvents events => exact restoreEvents_forsakes forsaken

end Steps

theorem change_formed (channel : Channel) (call : Change) (after : Channel) (woken : List Queue)
    (formed : Eq3LoopFifo.WellFormed channel) (changed : change channel call = some (after, woken)) :
    Eq3LoopFifo.WellFormed after := by
  cases call with
  | operate operation seen =>
      obtain ⟨ret, data, done, -⟩ := change_operate changed
      exact (operate_effect formed done seen).1
  | closeMaster channelInterrupted controlInterrupted =>
      have rings : after.master2slave = channel.master2slave ∧
          after.slave2master = channel.slave2master := by
        cases channelInterrupted <;> cases controlInterrupted <;> cases changed <;> exact ⟨rfl, rfl⟩
      exact ⟨rings.1 ▸ formed.master2slave, rings.2 ▸ formed.slave2master⟩
  | takeOpened | takeClosed | restoreEvents events =>
      cases changed
      exact ⟨formed.master2slave, formed.slave2master⟩

def created : Scene := ⟨createdChannel, [], []⟩

theorem created_formed : Eq3LoopFifo.WellFormed created.state := by
  have start : 0 < bufsize := by decide
  exact ⟨⟨List.length_replicate, start, start⟩, ⟨List.length_replicate, start, start⟩⟩

def eventRequest : Request := ⟨⟨false, false, false, false, true, true⟩, rfl⟩

/-- The slave opens and the event is taken; the master polls for the next one, and then the
first one is put back because it could not be stored. -/
def restoredRun : List Act :=
  [.sleep (.pollMaster eventRequest), .change (.operate (.openSlave false true) false),
    .wake .slave2masterq, .leave 0, .change .takeOpened, .sleep (.pollMaster eventRequest),
    .change (.restoreEvents ⟨true, false, true⟩)]

end PiVccu.Eq3LoopWakeUps
