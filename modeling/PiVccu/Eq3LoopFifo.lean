import PiVccu.Eq3Loop

/-!
The two directions of an eq3loop channel as lossless queues: what was read,
followed by what the ring still holds, is what was written.
-/

namespace PiVccu.Eq3LoopFifo
open ByteBuffer CircBuf Eq3Loop Transition

/-- Head, tail and contents are the same; free cells may differ. -/
def Unchanged (before after : CircRing UInt8) : Prop :=
  after.head = before.head ∧ after.tail = before.tail ∧ after.contents = before.contents

theorem Unchanged.refl (ring : CircRing UInt8) : Unchanged ring ring := ⟨rfl, rfl, rfl⟩

section Copies
variable {ring : CircRing UInt8} (formed : ring.WellFormed bufsize)

include formed in
theorem readRing_spec (count : Nat) (firstFaults secondFaults : Bool) :
    ∃ after ret data, readRing ring count firstFaults secondFaults = some (after, ret, data) ∧
      after.WellFormed bufsize ∧ data ++ after.contents = ring.contents ∧
      ((ret < 0 ∧ after = ring) ∨ ret = data.length) := by
  let amount := min count (circCnt ring.head ring.tail bufsize)
  let first := min amount (circCntToEnd ring.head ring.tail bufsize)
  have available : amount ≤ circCnt ring.head ring.tail bufsize := Nat.min_le_right _ _
  have part : first ≤ amount := Nat.min_le_left _ _
  obtain ⟨upTo, wrapped⟩ := read_unbroken formed available
  have start : (ring.tail + 0) % bufsize = ring.tail := Nat.mod_eq_of_lt formed.tail
  have loadedFirst : loadRange ring.buf ring.tail first = some (ring.contents.take first) := by
    have loaded := read_behind formed 0 first (by omega)
      (by rw [start]; exact upTo)
    rwa [start, List.drop_zero] at loaded
  have loadedSecond : loadRange ring.buf ((ring.tail + first) % bufsize) (amount - first) =
      some ((ring.contents.drop first).take (amount - first)) :=
    read_behind formed first _ (by omega) wrapped
  have joined : ring.contents.take first ++ (ring.contents.drop first).take (amount - first) =
      ring.contents.take amount := by
    rw [← List.take_add]
    congr 1
    omega
  have moved : ((ring.tail + first) % bufsize + (amount - first)) % bufsize =
      (ring.tail + amount) % bufsize := by
    rw [Nat.mod_add_mod]
    congr 1
    omega
  have done : readRing ring count firstFaults secondFaults =
      if firstFaults || secondFaults then some (ring, -efault, [])
      else some ({ ring with tail := (ring.tail + amount) % bufsize }, (amount : Int),
        ring.contents.take amount) := by
    simp only [readRing]
    change (loadRange ring.buf ring.tail first).bind _ = _
    rw [loadedFirst]
    cases firstFaults with
    | true => rfl
    | false =>
        change (loadRange ring.buf ((ring.tail + first) % bufsize) (amount - first)).bind _ = _
        rw [loadedSecond]
        cases secondFaults with
        | true => rfl
        | false =>
            change some (_, _, ring.contents.take first ++
              (ring.contents.drop first).take (amount - first)) = _
            rw [joined, ← moved]
            rfl
  obtain ⟨kept, rest⟩ := consume formed available
  rw [done]
  by_cases faults : firstFaults || secondFaults
  · rw [if_pos faults]
    exact ⟨ring, -efault, [], rfl, formed, rfl, .inl ⟨by decide, rfl⟩⟩
  · rw [if_neg faults]
    refine ⟨_, _, _, rfl, kept, ?_, .inr ?_⟩
    · rw [rest]
      exact List.take_append_drop _ _
    · rw [List.length_take, contents_length formed, Nat.min_eq_left available]

include formed in
theorem write_first (source : List UInt8) {count : Nat}
    (room : count ≤ circSpace ring.head ring.tail bufsize)
    (short : source.length ≤ min count (circSpaceToEnd ring.head ring.tail bufsize)) :
    ∃ buf, memcpy ring.buf ring.head source = some buf ∧
      CircRing.WellFormed { ring with buf := buf } bufsize ∧
      CircRing.contents { ring with buf := buf } = ring.contents ∧
      (buf.rotate ring.tail).take (ring.contents.length + source.length) =
        ring.contents ++ source := by
  obtain ⟨upTo, -⟩ := write_unbroken formed room
  have start : (ring.head + 0) % bufsize = ring.head := Nat.mod_eq_of_lt formed.head
  obtain ⟨buf, written, kept, same, rotated⟩ := write_behind formed source 0 (by omega)
    (by rw [start]; omega)
  rw [start] at written
  refine ⟨buf, written, kept, same, ?_⟩
  have whole : (ring.buf.rotate ring.tail).take ring.contents.length = ring.contents := by
    rw [contents_length formed, CircRing.contents, formed.sized]
  rw [rotated, Nat.add_zero, whole, ← List.length_append, List.take_left]

include formed in
theorem write_second {first : List UInt8} (source : List UInt8) {count : Nat}
    (stored : (ring.buf.rotate ring.tail).take (ring.contents.length + first.length) =
      ring.contents ++ first)
    (room : count ≤ circSpace ring.head ring.tail bufsize)
    (split : first.length = min count (circSpaceToEnd ring.head ring.tail bufsize))
    (short : first.length + source.length ≤ count) :
    ∃ buf, memcpy ring.buf ((ring.head + first.length) % bufsize) source = some buf ∧
      CircRing.WellFormed { ring with buf := buf } bufsize ∧
      CircRing.contents { ring with buf := buf } = ring.contents ∧
      (buf.rotate ring.tail).take (ring.contents.length + (first ++ source).length) =
        ring.contents ++ (first ++ source) := by
  obtain ⟨-, wrapped⟩ := write_unbroken formed room
  rw [← split] at wrapped
  obtain ⟨buf, written, kept, same, rotated⟩ := write_behind formed source first.length (by omega)
    (by omega)
  refine ⟨buf, written, kept, same, ?_⟩
  rw [rotated, stored, ← List.length_append, ← List.append_assoc, List.take_left]

include formed in
theorem writeRing_spec (buffer : List UInt8) (firstFault secondFault : Option (List UInt8)) :
    ∃ after ret, writeRing ring buffer firstFault secondFault = some (after, ret) ∧
      after.WellFormed bufsize ∧
      ((ret < 0 ∧ Unchanged ring after) ∨
        (ret = buffer.length ∧ after.contents = ring.contents ++ buffer)) := by
  by_cases full : circSpace ring.head ring.tail bufsize < buffer.length
  · refine ⟨ring, -efault, by simp [writeRing, full], formed, .inl ⟨by decide, .refl ring⟩⟩
  · have room : buffer.length ≤ circSpace ring.head ring.tail bufsize := Nat.not_lt.mp full
    let first := min buffer.length (circSpaceToEnd ring.head ring.tail bufsize)
    have part : first ≤ buffer.length := Nat.min_le_left _ _
    have size : (buffer.take first).length = first := by
      rw [List.length_take, Nat.min_eq_left part]
    -- After a fault the head stays, and so the contents, whatever was copied behind it.
    cases firstFault with
    | some left =>
        obtain ⟨buf, written, kept, same, -⟩ := write_first formed (left.take first) room
          (List.length_take_le _ _)
        refine ⟨{ ring with buf := buf }, -efault, ?_, kept, .inl ⟨by decide, rfl, rfl, same⟩⟩
        simp only [writeRing, full, ↓reduceIte]
        change (memcpy ring.buf ring.head (left.take first)).bind _ = _
        rw [written]
        rfl
    | none =>
        obtain ⟨buf, written, kept, same, stored⟩ := write_first formed (buffer.take first) room
          (Nat.le_of_eq size)
        cases secondFault with
        | some left =>
            obtain ⟨buf', written', kept', same', -⟩ := write_second kept
              (left.take (buffer.length - first)) (by rw [same]; exact stored) room size
              (by rw [size, List.length_take]; omega)
            refine ⟨{ ring with buf := buf' }, -efault, ?_, kept',
              .inl ⟨by decide, rfl, rfl, same'.trans same⟩⟩
            rw [size] at written'
            simp only [writeRing, full, ↓reduceIte]
            change (memcpy ring.buf ring.head (buffer.take first)).bind _ = _
            rw [written]
            change (memcpy buf ((ring.head + first) % bufsize) _).bind _ = _
            rw [written']
            rfl
        | none =>
            obtain ⟨buf', written', kept', same', stored'⟩ := write_second kept
              (buffer.drop first) (by rw [same]; exact stored) room size
              (by rw [size, List.length_drop]; omega)
            rw [List.take_append_drop] at stored'
            obtain ⟨formed', contents⟩ := publish kept' buffer room (by rw [same']; exact stored')
            refine ⟨_, buffer.length, ?_, formed', .inr ⟨rfl, ?_⟩⟩
            · -- The second copy starts behind the first one, from the wrapped index.
              have moved : ((ring.head + first) % bufsize + (buffer.length - first)) % bufsize =
                  (ring.head + buffer.length) % bufsize := by
                rw [Nat.mod_add_mod]
                congr 1
                omega
              rw [size] at written'
              simp only [writeRing, full, ↓reduceIte]
              change (memcpy ring.buf ring.head (buffer.take first)).bind _ = _
              rw [written]
              change (memcpy buf ((ring.head + first) % bufsize) _).bind _ = _
              rw [written', ← moved]
              rfl
            · rw [contents, same', same]

end Copies

theorem contents_empty (buf : List UInt8) (start : Nat) :
    CircRing.contents ⟨buf, start, start⟩ = [] := by
  simp [CircRing.contents, circCnt]

structure WellFormed (channel : Channel) : Prop where
  master2slave : channel.master2slave.WellFormed bufsize
  slave2master : channel.slave2master.WellFormed bufsize

inductive Outcome (channel : Channel) : Operation → Channel → Reply → Prop where
  | nothing (operation : Operation) (after : Channel) (reply : Reply)
      (master2slave : Unchanged channel.master2slave after.master2slave)
      (slave2master : Unchanged channel.slave2master after.slave2master)
      (error : reply = .asleep ∨ ∃ ret < 0, reply = .returned ret []) :
      Outcome channel operation after reply
  | readSlave (wait : Wait) (count : Nat) (first second : Bool) (ring : CircRing UInt8)
      (data : List UInt8) (split : data ++ ring.contents = channel.master2slave.contents) :
      Outcome channel (.readSlave wait count first second) { channel with master2slave := ring }
        (.returned data.length data)
  | readMaster (wait : Wait) (count : Nat) (first second : Bool) (ring : CircRing UInt8)
      (data : List UInt8) (split : data ++ ring.contents = channel.slave2master.contents) :
      Outcome channel (.readMaster wait count first second) { channel with slave2master := ring }
        (.returned data.length data)
  | writeSlave (wait : Wait) (buffer : List UInt8) (first second : Option (List UInt8))
      (ring : CircRing UInt8) (appended : ring.contents = channel.slave2master.contents ++ buffer) :
      Outcome channel (.writeSlave wait buffer first second) { channel with slave2master := ring }
        (.returned buffer.length [])
  | writeMaster (wait : Wait) (buffer : List UInt8) (first second : Option (List UInt8))
      (ring : CircRing UInt8) (appended : ring.contents = channel.master2slave.contents ++ buffer) :
      Outcome channel (.writeMaster wait buffer first second) { channel with master2slave := ring }
        (.returned buffer.length [])
  | openSlave (lockInterrupted allocated : Bool) (after : Channel)
      (emptied : after.master2slave.contents = [])
      (kept : after.slave2master = channel.slave2master) :
      Outcome channel (.openSlave lockInterrupted allocated) after (.returned 0 [])
  | closeSlave (lockInterrupted : Bool) (after : Channel)
      (master2slave : after.master2slave = channel.master2slave)
      (slave2master : after.slave2master = channel.slave2master) :
      Outcome channel (.closeSlave lockInterrupted) after (.returned 0 [])

theorem outcome_error {channel : Channel} (operation : Operation) {ret : Int} (negative : ret < 0) :
    Outcome channel operation channel (.returned ret []) :=
  .nothing operation channel _ (.refl _) (.refl _) (.inr ⟨ret, negative, rfl⟩)

section Calls
variable {channel : Channel} (formed : WellFormed channel)

include formed in
theorem sleep_spec (operation : Operation) (wait : Wait) :
    ∃ after reply, some (sleep channel wait) = some (after, reply) ∧ WellFormed after ∧
      Outcome channel operation after reply := by
  unfold sleep
  split
  · exact ⟨_, _, rfl, formed, outcome_error operation (by decide)⟩
  · split
    · exact ⟨_, _, rfl, formed, outcome_error operation (by decide)⟩
    · exact ⟨_, _, rfl, formed, .nothing operation channel _ (.refl _) (.refl _) (.inl rfl)⟩

include formed in
theorem readSlave_spec (wait : Wait) (count : Nat) (first second : Bool) :
    ∃ after reply, readSlave channel wait count first second = some (after, reply) ∧
      WellFormed after ∧ Outcome channel (.readSlave wait count first second) after reply := by
  unfold readSlave
  split
  · exact ⟨_, _, rfl, formed, outcome_error _ (by decide)⟩
  · split
    · exact ⟨_, _, rfl, formed, outcome_error _ (by decide)⟩
    · split
      · exact sleep_spec formed _ wait
      · obtain ⟨ring, ret, data, done, kept, split, ⟨negative, same⟩ | success⟩ :=
          readRing_spec formed.master2slave count first second
        · subst same
          rw [List.append_left_eq_self] at split
          subst split
          rw [done]
          exact ⟨_, _, rfl, formed, outcome_error _ negative⟩
        · subst success
          rw [done]
          exact ⟨_, _, rfl, ⟨kept, formed.slave2master⟩,
            .readSlave wait count first second ring data split⟩

include formed in
theorem readMaster_spec (wait : Wait) (count : Nat) (first second : Bool) :
    ∃ after reply, readMaster channel wait count first second = some (after, reply) ∧
      WellFormed after ∧ Outcome channel (.readMaster wait count first second) after reply := by
  unfold readMaster
  split
  · exact ⟨_, _, rfl, formed, outcome_error _ (by decide)⟩
  · split
    · exact ⟨_, _, rfl, formed,
        .readMaster wait count first second channel.slave2master [] (List.nil_append _)⟩
    · split
      · exact sleep_spec formed _ wait
      · obtain ⟨ring, ret, data, done, kept, split, ⟨negative, same⟩ | success⟩ :=
          readRing_spec formed.slave2master count first second
        · subst same
          rw [List.append_left_eq_self] at split
          subst split
          rw [done]
          exact ⟨_, _, rfl, formed, outcome_error _ negative⟩
        · subst success
          rw [done]
          exact ⟨_, _, rfl, ⟨formed.master2slave, kept⟩,
            .readMaster wait count first second ring data split⟩

include formed in
theorem writeSlave_spec (wait : Wait) (buffer : List UInt8) (first second : Option (List UInt8)) :
    ∃ after reply, writeSlave channel wait buffer first second = some (after, reply) ∧
      WellFormed after ∧ Outcome channel (.writeSlave wait buffer first second) after reply := by
  unfold writeSlave
  split
  · exact ⟨_, _, rfl, formed, outcome_error _ (by decide)⟩
  · split
    · exact sleep_spec formed _ wait
    · split
      · exact ⟨_, _, rfl, formed, outcome_error _ (by decide)⟩
      · obtain ⟨ring, ret, done, kept, ⟨negative, same⟩ | ⟨success, appended⟩⟩ :=
          writeRing_spec formed.slave2master buffer first second
        · rw [done]
          exact ⟨_, _, rfl, ⟨formed.master2slave, kept⟩,
            .nothing _ _ _ (.refl _) same (.inr ⟨ret, negative, rfl⟩)⟩
        · subst success
          rw [done]
          exact ⟨_, _, rfl, ⟨formed.master2slave, kept⟩,
            .writeSlave wait buffer first second ring appended⟩

include formed in
theorem writeMaster_spec (wait : Wait) (buffer : List UInt8) (first second : Option (List UInt8)) :
    ∃ after reply, writeMaster channel wait buffer first second = some (after, reply) ∧
      WellFormed after ∧ Outcome channel (.writeMaster wait buffer first second) after reply := by
  unfold writeMaster
  split
  · exact ⟨_, _, rfl, formed, outcome_error _ (by decide)⟩
  · split
    · exact sleep_spec formed _ wait
    · obtain ⟨ring, ret, done, kept, ⟨negative, same⟩ | ⟨success, appended⟩⟩ :=
        writeRing_spec formed.master2slave buffer first second
      · rw [done]
        exact ⟨_, _, rfl, ⟨kept, formed.slave2master⟩,
          .nothing _ _ _ same (.refl _) (.inr ⟨ret, negative, rfl⟩)⟩
      · subst success
        rw [done]
        exact ⟨_, _, rfl, ⟨kept, formed.slave2master⟩,
          .writeMaster wait buffer first second ring appended⟩

include formed in
theorem openSlave_spec (lockInterrupted allocated : Bool) :
    WellFormed (openSlave channel lockInterrupted allocated).1 ∧
      Outcome channel (.openSlave lockInterrupted allocated)
        (openSlave channel lockInterrupted allocated).1
        (openSlave channel lockInterrupted allocated).2 := by
  unfold openSlave
  split
  · exact ⟨formed, outcome_error _ (by decide)⟩
  · split
    · exact ⟨formed, outcome_error _ (by decide)⟩
    · split
      · exact ⟨formed, outcome_error _ (by decide)⟩
      · split
        · exact ⟨formed, outcome_error _ (by decide)⟩
        · have start : 0 < bufsize := by decide
          refine ⟨⟨⟨formed.master2slave.sized, start, start⟩, formed.slave2master⟩, ?_⟩
          exact .openSlave lockInterrupted allocated _ (contents_empty _ 0) rfl

include formed in
theorem closeSlave_spec (lockInterrupted : Bool) :
    WellFormed (closeSlave channel lockInterrupted).1 ∧
      Outcome channel (.closeSlave lockInterrupted) (closeSlave channel lockInterrupted).1
        (closeSlave channel lockInterrupted).2 := by
  unfold closeSlave
  split
  · exact ⟨formed, outcome_error _ (by decide)⟩
  · exact ⟨⟨formed.master2slave, formed.slave2master⟩, .closeSlave lockInterrupted _ rfl rfl⟩

include formed in
theorem perform_spec (operation : Operation) :
    ∃ after reply, perform channel operation = some (after, reply) ∧ WellFormed after ∧
      Outcome channel operation after reply := by
  cases operation with
  | readSlave wait count first second => exact readSlave_spec formed wait count first second
  | readMaster wait count first second => exact readMaster_spec formed wait count first second
  | writeSlave wait buffer first second => exact writeSlave_spec formed wait buffer first second
  | writeMaster wait buffer first second => exact writeMaster_spec formed wait buffer first second
  | openSlave lockInterrupted allocated =>
      exact ⟨_, _, rfl, openSlave_spec formed lockInterrupted allocated⟩
  | closeSlave lockInterrupted => exact ⟨_, _, rfl, closeSlave_spec formed lockInterrupted⟩

end Calls

/-- A channel with what was read and written on it: towards the slave since the
last open, towards the master since the creation. -/
structure Session where
  channel : Channel
  toSlave : List UInt8
  fromMaster : List UInt8
  toMaster : List UInt8
  fromSlave : List UInt8

/-- Enter a finished call into the records; only success has `0 ≤ ret`. -/
def Session.log (session : Session) : Operation → Reply → Session
  | .readSlave .., .returned ret data =>
      if 0 ≤ ret then { session with toSlave := session.toSlave ++ data } else session
  | .readMaster .., .returned ret data =>
      if 0 ≤ ret then { session with toMaster := session.toMaster ++ data } else session
  | .writeSlave _ buffer _ _, .returned ret _ =>
      if 0 ≤ ret then { session with fromSlave := session.fromSlave ++ buffer } else session
  | .writeMaster _ buffer _ _, .returned ret _ =>
      if 0 ≤ ret then { session with fromMaster := session.fromMaster ++ buffer } else session
  | .openSlave .., .returned ret _ =>
      if 0 ≤ ret then { session with toSlave := [], fromMaster := [] } else session
  | _, _ => session

def step (session : Session) (operation : Operation) : Option Session :=
  (perform session.channel operation).map fun result =>
    { session with channel := result.1 }.log operation result.2

def Fresh (session : Session) : Prop :=
  session = ⟨createdChannel, [], [], [], []⟩

structure Lossless (session : Session) : Prop where
  toSlave : session.toSlave ++ session.channel.master2slave.contents = session.fromMaster
  toMaster : session.toMaster ++ session.channel.slave2master.contents = session.fromSlave

theorem log_error (session : Session) (operation : Operation) {ret : Int} (negative : ret < 0)
    (data : List UInt8) : session.log operation (.returned ret data) = session := by
  have error : ¬ 0 ≤ ret := Int.not_le.mpr negative
  cases operation <;> simp [Session.log, error]

theorem log_channel (session : Session) (operation : Operation) (reply : Reply) :
    (session.log operation reply).channel = session.channel := by
  unfold Session.log
  split
  all_goals first
    | rfl
    | split <;> rfl

theorem log_asleep (session : Session) (operation : Operation) :
    session.log operation .asleep = session := by
  cases operation <;> rfl

theorem lossless_outcome {session : Session} (lossless : Lossless session) {operation : Operation}
    {after : Channel} {reply : Reply} (outcome : Outcome session.channel operation after reply) :
    Lossless ({ session with channel := after }.log operation reply) := by
  cases outcome with
  | nothing _ _ _ master2slave slave2master error =>
      have kept : Lossless { session with channel := after } := by
        constructor
        · simpa only [master2slave.2.2] using lossless.toSlave
        · simpa only [slave2master.2.2] using lossless.toMaster
      -- Neither a call that sleeps nor one that fails is logged as data.
      rcases error with rfl | ⟨ret, negative, rfl⟩
      · rw [log_asleep]
        exact kept
      · rw [log_error _ _ negative]
        exact kept
  | readSlave wait count first second ring data split =>
      have read : 0 ≤ (data.length : Int) := Int.natCast_nonneg _
      simp only [Session.log, read, ↓reduceIte]
      refine ⟨?_, lossless.toMaster⟩
      simp only [List.append_assoc, split]
      exact lossless.toSlave
  | readMaster wait count first second ring data split =>
      have read : 0 ≤ (data.length : Int) := Int.natCast_nonneg _
      simp only [Session.log, read, ↓reduceIte]
      refine ⟨lossless.toSlave, ?_⟩
      simp only [List.append_assoc, split]
      exact lossless.toMaster
  | writeSlave wait buffer first second ring appended =>
      have written : 0 ≤ (buffer.length : Int) := Int.natCast_nonneg _
      simp only [Session.log, written, ↓reduceIte]
      refine ⟨lossless.toSlave, ?_⟩
      simp only [appended, ← lossless.toMaster, List.append_assoc]
  | writeMaster wait buffer first second ring appended =>
      have written : 0 ≤ (buffer.length : Int) := Int.natCast_nonneg _
      simp only [Session.log, written, ↓reduceIte]
      refine ⟨?_, lossless.toMaster⟩
      simp only [appended, ← lossless.toSlave, List.append_assoc]
  | openSlave lockInterrupted allocated _ emptied kept =>
      -- Opening the slave empties one ring; the log of that direction starts anew.
      have opened : (0 : Int) ≤ 0 := Int.le_refl 0
      simp only [Session.log, opened, ↓reduceIte]
      refine ⟨emptied, ?_⟩
      simp only [kept]
      exact lossless.toMaster
  | closeSlave lockInterrupted _ master2slave slave2master =>
      refine ⟨?_, ?_⟩
      · simp only [Session.log, master2slave]
        exact lossless.toSlave
      · simp only [Session.log, slave2master]
        exact lossless.toMaster

/-- What one call may do to the rings: an error changes nothing, a write appends
all of its buffer or nothing. -/
structure AllOrNothing (channel : Channel) (operation : Operation) (after : Channel)
    (reply : Reply) : Prop where
  error : (reply = .asleep ∨ ∃ ret data, reply = .returned ret data ∧ ret < 0) →
    Unchanged channel.master2slave after.master2slave ∧
      Unchanged channel.slave2master after.slave2master
  writeMaster : ∀ wait buffer first second, operation = .writeMaster wait buffer first second →
    Unchanged channel.slave2master after.slave2master ∧
      (Unchanged channel.master2slave after.master2slave ∨
        (reply = .returned buffer.length [] ∧
          after.master2slave.contents = channel.master2slave.contents ++ buffer))
  writeSlave : ∀ wait buffer first second, operation = .writeSlave wait buffer first second →
    Unchanged channel.master2slave after.master2slave ∧
      (Unchanged channel.slave2master after.slave2master ∨
        (reply = .returned buffer.length [] ∧
          after.slave2master.contents = channel.slave2master.contents ++ buffer))

theorem outcome_allOrNothing {channel after : Channel} {operation : Operation} {reply : Reply}
    (outcome : Outcome channel operation after reply) :
    AllOrNothing channel operation after reply := by
  -- Only the replies of `nothing` are errors.
  have succeeded : ∀ (count : Nat) (data : List UInt8),
      ¬ (Reply.returned count data = .asleep ∨
        ∃ ret octets, Reply.returned count data = .returned ret octets ∧ ret < 0) := by
    rintro count data (asleep | ⟨ret, octets, same, negative⟩)
    · cases asleep
    · cases same
      omega
  cases outcome with
  | nothing _ _ _ master2slave slave2master _ =>
      exact ⟨fun _ => ⟨master2slave, slave2master⟩, fun _ _ _ _ _ => ⟨slave2master, .inl master2slave⟩,
        fun _ _ _ _ _ => ⟨master2slave, .inl slave2master⟩⟩
  | readSlave => exact ⟨fun error => absurd error (succeeded _ _), by simp, by simp⟩
  | readMaster => exact ⟨fun error => absurd error (succeeded _ _), by simp, by simp⟩
  | openSlave => exact ⟨fun error => absurd error (succeeded 0 []), by simp, by simp⟩
  | closeSlave => exact ⟨fun error => absurd error (succeeded 0 []), by simp, by simp⟩
  | writeSlave _ _ _ _ ring appended =>
      refine ⟨fun error => absurd error (succeeded _ _), by simp, ?_⟩
      rintro _ _ _ _ ⟨⟩
      exact ⟨.refl _, .inr ⟨rfl, appended⟩⟩
  | writeMaster _ _ _ _ ring appended =>
      refine ⟨fun error => absurd error (succeeded _ _), ?_, by simp⟩
      rintro _ _ _ _ ⟨⟩
      exact ⟨.refl _, .inr ⟨rfl, appended⟩⟩

theorem fresh_formed : WellFormed createdChannel :=
  have start : 0 < bufsize := by decide
  ⟨⟨List.length_replicate, start, start⟩, ⟨List.length_replicate, start, start⟩⟩

theorem fresh_lossless : Lossless ⟨createdChannel, [], [], [], []⟩ := by
  constructor
  · simp only [createdChannel, contents_empty, List.append_nil]
  · simp only [createdChannel, contents_empty, List.append_nil]

theorem step_lossless {before after : Session} {operation : Operation} (lossless : Lossless before)
    (formed : WellFormed before.channel) (taken : step before operation = some after) :
    Lossless after ∧ WellFormed after.channel := by
  obtain ⟨channel, reply, done, kept, outcome⟩ := perform_spec formed operation
  simp only [step, done, Option.map_some, Option.some.injEq] at taken
  subst taken
  refine ⟨lossless_outcome lossless outcome, ?_⟩
  rw [log_channel]
  exact kept

theorem reachable_lossless (session : Session)
    (reached : Reachable step (fun _ _ => True) Fresh session) :
    Lossless session ∧ WellFormed session.channel := by
  induction reached with
  | start initial =>
      rw [initial]
      exact ⟨fresh_lossless, fresh_formed⟩
  | next operation _ _ taken ih => exact step_lossless ih.1 ih.2 taken

/-- In every state of every run both directions are lossless queues, no call
leaves the buffers, and each call is all or nothing. -/
theorem channel_lossless (session : Session)
    (reached : Reachable step (fun _ _ => True) Fresh session) :
    Lossless session ∧ WellFormed session.channel ∧
      ∀ operation, ∃ after reply, perform session.channel operation = some (after, reply) ∧
        AllOrNothing session.channel operation after reply := by
  obtain ⟨lossless, formed⟩ := reachable_lossless session reached
  refine ⟨lossless, formed, ?_⟩
  intro operation
  obtain ⟨after, reply, done, -, outcome⟩ := perform_spec formed operation
  exact ⟨after, reply, done, outcome_allOrNothing outcome⟩

def untroubled : Wait := ⟨false, false, false⟩

def shortExchange : List Operation :=
  [.openSlave false true, .writeMaster untroubled [1, 2, 3] none none,
    .readSlave untroubled 2 false false]

theorem channel_lossless_exchange :
    ∃ session, run step (fun _ _ => true) ⟨createdChannel, [], [], [], []⟩ shortExchange =
        some session ∧
      session.toSlave = [1, 2] ∧ session.fromMaster = [1, 2, 3] ∧
      Lossless session ∧ WellFormed session.channel ∧
      ∀ operation, ∃ after reply, perform session.channel operation = some (after, reply) ∧
        AllOrNothing session.channel operation after reply := by
  have records : (run step (fun _ _ => true) ⟨createdChannel, [], [], [], []⟩ shortExchange).map
      (fun session => (session.toSlave, session.fromMaster)) = some ([1, 2], [1, 2, 3]) := by
    decide +kernel
  obtain ⟨session, taken, same⟩ := Option.map_eq_some_iff.mp records
  obtain ⟨toSlave, fromMaster⟩ := Prod.mk.inj same
  refine ⟨session, taken, toSlave, fromMaster, channel_lossless session ?_⟩
  exact run_reachable (fun _ _ _ => trivial) shortExchange (.start rfl) taken

end PiVccu.Eq3LoopFifo
