import PiVccu.Eq3LoopFifo

/-!
The sessions of a channel: the slave files that are opened one after another. Each
byte in a ring is marked with the session in which it was written. An open empties
the ring towards the slave but not the one towards the master, so what a closed
slave left there is read as if the next one had written it.
-/

namespace PiVccu.Eq3LoopSession
open CircBuf Eq3Loop Eq3LoopFifo Transition

abbrev Marked := UInt8 × Nat

structure Read where
  current : Option Nat
  data : List UInt8
  source : List Marked

/-- `current` is the number of the open slave file. -/
structure Sessions where
  channel : Channel
  opens : Nat
  current : Option Nat
  toSlave : List Marked
  toMaster : List Marked
  reads : List Read

/-- Enter a finished call; only success has `0 ≤ ret`. The VFS drops a file whatever
its close returns. -/
def Sessions.log (sessions : Sessions) : Operation → Reply → Sessions
  | .readSlave .., .returned ret data =>
      if 0 ≤ ret then
        { sessions with
          toSlave := sessions.toSlave.drop data.length
          reads := sessions.reads ++
            [⟨sessions.current, data, sessions.toSlave.take data.length⟩] }
      else sessions
  | .readMaster .., .returned ret data =>
      if 0 ≤ ret then
        { sessions with
          toMaster := sessions.toMaster.drop data.length
          reads := sessions.reads ++
            [⟨sessions.current, data, sessions.toMaster.take data.length⟩] }
      else sessions
  | .writeSlave _ buffer _ _, .returned ret _ =>
      if 0 ≤ ret then
        { sessions with
          toMaster := sessions.toMaster ++ buffer.map fun octet => (octet, sessions.opens) }
      else sessions
  | .writeMaster _ buffer _ _, .returned ret _ =>
      if 0 ≤ ret then
        { sessions with
          toSlave := sessions.toSlave ++ buffer.map fun octet => (octet, sessions.opens) }
      else sessions
  | .openSlave .., .returned ret _ =>
      if 0 ≤ ret then
        { sessions with
          opens := sessions.opens + 1, current := some (sessions.opens + 1), toSlave := [] }
      else sessions
  | .closeSlave _, _ => { sessions with current := none }
  | _, .asleep => sessions

def Sessions.possible (sessions : Sessions) : Operation → Bool
  | .readSlave .. | .writeSlave .. | .closeSlave _ => sessions.current.isSome
  | _ => true

def Sessions.step (sessions : Sessions) (operation : Operation) : Option Sessions :=
  if sessions.possible operation then
    (perform sessions.channel operation).map fun result =>
      { sessions with channel := result.1 }.log operation result.2
  else none

def created : Sessions := ⟨createdChannel, 0, none, [], [], []⟩

/-- Nothing of a slave is left unread when the next one is opened, or when its own
close is interrupted and leaves the channel in use. -/
def Drained (sessions : Sessions) : Operation → Prop
  | .openSlave lockInterrupted allocated =>
      lockInterrupted = false → allocated = true → sessions.channel.slaveOpenCount = 0 →
        circCnt sessions.channel.slave2master.head sessions.channel.slave2master.tail bufsize = 0
  | .closeSlave lockInterrupted => lockInterrupted = true →
        circCnt sessions.channel.slave2master.head sessions.channel.slave2master.tail bufsize = 0
  | _ => True

def Faithful (read : Read) : Prop :=
  read.source.map Prod.fst = read.data ∧ ∀ marked ∈ read.source, read.current = some marked.2

/-- The marks match the rings, and with an open file they are its own. -/
structure Isolated (sessions : Sessions) : Prop where
  formed : WellFormed sessions.channel
  slaveBytes : sessions.toSlave.map Prod.fst = sessions.channel.master2slave.contents
  masterBytes : sessions.toMaster.map Prod.fst = sessions.channel.slave2master.contents
  single : sessions.channel.slaveOpenCount ≤ 1
  latest : ∀ number, sessions.current = some number → number = sessions.opens
  own : sessions.current.isSome = true →
    (∀ marked ∈ sessions.toSlave, marked.2 = sessions.opens) ∧
      (∀ marked ∈ sessions.toMaster, marked.2 = sessions.opens)
  closed : sessions.current = none →
    sessions.channel.slaveOpenCount = 0 ∨ sessions.toMaster = []
  faithful : ∀ read ∈ sessions.reads, Faithful read

theorem Isolated.unread {sessions : Sessions} (held : Isolated sessions)
    (drained : circCnt sessions.channel.slave2master.head sessions.channel.slave2master.tail
      bufsize = 0) : sessions.toMaster = [] := by
  apply List.eq_nil_of_length_eq_zero
  have length := congrArg List.length held.masterBytes
  rwa [List.length_map, contents_length held.formed.slave2master, drained] at length

section Counts
variable {channel after : Channel} {reply : Reply}

theorem sleep_count {wait : Wait} (done : some (sleep channel wait) = some (after, reply)) :
    after.slaveOpenCount = channel.slaveOpenCount := by
  unfold sleep at done
  split at done
  · cases done
    rfl
  · split at done
    · cases done
      rfl
    · cases done
      rfl

theorem ring_count {Result : Type} {result : Option Result} {enter : Result → Channel × Reply}
    (same : ∀ entry, (enter entry).1.slaveOpenCount = channel.slaveOpenCount)
    (done : result.map enter = some (after, reply)) :
    after.slaveOpenCount = channel.slaveOpenCount := by
  obtain ⟨entry, -, entered⟩ := Option.map_eq_some_iff.mp done
  rw [← same entry, entered]

theorem readSlave_count {wait : Wait} {count : Nat} {first second : Bool}
    (done : readSlave channel wait count first second = some (after, reply)) :
    after.slaveOpenCount = channel.slaveOpenCount := by
  unfold readSlave at done
  split at done
  · cases done
    rfl
  · split at done
    · cases done
      rfl
    · split at done
      · exact sleep_count done
      · exact ring_count (fun _ => rfl) done

theorem readMaster_count {wait : Wait} {count : Nat} {first second : Bool}
    (done : readMaster channel wait count first second = some (after, reply)) :
    after.slaveOpenCount = channel.slaveOpenCount ∧
      (channel.slaveOpenCount = 0 → ∀ ret data, reply = .returned ret data → data = []) := by
  unfold readMaster at done
  split at done
  · cases done
    refine ⟨rfl, ?_⟩
    rintro _ _ _ ⟨⟩
    rfl
  · split at done
    · cases done
      refine ⟨rfl, ?_⟩
      rintro _ _ _ ⟨⟩
      rfl
    · rename_i used
      refine ⟨?_, fun unused => absurd unused used⟩
      split at done
      · exact sleep_count done
      · exact ring_count (fun _ => rfl) done

theorem writeSlave_count {wait : Wait} {buffer : List UInt8} {first second : Option (List UInt8)}
    (done : writeSlave channel wait buffer first second = some (after, reply)) :
    after.slaveOpenCount = channel.slaveOpenCount := by
  unfold writeSlave at done
  split at done
  · cases done
    rfl
  · split at done
    · exact sleep_count done
    · split at done
      · cases done
        rfl
      · exact ring_count (fun _ => rfl) done

theorem writeMaster_count {wait : Wait} {buffer : List UInt8} {first second : Option (List UInt8)}
    (done : writeMaster channel wait buffer first second = some (after, reply)) :
    after.slaveOpenCount = channel.slaveOpenCount := by
  unfold writeMaster at done
  split at done
  · cases done
    rfl
  · split at done
    · exact sleep_count done
    · exact ring_count (fun _ => rfl) done

theorem openSlave_count {lockInterrupted allocated : Bool}
    (done : openSlave channel lockInterrupted allocated = (after, reply)) :
    (after = channel ∧ ∃ ret < 0, reply = .returned ret []) ∨
      (lockInterrupted = false ∧ allocated = true ∧ channel.slaveOpenCount = 0 ∧
        after.slaveOpenCount = 1 ∧ after.master2slave.contents = [] ∧
        after.slave2master = channel.slave2master ∧ reply = .returned 0 []) := by
  unfold openSlave at done
  split at done
  · cases done
    exact .inl ⟨rfl, _, by decide, rfl⟩
  · rename_i locked
    split at done
    · cases done
      exact .inl ⟨rfl, _, by decide, rfl⟩
    · split at done
      · cases done
        exact .inl ⟨rfl, _, by decide, rfl⟩
      · rename_i unused
        rw [not_not] at unused
        split at done
        · cases done
          exact .inl ⟨rfl, _, by decide, rfl⟩
        · rename_i memory
          cases done
          refine .inr ⟨Bool.eq_false_iff.mpr locked, ?_, unused, ?_, contents_empty _ 0, rfl, rfl⟩
          · simpa using memory
          · exact congrArg (· + 1) unused

end Counts

section Steps
variable {sessions : Sessions} {after : Channel} {reply : Reply}

theorem log_failed (operation : Operation)
    (notClose : ∀ interrupted, operation ≠ .closeSlave interrupted)
    (error : reply = .asleep ∨ ∃ ret < 0, reply = .returned ret []) :
    sessions.log operation reply = sessions := by
  rcases error with rfl | ⟨ret, negative, rfl⟩
  · cases operation with
    | closeSlave interrupted => exact absurd rfl (notClose interrupted)
    | readSlave | readMaster | writeSlave | writeMaster | openSlave => rfl
  · have failed : ¬ 0 ≤ ret := Int.not_le.mpr negative
    cases operation with
    | closeSlave interrupted => exact absurd rfl (notClose interrupted)
    | readSlave | readMaster | writeSlave | writeMaster | openSlave =>
        simp only [Sessions.log, failed, ↓reduceIte]

theorem Isolated.still (held : Isolated sessions) (formed : WellFormed after)
    (slaveBytes : after.master2slave.contents = sessions.channel.master2slave.contents)
    (masterBytes : after.slave2master.contents = sessions.channel.slave2master.contents)
    (count : after.slaveOpenCount = sessions.channel.slaveOpenCount) :
    Isolated { sessions with channel := after } := by
  refine ⟨formed, held.slaveBytes.trans slaveBytes.symm, held.masterBytes.trans masterBytes.symm, ?_,
    held.latest, held.own, ?_, held.faithful⟩
  · rw [count]
    exact held.single
  · rw [count]
    exact held.closed

theorem taken_bytes {queue : List Marked} {contents data rest : List UInt8}
    (bytes : queue.map Prod.fst = contents) (split : data ++ rest = contents) :
    (queue.take data.length).map Prod.fst = data ∧ (queue.drop data.length).map Prod.fst = rest := by
  rw [List.map_take, List.map_drop, bytes, ← split]
  exact ⟨List.take_left, List.drop_left⟩

theorem appended_faithful {reads : List Read} {read : Read} (old : ∀ read ∈ reads, Faithful read)
    (new : Faithful read) : ∀ other ∈ reads ++ [read], Faithful other := by
  intro other member
  rcases List.mem_append.mp member with inside | last
  · exact old other inside
  · rw [List.mem_singleton.mp last]
    exact new

theorem Isolated.readSlave (held : Isolated sessions) {wait : Wait} {count : Nat}
    {first second : Bool} (slave : sessions.current.isSome = true)
    (done : readSlave sessions.channel wait count first second = some (after, reply)) :
    Isolated ({ sessions with channel := after }.log (.readSlave wait count first second) reply) := by
  obtain ⟨channel, answer, same, kept, outcome⟩ :=
    readSlave_spec held.formed wait count first second
  rw [done] at same
  cases same
  have users := readSlave_count done
  cases outcome with
  | nothing _ _ _ master2slave slave2master error =>
      rw [log_failed (.readSlave wait count first second) nofun error]
      exact held.still kept master2slave.2.2 slave2master.2.2 users
  | readSlave _ _ _ _ ring data split =>
      obtain ⟨number, file⟩ := Option.isSome_iff_exists.mp slave
      obtain ⟨own, others⟩ := held.own slave
      obtain ⟨front, back⟩ := taken_bytes held.slaveBytes split
      have read : 0 ≤ (data.length : Int) := Int.natCast_nonneg _
      simp only [Sessions.log, read, ↓reduceIte]
      refine ⟨kept, back, held.masterBytes, held.single, held.latest, ?_, held.closed, ?_⟩
      · intro _
        exact ⟨fun marked member => own marked (List.mem_of_mem_drop member), others⟩
      · -- What is read was in the ring, and the whole ring bears the current number.
        apply appended_faithful held.faithful
        refine ⟨front, ?_⟩
        intro marked member
        rw [own marked (List.mem_of_mem_take member), ← held.latest number file]
        exact file

theorem Isolated.readMaster (held : Isolated sessions) {wait : Wait} {count : Nat}
    {first second : Bool}
    (done : readMaster sessions.channel wait count first second = some (after, reply)) :
    Isolated ({ sessions with channel := after }.log (.readMaster wait count first second) reply) := by
  obtain ⟨channel, answer, same, kept, outcome⟩ :=
    readMaster_spec held.formed wait count first second
  rw [done] at same
  cases same
  obtain ⟨users, unread⟩ := readMaster_count done
  cases outcome with
  | nothing _ _ _ master2slave slave2master error =>
      rw [log_failed (.readMaster wait count first second) nofun error]
      exact held.still kept master2slave.2.2 slave2master.2.2 users
  | readMaster _ _ _ _ ring data split =>
      obtain ⟨front, back⟩ := taken_bytes held.masterBytes split
      have read : 0 ≤ (data.length : Int) := Int.natCast_nonneg _
      simp only [Sessions.log, read, ↓reduceIte]
      refine ⟨kept, held.slaveBytes, back, held.single, held.latest, ?_, ?_, ?_⟩
      · intro slave
        obtain ⟨others, own⟩ := held.own slave
        exact ⟨others, fun marked member => own marked (List.mem_of_mem_drop member)⟩
      · intro closed
        rcases held.closed closed with unused | drained
        · exact .inl unused
        · right
          change sessions.toMaster.drop data.length = []
          rw [drained, List.drop_nil]
      · apply appended_faithful held.faithful
        refine ⟨front, ?_⟩
        intro marked member
        cases file : sessions.current with
        | some number =>
            have own := (held.own (by rw [file]; rfl)).2
            rw [own marked (List.mem_of_mem_take member), ← held.latest number file]
        | none =>
            -- Nobody has the channel open: there was nothing to return.
            rcases held.closed file with unused | drained
            · have nothing := unread unused _ _ rfl
              rw [nothing] at member
              cases member
            · change marked ∈ sessions.toMaster.take data.length at member
              rw [drained, List.take_nil] at member
              cases member

theorem marked_now {queue : List Marked} {opens : Nat} (old : ∀ marked ∈ queue, marked.2 = opens)
    (buffer : List UInt8) :
    ∀ marked ∈ queue ++ buffer.map (fun octet => (octet, opens)), marked.2 = opens := by
  intro marked member
  rcases List.mem_append.mp member with inside | new
  · exact old marked inside
  · obtain ⟨octet, -, rfl⟩ := List.mem_map.mp new
    rfl

theorem written_bytes {queue : List Marked} {contents : List UInt8} {opens : Nat}
    (bytes : queue.map Prod.fst = contents) (buffer : List UInt8) :
    (queue ++ buffer.map (fun octet => (octet, opens))).map Prod.fst = contents ++ buffer := by
  rw [List.map_append, bytes, List.map_map]
  exact congrArg (contents ++ ·) (List.map_id buffer)

theorem Isolated.writeSlave (held : Isolated sessions) {wait : Wait} {buffer : List UInt8}
    {first second : Option (List UInt8)} (slave : sessions.current.isSome = true)
    (done : writeSlave sessions.channel wait buffer first second = some (after, reply)) :
    Isolated ({ sessions with channel := after }.log (.writeSlave wait buffer first second) reply) := by
  obtain ⟨channel, answer, same, kept, outcome⟩ :=
    writeSlave_spec held.formed wait buffer first second
  rw [done] at same
  cases same
  have users := writeSlave_count done
  cases outcome with
  | nothing _ _ _ master2slave slave2master error =>
      rw [log_failed (.writeSlave wait buffer first second) nofun error]
      exact held.still kept master2slave.2.2 slave2master.2.2 users
  | writeSlave _ _ _ _ ring appended =>
      obtain ⟨others, own⟩ := held.own slave
      have written : 0 ≤ (buffer.length : Int) := Int.natCast_nonneg _
      simp only [Sessions.log, written, ↓reduceIte]
      refine ⟨kept, held.slaveBytes, ?_, held.single, held.latest, ?_, ?_, held.faithful⟩
      · exact (written_bytes held.masterBytes buffer).trans appended.symm
      · exact fun _ => ⟨others, marked_now own buffer⟩
      · intro closed
        rw [show sessions.current = none from closed] at slave
        cases slave

theorem Isolated.writeMaster (held : Isolated sessions) {wait : Wait} {buffer : List UInt8}
    {first second : Option (List UInt8)}
    (done : writeMaster sessions.channel wait buffer first second = some (after, reply)) :
    Isolated ({ sessions with channel := after }.log (.writeMaster wait buffer first second) reply) := by
  obtain ⟨channel, answer, same, kept, outcome⟩ :=
    writeMaster_spec held.formed wait buffer first second
  rw [done] at same
  cases same
  have users := writeMaster_count done
  cases outcome with
  | nothing _ _ _ master2slave slave2master error =>
      rw [log_failed (.writeMaster wait buffer first second) nofun error]
      exact held.still kept master2slave.2.2 slave2master.2.2 users
  | writeMaster _ _ _ _ ring appended =>
      have written : 0 ≤ (buffer.length : Int) := Int.natCast_nonneg _
      simp only [Sessions.log, written, ↓reduceIte]
      refine ⟨kept, ?_, held.masterBytes, held.single, held.latest, ?_, held.closed, held.faithful⟩
      · exact (written_bytes held.slaveBytes buffer).trans appended.symm
      · intro slave
        obtain ⟨own, others⟩ := held.own slave
        exact ⟨marked_now own buffer, others⟩

theorem Isolated.openSlave (held : Isolated sessions) {lockInterrupted allocated : Bool}
    (drained : Drained sessions (.openSlave lockInterrupted allocated))
    (done : openSlave sessions.channel lockInterrupted allocated = (after, reply)) :
    Isolated ({ sessions with channel := after }.log (.openSlave lockInterrupted allocated) reply) := by
  have formed := (openSlave_spec held.formed lockInterrupted allocated).1
  rw [done] at formed
  rcases openSlave_count done with ⟨rfl, error⟩ | ⟨locked, memory, unused, used, emptied, kept, rfl⟩
  · rw [log_failed (.openSlave lockInterrupted allocated) nofun (.inr error)]
    exact held
  · have unread := held.unread (drained locked memory unused)
    have opened : (0 : Int) ≤ 0 := Int.le_refl 0
    simp only [Sessions.log, opened, ↓reduceIte]
    refine ⟨formed, emptied.symm, ?_, Nat.le_of_eq used, ?_, ?_, nofun, held.faithful⟩
    · change sessions.toMaster.map Prod.fst = after.slave2master.contents
      rw [kept]
      exact held.masterBytes
    · rintro number ⟨⟩
      rfl
    · -- `open` empties only one ring; the other one is empty by assumption.
      intro _
      refine ⟨nofun, ?_⟩
      change ∀ marked ∈ sessions.toMaster, _
      rw [unread]
      exact nofun

theorem Isolated.closeSlave (held : Isolated sessions) {lockInterrupted : Bool}
    (drained : Drained sessions (.closeSlave lockInterrupted))
    (done : closeSlave sessions.channel lockInterrupted = (after, reply)) :
    Isolated ({ sessions with channel := after }.log (.closeSlave lockInterrupted) reply) := by
  have formed := (closeSlave_spec held.formed lockInterrupted).1
  rw [done] at formed
  unfold Eq3Loop.closeSlave at done
  split at done
  · -- An interrupted close ends the session and leaves the count.
    rename_i locked
    cases done
    have unread := held.unread (drained locked)
    exact ⟨formed, held.slaveBytes, held.masterBytes, held.single, nofun, nofun,
      fun _ => .inr unread, held.faithful⟩
  · cases done
    have single := held.single
    have zero : sessions.channel.slaveOpenCount - 1 = 0 := by omega
    exact ⟨formed, held.slaveBytes, held.masterBytes, Nat.le_trans (Nat.sub_le _ _) held.single,
      nofun, nofun, fun _ => .inl zero, held.faithful⟩

end Steps

theorem isolated_step {sessions after : Sessions} {operation : Operation} (held : Isolated sessions)
    (drained : Drained sessions operation) (taken : sessions.step operation = some after) :
    Isolated after := by
  unfold Sessions.step at taken
  split at taken
  · rename_i possible
    obtain ⟨⟨channel, reply⟩, done, rfl⟩ := Option.map_eq_some_iff.mp taken
    cases operation with
    | readSlave => exact held.readSlave possible done
    | readMaster => exact held.readMaster done
    | writeSlave => exact held.writeSlave possible done
    | writeMaster => exact held.writeMaster done
    | openSlave => exact held.openSlave drained (Option.some.inj done)
    | closeSlave => exact held.closeSlave drained (Option.some.inj done)
  · cases taken

theorem isolated_created : Isolated created where
  formed := fresh_formed
  slaveBytes := (contents_empty _ 0).symm
  masterBytes := (contents_empty _ 0).symm
  single := Nat.zero_le 1
  latest := nofun
  own := nofun
  closed := fun _ => .inl rfl
  faithful := nofun

/-- If every slave leaves an empty ring, every byte that a read returns was written
in the session of the open slave file. -/
theorem session_isolation {sessions : Sessions}
    (reached : Reachable Sessions.step Drained (· = created) sessions) :
    ∀ read ∈ sessions.reads, Faithful read := by
  have isolated : Isolated sessions := by
    refine reached.invariant ?_ ?_
    · rintro _ rfl
      exact isolated_created
    · intro before operation after held drained taken
      exact isolated_step held drained taken
  exact isolated.faithful

def drainedGuard (sessions : Sessions) : Operation → Bool
  | .openSlave .. | .closeSlave _ =>
      circCnt sessions.channel.slave2master.head sessions.channel.slave2master.tail bufsize = 0
  | _ => true

theorem drainedGuard_sound (sessions : Sessions) (operation : Operation)
    (passed : drainedGuard sessions operation = true) : Drained sessions operation := by
  cases operation with
  | openSlave => exact fun _ _ _ => of_decide_eq_true passed
  | closeSlave => exact fun _ => of_decide_eq_true passed
  | readSlave | readMaster | writeSlave | writeMaster => trivial

def drainedRun : List Operation :=
  [.openSlave false true, .writeSlave untroubled [7] none none,
    .readMaster untroubled 4 false false, .closeSlave false, .openSlave false true,
    .writeMaster untroubled [9] none none, .readSlave untroubled 4 false false]

theorem session_isolation_two :
    ∃ sessions, Reachable Sessions.step Drained (· = created) sessions ∧
      sessions.reads.map Read.data = [[7], [9]] ∧ ∀ read ∈ sessions.reads, Faithful read := by
  have ran : ((run Sessions.step drainedGuard created drainedRun).map fun sessions =>
      sessions.reads.map Read.data) = some [[7], [9]] := by
    decide +kernel
  obtain ⟨sessions, taken, data⟩ := Option.map_eq_some_iff.mp ran
  have reached : Reachable Sessions.step Drained (· = created) sessions :=
    run_reachable drainedGuard_sound _ (.start rfl) taken
  exact ⟨sessions, reached, data, session_isolation reached⟩

/-- The first slave closes with a byte unread, and the master reads it while the
second one is open. -/
def leftoverRun : List Operation :=
  [.openSlave false true, .writeSlave untroubled [7] none none, .closeSlave false,
    .openSlave false true, .readMaster untroubled 4 false false]

theorem leftover_read_in_next_session :
    ¬ ∀ sessions, Reachable Sessions.step (fun _ _ => True) (· = created) sessions →
      ∀ read ∈ sessions.reads, Faithful read := by
  intro claimed
  have ran : ((run Sessions.step (fun _ _ => true) created leftoverRun).map fun sessions =>
      sessions.reads.map fun read => (read.current, read.data, read.source)) =
        some [(some 2, [7], [(7, 1)])] := by
    decide +kernel
  obtain ⟨sessions, taken, reads⟩ := Option.map_eq_some_iff.mp ran
  have reached : Reachable Sessions.step (fun _ _ => True) (· = created) sessions :=
    run_reachable (fun _ _ _ => trivial) _ (.start rfl) taken
  obtain ⟨read, member, fields⟩ : ∃ read ∈ sessions.reads,
      (read.current, read.data, read.source) = (some 2, [7], [(7, 1)]) := by
    apply List.mem_map.mp
    rw [reads]
    exact List.mem_singleton.mpr rfl
  simp only [Prod.mk.injEq] at fields
  have own := (claimed sessions reached read member).2 (7, 1)
    (by rw [fields.2.2]; exact List.mem_singleton.mpr rfl)
  rw [fields.1] at own
  cases own

end PiVccu.Eq3LoopSession
