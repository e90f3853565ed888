import Mathlib.Data.List.Induction
import PiVccu.RawUartOwnership

/-!
What the arbitration between connections puts on the wire of a raw uart when no
wait is interrupted. The bytes between two acquisitions form a segment; each
segment is a prefix of the buffer of the write that acquired, and a write that
returns has sent its whole buffer or was overtaken by a higher priority.
-/

namespace PiVccu.RawUartArbitration
open RawUartTx RawUartOwnership Transition

/-- The bytes sent for one acquisition. -/
structure Segment (Conn : Type) where
  write : Write Conn
  priority : Nat
  sent : List UInt8

variable {Conn Hardware : Type}

/-- Bytes belong to the latest acquisition; the newest segment comes first. -/
def record : List (Segment Conn) → Event Conn → List (Segment Conn)
  | segments, .acquired write priority => ⟨write, priority, []⟩ :: segments
  | segment :: older, .txChars _ octets =>
      { segment with sent := segment.sent ++ octets } :: older
  | [], .txChars _ _ => []
  | segments, .returned _ _ => segments

def history (trace : List (Event Conn)) : List (Segment Conn) :=
  trace.foldl record []

def Event.octets : Event Conn → List UInt8
  | .txChars _ octets => octets
  | _ => []

def wire (trace : List (Event Conn)) : List UInt8 :=
  trace.flatMap Event.octets

/-- The write has a segment of the returned length, which is its whole buffer
unless the next acquisition had a strictly higher priority. -/
def Settled (segments : List (Segment Conn)) (write : Write Conn) (ret : Int) : Prop :=
  ∃ newer segment older, segments = newer ++ segment :: older ∧ segment.write = write ∧
    ret = segment.sent.length ∧
    (segment.sent = write.buffer ∨
      ∃ next, newer.getLast? = some next ∧ segment.priority < next.priority)

structure Arbitrated (trace : List (Event Conn)) : Prop where
  wire : wire trace = (history trace).reverse.flatMap Segment.sent
  prefixes : ∀ segment ∈ history trace, segment.sent <+: segment.write.buffer
  once : ((history trace).map Segment.write).Nodup
  returns : ∀ before write ret after, trace = before ++ .returned write ret :: after →
    (Settled (history before) write ret ∧ Settled (history trace) write ret) ∨
      (ret < 0 ∧ ∀ segment ∈ history trace, segment.write ≠ write)

theorem history_append (trace events : List (Event Conn)) :
    history (trace ++ events) = events.foldl record (history trace) := by
  rw [history, List.foldl_append]
  rfl

theorem history_acquired (trace : List (Event Conn)) (write : Write Conn) (priority : Nat) :
    history (trace ++ [.acquired write priority]) = ⟨write, priority, []⟩ :: history trace := by
  rw [history_append]
  cases history trace <;> rfl

theorem history_returned (trace : List (Event Conn)) (write : Write Conn) (ret : Int) :
    history (trace ++ [.returned write ret]) = history trace := by
  rw [history_append]
  cases history trace <;> rfl

theorem record_chunks (source : Option (Write Conn)) (chunks : List (List UInt8))
    (segment : Segment Conn) (older : List (Segment Conn)) :
    (chunks.map (.txChars source)).foldl record (segment :: older) =
      { segment with sent := segment.sent ++ chunks.flatten } :: older := by
  induction chunks generalizing segment with
  | nil => simp
  | cons chunk rest ih =>
      rw [List.map_cons, List.foldl_cons, record, ih]
      simp

theorem wire_append (trace events : List (Event Conn)) :
    wire (trace ++ events) = wire trace ++ wire events := by
  simp [wire]

theorem wire_chunks (source : Option (Write Conn)) (chunks : List (List UInt8)) :
    wire (chunks.map (.txChars source)) = chunks.flatten := by
  induction chunks with
  | nil => rfl
  | cons chunk rest ih =>
      rw [List.map_cons, List.flatten_cons, ← ih]
      rfl

theorem return_before {trace events before after : List (Event Conn)} {write : Write Conn}
    {ret : Int} (quiet : .returned write ret ∉ events)
    (split : trace ++ events = before ++ .returned write ret :: after) :
    ∃ rest, trace = before ++ .returned write ret :: rest := by
  rcases List.append_eq_append_iff.mp split with ⟨between, rfl, tail⟩ | ⟨between, rfl, tail⟩
  · exact absurd (by rw [tail]; simp) quiet
  · cases between with
    | nil => exact absurd (by rw [← List.nil_append events, ← tail]; simp) quiet
    | cons event rest =>
        rw [List.cons_append, List.cons.injEq] at tail
        exact ⟨rest, by rw [tail.1]⟩

theorem Settled.acquired {segments : List (Segment Conn)} {write : Write Conn} {ret : Int}
    (settled : Settled segments write ret) (segment : Segment Conn) :
    Settled (segment :: segments) write ret := by
  obtain ⟨newer, mine, older, rfl, same, length, whole | ⟨next, last, higher⟩⟩ := settled
  · exact ⟨segment :: newer, mine, older, rfl, same, length, .inl whole⟩
  · refine ⟨segment :: newer, mine, older, rfl, same, length, .inr ⟨next, ?_, higher⟩⟩
    rw [List.getLast?_cons, last]
    rfl

theorem Settled.sent {segment : Segment Conn} {older : List (Segment Conn)} {write : Write Conn}
    {ret : Int} (settled : Settled (segment :: older) write ret) (differs : segment.write ≠ write)
    (octets : List UInt8) :
    Settled ({ segment with sent := segment.sent ++ octets } :: older) write ret := by
  obtain ⟨newer, mine, oldest, split, same, length, ended⟩ := settled
  cases newer with
  | nil =>
      cases split
      exact absurd same differs
  | cons first newer =>
      cases split
      refine ⟨{ segment with sent := segment.sent ++ octets } :: newer, mine, oldest, rfl, same,
        length, ?_⟩
      rcases ended with whole | ⟨next, last, higher⟩
      · exact .inl whole
      · cases newer with
        | nil =>
            cases last
            exact .inr ⟨_, rfl, higher⟩
        | cons second newer => exact .inr ⟨next, last, higher⟩

def waiting? : Phase Conn → Option (Write Conn)
  | .entered write | .copied write | .indexed write | .acquiring write | .failed write _ =>
      some write
  | _ => none

/-- What the phase of a connection says about its buffer and the segments. -/
structure Thread (segments : List (Segment Conn)) (sender : Option Conn) (c : Conn)
    (conn : Connection Conn) : Prop where
  waiting : ∀ write, waiting? conn.phase = some write →
    ∀ segment ∈ segments, segment.write ≠ write
  buffered : ∀ write, loaded? conn.phase = some write →
    conn.txbuf.take write.buffer.length = write.buffer
  indexed : ∀ write, conn.phase = .indexed write → conn.txBufIndex = 0
  acquiring : ∀ write, conn.phase = .acquiring write →
    conn.txBufIndex = 0 ∧ conn.txBufLength = write.buffer.length
  sized : ∀ write, conn.phase = .sending write →
    conn.txBufLength = write.buffer.length ∧ conn.txBufIndex ≤ conn.txBufLength
  sending : ∀ write, conn.phase = .sending write → sender = some c →
    ∃ older, segments = ⟨write, conn.priority, write.buffer.take conn.txBufIndex⟩ :: older
  overtaken : ∀ write, conn.phase = .sending write → sender ≠ some c →
    Settled segments write conn.txBufIndex
  completed : ∀ write, conn.phase = .completed write → Settled segments write conn.txBufIndex
  uninterrupted : ∀ write, conn.phase ≠ .interrupted write
  failed : ∀ write error, conn.phase = .failed write error → error < 0

structure Arbitration (inst : Instance Conn Hardware) : Prop where
  ownership : Ownership inst
  threads : ∀ c conn, inst.conns c = some conn →
    Thread (history inst.trace) inst.txConnection c conn
  recorded : ∀ segment ∈ history inst.trace, segment.write.id < inst.nextId
  arbitrated : Arbitrated inst.trace

theorem thread_idle {segments : List (Segment Conn)} {sender : Option Conn} {c : Conn}
    {conn : Connection Conn} (idle : conn.phase = .idle) : Thread segments sender c conn := by
  constructor <;> simp [idle, waiting?, loaded?]

theorem Arbitrated.silent {trace events : List (Event Conn)} (arbitrated : Arbitrated trace)
    (same : history (trace ++ events) = history trace) (mute : RawUartArbitration.wire events = [])
    (fresh : ∀ write ret, .returned write ret ∈ events →
      events = [.returned write ret] ∧
        (Settled (history trace) write ret ∨
          (ret < 0 ∧ ∀ segment ∈ history trace, segment.write ≠ write))) :
    Arbitrated (trace ++ events) where
  wire := by rw [wire_append, mute, List.append_nil, same, arbitrated.wire]
  prefixes := by
    rw [same]
    exact arbitrated.prefixes
  once := by
    rw [same]
    exact arbitrated.once
  returns := by
    intro before write ret after split
    rw [same]
    by_cases now : .returned write ret ∈ events
    · obtain ⟨single, outcome⟩ := fresh write ret now
      rw [single] at split
      cases after using List.reverseRecOn with
      | nil =>
          obtain ⟨rfl, -⟩ := List.append_inj' split rfl
          rcases outcome with settled | refused
          · exact .inl ⟨settled, settled⟩
          · exact .inr refused
      | append_singleton rest last =>
          rw [← List.cons_append, ← List.append_assoc] at split
          obtain ⟨earlier, -⟩ := List.append_inj' split rfl
          exact arbitrated.returns before write ret rest earlier
    · obtain ⟨rest, earlier⟩ := return_before now split
      exact arbitrated.returns before write ret rest earlier

theorem thread_copy {segments : List (Segment Conn)} {sender : Option Conn} {c : Conn}
    {conn : Connection Conn} (thread : Thread segments sender c conn) {write : Write Conn}
    (entered : conn.phase = .entered write) (fault : Option (List UInt8)) :
    Thread segments sender c (copyFromUser conn write fault) := by
  have waiting := thread.waiting write (by simp [entered, waiting?])
  unfold copyFromUser
  split
  · constructor <;> simp [waiting?, loaded?, emsgsize]
    exact waiting
  · cases fault with
    | some left =>
        constructor <;> simp [waiting?, loaded?, efault]
        exact waiting
    | none =>
        constructor <;> simp [waiting?, loaded?]
        exact waiting

theorem thread_local {inst : Instance Conn Hardware} {c : Conn} {conn after : Connection Conn}
    {action : TxAction Conn Hardware} {events : List (Event Conn)}
    (effect : LocalEffect inst c conn action after events)
    (thread : Thread (history inst.trace) inst.txConnection c conn)
    (uninterrupted : ∀ c, action ≠ .interruptComplete c) :
    Thread (history inst.trace) inst.txConnection c after := by
  cases effect with
  | ioctl _ idle => exact thread_idle idle
  | copy fault write entered => exact thread_copy thread entered fault
  | setIndex write copied =>
      have waiting := thread.waiting write (by simp [copied, waiting?])
      have buffered := thread.buffered write (by simp [copied, loaded?])
      constructor <;> simp [waiting?, loaded?]
      · exact waiting
      · exact buffered
  | setLength write indexed =>
      have waiting := thread.waiting write (by simp [indexed, waiting?])
      have buffered := thread.buffered write (by simp [indexed, loaded?])
      have start := thread.indexed write indexed
      constructor <;> simp [waiting?, loaded?]
      · exact waiting
      · exact buffered
      · exact start
  | interruptAcquire write acquiring =>
      have waiting := thread.waiting write (by simp [acquiring, waiting?])
      constructor <;> simp [waiting?, loaded?, erestartsys]
      exact waiting
  | complete write sending free =>
      have buffered := thread.buffered write (by simp [sending, loaded?])
      have settled := thread.overtaken write sending free
      constructor <;> simp [waiting?, loaded?]
      · exact buffered
      · exact settled
  | wait => exact thread
  | interruptComplete write sending => exact absurd rfl (uninterrupted c)
  | leaveFailed => exact thread_idle rfl
  | leaveInterrupted => exact thread_idle rfl
  | leaveCompleted => exact thread_idle rfl

theorem localEffect_outcome {inst : Instance Conn Hardware} {c : Conn}
    {conn after : Connection Conn} {action : TxAction Conn Hardware} {events : List (Event Conn)}
    (effect : LocalEffect inst c conn action after events)
    (thread : Thread (history inst.trace) inst.txConnection c conn) {write : Write Conn}
    {ret : Int} (returned : .returned write ret ∈ events) :
    events = [.returned write ret] ∧
      (Settled (history inst.trace) write ret ∨
        (ret < 0 ∧ ∀ segment ∈ history inst.trace, segment.write ≠ write)) := by
  cases effect with
  | leaveFailed call error failed =>
      cases List.mem_singleton.mp returned
      have waiting := thread.waiting write (by simp [failed, waiting?])
      exact ⟨rfl, .inr ⟨thread.failed write ret failed, waiting⟩⟩
  | leaveInterrupted call interrupted => exact absurd interrupted (thread.uninterrupted call)
  | leaveCompleted call completed =>
      cases List.mem_singleton.mp returned
      exact ⟨rfl, .inl (thread.completed write completed)⟩
  | _ => cases returned

theorem localEffect_history {inst : Instance Conn Hardware} {c : Conn}
    {conn after : Connection Conn} {action : TxAction Conn Hardware} {events : List (Event Conn)}
    (effect : LocalEffect inst c conn action after events) (trace : List (Event Conn)) :
    history (trace ++ events) = history trace ∧ wire events = [] := by
  rcases localEffect_call effect with ⟨rfl, -⟩ | ⟨-, write, ret, -, rfl⟩
  · exact ⟨by rw [List.append_nil], rfl⟩
  · exact ⟨history_returned trace write ret, rfl⟩

theorem waiting_write {phase : Phase Conn} {write : Write Conn}
    (waiting : waiting? phase = some write) : phase.write? = some write := by
  cases phase <;> simp_all [waiting?, Phase.write?]

/-- Another connection acquires the sender. The connection that loses it has a
lower priority. -/
theorem Thread.overtake {segments : List (Segment Conn)} {sender : Option Conn} {c other : Conn}
    {conn : Connection Conn} (thread : Thread segments sender other conn) (segment : Segment Conn)
    (differs : other ≠ c) (foreign : ∀ write, conn.phase.write? = some write → segment.write ≠ write)
    (lower : sender = some other → conn.priority < segment.priority) :
    Thread (segment :: segments) (some c) other conn where
  waiting := by
    intro write waiting member newer
    rcases List.mem_cons.mp newer with rfl | older
    · exact foreign write (waiting_write waiting)
    · exact thread.waiting write waiting member older
  buffered := thread.buffered
  indexed := thread.indexed
  acquiring := thread.acquiring
  sized := thread.sized
  sending := by
    intro write _ same
    exact absurd (Option.some.inj same).symm differs
  overtaken := by
    intro write sending _
    by_cases owned : sender = some other
    · obtain ⟨older, rfl⟩ := thread.sending write sending owned
      obtain ⟨length, within⟩ := thread.sized write sending
      refine ⟨[segment], _, older, rfl, rfl, ?_, .inr ⟨segment, rfl, lower owned⟩⟩
      rw [length] at within
      simp [Nat.min_eq_left within]
    · exact (thread.overtaken write sending owned).acquired segment
  completed := by
    intro write completed
    exact (thread.completed write completed).acquired segment
  uninterrupted := thread.uninterrupted
  failed := thread.failed

theorem Thread.transmit {segment : Segment Conn} {older : List (Segment Conn)} {c other : Conn}
    {conn : Connection Conn} (thread : Thread (segment :: older) (some c) other conn)
    (differs : other ≠ c) (foreign : ∀ write, conn.phase.write? = some write → segment.write ≠ write)
    (octets : List UInt8) (sender : Option Conn) (elsewhere : sender ≠ some other) :
    Thread ({ segment with sent := segment.sent ++ octets } :: older) sender other conn where
  waiting := by
    intro write waiting member newer
    rcases List.mem_cons.mp newer with rfl | before
    · exact foreign write (waiting_write waiting)
    · exact thread.waiting write waiting member (List.mem_cons_of_mem _ before)
  buffered := thread.buffered
  indexed := thread.indexed
  acquiring := thread.acquiring
  sized := thread.sized
  sending := by
    intro write _ same
    exact absurd same elsewhere
  overtaken := by
    intro write sending _
    have settled := thread.overtaken write sending (by simpa using Ne.symm differs)
    exact settled.sent (foreign write (by rw [sending]; rfl)) octets
  completed := by
    intro write completed
    exact (thread.completed write completed).sent (foreign write (by rw [completed]; rfl)) octets
  uninterrupted := thread.uninterrupted
  failed := thread.failed

theorem thread_pumped {older : List (Segment Conn)} {c : Conn} {conn : Connection Conn}
    {write : Write Conn} {index : Nat} (sending : conn.phase = .sending write)
    (length : conn.txBufLength = write.buffer.length)
    (loaded : conn.txbuf.take write.buffer.length = write.buffer)
    (within : index ≤ conn.txBufLength) :
    Thread (⟨write, conn.priority, write.buffer.take index⟩ :: older)
      (if index ≥ conn.txBufLength then none else some c) c { conn with txBufIndex := index } := by
  have settled : index ≥ conn.txBufLength →
      Settled (⟨write, conn.priority, write.buffer.take index⟩ :: older) write index := by
    intro ended
    have whole : write.buffer.take index = write.buffer :=
      List.take_of_length_le (length ▸ ended)
    refine ⟨[], _, older, rfl, rfl, ?_, .inl whole⟩
    have size := congrArg List.length whole
    simp only [List.length_take] at size ⊢
    omega
  constructor <;> simp [sending, waiting?, loaded?]
  · exact loaded
  · exact ⟨length, within⟩
  · intro ended
    exact settled ended

theorem foreign_call {inst : Instance Conn Hardware} (owned : Ownership inst) {c other : Conn}
    {conn conn' : Connection Conn} (held : inst.conns c = some conn)
    (found : inst.conns other = some conn') (differs : other ≠ c) {write call : Write Conn}
    (running : conn.phase.write? = some write) (busy : conn'.phase.write? = some call) :
    write ≠ call := by
  rintro rfl
  have home := (owned.writers c conn held).mine write running
  have away := (owned.writers other conn' found).mine write busy
  exact differs (away.symm.trans home)

variable [DecidableEq Conn]

theorem arbitration_thread {inst : Instance Conn Hardware} (held : Arbitration inst) {c : Conn}
    {conn after : Connection Conn} {action : TxAction Conn Hardware} {events : List (Event Conn)}
    (found : inst.conns c = some conn) (effect : LocalEffect inst c conn action after events)
    (uninterrupted : ∀ c, action ≠ .interruptComplete c) :
    Arbitration { inst.setConn c (some after) with trace := inst.trace ++ events } := by
  have thread := held.threads c conn found
  obtain ⟨same, mute⟩ := localEffect_history effect inst.trace
  refine ⟨?_, ?_, ?_, ?_⟩
  · apply ownership_thread held.ownership found effect
    intro write _ interrupted
    exact absurd interrupted (thread.uninterrupted write)
  · intro other conn' lookup
    dsimp only
    rw [same]
    rcases setConn_lookup lookup with ⟨rfl, now⟩ | ⟨-, before⟩
    · cases now
      exact thread_local effect thread uninterrupted
    · exact held.threads other conn' before
  · dsimp only
    rw [same]
    exact held.recorded
  · apply held.arbitrated.silent same mute
    intro write ret returned
    exact localEffect_outcome effect thread returned

omit [DecidableEq Conn] in
theorem Arbitrated.acquired {trace : List (Event Conn)} (arbitrated : Arbitrated trace)
    {write : Write Conn} (fresh : ∀ segment ∈ history trace, segment.write ≠ write)
    (unreturned : ∀ ret, .returned write ret ∉ trace) (priority : Nat) :
    Arbitrated (trace ++ [.acquired write priority]) where
  wire := by
    rw [wire_append, history_acquired, arbitrated.wire]
    simp [RawUartArbitration.wire, Event.octets]
  prefixes := by
    rw [history_acquired]
    intro segment member
    rcases List.mem_cons.mp member with rfl | older
    · exact List.nil_prefix
    · exact arbitrated.prefixes segment older
  once := by
    rw [history_acquired, List.map_cons, List.nodup_cons]
    refine ⟨?_, arbitrated.once⟩
    intro member
    obtain ⟨segment, older, same⟩ := List.mem_map.mp member
    exact fresh segment older same
  returns := by
    intro before call ret after split
    obtain ⟨rest, earlier⟩ := return_before (by simp) split
    rw [history_acquired]
    rcases arbitrated.returns before call ret rest earlier with ⟨then', now⟩ | ⟨error, absent⟩
    · exact .inl ⟨then', now.acquired _⟩
    · refine .inr ⟨error, ?_⟩
      intro segment member
      rcases List.mem_cons.mp member with rfl | older
      · rintro rfl
        exact unreturned ret (by rw [earlier]; simp)
      · exact absent segment older

omit [DecidableEq Conn] in
theorem Arbitrated.sent {trace : List (Event Conn)} (arbitrated : Arbitrated trace)
    {segment : Segment Conn} {older : List (Segment Conn)}
    (newest : history trace = segment :: older)
    (unreturned : ∀ ret, .returned segment.write ret ∉ trace) (source : Option (Write Conn))
    (chunks : List (List UInt8))
    (covered : segment.sent ++ chunks.flatten <+: segment.write.buffer) :
    Arbitrated (trace ++ chunks.map (.txChars source)) := by
  have grown : history (trace ++ chunks.map (.txChars source)) =
      { segment with sent := segment.sent ++ chunks.flatten } :: older := by
    rw [history_append, newest, record_chunks]
  refine ⟨?_, ?_, ?_, ?_⟩
  · rw [wire_append, wire_chunks, arbitrated.wire, grown, newest]
    simp
  · rw [grown]
    intro other member
    rcases List.mem_cons.mp member with rfl | before
    · exact covered
    · exact arbitrated.prefixes other (by rw [newest]; exact List.mem_cons_of_mem _ before)
  · have once := arbitrated.once
    rw [newest] at once
    rw [grown]
    exact once
  · intro before call ret after split
    obtain ⟨rest, earlier⟩ := return_before (by simp) split
    have known := arbitrated.returns before call ret rest earlier
    rw [newest] at known
    rw [grown]
    have differs : segment.write ≠ call := by
      rintro rfl
      exact unreturned ret (by rw [earlier]; simp)
    rcases known with ⟨then', now⟩ | ⟨error, absent⟩
    · exact .inl ⟨then', now.sent differs _⟩
    · refine .inr ⟨error, ?_⟩
      intro other member
      rcases List.mem_cons.mp member with rfl | before'
      · exact differs
      · exact absent other (List.mem_cons_of_mem _ before')

theorem arbitration_take {inst : Instance Conn Hardware} (held : Arbitration inst) {c : Conn}
    {conn : Connection Conn} {write : Write Conn} (found : inst.conns c = some conn)
    (acquiring : conn.phase = .acquiring write)
    (lower : ∀ other owner, inst.txConnection = some other → inst.conns other = some owner →
      owner.priority < conn.priority) :
    Arbitration (takeSender inst c conn write) := by
  have thread := held.threads c conn found
  have writer := held.ownership.writers c conn found
  have running : conn.phase.write? = some write := by rw [acquiring]; rfl
  have waiting := thread.waiting write (by rw [acquiring]; rfl)
  have newest := history_acquired inst.trace write conn.priority
  refine ⟨ownership_take held.ownership found acquiring, ?_, ?_, ?_⟩
  · intro other conn' lookup
    change Thread (history (inst.trace ++ [.acquired write conn.priority])) (some c) other conn'
    rw [newest]
    rcases setConn_lookup lookup with ⟨rfl, same⟩ | ⟨differs, before⟩
    · cases same
      obtain ⟨start, length⟩ := thread.acquiring write acquiring
      have buffered := thread.buffered write (by rw [acquiring]; rfl)
      constructor <;> simp [waiting?, loaded?, start, length]
      exact buffered
    · apply (held.threads other conn' before).overtake ⟨write, conn.priority, []⟩ differs
      · intro call busy
        exact foreign_call held.ownership found before differs running busy
      · intro owned
        exact lower other conn' owned before
  · intro segment member
    change segment ∈ history (inst.trace ++ [.acquired write conn.priority]) at member
    rw [newest] at member
    rcases List.mem_cons.mp member with rfl | older
    · exact writer.numbered write running
    · exact held.recorded segment older
  · exact held.arbitrated.acquired waiting (fun ret => writer.unreturned write ret running) _

omit [DecidableEq Conn] in
theorem buffer_continued {txbuf buffer : List UInt8} {before after : Nat}
    (loaded : txbuf.take buffer.length = buffer) (forward : before ≤ after)
    (within : after ≤ buffer.length) :
    buffer.take before ++ (txbuf.drop before).take (after - before) = buffer.take after := by
  have copied : ∀ count, count ≤ buffer.length → buffer.take count = txbuf.take count := by
    intro count bounded
    rw [← loaded, List.take_take, Nat.min_eq_left bounded]
  rw [copied before (by omega), copied after within, ← List.take_add]
  congr 1
  omega

theorem arbitration_pump (driver : RawUartDriver Hardware) {inst : Instance Conn Hardware}
    (held : Arbitration inst) : Arbitration (txQueuedUnlocked driver inst) := by
  have owned := ownership_pump driver held.ownership
  cases sender : inst.txConnection with
  | none =>
      rw [txQueuedUnlocked, sender]
      exact held
  | some c =>
      obtain ⟨conn, write, found, holding⟩ := held.ownership.owner c sender
      have thread := held.threads c conn found
      -- The owner of the transmitter is asleep in its second wait.
      have sending : conn.phase = .sending write := by
        cases phase : conn.phase with
        | interrupted call => exact absurd phase (thread.uninterrupted call)
        | _ => simp_all [holding?]
      have writer := held.ownership.writers c conn found
      have running : conn.phase.write? = some write := by rw [sending]; rfl
      have unreturned := fun ret => writer.unreturned write ret running
      obtain ⟨older, newest⟩ := thread.sending write sending sender
      obtain ⟨length, bounded⟩ := thread.sized write sending
      have loaded := thread.buffered write (by rw [sending]; rfl)
      obtain ⟨hardware, index, chunks, forward, within, passed, pumped⟩ :=
        txQueuedUnlocked_sender driver inst c conn sender found
      have reached := within bounded
      have continued := buffer_continued loaded forward (length ▸ reached)
      -- The chunks of this call extend the newest segment; no older one changes.
      have grown : history (inst.trace ++ chunks.map (.txChars conn.source)) =
          ⟨write, conn.priority, write.buffer.take index⟩ :: older := by
        rw [history_append, newest, record_chunks, passed, continued]
      rw [pumped] at owned ⊢
      refine ⟨owned, ?_, ?_, ?_⟩
      · intro other conn' lookup
        dsimp only
        rcases setConn_lookup lookup with ⟨rfl, same⟩ | ⟨differs, before⟩
        · cases same
          rw [grown]
          exact thread_pumped sending length loaded reached
        · have others := held.threads other conn' before
          rw [sender, newest] at others
          have moved := others.transmit differs
            (fun call busy => foreign_call held.ownership found before differs running busy)
            ((conn.txbuf.drop conn.txBufIndex).take (index - conn.txBufIndex))
            (if index ≥ conn.txBufLength then none else some c)
            (by split <;> simp [Ne.symm differs])
          rw [continued] at moved
          rw [grown]
          exact moved
      · dsimp only
        rw [grown]
        intro segment member
        rcases List.mem_cons.mp member with rfl | before
        · exact writer.numbered write running
        · exact held.recorded segment (by rw [newest]; exact List.mem_cons_of_mem _ before)
      · apply held.arbitrated.sent newest unreturned
        rw [passed, continued]
        exact List.take_prefix _ _

theorem arbitration_acquire (driver : RawUartDriver Hardware) {inst : Instance Conn Hardware}
    (held : Arbitration inst) {c : Conn} {conn : Connection Conn} {write : Write Conn}
    (found : inst.conns c = some conn) (acquiring : conn.phase = .acquiring write) :
    Arbitration (acquireSender driver inst c conn write) := by
  cases sender : inst.txConnection with
  | none =>
      have taken := arbitration_take held found acquiring (by simp [sender])
      simp only [acquireSender, sender]
      apply arbitration_pump driver
      have owned := taken.ownership
      exact ⟨⟨owned.writers, owned.numbered, owned.owner, owned.silent, owned.safe⟩,
        taken.threads, taken.recorded, taken.arbitrated⟩
  | some other =>
      obtain ⟨owner, call, lookup, -⟩ := held.ownership.owner other sender
      simp only [acquireSender, sender, lookup]
      split
      · rename_i higher
        apply arbitration_take held found acquiring
        intro busy conn' owns known
        rw [sender] at owns
        cases owns
        rw [lookup] at known
        cases known
        exact higher
      · exact held

theorem arbitration_update {inst : Instance Conn Hardware} (held : Arbitration inst) {c : Conn}
    {update : Option (Connection Conn)} (owned : Ownership (inst.setConn c update))
    (idle : ∀ conn, update = some conn → conn.phase = .idle) :
    Arbitration (inst.setConn c update) := by
  refine ⟨owned, ?_, held.recorded, held.arbitrated⟩
  intro other conn lookup
  rcases setConn_lookup lookup with ⟨rfl, same⟩ | ⟨-, before⟩
  · exact thread_idle (idle conn same)
  · exact held.threads other conn before

theorem arbitration_enter {inst : Instance Conn Hardware} (held : Arbitration inst) {c : Conn}
    {conn : Connection Conn} (found : inst.conns c = some conn) (idle : conn.phase = .idle)
    (opened : conn.opened = true) (buffer : List UInt8) :
    Arbitration
      { inst.setConn c (some { conn with phase := .entered ⟨inst.nextId, c, buffer⟩ }) with
        nextId := inst.nextId + 1 } := by
  refine ⟨ownership_enter held.ownership found idle opened buffer, ?_, ?_, held.arbitrated⟩
  · intro other conn' lookup
    rcases setConn_lookup lookup with ⟨rfl, same⟩ | ⟨-, before⟩
    · cases same
      constructor <;> simp [waiting?, loaded?]
      -- The number of the new call is above those of all recorded writes.
      intro segment member same
      have older := held.recorded segment member
      rw [same] at older
      exact Nat.lt_irrefl _ older
    · exact held.threads other conn' before
  · intro segment member
    exact Nat.lt_succ_of_lt (held.recorded segment member)

omit [DecidableEq Conn] in
theorem arbitration_refuse {inst : Instance Conn Hardware} (held : Arbitration inst) (c : Conn)
    (buffer : List UInt8) :
    Arbitration { inst with
      trace := inst.trace ++ [.returned ⟨inst.nextId, c, buffer⟩ (-erestartsys)]
      nextId := inst.nextId + 1 } := by
  have same := history_returned inst.trace ⟨inst.nextId, c, buffer⟩ (-erestartsys)
  refine ⟨ownership_refuse held.ownership c buffer, ?_, ?_, ?_⟩
  · intro other conn found
    dsimp only
    rw [same]
    exact held.threads other conn found
  · dsimp only
    rw [same]
    intro segment member
    exact Nat.lt_succ_of_lt (held.recorded segment member)
  · apply held.arbitrated.silent same rfl
    intro write ret member
    cases List.mem_singleton.mp member
    refine ⟨rfl, .inr ⟨by decide, ?_⟩⟩
    intro segment recorded known
    have older := held.recorded segment recorded
    rw [known] at older
    exact Nat.lt_irrefl _ older

theorem arbitration_step (driver : RawUartDriver Hardware) {inst after : Instance Conn Hardware}
    {action : TxAction Conn Hardware} (held : Arbitration inst)
    (uninterrupted : ∀ c, action ≠ .interruptComplete c)
    (taken : step driver inst action = some after) : Arbitration after := by
  cases step_effect taken with
  | openFile c unallocated =>
      apply arbitration_update held (ownership_openFile held.ownership unallocated)
      rintro conn ⟨⟩
      rfl
  | closeFile c signal conn found idle =>
      apply arbitration_update held (ownership_closeFile held.ownership found idle signal)
      intro conn' same
      split at same <;> cases same
      exact idle
  | enter c buffer conn found idle opened => exact arbitration_enter held found idle opened buffer
  | refuse c buffer => exact arbitration_refuse held c buffer
  | acquire c conn write found acquiring => exact arbitration_acquire driver held found acquiring
  | thread c conn next _ events found effect =>
      exact arbitration_thread held found effect uninterrupted
  | txQueued => exact arbitration_pump driver held
  | environment hardware =>
      have owned := held.ownership
      exact ⟨⟨owned.writers, owned.numbered, owned.owner, owned.silent, owned.safe⟩, held.threads,
        held.recorded, held.arbitrated⟩

def TxAction.interrupts : TxAction Conn Hardware → Bool
  | .closeFile _ signal => signal
  | .refuse _ _ | .interruptAcquire _ | .interruptComplete _ => true
  | _ => false

def Uninterrupted (_ : Instance Conn Hardware) (action : TxAction Conn Hardware) : Prop :=
  TxAction.interrupts action = false

omit [DecidableEq Conn] in
theorem arbitration_initial {inst : Instance Conn Hardware} (initial : Initial inst) :
    Arbitration inst := by
  have empty : history inst.trace = [] := by
    rw [initial.2.2.1]
    rfl
  refine ⟨ownership_initial initial, ?_, ?_, ⟨?_, ?_, ?_, ?_⟩⟩
  · intro c conn found
    rw [initial.2.1 c] at found
    cases found
  · simp [empty]
  · rw [empty, initial.2.2.1]
    rfl
  · simp [empty]
  · simp [empty]
  · intro before write ret after split
    rw [initial.2.2.1] at split
    simp at split

/-- For every number of connections and every uninterrupted interleaving, the
wire carries whole segments and every write returns the length of its own. -/
theorem segments_arbitrated (driver : RawUartDriver Hardware) (inst : Instance Conn Hardware)
    (reached : Reachable (step driver) Uninterrupted Initial inst) : Arbitrated inst.trace := by
  have held : Arbitration inst := by
    refine Reachable.invariant ?_ ?_ reached
    · intro start initial
      exact arbitration_initial initial
    · intro before action after held calm taken
      refine arbitration_step driver held ?_ taken
      rintro c rfl
      cases calm
  exact held.arbitrated

/-- Connection 1 with a higher priority overtakes connection 0 after one of its
two bytes. -/
def overtakingRun : List (TxAction Nat Nat) :=
  [.openFile 0, .openFile 1, .ioctl 1 (some 5), .enter 0 [0xaa, 0xab], .copy 0 none, .setIndex 0,
    .setLength 0, .acquire 0, .enter 1 [0xbb], .copy 1 none, .setIndex 1, .setLength 1,
    .environment 1, .txQueued, .acquire 1, .complete 0, .leave 0, .environment 1, .txQueued,
    .complete 1, .leave 1]

def withoutSignals (_ : Instance Nat Nat) (action : TxAction Nat Nat) : Bool :=
  !TxAction.interrupts action

theorem withoutSignals_uninterrupted (inst : Instance Nat Nat) (action : TxAction Nat Nat)
    (passed : withoutSignals inst action = true) : Uninterrupted inst action := by
  simpa [withoutSignals, Uninterrupted] using passed

theorem segments_arbitrated_overtaken :
    ∃ inst, run (step fifoDriver) withoutSignals fullFifo overtakingRun = some inst ∧
      history inst.trace = [⟨⟨1, 1, [0xbb]⟩, 5, [0xbb]⟩, ⟨⟨0, 0, [0xaa, 0xab]⟩, 0, [0xaa]⟩] ∧
      Arbitrated inst.trace := by
  refine ⟨_, rfl, rfl, ?_⟩
  exact segments_arbitrated fifoDriver _
    (run_reachable withoutSignals_uninterrupted overtakingRun (.start fullFifo_initial) rfl)

end PiVccu.RawUartArbitration
